import WeighingSync.Common.Paging
import WeighingSync.Receiver.QueryExact

/-!
# Reading a result page by page

A client of `GET /records` reads a long result in pages: the offsets are the multiples of its limit, and
the first page that is not full is the last. `handleQuery` holds the offset at a million. So the pages
cover the rows of a filter once exactly if no page that the client needs begins later
(`coversOnce_iff`); beyond, the same page is answered over and over.
-/

namespace WeighingSync.Receiver

open Go

/-- The largest offset that `handleQuery` honours. -/
def maxOffset : ℕ := 1000000

/-- The parameters for the `k`th page of a query: this limit, and the offset of the page. -/
def pageParameters (get : String → Str) (limit k : ℕ) (name : String) : Str :=
  if name = "limit" then natText limit
  else if name = "offset" then natText (limit * k)
  else get name

section

variable (floatText : Str → Option Str) (cfg : Config) (timeText : Str → Option Str)
  (get : String → Str) (t : RecordTable) (limit : ℕ)

/-- The entries of the `k`th page, while the records stay as they are. -/
def page (k : ℕ) : List PageItem :=
  (queryPage floatText cfg timeText (pageParameters get limit k) t).getD []

/-- The entries of all rows that a filter selects. -/
def matching (f : QueryFilter) : List PageItem :=
  (t.rows.filter f.selects).map
    (pageItem floatText (shouldReturnRaw (get "include_raw") cfg.returnRawRecords))

/-- A client that reads page after page comes to an end, and has got every row of the filter once. -/
def CoversOnce (f : QueryFilter) : Prop :=
  Covers (page floatText cfg timeText get t limit) limit (matching floatText cfg get t f)

end

/-! ## The pages of a result -/

variable {floatText : Str → Option Str} {cfg : Config} {timeText : Str → Option Str}
  {get : String → Str} {t : RecordTable} {f : QueryFilter} {limit : ℕ}

/-- The offset of the `k`th page, as `handleQuery` takes it. -/
def pageOffset (limit k : ℕ) : ℕ := (parseBoundedInt (natText (limit * k)) 0 0 maxOffset).toNat

theorem pageOffset_le (limit k : ℕ) : pageOffset limit k ≤ maxOffset := by
  have hle : parseBoundedInt (natText (limit * k)) 0 0 maxOffset ≤ maxOffset :=
    (parseBoundedInt_mem (le_refl 0) (Int.natCast_nonneg maxOffset)).2
  rw [pageOffset]
  omega

/-- An offset within the bound is honoured. -/
theorem pageOffset_of_le {k : ℕ} (h : limit * k ≤ maxOffset) : pageOffset limit k = limit * k := by
  have hword : limit * k < 2 ^ 63 := lt_of_le_of_lt h (by decide)
  rw [pageOffset, parseBoundedInt, if_neg (natText_ne_nil _), atoi_natText hword]
  simp only
  split_ifs <;> omega

/-- The limit of every page is the limit that is asked for. -/
theorem parseBoundedInt_limit (hlimit : 1 ≤ limit) (hmax : (limit : ℤ) ≤ cfg.maxLimit)
    (hword : cfg.maxLimit < 2 ^ 63) :
    parseBoundedInt (natText limit) cfg.defaultLimit 1 cfg.maxLimit = limit := by
  have hlt : limit < 2 ^ 63 := by omega
  rw [parseBoundedInt_natText hlimit hlt]
  exact min_eq_left hmax

/-- A page asks for the rows of the same filter, within its limit and from its offset on. -/
theorem queryFilter_pageParameters (hf : queryFilter cfg timeText get = some f) (hlimit : 1 ≤ limit)
    (hmax : (limit : ℤ) ≤ cfg.maxLimit) (hword : cfg.maxLimit < 2 ^ 63) (k : ℕ) :
    queryFilter cfg timeText (pageParameters get limit k) =
      some { f with
        limit := limit
        offset := parseBoundedInt (natText (limit * k)) 0 0 maxOffset } := by
  have hpage : queryFilter cfg timeText (pageParameters get limit k) =
      (queryFilter cfg timeText get).map fun f => { f with
        limit := parseBoundedInt (natText limit) cfg.defaultLimit 1 cfg.maxLimit
        offset := parseBoundedInt (natText (limit * k)) 0 0 maxOffset } := by
    rw [queryFilter, queryFilter, Option.map_map]
    rfl
  rw [hpage, hf, parseBoundedInt_limit hlimit hmax hword]
  rfl

/-- The rows of a filter in the order of the answers. -/
def listing (floatText : Str → Option Str) (cfg : Config) (get : String → Str) (t : RecordTable)
    (f : QueryFilter) : List PageItem :=
  (ordered t f).map (pageItem floatText (shouldReturnRaw (get "include_raw") cfg.returnRawRecords))

theorem listing_perm : (listing floatText cfg get t f).Perm (matching floatText cfg get t f) :=
  (List.perm_insertionSort newestFirst (t.rows.filter f.selects)).map _

/-- No two entries are of one row. -/
theorem nodup_listing : (listing floatText cfg get t f).Nodup := by
  apply listing_perm.nodup_iff.mpr
  apply List.Nodup.of_map PageItem.id
  rw [matching, List.map_map]
  exact t.id_nodup.sublist (List.filter_sublist.map _)

/-- A page is a slice of the listing. -/
theorem page_eq (hf : queryFilter cfg timeText get = some f) (hlimit : 1 ≤ limit)
    (hmax : (limit : ℤ) ≤ cfg.maxLimit) (hword : cfg.maxLimit < 2 ^ 63) (k : ℕ) :
    page floatText cfg timeText get t limit k =
      ((listing floatText cfg get t f).drop (pageOffset limit k)).take limit := by
  rw [page, queryPage, queryFilter_pageParameters hf hlimit hmax hword k, Option.map_some,
    Option.getD_some, listing, ← List.map_drop, ← List.map_take]
  rfl

theorem coversOnce_iff_listing (hf : queryFilter cfg timeText get = some f) (hlimit : 1 ≤ limit)
    (hmax : (limit : ℤ) ≤ cfg.maxLimit) (hword : cfg.maxLimit < 2 ^ 63) :
    CoversOnce floatText cfg timeText get t limit f ↔
      Covers (fun k => ((listing floatText cfg get t f).drop (pageOffset limit k)).take limit) limit
        (listing floatText cfg get t f) := by
  rw [CoversOnce, funext (page_eq hf hlimit hmax hword)]
  exact covers_congr_perm listing_perm.symm

/-- The pages cover the rows of a filter once if, and only if, the last page that the client needs begins
within the first million rows. -/
theorem coversOnce_iff (hf : queryFilter cfg timeText get = some f) (hlimit : 1 ≤ limit)
    (hmax : (limit : ℤ) ≤ cfg.maxLimit) (hword : cfg.maxLimit < 2 ^ 63) :
    CoversOnce floatText cfg timeText get t limit f ↔
      limit * ((t.rows.filter f.selects).length / limit) ≤ maxOffset := by
  have hlength : (listing floatText cfg get t f).length = (t.rows.filter f.selects).length := by
    rw [listing_perm.length_eq, matching, List.length_map]
  rw [coversOnce_iff_listing hf hlimit hmax hword, ← hlength]
  exact covers_iff nodup_listing hlimit (fun k => pageOffset_of_le) (pageOffset_le limit)

/-! ## A million records and one more -/

/-- What C has stored of a weighing record that brings a serial number only. -/
def serialContent (serial : Str) : StoredRecord where
  content := {
    entityType := Str.lit "weight_info"
    keyType := Str.lit "serialNo"
    serialNo := some serial
    plateNo := none
    sourceTime := none
    source := Str.lit "scale"
    sourceDatabase := Str.lit "scale"
    sourceTable := Str.lit "tbl_weightInfo"
    uploadedAt := none
    rawRecord := none }
  ingestedAt := Str.lit "2026-01-01T00:00:00Z"
  cloudUpdatedAt := Str.lit "2026-01-01T00:00:00Z"

/-- The row of the `n`th of these records. -/
def serialRow (n : ℕ) : Row :=
  ⟨n + 1, Str.lit "weight_info:" ++ natText n, serialContent (natText n)⟩

theorem map_id_serialRow (n : ℕ) :
    ((List.range n).map serialRow).map Entry.id = (List.range n).map Nat.succ := by
  rw [List.map_map]
  rfl

theorem serialRow_id {n : ℕ} {r : Row} (hr : r ∈ (List.range n).map serialRow) :
    0 < r.id ∧ r.id < n + 1 := by
  obtain ⟨i, hi, rfl⟩ := List.mem_map.mp hr
  exact ⟨Nat.succ_pos i, Nat.succ_lt_succ (List.mem_range.mp hi)⟩

theorem nodup_id_serialRow (n : ℕ) : (((List.range n).map serialRow).map Entry.id).Nodup := by
  rw [map_id_serialRow]
  exact List.nodup_range.map Nat.succ_injective

theorem nodup_key_serialRow (n : ℕ) : (((List.range n).map serialRow).map Entry.key).Nodup := by
  rw [List.map_map]
  apply List.nodup_range.map
  intro i j h
  exact natText_injective (List.append_cancel_left h)

/-- The table of the first `n` of them. -/
def serials (n : ℕ) : RecordTable where
  rows := (List.range n).map serialRow
  nextId := n + 1
  nextId_pos := Nat.succ_pos n
  id_pos := fun _ hr => (serialRow_id hr).1
  id_lt := fun _ hr => (serialRow_id hr).2
  id_nodup := nodup_id_serialRow n
  key_nodup := nodup_key_serialRow n

/-- A query that brings no parameter, and what `handleQuery` makes of it. -/
def bareQuery (_name : String) : Str := []

def bareFilter : QueryFilter where
  id := 0
  recordKey := []
  entityType := []
  serialNo := []
  plateNo := []
  fromTime := none
  toTime := none
  limit := 100
  offset := 0

theorem queryFilter_bareQuery : queryFilter plainConfig some bareQuery = some bareFilter := rfl

/-- It asks for every row. -/
theorem filter_bareFilter (rows : List Row) : rows.filter bareFilter.selects = rows := by
  apply List.filter_eq_self.mpr
  intro r _
  simp [bareFilter, QueryFilter.selects]

theorem coversOnce_iff_serials :
    CoversOnce some plainConfig some bareQuery (serials 3) 2 bareFilter ↔
      2 * (((serials 3).rows.filter bareFilter.selects).length / 2) ≤ maxOffset :=
  coversOnce_iff queryFilter_bareQuery (by decide) (by decide) (by decide)

theorem length_listing_serials (n : ℕ) :
    (listing some plainConfig bareQuery (serials n) bareFilter).length = n := by
  rw [listing_perm.length_eq, matching, List.length_map, filter_bareFilter, serials, List.length_map,
    List.length_range]

/-- A client that reads one record at a time does not come to an end with every record once if there
are more than a million. -/
theorem not_coversOnce_of_maxOffset_lt {n : ℕ} (h : maxOffset < n) :
    ¬ CoversOnce some plainConfig some bareQuery (serials n) 1 bareFilter := by
  rw [coversOnce_iff_listing queryFilter_bareQuery le_rfl (by decide) (by decide),
    covers_iff nodup_listing le_rfl (fun k => pageOffset_of_le) (pageOffset_le 1),
    length_listing_serials, Nat.div_one, one_mul]
  exact not_le.mpr h

/-- A million records and one more, read one at a time. -/
theorem not_coversOnce_serials :
    queryFilter plainConfig some bareQuery = some bareFilter ∧ (1 : ℤ) ≤ plainConfig.maxLimit ∧
      ¬ CoversOnce some plainConfig some bareQuery (serials 1000001) 1 bareFilter :=
  ⟨queryFilter_bareQuery, by decide, not_coversOnce_of_maxOffset_lt (by decide)⟩

end WeighingSync.Receiver
