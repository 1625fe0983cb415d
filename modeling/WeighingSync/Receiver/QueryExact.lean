import WeighingSync.Receiver.Retention

/-!
# Exact answers

What a query asks for: the rows that satisfy every filter it supplies, the newest first, compared as
instants. `queryRecords` compares texts, and drops a bound that it cannot read. Its answers are exact
when the times it compares compare as texts (`exact_iff`).
-/

namespace WeighingSync.Receiver

open Go

/-- A row of the table of records. -/
abbrev Row := Entry Str StoredRecord

/-! ## The order of the rows -/

/-- The order of `queryRecords` is total. -/
theorem newestFirst_total (a b : Row) : newestFirst a b ∨ newestFirst b a := by
  rcases Str.lt_trichotomy a.val.effectiveTime b.val.effectiveTime with hlt | heq | hgt
  · exact Or.inr (Or.inl hlt)
  · rcases Str.lt_trichotomy a.key b.key with hkey | hkey | hkey
    · exact Or.inr (Or.inr ⟨heq.symm, Str.lt_asymm hkey⟩)
    · exact Or.inl (Or.inr ⟨heq, by rw [hkey]; simp⟩)
    · exact Or.inl (Or.inr ⟨heq, Str.lt_asymm hkey⟩)
  · exact Or.inl (Or.inl hgt)

theorem newestFirst_trans {a b c : Row} (hab : newestFirst a b) (hbc : newestFirst b c) :
    newestFirst a c := by
  rcases hab with hab | ⟨hab, hkab⟩
  · rcases hbc with hbc | ⟨hbc, -⟩
    · exact Or.inl (Str.lt_trans hbc hab)
    · exact Or.inl (hbc ▸ hab)
  · rcases hbc with hbc | ⟨hbc, hkbc⟩
    · exact Or.inl (hab ▸ hbc)
    · refine Or.inr ⟨hab.trans hbc, ?_⟩
      -- no key of the three comes before the one to its left
      by_contra hac
      rw [Bool.not_eq_false] at hac
      rcases Str.lt_trichotomy b.key c.key with hlt | heq | hgt
      · rw [hlt] at hkbc
        cases hkbc
      · rw [← heq, hkab] at hac
        cases hac
      · rw [Str.lt_trans hac hgt] at hkab
        cases hkab

instance : Std.Total newestFirst := ⟨newestFirst_total⟩

instance : IsTrans Row newestFirst := ⟨fun _ _ _ => newestFirst_trans⟩

/-! ## What a query asks for -/

section

variable (parse : Str → Option Instant) (get : String → Str)

/-- What a query supplies for a filter, under any of its names: a text that is not blank. -/
def supplied (names : List String) : Option Str :=
  if firstNonEmpty (names.map get) = [] then none else some (firstNonEmpty (names.map get))

/-- The row is of an instant. -/
def OfInstant (r : Row) (s : Instant) : Prop := r.val.content.sourceTime = some (timeString s)

/-- The row satisfies the filters that compare for equality. -/
structure Matches (r : Row) : Prop where
  id : ∀ text ∈ supplied get ["id"], atoi text = some (r.id : ℤ)
  recordKey : ∀ text ∈ supplied get ["record_key", "recordKey", "key"], r.key = text
  entityType : ∀ text ∈ supplied get ["entity_type", "entityType"], r.val.content.entityType = text
  serialNo : ∀ text ∈ supplied get ["serialNo", "serial_no"], r.val.content.serialNo = some text
  plateNo : ∀ text ∈ supplied get ["plateNo", "plate_no", "plate"],
    r.val.content.plateNo = some text

/-- The row is not before the bound `from`; no row is if that is no time. -/
def NotBefore (r : Row) : Prop :=
  ∀ text ∈ supplied get ["from"], ∃ i, parse text = some i ∧ ∃ s, OfInstant r s ∧ i ≤ s

/-- The row is not after the bound `to`; every row is if that is no time. -/
def NotAfter (r : Row) : Prop :=
  ∀ text ∈ supplied get ["to"], ∃ i, parse text = some i ∧ ∃ s, OfInstant r s ∧ s ≤ i

/-- The row satisfies every filter that is supplied. -/
structure Satisfies (r : Row) : Prop where
  equal : Matches get r
  notBefore : NotBefore parse get r
  notAfter : NotAfter parse get r

/-- The row is newer, or as new and of a later key. -/
def Newer (a b : Row) : Prop :=
  ∃ i j, a.val.effectiveTime = timeString i ∧ b.val.effectiveTime = timeString j ∧
    (j < i ∨ (i = j ∧ Str.lt b.key a.key = true))

/-- These rows are a slice of the rows that are asked for. -/
def IsSlice (t : RecordTable) (limit offset : ℕ) (rows : List Row) : Prop :=
  ∃ all : List Row, (∀ r, r ∈ all ↔ r ∈ t.rows ∧ Satisfies parse get r) ∧ all.Pairwise Newer ∧
    rows = (all.drop offset).take limit

/-- Whatever the limit and the offset, a filter is answered with the slice that is asked for. -/
def Exact (t : RecordTable) (f : QueryFilter) : Prop :=
  ∀ limit offset : ℕ, IsSlice parse get t limit offset (queryRecords t { f with limit, offset })

/-- A bound decides a row rightly: it is a time, and the time of the row compares with it as text. -/
def DecidesRightly (name : String) (r : Row) : Prop :=
  ∀ text ∈ supplied get [name], ∃ i, parse text = some i ∧
    ∀ s, OfInstant r s → ComparesAsText s i

/-- The two bounds together decide a row rightly: both do, or one of them does and excludes the row, or
both decide it wrongly and one of them only excludes it. -/
def Decided (r : Row) : Prop :=
  (DecidesRightly parse get "from" r ∧ DecidesRightly parse get "to" r) ∨
    (DecidesRightly parse get "from" r ∧ ¬ NotBefore parse get r) ∨
    (DecidesRightly parse get "to" r ∧ ¬ NotAfter parse get r) ∨
    (¬ DecidesRightly parse get "from" r ∧ ¬ DecidesRightly parse get "to" r ∧
      (NotBefore parse get r ↔ ¬ NotAfter parse get r))

end

/-! ## What `queryRecords` selects -/

section

variable {parse : Str → Option Instant} {get : String → Str} {cfg : Config} {f : QueryFilter}
  {t : RecordTable}

theorem supplied_singleton (name : String) :
    supplied get [name] = if (get name).trimSpace = [] then none else some (get name).trimSpace := by
  rw [supplied]
  by_cases hblank : (get name).trimSpace = [] <;> simp [firstNonEmpty, hblank]

/-- A filter that is supplied is compared, and one that is not is no filter. -/
theorem forall_supplied_iff (names : List String) (P : Str → Prop) :
    (∀ text ∈ supplied get names, P text) ↔
      firstNonEmpty (names.map get) = [] ∨ P (firstNonEmpty (names.map get)) := by
  rw [supplied]
  split_ifs with hblank <;> simp [hblank]

/-- The id of a filter, and the id that is supplied. -/
theorem id_of_parseOptionalInt64 {id : ℤ} (h : parseOptionalInt64 (get "id") = some id) (n : ℕ) :
    (id ≤ 0 ∨ (n : ℤ) = id) ↔ ∀ text ∈ supplied get ["id"], atoi text = some (n : ℤ) := by
  rw [supplied_singleton]
  rw [parseOptionalInt64] at h
  split_ifs at h ⊢ with hblank
  · cases h
    simp
  · obtain ⟨hid, hpos⟩ := Option.filter_eq_some_iff.mp h
    have hpos : 0 < id := of_decide_eq_true hpos
    simp only [Option.mem_def, Option.some.injEq, forall_eq', hid, not_le.mpr hpos, false_or]
    exact eq_comm

variable (parse get) in
/-- A bound is applied if it is a time. -/
theorem all_bound_iff (name : String) (P : Str → Bool) :
    (if (get name).trimSpace = [] then none
      else (parse (get name).trimSpace).map timeString).all P = true ↔
      ∀ text ∈ supplied get [name], ∀ i, parse text = some i → P (timeString i) = true := by
  rw [supplied_singleton]
  split_ifs with hblank
  · simp
  · cases hparse : parse (get name).trimSpace with
    | none => simp [hparse]
    | some i => simp [hparse]

/-- The row passes the bound `from` as text; a bound that is no time lets every row pass. -/
def PassesFrom (parse : Str → Option Instant) (get : String → Str) (r : Row) : Prop :=
  ∀ text ∈ supplied get ["from"], ∀ i, parse text = some i →
    ∃ s ∈ r.val.content.sourceTime, Str.lt s (timeString i) = false

def PassesTo (parse : Str → Option Instant) (get : String → Str) (r : Row) : Prop :=
  ∀ text ∈ supplied get ["to"], ∀ i, parse text = some i →
    ∃ s ∈ r.val.content.sourceTime, Str.lt (timeString i) s = false

/-- The rows that the `WHERE` clause of a query selects. -/
theorem selects_iff (hf : queryFilter cfg (fun text => (parse text).map timeString) get = some f)
    (r : Row) : f.selects r = true ↔ Matches get r ∧ PassesFrom parse get r ∧ PassesTo parse get r := by
  obtain ⟨id, hid, rfl⟩ := Option.map_eq_some_iff.mp hf
  have hmatches : Matches get r ↔ (id ≤ 0 ∨ (r.id : ℤ) = id) ∧ _ ∧ _ ∧ _ ∧ _ :=
    ⟨fun h => ⟨(id_of_parseOptionalInt64 hid r.id).mpr h.id, (forall_supplied_iff _ _).mp h.recordKey,
      (forall_supplied_iff _ _).mp h.entityType, (forall_supplied_iff _ _).mp h.serialNo,
      (forall_supplied_iff _ _).mp h.plateNo⟩,
    fun ⟨hi, hk, he, hs, hp⟩ => ⟨(id_of_parseOptionalInt64 hid r.id).mp hi,
      (forall_supplied_iff _ _).mpr hk, (forall_supplied_iff _ _).mpr he,
      (forall_supplied_iff _ _).mpr hs, (forall_supplied_iff _ _).mpr hp⟩⟩
  have hfrom := all_bound_iff parse get "from" fun t =>
    r.val.content.sourceTime.any fun s => !Str.lt s t
  have hto := all_bound_iff parse get "to" fun t =>
    r.val.content.sourceTime.any fun s => !Str.lt t s
  simp only [Option.any_eq_true, Bool.not_eq_true'] at hfrom hto
  rw [hmatches, PassesFrom, PassesTo]
  simp only [Option.mem_def] at hfrom hto ⊢
  rw [← hfrom, ← hto]
  simp only [QueryFilter.selects, Bool.and_eq_true, Bool.or_eq_true, decide_eq_true_eq, and_assoc, List.map_cons, List.map_nil]

/-! ## Bounds as text and as instants -/

/-- A text comparison of a bound, and the comparison of the instants that it is to decide. -/
theorem passes_iff_decidesRightly {name : String} {r : Row} (before : Str → Str → Bool)
    (inBound : Instant → Instant → Prop)
    (htimed : ∀ s ∈ r.val.content.sourceTime, ∃ i, s = timeString i)
    (hcompares : ∀ s i, (before (timeString s) (timeString i) = false ↔ inBound s i) ↔
      ComparesAsText s i) :
    ((∀ text ∈ supplied get [name], ∀ i, parse text = some i →
        ∃ s ∈ r.val.content.sourceTime, before s (timeString i) = false) ↔
      ∀ text ∈ supplied get [name], ∃ i, parse text = some i ∧ ∃ s, OfInstant r s ∧ inBound s i) ↔
      DecidesRightly parse get name r := by
  unfold DecidesRightly OfInstant
  cases supplied get [name] with
  | none => simp
  | some text =>
      cases hparse : parse text with
      | none => simp [hparse]
      | some i =>
          cases hsource : r.val.content.sourceTime with
          | none => simp [hparse]
          | some s' =>
              obtain ⟨s, rfl⟩ := htimed s' hsource
              have hinjective : ∀ s₁, timeString s = timeString s₁ ↔ s = s₁ := fun s₁ =>
                timeString_injective.eq_iff
              simp only [Option.mem_def, Option.some.injEq, forall_eq', exists_eq_left', hparse,
                hinjective]
              exact hcompares s i

variable (parse get) in
theorem passesFrom_iff {r : Row} (htimed : ∀ s ∈ r.val.content.sourceTime, ∃ i, s = timeString i) :
    (PassesFrom parse get r ↔ NotBefore parse get r) ↔ DecidesRightly parse get "from" r := by
  apply passes_iff_decidesRightly (fun s i => Str.lt s i) (fun s i => i ≤ s) htimed
  intro s i
  rw [← lt_timeString_iff, Bool.eq_false_iff, ← not_lt]
  exact not_iff_not

variable (parse get) in
theorem passesTo_iff {r : Row} (htimed : ∀ s ∈ r.val.content.sourceTime, ∃ i, s = timeString i) :
    (PassesTo parse get r ↔ NotAfter parse get r) ↔ DecidesRightly parse get "to" r := by
  apply passes_iff_decidesRightly (fun s i => Str.lt i s) (fun s i => s ≤ i) htimed
  intro s i
  have hsymm : ComparesAsText s i ↔ ComparesAsText i s := ⟨.symm, .symm⟩
  rw [hsymm, ← lt_timeString_iff, Bool.eq_false_iff, ← not_lt]
  exact not_iff_not

/-- Two conjunctions agree if their parts do, if one part agrees and fails, or if both parts differ and
only one of them fails. -/
theorem and_iff_and_iff {m p q p' q' : Prop} : (m ∧ p ∧ q ↔ m ∧ p' ∧ q') ↔
    (m → ((p ↔ p') ∧ (q ↔ q')) ∨ ((p ↔ p') ∧ ¬ p') ∨ ((q ↔ q') ∧ ¬ q') ∨
      (¬ (p ↔ p') ∧ ¬ (q ↔ q') ∧ (p' ↔ ¬ q'))) := by
  by_cases m <;> by_cases p <;> by_cases q <;> by_cases p' <;> by_cases q' <;> simp [*]

/-- Of the rows that match the other filters, a query selects those that satisfy its bounds exactly
where these decide them. -/
theorem selects_iff_satisfies_iff (ht : Timed t)
    (hf : queryFilter cfg (fun text => (parse text).map timeString) get = some f) {r : Row}
    (hr : r ∈ t.rows) :
    (f.selects r = true ↔ Satisfies parse get r) ↔ (Matches get r → Decided parse get r) := by
  have hfrom := passesFrom_iff parse get (ht r hr).2
  have hto := passesTo_iff parse get (ht r hr).2
  have hsatisfies : Satisfies parse get r ↔
      Matches get r ∧ NotBefore parse get r ∧ NotAfter parse get r :=
    ⟨fun h => ⟨h.equal, h.notBefore, h.notAfter⟩, fun ⟨he, hb, ha⟩ => ⟨he, hb, ha⟩⟩
  rw [selects_iff hf, hsatisfies, Decided, ← hfrom, ← hto]
  exact and_iff_and_iff

/-! ## Exact answers -/

/-- Two rows of which the query order puts one first are in the order of their instants exactly where
these compare as text. -/
theorem newer_of_newestFirst {a b : Row} {i j : Instant} (hi : a.val.effectiveTime = timeString i)
    (hj : b.val.effectiveTime = timeString j) (hkey : a.key ≠ b.key) (h : newestFirst a b)
    (hcompares : ComparesAsText i j) : Newer a b := by
  refine ⟨i, j, hi, hj, ?_⟩
  rw [newestFirst, hi, hj] at h
  rcases h with hlt | ⟨heq, hnot⟩
  · exact Or.inl (((lt_timeString_iff j i).mpr hcompares.symm).mp hlt)
  · exact Or.inr ⟨timeString_injective heq, (lt_eq_false_iff hkey).mp hnot⟩

theorem comparesAsText_of_newer {a b : Row} {i j : Instant} (hi : a.val.effectiveTime = timeString i)
    (hj : b.val.effectiveTime = timeString j) (h : newestFirst a b) (hnewer : Newer a b) :
    ComparesAsText i j := by
  obtain ⟨i', j', hi', hj', horder⟩ := hnewer
  rw [timeString_injective (hi.symm.trans hi'), timeString_injective (hj.symm.trans hj')] at *
  rcases horder with hlt | ⟨rfl, -⟩
  · rw [newestFirst, hi', hj'] at h
    have htext : Str.lt (timeString j') (timeString i') = true := by
      rcases h with htext | ⟨heq, -⟩
      · exact htext
      · exact absurd (timeString_injective heq) hlt.ne'
    exact ((lt_timeString_iff j' i').mp (iff_of_true htext hlt)).symm
  · exact Or.inl rfl

/-- The rows of a query, without its limit and offset. -/
def ordered (t : RecordTable) (f : QueryFilter) : List Row :=
  (t.rows.filter f.selects).insertionSort newestFirst

theorem mem_ordered {r : Row} : r ∈ ordered t f ↔ r ∈ t.rows ∧ f.selects r = true := by
  rw [ordered, List.mem_insertionSort, List.mem_filter]

theorem pairwise_ordered : (ordered t f).Pairwise newestFirst := List.pairwise_insertionSort _ _

/-- If every slice is the one that is asked for, these are all the rows that are asked for. -/
theorem ordered_of_exact (h : Exact parse get t f) :
    (∀ r, r ∈ ordered t f ↔ r ∈ t.rows ∧ Satisfies parse get r) ∧ (ordered t f).Pairwise Newer := by
  obtain ⟨all, hmem, hsorted, hslice⟩ := h ((ordered t f).length + 1) 0
  have hall : ordered t f = all := by
    have hwhole : ordered t f = all.take ((ordered t f).length + 1) := by
      rw [List.drop_zero] at hslice
      rw [← hslice, queryRecords, Int.toNat_natCast]
      exact (List.take_of_length_le (Nat.le_succ _)).symm
    have hlen := congrArg List.length hwhole
    rw [List.length_take] at hlen
    rw [hwhole, List.take_of_length_le (by omega)]
  rw [hall]
  exact ⟨hmem, hsorted⟩

/-- The bounds decide every row that the other filters match. -/
theorem decided_of_exact (ht : Timed t)
    (hf : queryFilter cfg (fun text => (parse text).map timeString) get = some f)
    (h : Exact parse get t f) : ∀ r ∈ t.rows, Matches get r → Decided parse get r := by
  intro r hr
  apply (selects_iff_satisfies_iff ht hf hr).mp
  constructor
  · intro hselects
    exact (((ordered_of_exact h).1 r).mp (mem_ordered.mpr ⟨hr, hselects⟩)).2
  · intro hsatisfies
    exact (mem_ordered.mp (((ordered_of_exact h).1 r).mpr ⟨hr, hsatisfies⟩)).2

/-- The times of the rows that are asked for compare as text. -/
theorem comparesAsText_of_exact (h : Exact parse get t f) :
    ∀ a ∈ t.rows, ∀ b ∈ t.rows, Satisfies parse get a → Satisfies parse get b →
      ∀ i j, a.val.effectiveTime = timeString i → b.val.effectiveTime = timeString j →
        ComparesAsText i j := by
  obtain ⟨hmem, hsorted⟩ := ordered_of_exact h
  intro a ha b hb hsa hsb
  -- the comparison is symmetric, so it holds of every two rows if it holds of every two in order
  have hall : ∀ a ∈ ordered t f, ∀ b ∈ ordered t f, ∀ i j, a.val.effectiveTime = timeString i →
      b.val.effectiveTime = timeString j → ComparesAsText i j := by
    have hpairs := pairwise_ordered.and hsorted
    apply List.Pairwise.forall_of_forall_of_flip
    · intro a ha i j hi hj
      exact Or.inl (timeString_injective (hi.symm.trans hj))
    · exact hpairs.imp fun horder i j hi hj => comparesAsText_of_newer hi hj horder.1 horder.2
    · exact hpairs.imp fun horder i j hi hj =>
        (comparesAsText_of_newer hj hi horder.1 horder.2).symm
  exact hall a ((hmem a).mpr ⟨ha, hsa⟩) b ((hmem b).mpr ⟨hb, hsb⟩)

/-- The answers to a query are exact, whatever its limit and its offset, exactly when its bounds decide
every row that its other filters match, and the times of the rows that it asks for compare as text. -/
theorem exact_iff (ht : Timed t)
    (hf : queryFilter cfg (fun text => (parse text).map timeString) get = some f) :
    Exact parse get t f ↔
      (∀ r ∈ t.rows, Matches get r → Decided parse get r) ∧
        ∀ a ∈ t.rows, ∀ b ∈ t.rows, Satisfies parse get a → Satisfies parse get b →
          ∀ i j, a.val.effectiveTime = timeString i → b.val.effectiveTime = timeString j →
            ComparesAsText i j := by
  refine ⟨fun h => ⟨decided_of_exact ht hf h, comparesAsText_of_exact h⟩, ?_⟩
  rintro ⟨hdecided, hcompares⟩ limit offset
  have hmem : ∀ r, r ∈ ordered t f ↔ r ∈ t.rows ∧ Satisfies parse get r := by
    intro r
    rw [mem_ordered]
    exact and_congr_right fun hr => (selects_iff_satisfies_iff ht hf hr).mpr (hdecided r hr)
  have hkeys : (ordered t f).Pairwise fun a b => a.key ≠ b.key := by
    have hnodup : ((t.rows.filter f.selects).map Entry.key).Nodup :=
      t.key_nodup.sublist (List.filter_sublist.map _)
    have hperm := (List.perm_insertionSort newestFirst (t.rows.filter f.selects)).map Entry.key
    exact List.pairwise_map.mp (hperm.nodup_iff.mpr hnodup)
  refine ⟨ordered t f, hmem, ?_, rfl⟩
  refine (pairwise_ordered.and hkeys).imp_of_mem fun {a b} ha hb horder => ?_
  obtain ⟨har, hsa⟩ := (hmem a).mp ha
  obtain ⟨hbr, hsb⟩ := (hmem b).mp hb
  obtain ⟨i, hi⟩ := ht.effectiveTime har
  obtain ⟨j, hj⟩ := ht.effectiveTime hbr
  exact newer_of_newestFirst hi hj horder.2 horder.1 (hcompares a har b hbr hsa hsb i j hi hj)

/-- In particular the rows that a query is answered with. -/
theorem isSlice_of_exact (h : Exact parse get t f) :
    IsSlice parse get t f.limit.toNat f.offset.toNat (queryRecords t f) := by
  obtain ⟨all, hmem, hsorted, hslice⟩ := h f.limit.toNat f.offset.toNat
  refine ⟨all, hmem, hsorted, ?_⟩
  rw [← hslice, queryRecords, queryRecords, Int.toNat_natCast, Int.toNat_natCast]
  rfl

end

/-! ## A bound that is no time, and a fraction of a second -/

/-- A table of records of these keys and times. -/
def tableOf (rows : List (String × Instant)) : RecordTable :=
  RecordTable.upsertRows KeyedTable.empty <| rows.map fun (key, i) => {
    key := Str.lit key
    content := {
      entityType := Str.lit "weight_info"
      keyType := Str.lit "serialNo"
      serialNo := none
      plateNo := none
      sourceTime := some (timeString i)
      source := Str.lit "scale"
      sourceDatabase := Str.lit "scale"
      sourceTable := Str.lit "tbl_weightInfo"
      uploadedAt := none
      rawRecord := none }
    now := timeString i }

theorem timed_tableOf (rows : List (String × Instant)) : Timed (tableOf rows) := by
  refine forall_upsertRows (P := fun r => (∃ i, r.ingestedAt = timeString i) ∧
    ∀ s ∈ r.content.sourceTime, ∃ i, s = timeString i) ?_ ?_ ?_
  · exact fun r hr => absurd hr List.not_mem_nil
  · intro u hu
    obtain ⟨⟨key, i⟩, -, rfl⟩ := List.mem_map.mp hu
    exact ⟨⟨i, rfl⟩, fun s hs => ⟨i, (Option.mem_some.mp hs).symm⟩⟩
  · intro u hu old hold
    obtain ⟨⟨key, i⟩, -, rfl⟩ := List.mem_map.mp hu
    exact ⟨hold.1, fun s hs => ⟨i, (Option.mem_some.mp hs).symm⟩⟩

/-- The parameters of a query that brings at most the bound `from`. -/
def fromQuery (text : String) (name : String) : Str := if name = "from" then Str.lit text else []

theorem isSome_queryFilter_fromQuery (text : String) :
    (queryFilter plainConfig (fun text => (sampleTimes text).map timeString)
      (fromQuery text)).isSome = true := rfl

/-- What C makes of them. -/
def fromFilter (text : String) : QueryFilter :=
  (queryFilter plainConfig (fun text => (sampleTimes text).map timeString) (fromQuery text)).get
    (isSome_queryFilter_fromQuery text)

theorem queryFilter_fromQuery (text : String) :
    queryFilter plainConfig (fun text => (sampleTimes text).map timeString) (fromQuery text) =
      some (fromFilter text) :=
  (Option.some_get _).symm

/-- One record, and a second one half a second later. -/
def oneTime : RecordTable := tableOf [("weight_info:5", weekBefore)]
def twoTimes : RecordTable :=
  tableOf [("weight_info:5", weekBefore), ("weight_info:6", weekBefore + 500000000)]

theorem exact_iff_fromSecond :
    Exact sampleTimes (fromQuery "2026-08-20T16:00:00Z") oneTime (fromFilter "2026-08-20T16:00:00Z") ↔
      (∀ r ∈ oneTime.rows, Matches (fromQuery "2026-08-20T16:00:00Z") r →
        Decided sampleTimes (fromQuery "2026-08-20T16:00:00Z") r) ∧
      ∀ a ∈ oneTime.rows, ∀ b ∈ oneTime.rows,
        Satisfies sampleTimes (fromQuery "2026-08-20T16:00:00Z") a →
        Satisfies sampleTimes (fromQuery "2026-08-20T16:00:00Z") b →
        ∀ i j, a.val.effectiveTime = timeString i → b.val.effectiveTime = timeString j →
          ComparesAsText i j :=
  exact_iff (timed_tableOf _) (queryFilter_fromQuery _)

/-- Two queries that are answered, and not exactly: a bound that is no time is dropped, and a record is
listed before one that is half a second newer. -/
theorem not_exact_yesterday :
    ¬ Exact sampleTimes (fromQuery "yesterday") oneTime (fromFilter "yesterday") ∧
      ¬ Exact sampleTimes (fromQuery "") twoTimes (fromFilter "") := by
  constructor
  · intro h
    obtain ⟨r, hr⟩ := List.exists_mem_of_length_pos (l := ordered oneTime (fromFilter "yesterday"))
      (by decide +kernel)
    have hsatisfies := (((ordered_of_exact h).1 r).mp hr).2
    obtain ⟨i, hi, -⟩ := hsatisfies.notBefore (Str.lit "yesterday") (by decide +kernel)
    have hnone : sampleTimes (Str.lit "yesterday") = none := by decide +kernel
    rw [hnone] at hi
    cases hi
  · intro h
    have hsorted := pairwise_ordered.and (ordered_of_exact h).2
    obtain ⟨a, b, hab⟩ := List.length_eq_two.mp
      (show (ordered twoTimes (fromFilter "")).length = 2 by decide +kernel)
    have htimes : (ordered twoTimes (fromFilter "")).map (fun r => r.val.effectiveTime) =
        [timeString weekBefore, timeString (weekBefore + 500000000)] := by decide +kernel
    rw [hab] at hsorted htimes
    obtain ⟨ha, hb⟩ := List.cons.inj htimes
    obtain ⟨horder, hnewer⟩ := List.pairwise_pair.mp hsorted
    have hnot : ¬ ComparesAsText weekBefore (weekBefore + 500000000) := by decide +kernel
    exact hnot (comparesAsText_of_newer ha (List.cons.inj hb).1 horder hnewer)

end WeighingSync.Receiver
