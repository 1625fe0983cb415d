import WeighingSync.Common.AllOrNothing
import WeighingSync.Engine.Cache

/-!
# Records through the cache

What `insert_record` stores is to be read back by `WeighingRecord::try_from` as the same record: one row
that cannot be read makes every `fetch_pending` fail whose batch it is in. A stored record survives
exactly if its times have years of four digits and no leap second within a minute
(`survivesCache_iff`); the others are printed as texts that are not read, or read as the time a second
later.
-/

namespace WeighingSync.Engine

open Go

/-- What is documented of the libraries: UUIDs are read back; times are printed as RFC 3339 texts in UTC;
of these, those with a year of four digits are read, and none that does not begin with a digit. -/
structure RecordLib.Documented (lib : RecordLib) : Prop where
  uuid : ∀ u, lib.parseUuid (lib.uuidText u) = some u
  printed : ∀ t, lib.toRfc3339 t = t.civil.text
  read : ∀ c : Civil, c.FourDigits → lib.parseRfc3339 c.text = some c.dateTime
  refused : ∀ s : Str, (∀ r ∈ s.head?, r.isDigit = false) → lib.parseRfc3339 s = none

/-- Equality of weights: the two zeros are equal. -/
def SameWeight (a b : UInt64) : Prop :=
  a = b ∨ (a &&& 0x7FFFFFFFFFFFFFFF = 0 ∧ b &&& 0x7FFFFFFFFFFFFFFF = 0)

/-- Two records are equal in every field. -/
structure WeighingRecord.Same (r r' : WeighingRecord) : Prop where
  weight : SameWeight r.weightKg r'.weightKg
  others : { r with weightKg := 0 } = { r' with weightKg := 0 }

/-- A record that was stored in a cache: its row is read as the same record, and it makes no batch fail
if none failed before. -/
structure SurvivesCache (lib : RecordLib) (record : WeighingRecord) (cache cache' : Cache) : Prop where
  restored : ∀ row ∈ cache'.rows, row.id = lib.uuidText record.id →
    ∃ r, WeighingRecord.tryFrom lib row = some r ∧ r.Same record
  harmless : (∀ limit, (cache.fetchPending lib limit).isSome = true) →
    ∀ limit, (cache'.fetchPending lib limit).isSome = true

/-- The times of a record. -/
def WeighingRecord.times (r : WeighingRecord) : List DateTime := [r.measuredAt, r.createdAt, r.updatedAt]

/-! ## Reading a row -/

variable {lib : RecordLib} {record : WeighingRecord} {cache cache' : Cache}

theorem parse_asStr (u : WeightUnit) : WeightUnit.parse u.asStr = some u := by
  cases u <;> decide

theorem isDigit_sign (c : Civil) : (Rune.char (if c.year < 0 then '-' else '+')).isDigit = false := by
  split_ifs <;> rfl

/-- The stored text of a time is read if its year has four digits. -/
theorem parse_printed (hlib : lib.Documented) (t : DateTime) :
    lib.parseRfc3339 (lib.toRfc3339 t) =
      if t.civil.FourDigits then some t.civil.dateTime else none := by
  rw [hlib.printed]
  split_ifs with hyear
  · exact hlib.read _ hyear
  · apply hlib.refused
    rw [Civil.text, Civil.yearPart, if_neg hyear, List.cons_append, List.head?_cons]
    intro r hr
    cases hr
    exact isDigit_sign _

/-- The record that is read of a stored row. -/
def WeighingRecord.settled (r : WeighingRecord) : WeighingRecord :=
  { r with
    weightKg := realColumn r.weightKg
    measuredAt := r.measuredAt.civil.dateTime
    createdAt := r.createdAt.civil.dateTime
    updatedAt := r.updatedAt.civil.dateTime }

/-- A stored row is read exactly if all its times have years of four digits. -/
theorem tryFrom_row (hlib : lib.Documented) (r : WeighingRecord) :
    WeighingRecord.tryFrom lib (r.row lib) =
      if ∀ t ∈ r.times, t.civil.FourDigits then some r.settled else none := by
  rw [WeighingRecord.tryFrom]
  simp only [WeighingRecord.row, hlib.uuid, parse_asStr, parse_printed hlib, RetryCount.decode,
    WeighingRecord.times, List.forall_mem_cons]
  by_cases hmeasured : r.measuredAt.civil.FourDigits <;>
    by_cases hcreated : r.createdAt.civil.FourDigits <;>
      by_cases hupdated : r.updatedAt.civil.FourDigits <;>
        simp [hmeasured, hcreated, hupdated, WeighingRecord.settled]

theorem sameWeight_realColumn (weight : UInt64) : SameWeight (realColumn weight) weight := by
  rw [realColumn]
  split_ifs with hzero
  · subst hzero
    exact Or.inr ⟨by decide, by decide⟩
  · exact Or.inl rfl

/-- What is read is the record that was stored exactly if no time has a leap second within a minute. -/
theorem same_settled_iff (r : WeighingRecord) : r.settled.Same r ↔ ∀ t ∈ r.times, t.Settled := by
  simp only [WeighingRecord.times, List.forall_mem_cons, ← DateTime.dateTime_civil_iff]
  constructor
  · intro h
    have hothers := h.others
    simp only [WeighingRecord.settled, WeighingRecord.mk.injEq] at hothers
    exact ⟨hothers.2.2.2.2.2.2.1, hothers.2.2.2.2.2.2.2.2.2.2.1, hothers.2.2.2.2.2.2.2.2.2.2.2,
      List.forall_mem_nil _⟩
  · rintro ⟨hmeasured, hcreated, hupdated, -⟩
    refine ⟨sameWeight_realColumn _, ?_⟩
    simp only [WeighingRecord.settled, hmeasured, hcreated, hupdated]

/-! ## The rows of a cache -/

namespace Cache

/-- The rows that are not synced. -/
def unsynced (cache : Cache) : List CacheRow :=
  cache.rows.filter fun row => row.status = .pending || row.status = .failed

/-- No batch fails exactly if every row that is not synced can be read. -/
theorem isSome_fetchPending_iff :
    (∀ limit, (cache.fetchPending lib limit).isSome = true) ↔
      ∀ row ∈ cache.unsynced, (WeighingRecord.tryFrom lib row).isSome = true := by
  simp only [fetchPending, isSome_mapM_iff]
  constructor
  · intro h row hrow
    -- a batch as large as the table holds all of them
    have hsplit : row ∈ cache.pendingRows cache.unsynced.length ∨
        row ∈ beyond (fun a b : CacheRow => Str.lt b.measuredAt a.measuredAt = false)
          cache.unsynced.length cache.unsynced := mem_iff_window_or_beyond.mp hrow
    rw [beyond_eq_nil_iff.mpr le_rfl] at hsplit
    exact h cache.unsynced.length row (hsplit.resolve_right List.not_mem_nil)
  · exact fun h limit row hrow => h row (mem_of_mem_window hrow)

/-- An inserted record adds its row, and no other of its id. -/
theorem insertRecord_eq_some (h : cache.insertRecord lib record = some cache') :
    cache'.rows = cache.rows ++ [record.row lib] ∧ ∀ row ∈ cache.rows, row.id ≠ lib.uuidText record.id := by
  rw [insertRecord] at h
  split_ifs at h with hnan hid
  cases h
  refine ⟨rfl, fun row hrow heq => hid ?_⟩
  exact List.mem_map.mpr ⟨row, hrow, heq⟩

end Cache

/-- The row of an inserted record is the one of its id. -/
theorem row_of_id (h : cache.insertRecord lib record = some cache') (row : CacheRow) :
    row ∈ cache'.rows ∧ row.id = lib.uuidText record.id ↔ row = record.row lib := by
  obtain ⟨hrows, hothers⟩ := Cache.insertRecord_eq_some h
  rw [hrows, List.mem_append, List.mem_singleton]
  constructor
  · rintro ⟨hrow | hrow, hid⟩
    · exact absurd hid (hothers row hrow)
    · exact hrow
  · rintro rfl
    exact ⟨Or.inr rfl, rfl⟩

/-- A stored record survives in the cache exactly if each of its times has a year of four digits and no
leap second within a minute. -/
theorem survivesCache_iff (hlib : lib.Documented) (h : cache.insertRecord lib record = some cache') :
    SurvivesCache lib record cache cache' ↔ ∀ t ∈ record.times, t.civil.FourDigits ∧ t.Settled := by
  have hread := tryFrom_row hlib record
  constructor
  · intro hsurvives
    obtain ⟨hmem, hid⟩ := (row_of_id h _).mpr rfl
    obtain ⟨r, hr, hsame⟩ := hsurvives.restored _ hmem hid
    rw [hread] at hr
    split_ifs at hr with hyears
    cases hr
    exact fun t ht => ⟨hyears t ht, (same_settled_iff record).mp hsame t ht⟩
  · intro htimes
    rw [if_pos fun t ht => (htimes t ht).1] at hread
    constructor
    · intro row hmem hid
      rw [(row_of_id h row).mp ⟨hmem, hid⟩]
      exact ⟨_, hread, (same_settled_iff record).mpr fun t ht => (htimes t ht).2⟩
    · intro hall
      rw [Cache.isSome_fetchPending_iff] at hall ⊢
      intro row hrow
      obtain ⟨hmem, hstatus⟩ := List.mem_filter.mp hrow
      rw [(Cache.insertRecord_eq_some h).1, List.mem_append, List.mem_singleton] at hmem
      rcases hmem with hmem | rfl
      · exact hall row (List.mem_filter.mpr ⟨hmem, hstatus⟩)
      · rw [hread]
        rfl

/-! ## A record of the year 10000 -/

/-- The ids of two records. -/
def sampleId : Str := Str.lit "00000000-0000-0000-0000-000000000001"
def lateId : Str := Str.lit "00000000-0000-0000-0000-000000000002"

/-- UUIDs as texts: those of the two records as they are printed, others as numbers. -/
def idText (u : Uuid) : Str :=
  if u = 1 then sampleId else if u = 2 then lateId else natText u.toNat

def readId (s : Str) : Option Uuid :=
  if s = sampleId then some 1
  else if s = lateId then some 2
  else (digitsValue s).map (BitVec.ofNat 128)

theorem readId_idText (u : Uuid) : readId (idText u) = some u := by
  have hnat : ∀ s, digitsValue s = none → natText u.toNat ≠ s := by
    rintro s hs rfl
    rw [digitsValue_natText] at hs
    cases hs
  by_cases hone : u = 1
  · subst hone
    decide
  by_cases htwo : u = 2
  · subst htwo
    decide
  rw [idText, if_neg hone, if_neg htwo, readId, if_neg (hnat sampleId (by decide)),
    if_neg (hnat lateId (by decide)), digitsValue_natText, Option.map_some, BitVec.ofNat_toNat,
    BitVec.setWidth_eq]

/-- Libraries as they are documented. -/
def cacheLib : RecordLib where
  parseUuid := readId
  uuidText := idText
  parseRfc3339 := readRfc3339
  toRfc3339 := fun t => t.civil.text
  timeText := fun t => t.civil.text
  floatJson := fun _ => .num (Str.lit "0.0")
  pounds := id

theorem documented_cacheLib : cacheLib.Documented where
  uuid := readId_idText
  printed := fun _ => rfl
  read := fun _ => readRfc3339_text
  refused := fun _ => readRfc3339_eq_none

/-- A record that is created as it is measured. -/
def newRecord (id : Uuid) (measuredAt : DateTime) : WeighingRecord where
  id := id
  ticketNo := Str.lit "T1"
  scaleNo := Str.lit "S1"
  plateNo := none
  weightKg := 0x4024000000000000
  originalUnit := .kilogram
  measuredAt := measuredAt
  status := .pending
  retryCount := 0
  lastError := none
  createdAt := ⟨1767225600, 0, DateTime.zero_lt⟩
  updatedAt := ⟨1767225600, 0, DateTime.zero_lt⟩

/-- A record of the year 2026, and one of the year 10000. -/
def sampleRecord : WeighingRecord := newRecord 1 ⟨1767225600, 0, DateTime.zero_lt⟩
def lateRecord : WeighingRecord := newRecord 2 ⟨253402300800, 0, DateTime.zero_lt⟩

/-- A cache with the first, and one with both. -/
def sampleCache : Cache := ⟨[sampleRecord.row cacheLib], List.nodup_singleton _⟩

theorem nodup_lateCache :
    ([sampleRecord.row cacheLib, lateRecord.row cacheLib].map CacheRow.id).Nodup := by decide +kernel

def lateCache : Cache := ⟨[sampleRecord.row cacheLib, lateRecord.row cacheLib], nodup_lateCache⟩

theorem survivesCache_iff_sample :
    SurvivesCache cacheLib sampleRecord Cache.empty sampleCache ↔
      ∀ t ∈ sampleRecord.times, t.civil.FourDigits ∧ t.Settled :=
  survivesCache_iff documented_cacheLib rfl

/-- The second record is stored. From then on not even a batch of one record can be fetched. -/
theorem not_survivesCache_late : sampleCache.insertRecord cacheLib lateRecord = some lateCache ∧
    (∀ limit, (sampleCache.fetchPending cacheLib limit).isSome = true) ∧
      lateCache.fetchPending cacheLib 1 = none ∧
        ¬ SurvivesCache cacheLib lateRecord sampleCache lateCache := by
  have hstored : sampleCache.insertRecord cacheLib lateRecord = some lateCache := rfl
  have hfetched : ∀ limit, (sampleCache.fetchPending cacheLib limit).isSome = true := by
    rw [Cache.isSome_fetchPending_iff]
    decide +kernel
  have hblocked : lateCache.fetchPending cacheLib 1 = none := by decide +kernel
  refine ⟨hstored, hfetched, hblocked, fun h => ?_⟩
  have hsome := h.harmless hfetched 1
  rw [hblocked] at hsome
  cases hsome

end WeighingSync.Engine
