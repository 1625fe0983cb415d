import WeighingSync.Common.DecodedWindow
import WeighingSync.Common.Transition
import WeighingSync.Engine.CacheRoundTrip

/-!
# Oldest first

`fetch_pending` sorts by the text of `measured_at`. As long as all times that are written have years of
four digits, the texts are in the order of the times, and every row can be read whose retry count is an
integer. So the batch is the oldest of the records that are not synced (`oldestFirst_iff`), unless
`mark_failed` has met a record whose count is the largest integer (`oldestFirst_of_reachedBy`): the sum is
a real number, and every batch with that row fails (`not_oldestFirst_counted`).
-/

namespace WeighingSync.Engine

open Go

/-! ## What happens to a cache -/

/-- A call that changes the cache; a mark reads the clock. -/
inductive CacheCall
  | insert (record : WeighingRecord)
  | markSynced (now : DateTime) (ids : List Uuid)
  | markFailed (now : DateTime) (error : Str) (ids : List Uuid)

/-- A cache from its creation on. A call that ends with an error changes nothing. -/
def cacheSystem (lib : RecordLib) : System Cache CacheCall where
  init := fun cache => cache = Cache.empty
  step := fun cache call =>
    match call with
    | .insert record => cache.insertRecord lib record
    | .markSynced now ids => some (cache.markSynced lib (lib.toRfc3339 now) ids)
    | .markFailed now error ids => some (cache.markFailed lib (lib.toRfc3339 now) error ids)

/-- The times that a call writes. -/
def CacheCall.times : CacheCall → List DateTime
  | .insert record => record.times
  | .markSynced now _ => [now]
  | .markFailed now _ _ => [now]

/-- The call writes times with years of four digits. -/
def CacheCall.InYears (call : CacheCall) : Prop := ∀ t ∈ call.times, t.civil.FourDigits

/-- The call increments no count that is the largest integer. -/
def CacheCall.Counts (lib : RecordLib) (cache : Cache) : CacheCall → Prop
  | .insert _ => True
  | .markSynced _ _ => True
  | .markFailed _ _ ids =>
      ∀ row ∈ cache.rows, row.id ∈ ids.map lib.uuidText → row.retryCount ≠ .integer Int64.maxValue

/-- A batch of the oldest records that are not synced. -/
structure OldestFirst (lib : RecordLib) (cache : Cache) (limit : ℕ) (records : List WeighingRecord) :
    Prop where
  fetched : cache.fetchPending lib limit = some records
  length : records.length = min limit cache.unsynced.length
  unsynced : ∀ r ∈ records, r.status = .pending ∨ r.status = .failed
  sorted : records.Pairwise fun a b => a.measuredAt ≤ b.measuredAt
  leavesOut : ∃ all left, cache.unsynced.mapM (WeighingRecord.tryFrom lib) = some all ∧
    (records ++ left).Perm all ∧ ∀ r ∈ records, ∀ l ∈ left, r.measuredAt ≤ l.measuredAt

/-! ## Rows as they are written -/

variable {lib : RecordLib} {cache cache' : Cache} {row : CacheRow}

/-- A text that is printed of a time with a year of four digits. -/
def PrintedInYears (lib : RecordLib) (text : Str) : Prop :=
  ∃ t : DateTime, t.civil.FourDigits ∧ text = lib.toRfc3339 t

/-- A row as the calls write it. -/
structure WrittenInYears (lib : RecordLib) (row : CacheRow) : Prop where
  id : ∃ u, row.id = lib.uuidText u
  unit : ∃ u : WeightUnit, row.originalUnit = u.asStr
  measuredAt : PrintedInYears lib row.measuredAt
  createdAt : PrintedInYears lib row.createdAt
  updatedAt : PrintedInYears lib row.updatedAt

theorem writtenInYears_row {record : WeighingRecord} (h : ∀ t ∈ record.times, t.civil.FourDigits) :
    WrittenInYears lib (record.row lib) where
  id := ⟨record.id, rfl⟩
  unit := ⟨record.originalUnit, rfl⟩
  measuredAt := ⟨record.measuredAt, h _ (by simp [WeighingRecord.times]), rfl⟩
  createdAt := ⟨record.createdAt, h _ (by simp [WeighingRecord.times]), rfl⟩
  updatedAt := ⟨record.updatedAt, h _ (by simp [WeighingRecord.times]), rfl⟩

/-- A mark changes no text but the error and the time of the change. -/
theorem writtenInYears_updateIn {ids : List Str} {f : CacheRow → CacheRow} {hid : ∀ row, (f row).id = row.id}
    (hf : ∀ row, WrittenInYears lib row → WrittenInYears lib (f row))
    (h : ∀ row ∈ cache.rows, WrittenInYears lib row) :
    ∀ row ∈ (cache.updateIn ids f hid).rows, WrittenInYears lib row := by
  intro row hrow
  obtain ⟨old, hold, rfl⟩ := List.mem_map.mp hrow
  split_ifs
  · exact hf old (h old hold)
  · exact h old hold

/-- A call that writes times with years of four digits keeps every row so. -/
theorem writtenInYears_step {call : CacheCall} (h : ∀ row ∈ cache.rows, WrittenInYears lib row)
    (hstep : (cacheSystem lib).step cache call = some cache') (hyears : call.InYears) :
    ∀ row ∈ cache'.rows, WrittenInYears lib row := by
  cases call with
  | insert record =>
      intro row hrow
      rw [(Cache.insertRecord_eq_some hstep).1, List.mem_append, List.mem_singleton] at hrow
      rcases hrow with hrow | rfl
      · exact h row hrow
      · exact writtenInYears_row hyears
  | markSynced now ids =>
      cases hstep
      apply writtenInYears_updateIn _ h
      exact fun row hrow => { hrow with updatedAt := ⟨now, hyears now List.mem_cons_self, rfl⟩ }
  | markFailed now error ids =>
      cases hstep
      apply writtenInYears_updateIn _ h
      exact fun row hrow => { hrow with updatedAt := ⟨now, hyears now List.mem_cons_self, rfl⟩ }

/-- So it is of every row of a cache that only such calls have changed. -/
theorem writtenInYears_of_reachedBy
    (h : (cacheSystem lib).ReachedBy (fun _ call => call.InYears) cache) :
    ∀ row ∈ cache.rows, WrittenInYears lib row := by
  refine h.invariant (I := fun cache => ∀ row ∈ cache.rows, WrittenInYears lib row) ?_ ?_
  · rintro cache rfl row hrow
    cases hrow
  · exact fun _ _ _ hrows hstep hyears => writtenInYears_step hrows hstep hyears

/-! ## Counts that stay integers -/

theorem succ_ne_real {c : RetryCount} (hreal : c ≠ .real) (hmax : c ≠ .integer Int64.maxValue) :
    c.succ ≠ .real := by
  cases c with
  | integer n =>
      rw [RetryCount.succ, if_neg fun h => hmax (congrArg _ h)]
      exact RetryCount.noConfusion
  | real => exact absurd rfl hreal

/-- A call that increments no largest integer leaves every count an integer. -/
theorem counted_step {call : CacheCall} (h : ∀ row ∈ cache.rows, row.retryCount ≠ .real)
    (hstep : (cacheSystem lib).step cache call = some cache') (hcounts : call.Counts lib cache) :
    ∀ row ∈ cache'.rows, row.retryCount ≠ .real := by
  intro row hrow
  cases call with
  | insert record =>
      rw [(Cache.insertRecord_eq_some hstep).1, List.mem_append, List.mem_singleton] at hrow
      rcases hrow with hrow | rfl
      · exact h row hrow
      · exact RetryCount.noConfusion
  | markSynced now ids =>
      cases hstep
      obtain ⟨old, hold, rfl⟩ := List.mem_map.mp hrow
      split_ifs
      · exact h old hold
      · exact h old hold
  | markFailed now error ids =>
      cases hstep
      obtain ⟨old, hold, rfl⟩ := List.mem_map.mp hrow
      split_ifs with hid
      · exact succ_ne_real (h old hold) (hcounts old hold hid)
      · exact h old hold

theorem counted_of_reachedBy
    (h : (cacheSystem lib).ReachedBy (fun cache call => call.Counts lib cache) cache) :
    ∀ row ∈ cache.rows, row.retryCount ≠ .real := by
  refine h.invariant (I := fun cache => ∀ row ∈ cache.rows, row.retryCount ≠ .real) ?_ ?_
  · rintro cache rfl row hrow
    cases hrow
  · exact fun _ _ _ hrows hstep hcounts => counted_step hrows hstep hcounts

/-! ## What is read of them -/

/-- A written row is read if its count is an integer, with its status and the time that its text says. -/
theorem tryFrom_written (hlib : lib.Documented) (h : WrittenInYears lib row)
    (hcount : row.retryCount ≠ .real) :
    ∃ r, WeighingRecord.tryFrom lib row = some r ∧ r.status = row.status ∧
      ∃ t : DateTime, t.civil.FourDigits ∧ row.measuredAt = t.civil.text ∧
        r.measuredAt = t.civil.dateTime := by
  obtain ⟨id, hid⟩ := h.id
  obtain ⟨unit, hunit⟩ := h.unit
  obtain ⟨measured, hmeasured, hmeasuredAt⟩ := h.measuredAt
  obtain ⟨created, hcreated, hcreatedAt⟩ := h.createdAt
  obtain ⟨updated, hupdated, hupdatedAt⟩ := h.updatedAt
  obtain ⟨n, hn⟩ : ∃ n, row.retryCount.decode = some n := by
    cases hcase : row.retryCount with
    | integer n => exact ⟨n, rfl⟩
    | real => exact absurd hcase hcount
  rw [WeighingRecord.tryFrom, hid, hunit, hmeasuredAt, hcreatedAt, hupdatedAt, hlib.uuid, parse_asStr,
    parse_printed hlib, parse_printed hlib, parse_printed hlib, if_pos hmeasured, if_pos hcreated,
    if_pos hupdated, hn]
  exact ⟨_, rfl, rfl, measured, hmeasured, hlib.printed measured, rfl⟩

/-- A row whose count is a real number is not read. -/
theorem tryFrom_real (h : row.retryCount = .real) : WeighingRecord.tryFrom lib row = none := by
  simp only [WeighingRecord.tryFrom, h, RetryCount.decode, Option.bind_eq_bind, Option.bind_none,
    Option.bind_fun_none]

/-- The order of `fetch_pending`. -/
abbrev MeasuredNoLater (a b : CacheRow) : Prop := Str.lt b.measuredAt a.measuredAt = false

instance : Std.Total MeasuredNoLater where
  total := by
    intro a b
    by_contra h
    push Not at h
    obtain ⟨hab, hba⟩ := h
    rw [Ne, Bool.not_eq_false] at hab hba
    rw [Str.lt_asymm hab] at hba
    cases hba

instance : IsTrans CacheRow MeasuredNoLater where
  trans := by
    intro a b c hab hbc
    rcases Str.lt_trichotomy a.measuredAt b.measuredAt with hlt | heq | hgt
    · by_contra hac
      rw [Bool.not_eq_false] at hac
      rw [MeasuredNoLater, Str.lt_trans hac hlt] at hbc
      cases hbc
    · rw [MeasuredNoLater, heq]
      exact hbc
    · rw [MeasuredNoLater, hgt] at hab
      cases hab

/-- Rows are in the order of the times that are read of them. -/
theorem measuredAt_le (hlib : lib.Documented) {a b : CacheRow} (ha : WrittenInYears lib a)
    (hb : WrittenInYears lib b) {x y : WeighingRecord} (hx : x ∈ WeighingRecord.tryFrom lib a)
    (hy : y ∈ WeighingRecord.tryFrom lib b) (h : MeasuredNoLater a b) :
    x.measuredAt ≤ y.measuredAt := by
  have hcount : ∀ {row : CacheRow} {r : WeighingRecord}, r ∈ WeighingRecord.tryFrom lib row →
      row.retryCount ≠ .real := by
    intro row r hr hreal
    rw [tryFrom_real hreal] at hr
    cases hr
  obtain ⟨x', hx', -, t, ht, hat, hxt⟩ := tryFrom_written hlib ha (hcount hx)
  obtain ⟨y', hy', -, u, hu, hbu, hyu⟩ := tryFrom_written hlib hb (hcount hy)
  obtain rfl : x = x' := Option.some_inj.mp (hx.symm.trans hx')
  obtain rfl : y = y' := Option.some_inj.mp (hy.symm.trans hy')
  by_contra hlt
  rw [not_le, hxt, hyu] at hlt
  rw [MeasuredNoLater, hat, hbu, lt_text hu ht hlt] at h
  cases h

instance : Nonempty WeighingRecord := ⟨sampleRecord⟩

/-- If the rows that are not synced are written with years of four digits, and their counts are integers,
then every batch is of the oldest of them. -/
theorem oldestFirst_of_written (hlib : lib.Documented)
    (hwritten : ∀ row ∈ cache.unsynced, WrittenInYears lib row)
    (hcounted : ∀ row ∈ cache.unsynced, row.retryCount ≠ .real) (limit : ℕ) :
    ∃ records, OldestFirst lib cache limit records := by
  have hdecode : ∀ row ∈ cache.unsynced, (WeighingRecord.tryFrom lib row).isSome = true := by
    intro row hrow
    obtain ⟨r, hr, -⟩ := tryFrom_written hlib (hwritten row hrow) (hcounted row hrow)
    rw [hr]
    rfl
  obtain ⟨all, records, left, hall, hfetched, hfirst⟩ := firstOf_window (r := MeasuredNoLater)
    (q := fun x y : WeighingRecord => x.measuredAt ≤ y.measuredAt) (n := limit) hdecode
    fun a ha b hb x hx y hy hab => measuredAt_le hlib (hwritten a ha) (hwritten b hb) hx hy hab
  have hlength : all.length = cache.unsynced.length := length_of_mapM hall
  refine ⟨records, hfetched, by rw [hfirst.length, hlength], ?_, hfirst.sorted,
    all, left, hall, hfirst.perm, hfirst.before⟩
  intro r hr
  obtain ⟨row, hrow, hread⟩ := exists_of_mem_mapM hfetched hr
  have hmem := mem_of_mem_window hrow
  obtain ⟨r', hr', hstatus, -⟩ := tryFrom_written hlib (hwritten row hmem) (hcounted row hmem)
  obtain rfl : r = r' := Option.some_inj.mp (hread.symm.trans hr')
  rw [hstatus]
  simpa using (List.mem_filter.mp hmem).2

/-- If all times that were written have years of four digits, then every batch is of the oldest records
that are not synced exactly if the counts of these are integers. -/
theorem oldestFirst_iff (hlib : lib.Documented)
    (h : (cacheSystem lib).ReachedBy (fun _ call => call.InYears) cache) :
    (∀ limit, ∃ records, OldestFirst lib cache limit records) ↔
      ∀ row ∈ cache.unsynced, row.retryCount ≠ .real := by
  constructor
  · intro hall row hrow hreal
    have hfetched : ∀ limit, (cache.fetchPending lib limit).isSome = true := by
      intro limit
      obtain ⟨records, hrecords⟩ := hall limit
      rw [hrecords.fetched]
      rfl
    have hread := Cache.isSome_fetchPending_iff.mp hfetched row hrow
    rw [tryFrom_real hreal] at hread
    cases hread
  · exact oldestFirst_of_written hlib fun row hrow =>
      writtenInYears_of_reachedBy h row (List.mem_of_mem_filter hrow)

/-- The calls of a cache that stays readable: the times have years of four digits, and no count overflows. -/
abbrev CacheCall.Readable (lib : RecordLib) (cache : Cache) (call : CacheCall) : Prop :=
  call.InYears ∧ call.Counts lib cache

/-- In every run whose times have years of four digits, and whose counts do not overflow, every batch is of
the oldest records that are not synced. -/
theorem oldestFirst_of_reachedBy (hlib : lib.Documented)
    (h : (cacheSystem lib).ReachedBy (fun cache call => call.Readable lib cache) cache) (limit : ℕ) :
    ∃ records, OldestFirst lib cache limit records := by
  have hyears : (cacheSystem lib).ReachedBy (fun _ call => call.InYears) cache :=
    h.mono fun _ _ hcall => hcall.1
  have hcounted : ∀ row ∈ cache.rows, row.retryCount ≠ .real :=
    counted_of_reachedBy (h.mono fun _ _ hcall => hcall.2)
  exact (oldestFirst_iff hlib hyears).mpr (fun row hrow => hcounted row (List.mem_of_mem_filter hrow)) limit

instance (call : CacheCall) : Decidable call.InYears :=
  inferInstanceAs (Decidable (∀ t ∈ call.times, t.civil.FourDigits))

instance (lib : RecordLib) (cache : Cache) : (call : CacheCall) → Decidable (call.Counts lib cache)
  | .insert _ => isTrue trivial
  | .markSynced _ _ => isTrue trivial
  | .markFailed _ _ ids => inferInstanceAs (Decidable
      (∀ row ∈ cache.rows, row.id ∈ ids.map lib.uuidText → row.retryCount ≠ .integer Int64.maxValue))

/-- A cache with one record, that was marked as failed. -/
theorem oldestFirst_of_reachedBy_sample : ∃ cache,
    (cacheSystem cacheLib).ReachedBy (fun cache call => call.Readable cacheLib cache) cache ∧
      cache.rows.map CacheRow.retryCount = [.integer 1] ∧
        ∃ records, OldestFirst cacheLib cache 1 records := by
  obtain ⟨cache, hreached, hcount⟩ := System.exists_of_exec (S := cacheSystem cacheLib)
    (K := fun cache call => call.Readable cacheLib cache) (s := Cache.empty)
    (l := [.insert sampleRecord, .markFailed sampleRecord.createdAt [] [1]])
    (P := fun cache => decide (cache.rows.map CacheRow.retryCount = [.integer 1])) rfl (by decide +kernel)
  exact ⟨cache, hreached, of_decide_eq_true hcount, oldestFirst_of_reachedBy documented_cacheLib hreached 1⟩

/-- A record whose retry count is the largest integer. -/
def countedRecord : WeighingRecord := { sampleRecord with retryCount := Int64.maxValue }

/-- Once it is marked as failed, no batch can be fetched. -/
theorem not_oldestFirst_counted : ∃ cache,
    (cacheSystem cacheLib).ReachedBy (fun _ call => call.InYears) cache ∧
      cache.unsynced.length = 1 ∧ cache.fetchPending cacheLib 1 = none ∧
        ¬ ∃ records, OldestFirst cacheLib cache 1 records := by
  obtain ⟨cache, hreached, hP⟩ := System.exists_of_exec (S := cacheSystem cacheLib)
    (K := fun _ call => call.InYears) (s := Cache.empty)
    (l := [.insert countedRecord, .markFailed sampleRecord.createdAt [] [1]])
    (P := fun cache => decide (cache.unsynced.length = 1 ∧ cache.fetchPending cacheLib 1 = none)) rfl
    (by decide +kernel)
  obtain ⟨hlength, hnone⟩ := of_decide_eq_true hP
  refine ⟨cache, hreached, hlength, hnone, ?_⟩
  rintro ⟨records, hrecords⟩
  have hfetched := hrecords.fetched
  rw [hnone] at hfetched
  cases hfetched

end WeighingSync.Engine
