import WeighingSync.Common.Drain
import WeighingSync.Engine.History
import WeighingSync.Engine.OldestFirst

/-!
# Working off the cache

A cycle whose reply accepts its batch works off the oldest records that are not synced. So as many such
cycles as these have batches sync them all, with every record uploaded once and in the order in which
they were measured (`engine_drains`).
-/

namespace WeighingSync.Engine.SyncEngine

open Go

variable {lib : Lib} {cfg : SyncConfig} {run : Run} {cache : Cache} {p : Cache × List Cycle}

/-- The upload of every batch is accepted, after any retries, and the statements are executed. -/
structure Accepts (lib : Lib) (cfg : SyncConfig) (run : Run) : Prop where
  executed : ∀ statement, run.fails statement = false
  accepted : ∀ records, records ≠ [] → ∃ response, upload lib cfg run records = some (.ok response) ∧
    response.failed = [] ∧ ∀ id, id ∈ response.acceptedFrom (records.map WeighingRecord.id) ↔
      id ∈ records.map WeighingRecord.id

/-- A cycle, with the history. -/
def cyclePass (lib : Lib) (cfg : SyncConfig) (run : Run) (p : Cache × List Cycle) : Cache × List Cycle :=
  let cache := (syncOnce lib cfg run p.1).1
  (cache, p.2 ++ cyclesOf lib cfg p.1 (.cycle run) cache)

theorem leads_cyclePass (lib : Lib) (cfg : SyncConfig) (run : Run) (p : Cache × List Cycle) :
    ((station lib cfg).logged (cyclesOf lib cfg)).Leads (fun _ _ => True) p (cyclePass lib cfg run p) :=
  System.Leads.single (a := .cycle run) (System.logged_step.mpr ⟨rfl, rfl⟩) trivial

/-- The rows that are not synced, in the order in which they are fetched. -/
def backlog (p : Cache × List Cycle) : List CacheRow := p.1.unsynced.insertionSort MeasuredNoLater

/-- The ids of the records that were uploaded, as texts. -/
def uploadedIds (lib : Lib) (p : Cache × List Cycle) : List Str :=
  p.2.flatMap fun c => c.records.map fun r => lib.uuidText r.id

/-- A row that can be read. -/
structure Readable (lib : RecordLib) (row : CacheRow) : Prop where
  written : WrittenInYears lib row
  counted : row.retryCount ≠ .real

/-- A row that is read has the id that is read of it. -/
theorem uuidText_of_tryFrom (hlib : lib.toRecordLib.Documented) {row : CacheRow}
    (hrow : WrittenInYears lib.toRecordLib row) {r : WeighingRecord}
    (hr : WeighingRecord.tryFrom lib.toRecordLib row = some r) : lib.uuidText r.id = row.id := by
  obtain ⟨u, hu⟩ := hrow.id
  rw [WeighingRecord.tryFrom, hu, hlib.uuid] at hr
  obtain ⟨_, hid, hr⟩ := Option.bind_eq_some_iff.mp hr
  cases hid
  obtain ⟨_, -, hr⟩ := Option.bind_eq_some_iff.mp hr
  obtain ⟨_, -, hr⟩ := Option.bind_eq_some_iff.mp hr
  obtain ⟨_, -, hr⟩ := Option.bind_eq_some_iff.mp hr
  obtain ⟨_, -, hr⟩ := Option.bind_eq_some_iff.mp hr
  obtain ⟨_, -, hr⟩ := Option.bind_eq_some_iff.mp hr
  cases hr
  exact hu.symm

/-- The batch of a cache whose rows can be read. -/
theorem fetch_written (cfg : SyncConfig) (hlib : lib.toRecordLib.Documented) (hrun : ∀ statement, run.fails statement = false)
    (hcache : ∀ row ∈ cache.unsynced, Readable lib.toRecordLib row) :
    ∃ records, fetch lib cfg run cache = some records ∧
      records.map (fun r => lib.uuidText r.id) = (cache.pendingRows cfg.batchSize).map CacheRow.id := by
  have hread : ∀ row ∈ cache.pendingRows cfg.batchSize, ∃ r,
      WeighingRecord.tryFrom lib.toRecordLib row = some r ∧ lib.uuidText r.id = row.id := by
    intro row hrow
    have hreadable := hcache row (mem_of_mem_window hrow)
    obtain ⟨r, hr, -⟩ := tryFrom_written hlib hreadable.written hreadable.counted
    exact ⟨r, hr, uuidText_of_tryFrom hlib hreadable.written hr⟩
  choose! g hg hid using hread
  refine ⟨(cache.pendingRows cfg.batchSize).map g, ?_, ?_⟩
  · rw [fetch, if_neg (by simp [hrun]), Cache.fetchPending]
    exact mapM_some_of_forall hg
  · rw [List.map_map]
    exact List.map_congr_left hid

/-- The rows after a cycle that is accepted: those of its batch are synced. -/
theorem rows_accepted (hrun : Accepts lib cfg run) {records : List WeighingRecord}
    (hfetch : fetch lib cfg run cache = some records)
    (hids : records.map (fun r => lib.uuidText r.id) = (cache.pendingRows cfg.batchSize).map CacheRow.id) :
    (syncOnce lib cfg run cache).1.rows = cache.rows.map (fun row =>
      if row.id ∈ (cache.pendingRows cfg.batchSize).map CacheRow.id then
        Cache.setSynced (run.stamp .markSynced) row else row) ∧
      ∀ cache', (cyclesOf lib cfg cache (.cycle run) cache').flatMap
        (fun c => c.records.map fun r => lib.uuidText r.id) =
          (cache.pendingRows cfg.batchSize).map CacheRow.id := by
  by_cases hempty : records = []
  · have hnone : ∀ records outcome, ¬ Uploaded lib cfg run cache records outcome := by
      intro records' outcome h
      have hfetched := h.fetched
      rw [hfetch, hempty] at hfetched
      exact h.nonempty (Option.some_inj.mp hfetched).symm
    rw [hempty] at hids
    rw [syncOnce_of_not_uploaded hnone, ← hids]
    refine ⟨(List.map_id' _).symm.trans (List.map_congr_left fun row _ => by simp), fun cache' => ?_⟩
    rcases cyclesOf_cycle lib cfg run cache cache' with ⟨records', outcome, h, -⟩ | ⟨-, hcycles⟩
    · exact absurd h (hnone records' outcome)
    · rw [hcycles]
      rfl
  · obtain ⟨response, hupload, hfailed, haccepted⟩ := hrun.accepted records hempty
    have huploaded : Uploaded lib cfg run cache records (.ok response) := ⟨hfetch, hempty, hupload⟩
    have hexecuted : (writeBackOf records (.ok response)).executed run = writeBackOf records (.ok response) := by
      simp [WriteBack.executed, hrun.executed]
    -- the marks are made by the texts of the ids, and these are those of the rows
    have hnamed : ∀ id, id ∈ (response.acceptedFrom (records.map WeighingRecord.id)).map lib.uuidText ↔
        id ∈ (cache.pendingRows cfg.batchSize).map CacheRow.id := by
      intro id
      rw [← hids]
      simp only [List.mem_map, haccepted, exists_exists_and_eq_and]
    rw [syncOnce_of_uploaded huploaded, rows_applyWriteBack, hexecuted]
    refine ⟨List.map_congr_left fun row _ => ?_, fun cache' => ?_⟩
    · simp only [WriteBack.mark, writeBackOf, hfailed, List.map_nil, List.not_mem_nil, if_false, hnamed]
    · rcases cyclesOf_cycle lib cfg run cache cache' with ⟨records', outcome, h, hcycles⟩ | ⟨hnone, -⟩
      · have hsame : records = records' := Option.some_inj.mp (hfetch.symm.trans h.fetched)
        rw [hcycles, List.flatMap_singleton, ← hsame, hids]
      · exact absurd huploaded (hnone _ _)

/-- An accepted cycle works off a batch of the backlog. -/
theorem cyclePass_accepted (hlib : lib.toRecordLib.Documented) (hrun : Accepts lib cfg run)
    (hcache : ∀ row ∈ p.1.unsynced, Readable lib.toRecordLib row) :
    (∀ row ∈ (cyclePass lib cfg run p).1.unsynced, Readable lib.toRecordLib row) ∧
      backlog (cyclePass lib cfg run p) = (backlog p).drop cfg.batchSize ∧
      uploadedIds lib (cyclePass lib cfg run p) =
        uploadedIds lib p ++ ((backlog p).take cfg.batchSize).map CacheRow.id := by
  obtain ⟨records, hfetch, hids⟩ := fetch_written cfg hlib hrun.executed hcache
  obtain ⟨hrows, hcycles⟩ := rows_accepted hrun hfetch hids
  refine ⟨fun row hrow => ?_, ?_, ?_⟩
  · obtain ⟨hmem, hstatus⟩ := List.mem_filter.mp hrow
    change row ∈ (syncOnce lib cfg run p.1).1.rows at hmem
    rw [hrows] at hmem
    obtain ⟨old, hold, rfl⟩ := List.mem_map.mp hmem
    split_ifs at hstatus ⊢
    · exact absurd hstatus (by simp [Cache.setSynced])
    · exact hcache old (List.mem_filter.mpr ⟨hold, hstatus⟩)
  · show (((syncOnce lib cfg run p.1).1.rows).filter _).insertionSort MeasuredNoLater = _
    rw [hrows]
    refine insertionSort_cleared (List.Nodup.of_map _ p.1.id_nodup) (fun row hrow => ?_)
      fun row hrow hout => ?_
    · have hbatch : row.id ∈ (p.1.pendingRows cfg.batchSize).map CacheRow.id := List.mem_map_of_mem hrow
      rw [if_pos hbatch]
      rfl
    · refine if_neg fun hmem => ?_
      -- another row of the batch would have the same id
      obtain ⟨row', hrow', hid⟩ := List.mem_map.mp hmem
      have hold := List.mem_of_mem_filter (mem_of_mem_window hrow')
      exact hout (List.inj_on_of_nodup_map p.1.id_nodup hold hrow hid ▸ hrow')
  · rw [uploadedIds, cyclePass, List.flatMap_append, hcycles]
    rfl

/-- As many accepted cycles as the records that are not synced have batches sync them all: each was
uploaded once, the first measured first, and the synced ones were not. -/
theorem engine_drains (hlib : lib.toRecordLib.Documented)
    (hcache : (cacheSystem lib.toRecordLib).ReachedBy
      (fun cache call => call.Readable lib.toRecordLib cache) cache)
    {runs : List Run} (hruns : ∀ run ∈ runs, Accepts lib cfg run)
    (hlong : cache.unsynced.length ≤ runs.length * cfg.batchSize) :
    let p := runs.foldl (fun p run => cyclePass lib cfg run p) (cache, [])
    ((station lib cfg).logged (cyclesOf lib cfg)).Leads (fun _ _ => True) (cache, []) p ∧
      p.1.unsynced = [] ∧
      uploadedIds lib p = (cache.unsynced.insertionSort MeasuredNoLater).map CacheRow.id := by
  intro p
  have hreadable : ∀ row ∈ cache.unsynced, Readable lib.toRecordLib row := fun row hrow =>
    ⟨writtenInYears_of_reachedBy (hcache.mono fun _ _ hcall => hcall.1) row (List.mem_of_mem_filter hrow),
      counted_of_reachedBy (hcache.mono fun _ _ hcall => hcall.2) row (List.mem_of_mem_filter hrow)⟩
  have hbacklog : (backlog (cache, ([] : List Cycle))).length ≤ runs.length * cfg.batchSize := by
    rwa [backlog, List.length_insertionSort]
  obtain ⟨-, hnone, hdone⟩ := backlog_cleared
    (I := fun p : Cache × List Cycle => ∀ row ∈ p.1.unsynced, Readable lib.toRecordLib row)
    (cyclePass lib cfg) backlog (uploadedIds lib) CacheRow.id
    runs (fun run hrun _ => cyclePass_accepted hlib (hruns run hrun)) hreadable hbacklog
  refine ⟨?_, ?_, hdone⟩
  · have hrun : ∀ (runs : List Run) (p : Cache × List Cycle),
        ((station lib cfg).logged (cyclesOf lib cfg)).Leads (fun _ _ => True) p
          (runs.foldl (fun p run => cyclePass lib cfg run p) p) := by
      intro runs
      induction runs with
      | nil => exact fun _ => .refl
      | cons run runs ih => exact fun p => (leads_cyclePass lib cfg run p).trans (ih _)
    exact hrun runs (cache, [])
  · have hlength := congrArg List.length hnone
    rw [backlog, List.length_insertionSort] at hlength
    exact List.eq_nil_of_length_eq_zero hlength

/-- Libraries that print what they read, and a cycle whose upload is accepted as a whole. -/
def printingLib : Lib where
  toRecordLib := cacheLib
  statusText := exampleLib.statusText
  parseJson := exampleLib.parseJson

def acceptsAll : Run where
  attempts := [⟨secondTime, fun _ => some ⟨204, none⟩, 0⟩]
  stamp := fun _ => secondTime
  fails := fun _ => false

theorem accepts_acceptsAll (lib : Lib) (cfg : SyncConfig) : Accepts lib cfg acceptsAll where
  executed _ := rfl
  accepted records _ := by
    refine ⟨⟨records.map WeighingRecord.id, []⟩, rfl, rfl, fun id => ?_⟩
    simp [TwoLists.acceptedFrom]

/-- A record that is measured a minute after the first. -/
def minuteLater : WeighingRecord := newRecord 2 secondInstant

/-- Two records that are inserted, the second measured first, and two cycles of one record each. -/
theorem engine_drains_two : ∃ cache,
    (cacheSystem cacheLib).ReachedBy (fun cache call => call.Readable cacheLib cache) cache ∧
    cache.unsynced.length = 2 ∧
    (let p := [acceptsAll, acceptsAll].foldl
        (fun p run => cyclePass printingLib oneRecordConfig run p) (cache, [])
     ((station printingLib oneRecordConfig).logged (cyclesOf printingLib oneRecordConfig)).Leads
          (fun _ _ => True) (cache, []) p ∧
        p.1.unsynced = [] ∧
        uploadedIds printingLib p = (cache.unsynced.insertionSort MeasuredNoLater).map CacheRow.id) := by
  obtain ⟨cache, hreached, hlength⟩ := System.exists_of_exec (S := cacheSystem cacheLib)
    (K := fun cache call => call.Readable cacheLib cache) (s := Cache.empty)
    (l := [.insert minuteLater, .insert sampleRecord])
    (P := fun cache => decide (cache.unsynced.length = 2)) rfl (by decide +kernel)
  have hruns : ∀ run ∈ [acceptsAll, acceptsAll], Accepts printingLib oneRecordConfig run := by
    intro run hrun
    simp only [List.mem_cons, List.not_mem_nil, or_false, or_self] at hrun
    subst hrun
    exact accepts_acceptsAll _ _
  have hlong : cache.unsynced.length ≤ [acceptsAll, acceptsAll].length * oneRecordConfig.batchSize := by
    rw [of_decide_eq_true hlength]
    decide
  exact ⟨cache, hreached, of_decide_eq_true hlength,
    engine_drains documented_cacheLib hreached hruns hlong⟩

end WeighingSync.Engine.SyncEngine
