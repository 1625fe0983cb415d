import WeighingSync.Common.Frame
import WeighingSync.Engine.Cache

/-!
# The engine of the local cache

`SyncEngine::sync_once` of `src/sync/engine.rs`: read a batch of the cache, upload it with retries,
and mark what the response names. A cycle keeps the rows outside its batch exactly when its marks
name none of them that they would change (`keepsOutside_syncOnce_iff`).
-/

namespace WeighingSync.Engine

open Go

/-- `SyncOutcome`. -/
structure SyncOutcome where
  fetched : ℕ
  synced : ℕ
  failed : ℕ
  markedUploaded : Option Bool
  noData : Bool
  deriving DecidableEq, Repr

/-- `SyncOutcome::no_data`. -/
def SyncOutcome.empty : SyncOutcome := ⟨0, 0, 0, none, true⟩

/-- `SyncConfig`, as far as a cycle reads it. -/
structure SyncConfig where
  batchSize : ℕ
  retry : RetryPolicy
  deriving DecidableEq, Repr

/-- Where a cycle stands after the given attempts: still retrying, or returned. -/
inductive CycleResult
  | running
  | done (outcome : SyncOutcome)
  | failed (error : Str)
  deriving DecidableEq, Repr

namespace SyncEngine

/-- The libraries of the engine. -/
structure Lib extends HttpLib, RecordLib

/-- `UploadRecord`. -/
def uploadRecord (lib : Lib) (record : WeighingRecord) : Json :=
  .obj [(Str.lit "id", .str (lib.uuidText record.id)),
    (Str.lit "ticket_no", .str record.ticketNo),
    (Str.lit "scale_no", .str record.scaleNo),
    (Str.lit "plate_no", match record.plateNo with
      | none => .null
      | some plateNo => .str plateNo),
    (Str.lit "weight_kg", lib.floatJson record.weightKg),
    (Str.lit "weight_lb", lib.floatJson (lib.pounds record.weightKg)),
    (Str.lit "original_unit", .str record.originalUnit.asStr),
    (Str.lit "measured_at", .str (lib.timeText record.measuredAt))]

/-- `BatchUploadRequest`. -/
def uploadRequest (lib : Lib) (uploadedAt : Str) (records : List WeighingRecord) : Json :=
  .obj [(Str.lit "source", .str (Str.lit "weighing-data-sync")),
    (Str.lit "uploaded_at", .str uploadedAt),
    (Str.lit "records", .arr (records.map (uploadRecord lib)))]

/-- An element of a list of ids. -/
def decodeId (lib : Lib) : Json → Option Uuid
  | .str s => lib.parseUuid s
  | _ => none

/-- Decoding of `BatchUploadResponse`. -/
def decodeResponse (lib : Lib) : Json → Option (TwoLists Uuid) :=
  decodeTwoLists (decodeId lib) "accepted_ids" "failed_ids"

/-- `upload_batch`. -/
def uploadBatch (lib : Lib) (records : List WeighingRecord) (attempt : Attempt) :
    Except UploadError (TwoLists Uuid) :=
  match attempt.respond (uploadRequest lib attempt.uploadedAt records) with
  | none => .error (.transient (Str.lit "failed to send upload request"))
  | some reply =>
      if reply.status = 204 then .ok ⟨records.map WeighingRecord.id, []⟩
      else if reply.isSuccess = false then
        .error (.fromStatus lib.statusText reply.status (reply.body.getD []).repair)
      else
        match (reply.body.bind lib.parseJson).bind (decodeResponse lib) with
        | some response => .ok response
        | none => .error (.permanent (Str.lit "failed to decode upload response"))

/-- The statements of a cycle. -/
inductive Statement
  | fetch
  | markSynced
  | markFailed
  deriving DecidableEq, Repr

/-- What a cycle meets: its attempts, the texts of its clock, and the statements that fail. -/
structure Run where
  attempts : List Attempt
  stamp : Statement → Str
  fails : Statement → Bool

/-- What a cycle is to write back: the ids to mark as synced, and those to mark as failed with their
error. -/
structure WriteBack where
  synced : List Uuid
  failed : List Uuid
  error : Str
  deriving DecidableEq, Repr

/-- What the outcome of an upload makes the cycle write back. -/
def writeBackOf (records : List WeighingRecord) : Except Str (TwoLists Uuid) → WriteBack
  | .error error => ⟨[], records.map WeighingRecord.id, error⟩
  | .ok response =>
      ⟨response.acceptedFrom (records.map WeighingRecord.id), response.failed,
        Str.lit "remote endpoint rejected record"⟩

/-- The marks of a cycle: an empty list is not marked, and a statement that fails ends the cycle. -/
def applyWriteBack (lib : Lib) (run : Run) (w : WriteBack) (cache : Cache) :
    Cache × Except Statement Unit :=
  if w.synced ≠ [] ∧ run.fails .markSynced then (cache, .error .markSynced)
  else
    let cache := cache.markSynced lib.toRecordLib (run.stamp .markSynced) w.synced
    if w.failed ≠ [] ∧ run.fails .markFailed then (cache, .error .markFailed)
    else (cache.markFailed lib.toRecordLib (run.stamp .markFailed) w.error w.failed, .ok ())

/-- The text of the error of a statement. -/
def Statement.error : Statement → Str
  | .fetch => Str.lit "failed to fetch pending weighing records with SeaORM"
  | .markSynced => Str.lit "failed to mark records as synced with SeaORM"
  | .markFailed => Str.lit "failed to mark records as failed with SeaORM"

/-- The upload of a cycle, with its retries. -/
def upload (lib : Lib) (cfg : SyncConfig) (run : Run) (records : List WeighingRecord) :
    Option (Except Str (TwoLists Uuid)) :=
  (retryTransient cfg.retry
    (run.attempts.map fun attempt => (uploadBatch lib records attempt, attempt.elapsed))).result

/-- The batch of a cycle. -/
def fetch (lib : Lib) (cfg : SyncConfig) (run : Run) (cache : Cache) : Option (List WeighingRecord) :=
  if run.fails .fetch then none else cache.fetchPending lib.toRecordLib cfg.batchSize

/-- `sync_once`. -/
def syncOnce (lib : Lib) (cfg : SyncConfig) (run : Run) (cache : Cache) : Cache × CycleResult :=
  match fetch lib cfg run cache with
  | none => (cache, .failed Statement.fetch.error)
  | some [] => (cache, .done .empty)
  | some records =>
      match upload lib cfg run records with
      | none => (cache, .running)
      | some outcome =>
          let w := writeBackOf records outcome
          match applyWriteBack lib run w cache, outcome with
          | (cache', .error statement), _ => (cache', .failed statement.error)
          | (cache', .ok ()), .error _ =>
              (cache', .failed
                (Str.lit "batch upload failed (permanent error or retry budget exhausted)"))
          | (cache', .ok ()), .ok _ =>
              (cache', .done ⟨records.length, w.synced.length, w.failed.length, none, false⟩)

/-! ## Rows outside the batch -/

/-- What the marks are about: the identity of a row and its state of synchronization. -/
def syncState (row : CacheRow) : Str × SyncStatus × RetryCount × Option Str :=
  (row.id, row.status, row.retryCount, row.lastError)

/-- The marks whose statements are executed. -/
def WriteBack.executed (run : Run) (w : WriteBack) : WriteBack :=
  if w.synced ≠ [] ∧ run.fails .markSynced then { w with synced := [], failed := [] }
  else if w.failed ≠ [] ∧ run.fails .markFailed then { w with failed := [] }
  else w

/-- What marks do to a row. -/
def WriteBack.mark (lib : Lib) (run : Run) (w : WriteBack) (row : CacheRow) : CacheRow :=
  let row :=
    if row.id ∈ w.synced.map lib.uuidText then Cache.setSynced (run.stamp .markSynced) row else row
  if row.id ∈ w.failed.map lib.uuidText then Cache.setFailed (run.stamp .markFailed) w.error row
  else row

/-- A row that marks leave as it is: one that is named as failed has this error already, and a count that
does not grow any more; another that is named as synced is synced already. -/
def WriteBack.Spares (lib : Lib) (w : WriteBack) (row : CacheRow) : Prop :=
  if row.id ∈ w.failed.map lib.uuidText then
    row.status = .failed ∧ row.retryCount = .real ∧ row.lastError = some w.error
  else row.id ∈ w.synced.map lib.uuidText → row.status = .synced ∧ row.lastError = none

variable {lib : Lib} {cfg : SyncConfig} {run : Run} {cache : Cache} {records : List WeighingRecord}
  {outcome : Except Str (TwoLists Uuid)} {w : WriteBack}

theorem syncState_mark_iff {row : CacheRow} :
    syncState (w.mark lib run row) = syncState row ↔ w.Spares lib row := by
  unfold WriteBack.mark WriteBack.Spares
  have hsynced : syncState (Cache.setSynced (run.stamp .markSynced) row) = syncState row ↔
      row.status = .synced ∧ row.lastError = none := by
    simp [syncState, Cache.setSynced, eq_comm]
  -- marked as synced before or not, the mark as failed sets the same
  have hfailed : ∀ row' : CacheRow, row'.id = row.id → row'.retryCount = row.retryCount →
      (syncState (Cache.setFailed (run.stamp .markFailed) w.error row') = syncState row ↔
        row.status = .failed ∧ row.retryCount = .real ∧ row.lastError = some w.error) := by
    intro row' hid hcount
    simp only [syncState, Cache.setFailed, hid, hcount, Prod.mk.injEq, true_and,
      RetryCount.succ_eq_self_iff, eq_comm (b := row.status), eq_comm (b := row.lastError)]
  by_cases hs : row.id ∈ w.synced.map lib.uuidText
  · have hid : (Cache.setSynced (run.stamp .markSynced) row).id = row.id := rfl
    simp only [if_pos hs, hid]
    by_cases hf : row.id ∈ w.failed.map lib.uuidText
    · rw [if_pos hf, if_pos hf]
      exact hfailed _ hid rfl
    · rw [if_neg hf, if_neg hf, hsynced]
      exact ⟨fun h _ => h, fun h => h hs⟩
  · simp only [if_neg hs]
    by_cases hf : row.id ∈ w.failed.map lib.uuidText
    · rw [if_pos hf, if_pos hf]
      exact hfailed _ rfl rfl
    · rw [if_neg hf, if_neg hf]
      exact ⟨fun _ h => absurd h hs, fun _ => rfl⟩

/-- The table after the marks of a cycle. -/
theorem rows_applyWriteBack : (applyWriteBack lib run w cache).1.rows =
    cache.rows.map ((w.executed run).mark lib run) := by
  unfold applyWriteBack WriteBack.executed
  split_ifs with hsynced hfailed
  · exact (List.map_id cache.rows).symm.trans (List.map_congr_left fun row _ => by simp [WriteBack.mark])
  · refine List.map_congr_left fun row _ => ?_
    simp [WriteBack.mark]
  · show List.map _ (List.map _ _) = _
    rw [List.map_map]
    rfl

/-- A cycle whose upload has come to an end. -/
structure Uploaded (lib : Lib) (cfg : SyncConfig) (run : Run) (cache : Cache)
    (records : List WeighingRecord) (outcome : Except Str (TwoLists Uuid)) : Prop where
  fetched : fetch lib cfg run cache = some records
  nonempty : records ≠ []
  uploaded : upload lib cfg run records = some outcome

theorem syncOnce_of_uploaded (h : Uploaded lib cfg run cache records outcome) :
    (syncOnce lib cfg run cache).1 = (applyWriteBack lib run (writeBackOf records outcome) cache).1 := by
  obtain ⟨record, records, rfl⟩ := List.exists_cons_of_ne_nil h.nonempty
  unfold syncOnce
  rw [h.fetched]
  simp only [h.uploaded]
  split <;> rename_i hresult <;> rw [hresult]

theorem syncOnce_of_not_uploaded (h : ∀ records outcome, ¬ Uploaded lib cfg run cache records outcome) :
    (syncOnce lib cfg run cache).1 = cache := by
  unfold syncOnce
  split
  · rfl
  · rfl
  · next records hne hfetched =>
    split
    · rfl
    · next outcome huploaded => exact absurd ⟨hfetched, hne, huploaded⟩ (h records outcome)

/-- A cycle keeps the rows outside its batch exactly when its marks spare them. -/
theorem keepsOutside_syncOnce_iff :
    KeepsOutside (cache.pendingRows cfg.batchSize) syncState cache.rows
        (syncOnce lib cfg run cache).1.rows ↔
      ∀ records outcome, Uploaded lib cfg run cache records outcome →
        ∀ row ∈ cache.rows, row ∉ cache.pendingRows cfg.batchSize →
          ((writeBackOf records outcome).executed run).Spares lib row := by
  by_cases huploaded : ∃ records outcome, Uploaded lib cfg run cache records outcome
  · obtain ⟨records, outcome, h⟩ := huploaded
    rw [syncOnce_of_uploaded h, rows_applyWriteBack, keepsOutside_map_iff]
    simp only [syncState_mark_iff]
    constructor
    · intro hspares records' outcome' h'
      have hrecords : records' = records := Option.some_inj.mp (h'.fetched.symm.trans h.fetched)
      subst hrecords
      have houtcome : outcome' = outcome := Option.some_inj.mp (h'.uploaded.symm.trans h.uploaded)
      rwa [houtcome]
    · exact fun hall => hall records outcome h
  · push Not at huploaded
    rw [syncOnce_of_not_uploaded huploaded]
    exact ⟨fun _ records outcome h => absurd h (huploaded records outcome), fun _ => keepsOutside_refl⟩

end SyncEngine

end WeighingSync.Engine
