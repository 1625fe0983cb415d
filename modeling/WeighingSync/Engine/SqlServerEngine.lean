import WeighingSync.Common.Frame
import WeighingSync.Engine.Source
import WeighingSync.Engine.SyncEngine

/-!
# The engine of the SQL Server source

`SqlServerSyncEngine::sync_once` of `src/sync/sqlserver_engine.rs`: read a batch of pending rows,
upload it with retries, and mark the rows that the response names as accepted. A cycle keeps the rows
outside its batch exactly when what it marks of them is marked already (`keepsOutside_syncOnce_iff`).
-/

namespace WeighingSync.Engine

open Go

namespace SqlServerEngine

/-- The libraries of the engine. -/
structure Lib extends HttpLib, FloatLib

/-- `SqlServerUploadRequest`. -/
def uploadRequest (source : SqlServerConfig) (uploadedAt : Str) (records : List SqlServerWeightRecord) :
    Json :=
  .obj [(Str.lit "source", .str (Str.lit "sqlserver-yunfu-tbl_weightInfo")),
    (Str.lit "database", .str source.database),
    (Str.lit "table", .str source.table),
    (Str.lit "uploaded_at", .str uploadedAt),
    (Str.lit "records", .arr (records.map fun record => .ofMap record.data))]

/-- An element of a list of serial numbers. -/
def decodeSerialNo : Json → Option Str
  | .str s => some s
  | _ => none

/-- Decoding of `SqlServerUploadResponse`. -/
def decodeResponse : Json → Option (TwoLists Str) :=
  decodeTwoLists decodeSerialNo "accepted_serial_nos" "failed_serial_nos"

/-- `upload_batch`; a body is read as text, with what is not UTF-8 replaced. -/
def uploadBatch (lib : Lib) (source : SqlServerConfig) (records : List SqlServerWeightRecord)
    (attempt : Attempt) : Except UploadError (TwoLists Str) :=
  match attempt.respond (uploadRequest source attempt.uploadedAt records) with
  | none => .error (.transient (Str.lit "failed to send SQL Server upload request"))
  | some reply =>
      if reply.status = 204 then .ok ⟨[], []⟩
      else if reply.isSuccess = false then
        .error (.fromStatus lib.statusText reply.status (reply.body.getD []).repair)
      else
        match reply.body with
        | none => .error (.transient (Str.lit "failed to read SQL Server upload response body"))
        | some body =>
            if body.repair.trimSpace = [] then .ok ⟨[], []⟩
            else
              match (lib.parseJson body.repair).bind decodeResponse with
              | some response => .ok response
              | none => .error (.permanent (Str.lit "failed to decode SQL Server upload response"))

/-- What a cycle meets: its attempts, whether its query fails, and the `UPDATE` that fails, if
there is one. -/
structure Run where
  attempts : List Attempt
  fetchFails : Bool
  markFailsAt : Option ℕ

/-- The batch of a cycle. -/
def fetch (lib : Lib) (server : Server) (cfg : SyncConfig) (run : Run) (rows : List WeightRow) :
    Except Str (List SqlServerWeightRecord) :=
  if run.fetchFails then .error (Str.lit "failed to query tbl_weightInfo")
  else server.fetchPending lib.toFloatLib cfg.batchSize rows

/-- The upload of a cycle, with its retries. -/
def upload (lib : Lib) (source : SqlServerConfig) (cfg : SyncConfig) (run : Run)
    (records : List SqlServerWeightRecord) : Option (Except Str (TwoLists Str)) :=
  (retryTransient cfg.retry (run.attempts.map fun attempt =>
    (uploadBatch lib source records attempt, attempt.elapsed))).result

/-- The serial numbers that a cycle takes as accepted. -/
def acceptedSerialNos (records : List SqlServerWeightRecord) (response : TwoLists Str) : List Str :=
  response.acceptedFrom (records.map SqlServerWeightRecord.serialNo)

/-- `sync_once`. -/
def syncOnce (lib : Lib) (server : Server) (source : SqlServerConfig) (cfg : SyncConfig) (run : Run)
    (rows : List WeightRow) : List WeightRow × CycleResult :=
  match fetch lib server cfg run rows with
  | .error error => (rows, .failed error)
  | .ok [] => (rows, .done .empty)
  | .ok records =>
      match upload lib source cfg run records with
      | none => (rows, .running)
      | some (.error _) =>
          (rows, .failed
            (Str.lit "SQL Server upload failed (permanent error or retry budget exhausted)"))
      | some (.ok response) =>
          let accepted := acceptedSerialNos records response
          match server.markUploaded source run.markFailsAt accepted rows with
          | (rows', .error error) => (rows', .failed error)
          | (rows', .ok ()) =>
              (rows', .done ⟨records.length, accepted.length, response.failed.length,
                some source.markUploaded, false⟩)

variable {lib : Lib} {server : Server} {source : SqlServerConfig} {cfg : SyncConfig} {run : Run}
  {rows : List WeightRow} {records : List SqlServerWeightRecord} {response : TwoLists Str}

/-- A cycle whose batch is acknowledged with a response. -/
structure Acknowledged (lib : Lib) (server : Server) (source : SqlServerConfig) (cfg : SyncConfig)
    (run : Run) (rows : List WeightRow) (records : List SqlServerWeightRecord)
    (response : TwoLists Str) : Prop where
  fetched : fetch lib server cfg run rows = .ok records
  nonempty : records ≠ []
  uploaded : upload lib source cfg run records = some (.ok response)

/-- A cycle whose batch is acknowledged marks what it takes as accepted. -/
theorem syncOnce_of_acknowledged (h : Acknowledged lib server source cfg run rows records response) :
    (syncOnce lib server source cfg run rows).1 =
      (server.markUploaded source run.markFailsAt (acceptedSerialNos records response) rows).1 := by
  obtain ⟨record, records, rfl⟩ := List.exists_cons_of_ne_nil h.nonempty
  unfold syncOnce
  rw [h.fetched]
  simp only [h.uploaded]
  split <;> rename_i hresult <;> rw [hresult]

/-- A cycle whose batch is not acknowledged leaves the table as it is. -/
theorem syncOnce_of_not_acknowledged
    (h : ∀ records response, ¬ Acknowledged lib server source cfg run rows records response) :
    (syncOnce lib server source cfg run rows).1 = rows := by
  unfold syncOnce
  split
  · rfl
  · rfl
  · next records hne hfetched =>
    have hnonempty : records ≠ [] := hne
    split
    · rfl
    · rfl
    · next response huploaded => exact absurd ⟨hfetched, hnonempty, huploaded⟩ (h records response)

/-- A cycle keeps the rows outside its batch exactly when those that bear a serial number it marks
have been marked before. -/
theorem keepsOutside_syncOnce_iff :
    KeepsOutside (server.pendingRows cfg.batchSize rows) WeightRow.isUploadCloud rows
        (syncOnce lib server source cfg run rows).1 ↔
      ∀ records response, Acknowledged lib server source cfg run rows records response →
        ∀ row ∈ rows, row ∉ server.pendingRows cfg.batchSize rows →
          server.named
            (Server.marked source run.markFailsAt (acceptedSerialNos records response)) row →
          row.isUploadCloud = some 1 := by
  by_cases hacknowledged :
      ∃ records response, Acknowledged lib server source cfg run rows records response
  · obtain ⟨records, response, h⟩ := hacknowledged
    rw [syncOnce_of_acknowledged h, Server.markUploaded_fst, Server.markChunk, keepsOutside_update_iff]
    constructor
    · intro hkeeps records' response' h' row hrow hout hnamed
      have hrecords : records' = records := Except.ok.inj (h'.fetched.symm.trans h.fetched)
      subst hrecords
      have hresponse : response' = response :=
        Except.ok.inj (Option.some_inj.mp (h'.uploaded.symm.trans h.uploaded))
      rw [hresponse] at hnamed
      exact (hkeeps row hrow hout hnamed).symm
    · exact fun hall row hrow hout hnamed => (hall records response h row hrow hout hnamed).symm
  · push Not at hacknowledged
    rw [syncOnce_of_not_acknowledged hacknowledged]
    exact ⟨fun _ records response h => absurd h (hacknowledged records response),
      fun _ => keepsOutside_refl⟩

end SqlServerEngine

end WeighingSync.Engine
