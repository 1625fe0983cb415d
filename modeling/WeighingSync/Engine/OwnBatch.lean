import WeighingSync.Engine.SqlServerEngine
import WeighingSync.Go.JsonDecode

/-!
# Marks outside the batch

Both engines mark what the response names, without comparing it with the batch that was uploaded. So
a cycle keeps the records outside its batch exactly when the marks that it executes name none of them
that they would change.
-/

namespace WeighingSync.Engine

open Go

/-- A cycle of the cache leaves the records outside its batch as they are. -/
def SyncEngine.KeepsOthers (lib : SyncEngine.Lib) (cfg : SyncConfig) (run : SyncEngine.Run)
    (cache : Cache) : Prop :=
  KeepsOutside (cache.pendingRows cfg.batchSize) SyncEngine.syncState cache.rows
    (SyncEngine.syncOnce lib cfg run cache).1.rows

/-- A cycle of the source leaves the flags outside its batch as they are. -/
def SqlServerEngine.KeepsOthers (lib : SqlServerEngine.Lib) (server : Server)
    (source : SqlServerConfig) (cfg : SyncConfig) (run : SqlServerEngine.Run)
    (rows : List WeightRow) : Prop :=
  KeepsOutside (server.pendingRows cfg.batchSize rows) WeightRow.isUploadCloud rows
    (SqlServerEngine.syncOnce lib server source cfg run rows).1

/-- A cycle of either engine keeps the records outside its batch exactly when the lists that it
marks name none of them that is not marked so already. -/
theorem keepsOthers_iff (lib : SyncEngine.Lib) (run : SyncEngine.Run) (cache : Cache)
    (lib' : SqlServerEngine.Lib) (server : Server) (source : SqlServerConfig)
    (run' : SqlServerEngine.Run) (rows : List WeightRow) (cfg : SyncConfig) :
    (SyncEngine.KeepsOthers lib cfg run cache ↔
      ∀ records outcome, SyncEngine.Uploaded lib cfg run cache records outcome →
        ∀ row ∈ cache.rows, row ∉ cache.pendingRows cfg.batchSize →
          ((SyncEngine.writeBackOf records outcome).executed run).Spares lib row) ∧
    (SqlServerEngine.KeepsOthers lib' server source cfg run' rows ↔
      ∀ records response,
        SqlServerEngine.Acknowledged lib' server source cfg run' rows records response →
        ∀ row ∈ rows, row ∉ server.pendingRows cfg.batchSize rows →
          server.named (Server.marked source run'.markFailsAt
            (SqlServerEngine.acceptedSerialNos records response)) row →
          row.isUploadCloud = some 1) :=
  ⟨SyncEngine.keepsOutside_syncOnce_iff, SqlServerEngine.keepsOutside_syncOnce_iff⟩

/-! ## A response that names another record -/

/-- Two ids as text. -/
def firstId : Str := Str.lit "00000000-0000-0000-0000-000000000001"
def secondId : Str := Str.lit "00000000-0000-0000-0000-000000000002"

/-- The times of the examples. -/
def firstTime : Str := Str.lit "2026-01-01T00:00:00Z"
def secondTime : Str := Str.lit "2026-01-01T00:01:00Z"

/-- A pending row of the cache. -/
def pendingRow (id measuredAt : Str) : CacheRow where
  id := id
  ticketNo := Str.lit "T1"
  scaleNo := Str.lit "S1"
  plateNo := none
  weightKg := 0
  originalUnit := Str.lit "kg"
  measuredAt := measuredAt
  status := .pending
  retryCount := .integer 0
  lastError := none
  createdAt := measuredAt
  updatedAt := measuredAt

/-- A cache with two pending rows. -/
def twoRowCache : Cache where
  rows := [pendingRow firstId firstTime, pendingRow secondId secondTime]
  id_nodup := by
    show [firstId, secondId].Nodup
    decide +kernel

/-- The times that they are texts of. -/
def firstInstant : DateTime := ⟨1767225600, 0, DateTime.zero_lt⟩
def secondInstant : DateTime := ⟨1767225660, 0, DateTime.zero_lt⟩

/-- Libraries that read the ids and times of the examples. -/
def exampleLib : SyncEngine.Lib where
  statusText := natText
  parseJson := parse
  parseUuid := fun s => if s = firstId then some 1 else if s = secondId then some 2 else none
  uuidText := fun u => if u = 1 then firstId else secondId
  parseRfc3339 := fun s =>
    if s = firstTime then some firstInstant
    else if s = secondTime then some secondInstant else none
  toRfc3339 := fun t => t.civil.text
  timeText := fun t => if t = firstInstant then firstTime else secondTime
  floatJson := fun _ => .num (Str.lit "0.0")
  pounds := id

/-- An attempt that is answered with status 200 and a body. -/
def answered (body : String) : Attempt where
  uploadedAt := firstTime
  respond := fun _ => some ⟨200, some (Str.lit body)⟩
  elapsed := 0

/-- Batches of one record, and the default retries. -/
def oneRecordConfig : SyncConfig := ⟨1, ⟨1000000000, 60000000000, 300000000000⟩⟩

/-- A cycle of the cache whose upload is answered with a body. -/
def SyncEngine.answeredBy (body : String) : SyncEngine.Run where
  attempts := [answered body]
  stamp := fun _ => secondTime
  fails := fun _ => false

/-- A cycle of the source whose upload is answered with a body. -/
def SqlServerEngine.answeredBy (body : String) : SqlServerEngine.Run where
  attempts := [answered body]
  fetchFails := false
  markFailsAt := none

/-- A response that accepts the second record. -/
def foreignIds : String :=
  "\x7b\"accepted_ids\":[\"00000000-0000-0000-0000-000000000002\"],\"failed_ids\":[]\x7d"

/-- A pending row of the source. -/
def pendingWeight (serialNo : String) : WeightRow where
  serialNo := some (Str.lit serialNo)
  isUploadCloud := some 0
  delFlag := some 0
  others := Vector.replicate _ .null

/-- A source with the rows `A` and `B`. -/
def twoWeights : List WeightRow := [pendingWeight "A", pendingWeight "B"]

/-- A database with a binary collation, whose rows are as old as each other. -/
def plainServer : Server := ⟨fun _ _ => true, fun a b => a = b⟩

/-- The documented source. -/
def plainSource : SqlServerConfig := ⟨Str.lit "yunfu", Str.lit "tbl_weightInfo", true⟩

/-- Libraries for a source without floating point columns. -/
def plainLib : SqlServerEngine.Lib where
  statusText := natText
  parseJson := parse
  floatJson := fun _ => .num (Str.lit "0.0")
  floatText := fun _ => Str.lit "0"

/-- A response that accepts the row `B`. -/
def foreignSerials : String := "\x7b\"accepted_serial_nos\":[\"B\"],\"failed_serial_nos\":[]\x7d"

/-- A record that is not in the batch, and was not uploaded, is marked as synced or uploaded because
the response names it. -/
theorem not_keepsOthers_foreign :
    ¬ SyncEngine.KeepsOthers exampleLib oneRecordConfig (SyncEngine.answeredBy foreignIds)
        twoRowCache ∧
      ¬ SqlServerEngine.KeepsOthers plainLib plainServer plainSource oneRecordConfig
        (SqlServerEngine.answeredBy foreignSerials) twoWeights := by
  unfold SyncEngine.KeepsOthers SqlServerEngine.KeepsOthers
  decide +kernel

end WeighingSync.Engine
