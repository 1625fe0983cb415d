import WeighingSync.Common.KeyedTable
import WeighingSync.Go.Bytes
import WeighingSync.Receiver.Query

/-!
# The tables of the replicator

`storeRecord`, `loadDeleteJobs`, `markDeleteDone` and `markDeleteFailure` of
`cmd/replicator/main.go` over the MySQL tables of B. Unique keys compare as the column collation
does: `collate` gives the sort key of a text, and a table is keyed by it. `numberText` is how
`strconv.FormatFloat` prints the 64-bit float nearest to a number literal, and `goText` how
`fmt.Sprint` prints a composite value. Times are microseconds.
-/

namespace WeighingSync.Replicator

open Go

/-! ## Records as B receives them -/

/-- `cRecord`. A field that the reply leaves out is empty; `record` is the text of the raw record. -/
structure CRecord where
  id : ℤ
  recordKey : Str
  entityType : Str
  keyType : Str
  serialNo : Str
  plateNo : Str
  sourceTime : Str
  source : Str
  database : Str
  table : Str
  uploadedAt : Str
  ingestedAt : Str
  record : Str
  deriving DecidableEq, Repr

/-- What B decodes of an entry of the reply. -/
def cRecordOf (i : Receiver.PageItem) : CRecord where
  id := i.id
  recordKey := i.recordKey
  entityType := i.entityType
  keyType := i.keyType
  serialNo := i.serialNo.getD []
  plateNo := i.plateNo.getD []
  sourceTime := i.sourceTime.getD []
  source := i.source
  database := i.database
  table := i.table
  uploadedAt := i.uploadedAt.getD []
  ingestedAt := i.ingestedAt
  record := (i.record.map Json.encode).getD []

/-! ## Tables -/

/-- The value columns of `wds_replicated_records`, but for the time of the last upsert, `replicated_at`. -/
structure ReplicatedRow where
  recordKey : Str
  cRecordId : ℤ
  entityType : Str
  keyType : Str
  serialNo : Option Str
  plateNo : Option Str
  sourceTime : Option Str
  source : Option Str
  sourceDatabase : Option Str
  sourceTable : Option Str
  uploadedAt : Option Str
  ingestedAt : Option Str
  rawRecord : Str
  deriving DecidableEq, Repr

/-- The value columns of a business table, `wds_weight_info_records` or `wds_weight_photo_records`, but for
`replicated_at`. -/
structure BusinessRow where
  recordKey : Str
  cRecordId : ℤ
  columns : List (Str × Option Str)
  rawRecord : Str
  deriving DecidableEq, Repr

/-- The status of a queue row. -/
inductive QueueStatus
  | pending
  | failed
  | done
  deriving DecidableEq, Repr

/-- The value columns of `wds_c_delete_queue`. Its `retry_count` is an `INT`, whose bound
is left out. -/
structure QueueRow where
  recordKey : Str
  cRecordId : ℤ
  status : QueueStatus
  retryCount : ℤ
  nextAttemptAt : ℤ
  lastError : Option Str
  completedAt : Option ℤ
  deriving DecidableEq, Repr

/-- The tables of B, each keyed by the collated record key. -/
structure ReplicatorDb where
  replicated : KeyedTable Str ReplicatedRow
  weightInfo : KeyedTable Str BusinessRow
  weightPhoto : KeyedTable Str BusinessRow
  queue : KeyedTable Str QueueRow

/-- The settings of B that its workers read. -/
structure Config where
  batchSize : ℕ
  cleanupEnabled : Bool
  batchSize_pos : 1 ≤ batchSize
  batchSize_lt : batchSize < 2 ^ 63

/-- What storing a record meets: the collation and how numbers and composites are printed. -/
structure StoreEnv where
  collate : Str → Str
  numberText : Str → Str
  goText : Json → Str

/-- `NULLIF(?, '')`. -/
def nullIfEmpty (s : Str) : Option Str := if s = [] then none else some s

/-- `weightInfoFields`, by JSON name and column. -/
def weightInfoFields : List (String × String) :=
  [("serialNo", "serial_no"), ("sysNo", "sys_no"), ("setId", "set_id"), ("cardNo", "card_no"),
    ("plateNo", "plate_no"), ("weightType", "weight_type"), ("transportUnit", "transport_unit"),
    ("forwardingUnit", "forwarding_unit"), ("consigneeUnit", "consignee_unit"),
    ("goodsName", "goods_name"), ("goodsSpec", "goods_spec"), ("grossWeight", "gross_weight"),
    ("tareWeight", "tare_weight"), ("netWeight", "net_weight"), ("buckleWeight", "buckle_weight"),
    ("actualWeight", "actual_weight"), ("weightUnit", "weight_unit"), ("unitPrice", "unit_price"),
    ("sumAmt", "sum_amt"), ("scaleNum", "scale_num"), ("squareNum", "square_num"),
    ("weighingFee", "weighing_fee"), ("grossStation", "gross_station"),
    ("tareStation", "tare_station"), ("grossMan", "gross_man"), ("tareMan", "tare_man"),
    ("grossTime", "gross_time"), ("tareTime", "tare_time"), ("firstTime", "first_time"),
    ("secondTime", "second_time"), ("updateTime", "update_time"), ("printNum", "print_num"),
    ("isCancle", "is_cancle"), ("isUploadLocal", "is_upload_local"),
    ("isUploadCloud", "is_upload_cloud"), ("strBackup1", "str_backup1"),
    ("strBackup2", "str_backup2"), ("strBackup3", "str_backup3"), ("strBackup4", "str_backup4"),
    ("strBackup5", "str_backup5"), ("strBackup6", "str_backup6"), ("strBackup7", "str_backup7"),
    ("strBackup8", "str_backup8"), ("strBackup9", "str_backup9"), ("numBackup1", "num_backup1"),
    ("numBackup2", "num_backup2"), ("numBackup3", "num_backup3"), ("numBackup4", "num_backup4"),
    ("numBackup5", "num_backup5"), ("numBackup6", "num_backup6"), ("numBackup7", "num_backup7"),
    ("numBackup8", "num_backup8"), ("numBackup9", "num_backup9"), ("timeBackup1", "time_backup1"),
    ("timeBackup2", "time_backup2"), ("timeBackup3", "time_backup3"), ("fGuid", "f_guid"),
    ("fID", "f_id"), ("relNo", "rel_no"), ("relSer", "rel_ser"), ("regNo", "reg_no"),
    ("dataType", "data_type"), ("dataLog", "data_log"), ("isFinish", "is_finish"),
    ("remark", "remark"), ("del_flag", "del_flag")]

/-- `weightPhotoFields`, by JSON name and column. -/
def weightPhotoFields : List (String × String) :=
  [("id", "source_id"), ("serialNo", "serial_no"), ("captureImage", "capture_image_base64"),
    ("isUploadLocal", "is_upload_local"), ("isUploadCloud", "is_upload_cloud"),
    ("plateNumber", "plate_number"), ("imageType", "image_type"), ("delFlag", "del_flag"),
    ("clientId", "client_id"), ("consigneeUnit", "consignee_unit"),
    ("forwardingUnit", "forwarding_unit")]

section

variable (env : StoreEnv)

/-- `normalizeJSONValue`, as the text of the column. -/
def normalizeJSONValue : Option Json → Option Str
  | none => none
  | some .null => none
  | some (.str s) => if s.trimSpace = [] then none else some s
  | some (.num literal) => some (env.numberText literal)
  | some (.bool b) => some (if b then Str.lit "1" else Str.lit "0")
  | some j => some (env.goText j)

/-- The columns of a business row. -/
def businessColumns (fields : List (String × String)) (values : List (Str × Json)) :
    List (Str × Option Str) :=
  fields.map fun (jsonName, column) =>
    (Str.lit column, normalizeJSONValue env (Json.lookup values (Str.lit jsonName)))

/-- The entity type a record is filed under. -/
def CRecord.entity (r : CRecord) : Str :=
  if r.entityType = [] then Str.lit "weight_info" else r.entityType

/-- The columns that `storeRecord` writes to `wds_replicated_records`. -/
def replicatedOf (r : CRecord) : ReplicatedRow where
  recordKey := r.recordKey
  cRecordId := r.id
  entityType := r.entity
  keyType := r.keyType
  serialNo := nullIfEmpty r.serialNo
  plateNo := nullIfEmpty r.plateNo
  sourceTime := nullIfEmpty r.sourceTime
  source := nullIfEmpty r.source
  sourceDatabase := nullIfEmpty r.database
  sourceTable := nullIfEmpty r.table
  uploadedAt := nullIfEmpty r.uploadedAt
  ingestedAt := nullIfEmpty r.ingestedAt
  rawRecord := r.record

/-- `ON DUPLICATE KEY UPDATE` sets every column but the key itself. -/
def upsertReplicated (r : CRecord) (t : KeyedTable Str ReplicatedRow) : KeyedTable Str ReplicatedRow :=
  t.upsert (env.collate r.recordKey) (replicatedOf r) fun old =>
    { replicatedOf r with recordKey := old.recordKey }

/-- One business table with the row of a record upserted. -/
def upsertBusiness (fields : List (String × String)) (r : CRecord) (values : List (Str × Json))
    (t : KeyedTable Str BusinessRow) : KeyedTable Str BusinessRow :=
  let row : BusinessRow := ⟨r.recordKey, r.id, businessColumns env fields values, r.record⟩
  t.upsert (env.collate r.recordKey) row fun old => { row with recordKey := old.recordKey }

/-- `upsertBusinessRecord`: an error where the raw record is no JSON object. -/
def upsertBusinessRecord (r : CRecord) (db : ReplicatorDb) : Option ReplicatorDb :=
  ((parse r.record).bind Json.decodeObject).map fun values =>
    if r.entity = Str.lit "weight_photo" then
      { db with weightPhoto := upsertBusiness env weightPhotoFields r values db.weightPhoto }
    else { db with weightInfo := upsertBusiness env weightInfoFields r values db.weightInfo }

/-- The queue row that `storeRecord` inserts. -/
def queueRowOf (now : ℤ) (r : CRecord) : QueueRow where
  recordKey := r.recordKey
  cRecordId := r.id
  status := .pending
  retryCount := 0
  nextAttemptAt := now
  lastError := none
  completedAt := none

/-- The queue with a record enqueued, again if it was queued before. -/
def enqueue (now : ℤ) (r : CRecord) (t : KeyedTable Str QueueRow) : KeyedTable Str QueueRow :=
  t.upsert (env.collate r.recordKey) (queueRowOf now r) fun old =>
    { queueRowOf now r with recordKey := old.recordKey, completedAt := old.completedAt }

/-- `storeRecord`, when no statement of its transaction fails; it returns an error, and changes
nothing, where the raw record is no JSON object. -/
def storeRecord (cfg : Config) (now : ℤ) (r : CRecord) (db : ReplicatorDb) : Option ReplicatorDb :=
  (upsertBusinessRecord env r { db with replicated := upsertReplicated env r db.replicated }).map
    fun db' => if cfg.cleanupEnabled then { db' with queue := enqueue env now r db'.queue } else db'

/-- The business table of an entity type. -/
def ReplicatorDb.business (db : ReplicatorDb) (entityType : Str) : KeyedTable Str BusinessRow :=
  if entityType = Str.lit "weight_photo" then db.weightPhoto else db.weightInfo

/-- The fields that the business table of an entity type has columns for. -/
def businessFields (entityType : Str) : List (String × String) :=
  if entityType = Str.lit "weight_photo" then weightPhotoFields else weightInfoFields

/-- What a stored record leaves in each table: `values` are the fields of its raw record. -/
structure Stored (cfg : Config) (now : ℤ) (r : CRecord) (db db' : ReplicatorDb)
    (values : List (Str × Json)) : Prop where
  decoded : (parse r.record).bind Json.decodeObject = some values
  replicated : db'.replicated = upsertReplicated env r db.replicated
  business : ∀ entityType, db'.business entityType =
    if entityType = Str.lit "weight_photo" ↔ r.entity = Str.lit "weight_photo" then
      upsertBusiness env (businessFields r.entity) r values (db.business entityType)
    else db.business entityType
  queue : db'.queue = if cfg.cleanupEnabled then enqueue env now r db.queue else db.queue

theorem exists_stored {cfg : Config} {now : ℤ} {r : CRecord} {db db' : ReplicatorDb}
    (h : storeRecord env cfg now r db = some db') : ∃ values, Stored env cfg now r db db' values := by
  unfold storeRecord upsertBusinessRecord at h
  rw [Option.map_map, Option.map_eq_some_iff] at h
  obtain ⟨values, hdecoded, rfl⟩ := h
  refine ⟨values, hdecoded, ?_, fun entityType => ?_, ?_⟩
  · simp only [Function.comp_apply]
    split_ifs <;> rfl
  · simp only [Function.comp_apply, ReplicatorDb.business, businessFields]
    by_cases hr : r.entity = Str.lit "weight_photo" <;>
      by_cases he : entityType = Str.lit "weight_photo" <;> cases cfg.cleanupEnabled <;> simp [hr, he]
  · simp only [Function.comp_apply]
    split_ifs <;> rfl

end

/-- The checks that `fetchAndStore` makes of a record before it stores it. -/
def CRecord.acceptable (r : CRecord) : Bool :=
  0 < r.id && r.recordKey.trimSpace ≠ [] && r.record ≠ [] && r.record ≠ Str.lit "null" &&
    (parse r.record).isSome

/-- The loop of `fetchAndStore`: the records are stored one by one until one cannot be. -/
def storePage (env : StoreEnv) (cfg : Config) (now : ℤ) : List CRecord → ReplicatorDb → ReplicatorDb
  | [], db => db
  | r :: rs, db =>
      if r.acceptable then
        match storeRecord env cfg now r db with
        | some db' => storePage env cfg now rs db'
        | none => db
      else db

/-! ## The delete queue -/

/-- `deleteJob`. -/
structure DeleteJob where
  id : ℕ
  cRecordId : ℤ
  recordKey : Str
  retries : ℤ
  deriving DecidableEq, Repr

/-- The queue rows that are due. -/
def due (now : ℤ) (r : Entry Str QueueRow) : Bool :=
  (r.val.status = .pending || r.val.status = .failed) && r.val.nextAttemptAt ≤ now

/-- The job of a queue row. -/
def jobOf (r : Entry Str QueueRow) : DeleteJob := ⟨r.id, r.val.cRecordId, r.val.recordKey, r.val.retryCount⟩

/-- `loadDeleteJobs`. -/
def loadDeleteJobs (cfg : Config) (now : ℤ) (t : KeyedTable Str QueueRow) : List DeleteJob :=
  (window (fun a b => a.id ≤ b.id) cfg.batchSize (t.rows.filter (due now))).map jobOf

/-- `retryDelay`, in seconds. -/
def retryDelay (retries : ℤ) : ℤ := 2 ^ ((min retries 8) - 1).toNat

/-- `markDeleteDone`. -/
def markDeleteDone (now : ℤ) (id : ℕ) (t : KeyedTable Str QueueRow) : KeyedTable Str QueueRow :=
  t.updateWhere (fun r => r.id = id)
    fun row => { row with status := .done, lastError := none, completedAt := some now }

/-- `markDeleteFailure`; `cause` is the text of the error, cut to its column. -/
def markDeleteFailure (now : ℤ) (job : DeleteJob) (cause : Str) (t : KeyedTable Str QueueRow) :
    KeyedTable Str QueueRow :=
  t.updateWhere (fun r => r.id = job.id) fun row =>
    { row with
      status := .failed
      retryCount := job.retries + 1
      nextAttemptAt := now + retryDelay (job.retries + 1) * 1000000
      lastError := some (limitReader 4000 cause) }

end WeighingSync.Replicator
