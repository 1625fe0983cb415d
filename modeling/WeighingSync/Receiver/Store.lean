import WeighingSync.Common.Chunks
import WeighingSync.Common.KeyedTable
import WeighingSync.Receiver.Record

/-!
# The tables of the receiver

`insertPayload`, `upsertRecords` and `deleteRecord` of `cmd/receiver/main.go` over the tables
`wds_receive_records` and `wds_receive_batches`, on the SQLite back end. A transaction is a chain of
statements any of which may fail; it then leaves both tables as they were. The readings of the clock
are texts of `timeString` and come with the request.
-/

namespace WeighingSync.Receiver

open Go

/-! ## Records -/

/-- The columns of a record that an upload sets. -/
structure RecordContent where
  entityType : Str
  keyType : Str
  serialNo : Option Str
  plateNo : Option Str
  sourceTime : Option Str
  source : Str
  sourceDatabase : Str
  sourceTable : Str
  uploadedAt : Option Str
  rawRecord : Option Str
  deriving DecidableEq, Repr

/-- The value columns of `wds_receive_records`. -/
structure StoredRecord where
  content : RecordContent
  ingestedAt : Str
  cloudUpdatedAt : Str
  deriving DecidableEq, Repr

/-- `wds_receive_records`, keyed by `record_key`. -/
abbrev RecordTable := KeyedTable Str StoredRecord

/-- The values of one row of the multi-row insert. -/
structure UpsertRow where
  key : Str
  content : RecordContent
  now : Str
  deriving DecidableEq, Repr

/-- One row of the insert: `ON CONFLICT(record_key)` keeps the id and `ingested_at`. -/
def RecordTable.upsertRow (t : RecordTable) (r : UpsertRow) : RecordTable :=
  t.upsert r.key ⟨r.content, r.now, r.now⟩
    fun old => { old with content := r.content, cloudUpdatedAt := r.now }

/-- The rows of a multi-row insert take effect one after another. -/
def RecordTable.upsertRows (t : RecordTable) (rows : List UpsertRow) : RecordTable :=
  rows.foldl RecordTable.upsertRow t

/-! ## Batches -/

/-- The value columns of `wds_receive_batches`. -/
structure BatchRow where
  source : Str
  sourceDatabase : Str
  sourceTable : Str
  recordsCount : ℕ
  acceptedCount : ℕ
  failedCount : ℕ
  uploadedAt : Option Str
  receivedAt : Str
  deriving DecidableEq, Repr

/-- The two tables of the receiver. -/
structure ReceiverDb where
  records : RecordTable
  batches : KeyedTable Str BatchRow

/-! ## Upserting the records of an entity -/

/-- The settings of the receiver that its handlers read. -/
structure Config where
  maxBodyBytes : ℤ
  defaultLimit : ℤ
  maxLimit : ℤ
  storeRawRecords : Bool
  storeRawPayload : Bool
  returnRawRecords : Bool
  minDeleteAgeHours : ℤ
  limits : 0 < defaultLimit ∧ 0 < maxLimit ∧ defaultLimit ≤ maxLimit
  min_age : 168 ≤ minDeleteAgeHours

theorem limits_default : (0 : ℤ) < 100 ∧ (0 : ℤ) < 1000 ∧ (100 : ℤ) ≤ 1000 := by decide

theorem min_age_default : (168 : ℤ) ≤ 168 := le_refl _

/-- The statements of the transaction of an upload. -/
inductive TxStatement
  | begin
  | batch
  | chunk (entityType : Str) (index : ℕ)
  | counts
  | commit
  deriving DecidableEq, Repr

/-- What a request to store meets: how time texts are read, the id it is given, its readings of the
clock (`stamp` for the records of an entity, one by one), and which statements fail. -/
structure PostEnv where
  timeText : Str → Option Str
  requestID : Str
  receivedAt : Str
  stamp : Str → ℕ → Str
  repliedAt : Str
  fails : TxStatement → Bool

/-- The columns of an upload that all its records share. -/
structure UploadOrigin where
  source : Str
  database : Str
  uploadedAt : Option Str

/-- The row that a record is stored as, if it has a key. -/
def upsertRowOf (cfg : Config) (env : PostEnv) (origin : UploadOrigin) (batch : EntityBatch)
    (record : Record) (now : Str) : Option UpsertRow :=
  if keyed batch.entityType record then
    some {
      key := recordKey batch.entityType record
      content := {
        entityType := batch.entityType
        keyType := (extractRecordKey batch.entityType record).1
        serialNo := nullableString (extractString record ["serialNo", "serial_no"])
        plateNo := nullableString
          (extractString record ["plateNo", "plate_no", "plateNumber", "plate_number"])
        sourceTime := sourceTime env.timeText record
        source := origin.source
        sourceDatabase := origin.database
        sourceTable := batch.sourceTable
        uploadedAt := origin.uploadedAt
        rawRecord := if cfg.storeRawRecords then some (Json.canonical (.obj record)).encode else none }
      now }
  else none

/-- The records of a batch, each with its reading of the clock. -/
def stamped (env : PostEnv) (batch : EntityBatch) : List (Record × Str) :=
  batch.records.zipIdx.map fun (record, i) => (record, env.stamp batch.entityType i)

/-- `upsertRecords`, up to its statement: the rows to insert, their keys, and an empty key for every
record without one. -/
def upsertRecords (cfg : Config) (env : PostEnv) (origin : UploadOrigin) (batch : EntityBatch)
    (records : List (Record × Str)) : List UpsertRow × List Str × List Str :=
  let values := records.filterMap fun (record, now) => upsertRowOf cfg env origin batch record now
  (values, values.map UpsertRow.key,
    (records.filter fun r => !keyed batch.entityType r.1).map fun _ => [])

/-- `insertChunkSize`. -/
def insertChunkSize : ℕ := 500

/-- A statement within a transaction. -/
def execute {σ : Type*} (env : PostEnv) (statement : TxStatement) (f : σ → σ) (tx : σ) :
    Except TxStatement σ :=
  if env.fails statement then .error statement else .ok (f tx)

/-- One chunk: a chunk without a keyed record executes no statement. -/
def insertChunk (cfg : Config) (env : PostEnv) (origin : UploadOrigin) (batch : EntityBatch)
    (tx : RecordTable) (chunk : List (Record × Str) × ℕ) :
    Except TxStatement (RecordTable × List Str × List Str) := do
  let (values, accepted, failed) := upsertRecords cfg env origin batch chunk.1
  if values = [] then return (tx, accepted, failed)
  else
    let tx ← execute env (.chunk batch.entityType chunk.2) (fun t => t.upsertRows values) tx
    return (tx, accepted, failed)

/-- The chunks of a batch, one after another. -/
def insertChunks (cfg : Config) (env : PostEnv) (origin : UploadOrigin) (batch : EntityBatch) :
    RecordTable → List (List (Record × Str) × ℕ) →
      Except TxStatement (RecordTable × List Str × List Str)
  | tx, [] => .ok (tx, [], [])
  | tx, chunk :: rest => do
      let (tx, accepted, failed) ← insertChunk cfg env origin batch tx chunk
      let (tx, accepted', failed') ← insertChunks cfg env origin batch tx rest
      return (tx, accepted ++ accepted', failed ++ failed')

/-- The entity batches, one after another. -/
def insertBatches (cfg : Config) (env : PostEnv) (origin : UploadOrigin) :
    RecordTable → List EntityBatch → Except TxStatement (RecordTable × List Str × List Str)
  | tx, [] => .ok (tx, [], [])
  | tx, batch :: rest => do
      let (tx, accepted, failed) ←
        insertChunks cfg env origin batch tx (chunks insertChunkSize (stamped env batch)).zipIdx
      let (tx, accepted', failed') ← insertBatches cfg env origin tx rest
      return (tx, accepted ++ accepted', failed ++ failed')

/-! ## Storing an upload -/

/-- The columns shared by the records of a payload. -/
def originOf (env : PostEnv) (payload : UploadPayload) : UploadOrigin where
  source := fallback payload.source "unknown"
  database := fallback payload.database "unknown"
  uploadedAt := parseAnyTime env.timeText (some payload.uploadedAt)

/-- `upsertBatchSQL`: the row of a request, before its counts are known. -/
def upsertBatch (env : PostEnv) (payload : UploadPayload)
    (t : KeyedTable Str BatchRow) : KeyedTable Str BatchRow :=
  let origin := originOf env payload
  let count := total payload.entityRecords
  let row : BatchRow := {
    source := origin.source
    sourceDatabase := origin.database
    sourceTable := fallback payload.table "multiple"
    recordsCount := count
    acceptedCount := count
    failedCount := 0
    uploadedAt := origin.uploadedAt
    receivedAt := env.receivedAt }
  t.upsert env.requestID row fun old =>
    { row with
      source := old.source
      sourceDatabase := old.sourceDatabase
      sourceTable := old.sourceTable }

/-- The statement that sets the counts of a request. -/
def setCounts (env : PostEnv) (accepted failed : ℕ) (t : KeyedTable Str BatchRow) :
    KeyedTable Str BatchRow :=
  t.updateWhere (fun r => r.key = env.requestID)
    fun row => { row with acceptedCount := accepted, failedCount := failed }

/-- The statements of `insertPayload` up to its commit. -/
def insertTx (cfg : Config) (env : PostEnv) (payload : UploadPayload) (db : ReceiverDb) :
    Except TxStatement (ReceiverDb × List Str × List Str) := do
  let db ← execute env .begin id db
  let batches ← execute env .batch (upsertBatch env payload) db.batches
  let (records, accepted, failed) ←
    insertBatches cfg env (originOf env payload) db.records payload.entityRecords
  let batches ← execute env .counts (setCounts env accepted.length failed.length) batches
  let db ← execute env .commit id ⟨records, batches⟩
  return (db, accepted, failed)

/-- `insertPayload`: the accepted and the failed keys, or the statement that failed; the deferred
rollback then leaves the tables as they were. -/
def insertPayload (cfg : Config) (env : PostEnv) (payload : UploadPayload) (db : ReceiverDb) :
    ReceiverDb × Except TxStatement (List Str × List Str) :=
  match insertTx cfg env payload db with
  | .ok (db', accepted, failed) => (db', .ok (accepted, failed))
  | .error e => (db, .error e)

/-! ## Deletion -/

/-- `COALESCE(source_time, ingested_at)`, which both the order of queries and the age of a record go
by. -/
def StoredRecord.effectiveTime (r : StoredRecord) : Str := r.content.sourceTime.getD r.ingestedAt

/-- The rows that `deleteRecord` removes: those that match and are older than the cutoff. -/
def deletable (cutoff : Str) (p : Entry Str StoredRecord → Bool) (r : Entry Str StoredRecord) : Bool :=
  p r && Str.lt r.val.effectiveTime cutoff

/-- `deleteRecord`: whether a row was removed, and the table without it. -/
def deleteRecord (t : RecordTable) (cutoff : Str) (p : Entry Str StoredRecord → Bool) :
    Bool × RecordTable :=
  (t.rows.any (deletable cutoff p), t.deleteWhere (deletable cutoff p))

/-! ## What storing an upload does -/

/-- The rows that a payload is stored as, in order. -/
def rowsOf (cfg : Config) (env : PostEnv) (payload : UploadPayload) : List UpsertRow :=
  payload.entityRecords.flatMap fun batch =>
    (stamped env batch).filterMap fun (record, now) =>
      upsertRowOf cfg env (originOf env payload) batch record now

/-- An empty key for every record of a payload that has none. -/
def unkeyedOf (payload : UploadPayload) : List Str :=
  payload.entityRecords.flatMap fun batch =>
    (batch.records.filter fun r => !keyed batch.entityType r).map fun _ => []

theorem execute_eq_ok_iff {σ : Type*} {env : PostEnv} {statement : TxStatement} {f : σ → σ} {tx tx' : σ} :
    execute env statement f tx = .ok tx' ↔ env.fails statement = false ∧ tx' = f tx := by
  unfold execute
  cases env.fails statement <;> simp [eq_comm]

/-- After an upsert of rows their keys are there, with the keys that were there. -/
theorem mem_keys_upsertRows {t : RecordTable} {rows : List UpsertRow} {key : Str} :
    key ∈ (t.upsertRows rows).keys ↔ key ∈ t.keys ∨ key ∈ rows.map UpsertRow.key := by
  induction rows generalizing t with
  | nil => simp [RecordTable.upsertRows]
  | cons row rows ih =>
      show key ∈ ((t.upsertRow row).upsertRows rows).keys ↔ _
      rw [ih, RecordTable.upsertRow, KeyedTable.mem_keys_upsert, List.map_cons, List.mem_cons,
        or_assoc]

/-- What the records of a list leave behind, as `upsertRecords` collects it. -/
structure Collected (tx tx' : RecordTable) (rows : List UpsertRow) (accepted failed unkeyed : List Str) :
    Prop where
  table : tx' = tx.upsertRows rows
  accepted : accepted = rows.map UpsertRow.key
  failed : failed = unkeyed

theorem Collected.append {tx tx₁ tx₂ : RecordTable} {rows rows' : List UpsertRow}
    {accepted accepted' failed failed' unkeyed unkeyed' : List Str}
    (h : Collected tx tx₁ rows accepted failed unkeyed)
    (h' : Collected tx₁ tx₂ rows' accepted' failed' unkeyed') :
    Collected tx tx₂ (rows ++ rows') (accepted ++ accepted') (failed ++ failed')
      (unkeyed ++ unkeyed') where
  table := by rw [h'.table, h.table, RecordTable.upsertRows, RecordTable.upsertRows,
    RecordTable.upsertRows, List.foldl_append]
  accepted := by rw [h.accepted, h'.accepted, List.map_append]
  failed := by rw [h.failed, h'.failed]

/-- A chunk that goes through has upserted its keyed records in order. -/
theorem insertChunk_ok {cfg : Config} {env : PostEnv} {origin : UploadOrigin} {batch : EntityBatch}
    {tx tx' : RecordTable} {chunk : List (Record × Str) × ℕ} {accepted failed : List Str}
    (h : insertChunk cfg env origin batch tx chunk = .ok (tx', accepted, failed)) :
    Collected tx tx' (upsertRecords cfg env origin batch chunk.1).1 accepted failed
      (upsertRecords cfg env origin batch chunk.1).2.2 := by
  unfold insertChunk at h
  simp only at h
  split at h
  · next hnone =>
    cases h
    exact ⟨by rw [hnone]; rfl, rfl, rfl⟩
  · obtain ⟨tx₁, htx, hrest⟩ := bind_eq_ok_iff.mp h
    cases hrest
    exact ⟨(execute_eq_ok_iff.mp htx).2, rfl, rfl⟩

theorem insertChunks_ok {cfg : Config} {env : PostEnv} {origin : UploadOrigin} {batch : EntityBatch}
    {parts : List (List (Record × Str) × ℕ)} {tx tx' : RecordTable} {accepted failed : List Str}
    (h : insertChunks cfg env origin batch tx parts = .ok (tx', accepted, failed)) :
    Collected tx tx'
      (upsertRecords cfg env origin batch (parts.map Prod.fst).flatten).1 accepted failed
      (upsertRecords cfg env origin batch (parts.map Prod.fst).flatten).2.2 := by
  induction parts generalizing tx accepted failed with
  | nil =>
      cases h
      exact ⟨rfl, rfl, rfl⟩
  | cons part parts ih =>
      rw [insertChunks] at h
      obtain ⟨⟨tx₁, accepted₁, failed₁⟩, hpart, h⟩ := bind_eq_ok_iff.mp h
      obtain ⟨⟨tx₂, accepted₂, failed₂⟩, hparts, h⟩ := bind_eq_ok_iff.mp h
      cases h
      have hall := (insertChunk_ok hpart).append (ih hparts)
      simpa [upsertRecords] using hall

/-- The entity batches that go through have upserted their keyed records in order. -/
theorem insertBatches_ok {cfg : Config} {env : PostEnv} {origin : UploadOrigin}
    {batches : List EntityBatch} {tx tx' : RecordTable} {accepted failed : List Str}
    (h : insertBatches cfg env origin tx batches = .ok (tx', accepted, failed)) :
    Collected tx tx'
      (batches.flatMap fun batch => (upsertRecords cfg env origin batch (stamped env batch)).1)
      accepted failed
      (batches.flatMap fun batch => (upsertRecords cfg env origin batch (stamped env batch)).2.2) := by
  induction batches generalizing tx accepted failed with
  | nil =>
      cases h
      exact ⟨rfl, rfl, rfl⟩
  | cons batch batches ih =>
      rw [insertBatches] at h
      obtain ⟨⟨tx₁, accepted₁, failed₁⟩, hbatch, h⟩ := bind_eq_ok_iff.mp h
      obtain ⟨⟨tx₂, accepted₂, failed₂⟩, hbatches, h⟩ := bind_eq_ok_iff.mp h
      cases h
      have hfirst := insertChunks_ok hbatch
      rw [List.zipIdx_map_fst, flatten_chunks (by decide)] at hfirst
      exact hfirst.append (ih hbatches)

@[simp] theorem map_fst_stamped (env : PostEnv) (batch : EntityBatch) :
    (stamped env batch).map Prod.fst = batch.records := by
  rw [stamped, List.map_map]
  exact List.zipIdx_map_fst _ _

/-- The records without a key, in a batch whose records carry their readings of the clock. -/
theorem unkeyed_stamped (env : PostEnv) (batch : EntityBatch) :
    ((stamped env batch).filter fun r => !keyed batch.entityType r.1).map (fun _ => ([] : Str)) =
      (batch.records.filter fun r => !keyed batch.entityType r).map fun _ => [] := by
  rw [← map_fst_stamped env batch, List.filter_map, List.map_map]
  rfl

/-- An upload that is stored: no statement has failed, the records are upserted in order, every keyed
record is accepted under its key and every other one reported with an empty key. -/
theorem insertPayload_ok {cfg : Config} {env : PostEnv} {payload : UploadPayload} {db db' : ReceiverDb}
    {accepted failed : List Str}
    (h : insertPayload cfg env payload db = (db', .ok (accepted, failed))) :
    db'.records = db.records.upsertRows (rowsOf cfg env payload) ∧
      db'.batches = setCounts env accepted.length failed.length
        (upsertBatch env payload db.batches) ∧
      accepted = (rowsOf cfg env payload).map UpsertRow.key ∧ failed = unkeyedOf payload := by
  unfold insertPayload at h
  split at h
  · next db₁ accepted₁ failed₁ htx =>
    cases h
    unfold insertTx at htx
    obtain ⟨db₂, hbegin, htx⟩ := bind_eq_ok_iff.mp htx
    obtain ⟨batches, hbatch, htx⟩ := bind_eq_ok_iff.mp htx
    obtain ⟨⟨records, accepted₂, failed₂⟩, hrecords, htx⟩ := bind_eq_ok_iff.mp htx
    obtain ⟨batches', hcounts, htx⟩ := bind_eq_ok_iff.mp htx
    obtain ⟨db₃, hcommit, htx⟩ := bind_eq_ok_iff.mp htx
    cases htx
    obtain ⟨-, rfl⟩ := execute_eq_ok_iff.mp hbegin
    obtain ⟨-, rfl⟩ := execute_eq_ok_iff.mp hbatch
    obtain ⟨-, rfl⟩ := execute_eq_ok_iff.mp hcounts
    obtain ⟨-, rfl⟩ := execute_eq_ok_iff.mp hcommit
    have hall := insertBatches_ok hrecords
    refine ⟨hall.table, rfl, hall.accepted, ?_⟩
    rw [hall.failed, unkeyedOf]
    simp only [upsertRecords, unkeyed_stamped]
  · cases h

/-- An upload is stored if no statement fails. -/
theorem insertPayload_of_no_failure {env : PostEnv} (h : ∀ statement, env.fails statement = false)
    (cfg : Config) (payload : UploadPayload) (db : ReceiverDb) :
    ∃ db' keys, insertPayload cfg env payload db = (db', .ok keys) := by
  have hexecute : ∀ {σ : Type} (statement : TxStatement) (f : σ → σ) (tx : σ),
      execute env statement f tx = .ok (f tx) := by
    intro σ statement f tx
    exact execute_eq_ok_iff.mpr ⟨h statement, rfl⟩
  have hchunk : ∀ origin batch tx chunk,
      ∃ result, insertChunk cfg env origin batch tx chunk = .ok result := by
    intro origin batch tx chunk
    unfold insertChunk
    simp only [hexecute]
    split_ifs <;> exact ⟨_, rfl⟩
  have hchunks : ∀ origin batch parts tx,
      ∃ result, insertChunks cfg env origin batch tx parts = .ok result := by
    intro origin batch parts
    induction parts with
    | nil => exact fun tx => ⟨_, rfl⟩
    | cons part parts ih =>
        intro tx
        obtain ⟨first, hfirst⟩ := hchunk origin batch tx part
        obtain ⟨rest, hrest⟩ := ih first.1
        exact ⟨_, bind_eq_ok_iff.mpr ⟨first, hfirst, bind_eq_ok_iff.mpr ⟨rest, hrest, rfl⟩⟩⟩
  have hbatches : ∀ origin batches tx,
      ∃ result, insertBatches cfg env origin tx batches = .ok result := by
    intro origin batches
    induction batches with
    | nil => exact fun tx => ⟨_, rfl⟩
    | cons batch batches ih =>
        intro tx
        obtain ⟨first, hfirst⟩ := hchunks origin batch
          (chunks insertChunkSize (stamped env batch)).zipIdx tx
        obtain ⟨rest, hrest⟩ := ih first.1
        exact ⟨_, bind_eq_ok_iff.mpr ⟨first, hfirst, bind_eq_ok_iff.mpr ⟨rest, hrest, rfl⟩⟩⟩
  obtain ⟨result, hresult⟩ := hbatches (originOf env payload) payload.entityRecords db.records
  -- the statements of the transaction, one after the other
  have htx : ∃ result, insertTx cfg env payload db = .ok result :=
    ⟨_, bind_eq_ok_iff.mpr ⟨_, hexecute _ _ _, bind_eq_ok_iff.mpr ⟨_, hexecute _ _ _,
      bind_eq_ok_iff.mpr ⟨result, hresult, bind_eq_ok_iff.mpr ⟨_, hexecute _ _ _,
        bind_eq_ok_iff.mpr ⟨_, hexecute _ _ _, rfl⟩⟩⟩⟩⟩⟩
  obtain ⟨⟨db', keys⟩, htx⟩ := htx
  exact ⟨db', keys, by rw [insertPayload, htx]⟩

/-- An upload that is not stored leaves the tables as they were. -/
theorem insertPayload_error {cfg : Config} {env : PostEnv} {payload : UploadPayload}
    {db db' : ReceiverDb} {e : TxStatement}
    (h : insertPayload cfg env payload db = (db', .error e)) : db' = db := by
  unfold insertPayload at h
  split at h
  · cases h
  · cases h
    rfl

end WeighingSync.Receiver
