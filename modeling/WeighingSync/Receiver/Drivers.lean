import WeighingSync.Go.Collation
import WeighingSync.Receiver.Redelivery

/-!
# The SQL of the two drivers

`upsertBatchSQL`, `upsertRecordSuffixSQL` and the statement of `deleteRecord` of
`cmd/receiver/main.go`, under the tables that `migrationSQL` creates for either driver. SQLite
compares texts exactly and takes texts of any length, but checks that raw records and payloads are JSON.
MySQL compares them by the sort keys of a collation, so that a unique key finds every key that the
collation does not tell from it, and refuses a text that is longer than its column; what it stores as raw
is any text. A row that is found keeps its `record_key`. The ids that are skipped are not followed.
-/

namespace WeighingSync.Receiver

open Go

/-- How a driver takes texts: what it compares them by, whether a text fits a column of a declared number
of characters, and whether a text may be stored as raw. -/
structure Driver where
  sortKey : Str → Str
  varchar : ℕ → Str → Bool
  raw : Str → Bool

/-- The columns of SQLite are of the type `text`, those for raw texts with `CHECK (… json_valid(…))`. -/
def sqlite (jsonValid : Str → Bool) : Driver where
  sortKey := id
  varchar _ _ := true
  raw := jsonValid

/-- The columns of MySQL are of the type `VARCHAR` under a collation, those for raw texts `LONGTEXT`. -/
def mysql (collation : Collation) : Driver where
  sortKey := collation.sortKey
  varchar width s := s.length ≤ width
  raw _ := true

/-! ## The raw payload -/

/-- `json.Marshal` of a payload. A list without records may also be written as `[]`, which is as valid. -/
def UploadPayload.json (payload : UploadPayload) : Json :=
  let list (records : List Record) : Json :=
    if records = [] then .null else .arr (records.map fun record => Json.canonical (.obj record))
  .obj [(Str.lit "source", .str payload.source),
    (Str.lit "database", .str payload.database),
    (Str.lit "table", .str payload.table),
    (Str.lit "uploaded_at", payload.uploadedAt.canonical),
    (Str.lit "records", list payload.records),
    (Str.lit "weight_info_records", list payload.weightInfoRecords),
    (Str.lit "weight_photo_records", list payload.weightPhotoRecords)]

/-- What `insertPayload` binds as `raw_payload`. -/
def rawPayloadText (cfg : Config) (payload : UploadPayload) : Option Str :=
  if cfg.storeRawPayload then some payload.json.encode else none

section

variable (D : Driver)

/-! ## Columns -/

/-- The text fits a column that may be null. -/
def fitsNullable (width : ℕ) (s : Option Str) : Bool := s.all (D.varchar width)

/-- The columns of `wds_receive_records` take a row. -/
def fitsRow (u : UpsertRow) : Bool :=
  D.varchar 191 u.key && D.varchar 32 u.content.entityType && D.varchar 64 u.content.keyType &&
  fitsNullable D 191 u.content.serialNo && fitsNullable D 191 u.content.plateNo &&
  fitsNullable D 64 u.content.sourceTime && D.varchar 191 u.content.source &&
  D.varchar 191 u.content.sourceDatabase && D.varchar 191 u.content.sourceTable &&
  fitsNullable D 64 u.content.uploadedAt && u.content.rawRecord.all D.raw && D.varchar 64 u.now

/-- The columns of `wds_receive_batches` take the row of a request. -/
def fitsBatch (cfg : Config) (env : PostEnv) (payload : UploadPayload) : Bool :=
  D.varchar 64 env.requestID && D.varchar 191 (originOf env payload).source &&
  D.varchar 191 (originOf env payload).database &&
  D.varchar 191 (fallback payload.table "multiple") &&
  fitsNullable D 64 (originOf env payload).uploadedAt && D.varchar 64 env.receivedAt &&
  (rawPayloadText cfg payload).all D.raw

/-! ## Statements -/

/-- The key of the row that a unique key finds, or the key itself. -/
def storedKey {α : Type*} (t : KeyedTable Str α) (key : Str) : Str :=
  ((t.rows.find? fun r => D.sortKey r.key = D.sortKey key).map Entry.key).getD key

/-- One row of the insert. -/
def upsertRowOn (t : RecordTable) (u : UpsertRow) : RecordTable :=
  t.upsertRow { u with key := storedKey D t u.key }

/-- The rows of an insert, one after another. -/
def upsertRowsOn (t : RecordTable) (rows : List UpsertRow) : RecordTable :=
  rows.foldl (upsertRowOn D) t

/-- `upsertBatchSQL`. -/
def upsertBatchOn (env : PostEnv) (payload : UploadPayload) (t : KeyedTable Str BatchRow) :
    KeyedTable Str BatchRow :=
  upsertBatch { env with requestID := storedKey D t env.requestID } payload t

/-- The statement that sets the counts of a request. -/
def setCountsOn (env : PostEnv) (accepted failed : ℕ) (t : KeyedTable Str BatchRow) :
    KeyedTable Str BatchRow :=
  t.updateWhere (fun r => D.sortKey r.key = D.sortKey env.requestID)
    fun row => { row with acceptedCount := accepted, failedCount := failed }

/-- The rows that `deleteRecord` removes for a `record_key`. -/
def deletableOn (cutoff key : Str) (r : Entry Str StoredRecord) : Bool :=
  D.sortKey r.key = D.sortKey key && Str.lt (D.sortKey r.val.effectiveTime) (D.sortKey cutoff)

/-- `deleteByKey`, with the text of the cutoff. -/
def deleteByKeyOn (cfg : Config) (t : RecordTable) (cutoff key : Str) : Reply × RecordTable :=
  (Reply.json 200 (.obj [
    (Str.lit "deleted", .bool (t.rows.any (deletableOn D cutoff key))),
    (Str.lit "min_delete_age_hours", .num (itoa cfg.minDeleteAgeHours)),
    (Str.lit "record_key", .str key)]), t.deleteWhere (deletableOn D cutoff key))

/-! ## The transaction of an upload -/

/-- A statement whose values fit their columns or do not. -/
def executeOn {σ : Type*} (fits : Bool) (env : PostEnv) (statement : TxStatement) (f : σ → σ)
    (tx : σ) : Except TxStatement σ :=
  if fits then execute env statement f tx else .error statement

/-- `insertChunk`, with the statement of the driver. -/
def insertChunkOn (cfg : Config) (env : PostEnv) (origin : UploadOrigin) (batch : EntityBatch)
    (tx : RecordTable) (chunk : List (Record × Str) × ℕ) :
    Except TxStatement (RecordTable × List Str × List Str) := do
  let (values, accepted, failed) := upsertRecords cfg env origin batch chunk.1
  if values = [] then return (tx, accepted, failed)
  else
    let tx ← executeOn (values.all (fitsRow D)) env (.chunk batch.entityType chunk.2)
      (fun t => upsertRowsOn D t values) tx
    return (tx, accepted, failed)

/-- `insertChunks`, with the statements of the driver. -/
def insertChunksOn (cfg : Config) (env : PostEnv) (origin : UploadOrigin) (batch : EntityBatch) :
    RecordTable → List (List (Record × Str) × ℕ) →
      Except TxStatement (RecordTable × List Str × List Str)
  | tx, [] => .ok (tx, [], [])
  | tx, chunk :: rest => do
      let (tx, accepted, failed) ← insertChunkOn D cfg env origin batch tx chunk
      let (tx, accepted', failed') ← insertChunksOn cfg env origin batch tx rest
      return (tx, accepted ++ accepted', failed ++ failed')

/-- `insertBatches`, with the statements of the driver. -/
def insertBatchesOn (cfg : Config) (env : PostEnv) (origin : UploadOrigin) :
    RecordTable → List EntityBatch → Except TxStatement (RecordTable × List Str × List Str)
  | tx, [] => .ok (tx, [], [])
  | tx, batch :: rest => do
      let (tx, accepted, failed) ←
        insertChunksOn D cfg env origin batch tx (chunks insertChunkSize (stamped env batch)).zipIdx
      let (tx, accepted', failed') ← insertBatchesOn cfg env origin tx rest
      return (tx, accepted ++ accepted', failed ++ failed')

/-- The statements of `insertPayload` up to its commit. -/
def insertTxOn (cfg : Config) (env : PostEnv) (payload : UploadPayload) (db : ReceiverDb) :
    Except TxStatement (ReceiverDb × List Str × List Str) := do
  let db ← execute env .begin id db
  let batches ←
    executeOn (fitsBatch D cfg env payload) env .batch (upsertBatchOn D env payload) db.batches
  let (records, accepted, failed) ←
    insertBatchesOn D cfg env (originOf env payload) db.records payload.entityRecords
  let batches ← execute env .counts (setCountsOn D env accepted.length failed.length) batches
  let db ← execute env .commit id ⟨records, batches⟩
  return (db, accepted, failed)

/-- `insertPayload`. -/
def insertPayloadOn (cfg : Config) (env : PostEnv) (payload : UploadPayload) (db : ReceiverDb) :
    ReceiverDb × Except TxStatement (List Str × List Str) :=
  match insertTxOn D cfg env payload db with
  | .ok (db', accepted, failed) => (db', .ok (accepted, failed))
  | .error e => (db, .error e)

end

/-- Every column takes what an upload stores. -/
def takes (D : Driver) (cfg : Config) (env : PostEnv) (payload : UploadPayload) : Bool :=
  fitsBatch D cfg env payload && (rowsOf cfg env payload).all (fitsRow D)

/-! ## SQLite -/

section

variable (jsonValid : Str → Bool)

theorem storedKey_sqlite {α : Type*} (t : KeyedTable Str α) (key : Str) :
    storedKey (sqlite jsonValid) t key = key := by
  unfold storedKey sqlite
  cases hfind : t.rows.find? fun r => id r.key = id key with
  | none => rfl
  | some r => simpa using List.find?_some hfind

theorem upsertRowsOn_sqlite (t : RecordTable) (rows : List UpsertRow) :
    upsertRowsOn (sqlite jsonValid) t rows = t.upsertRows rows := by
  have hrow : upsertRowOn (sqlite jsonValid) = RecordTable.upsertRow := by
    funext t u
    rw [upsertRowOn, storedKey_sqlite]
  rw [upsertRowsOn, hrow, RecordTable.upsertRows]

/-- SQLite takes an upload exactly if its raw texts are JSON. -/
theorem takes_sqlite_iff (cfg : Config) (env : PostEnv) (payload : UploadPayload) :
    takes (sqlite jsonValid) cfg env payload = true ↔
      (∀ text ∈ rawPayloadText cfg payload, jsonValid text = true) ∧
        ∀ u ∈ rowsOf cfg env payload, ∀ text ∈ u.content.rawRecord, jsonValid text = true := by
  have hoption : ∀ o : Option Str, o.all jsonValid = true ↔ ∀ text ∈ o, jsonValid text = true := by
    intro o
    cases o <;> simp
  simp [takes, fitsBatch, fitsRow, fitsNullable, sqlite, hoption, List.all_eq_true]

/-- On SQLite the statements are those of `insertPayload`, as long as the raw texts are JSON. -/
theorem insertPayloadOn_sqlite {cfg : Config} {env : PostEnv} {payload : UploadPayload}
    (htakes : takes (sqlite jsonValid) cfg env payload = true) (db : ReceiverDb) :
    insertPayloadOn (sqlite jsonValid) cfg env payload db = insertPayload cfg env payload db := by
  rw [takes, Bool.and_eq_true, List.all_eq_true] at htakes
  obtain ⟨hfitsBatch, hfitsRows⟩ := htakes
  have hchunk : ∀ origin batch tx chunk,
      (upsertRecords cfg env origin batch chunk.1).1.all (fitsRow (sqlite jsonValid)) = true →
        insertChunkOn (sqlite jsonValid) cfg env origin batch tx chunk =
          insertChunk cfg env origin batch tx chunk := by
    intro origin batch tx chunk hfits
    simp only [insertChunkOn, insertChunk, executeOn, hfits, if_true, upsertRowsOn_sqlite]
  have hchunks : ∀ origin batch parts tx,
      (∀ part ∈ parts, (upsertRecords cfg env origin batch part.1).1.all (fitsRow (sqlite jsonValid)) = true) →
        insertChunksOn (sqlite jsonValid) cfg env origin batch tx parts =
          insertChunks cfg env origin batch tx parts := by
    intro origin batch parts
    induction parts with
    | nil => exact fun _ _ => rfl
    | cons part parts ih =>
        intro tx hfits
        obtain ⟨hpart, hparts⟩ := List.forall_mem_cons.mp hfits
        simp only [insertChunksOn, insertChunks, hchunk _ _ _ _ hpart, fun tx => ih tx hparts]
  have hbatches : ∀ origin batches tx,
      (∀ batch ∈ batches, ∀ u ∈ (upsertRecords cfg env origin batch (stamped env batch)).1,
        fitsRow (sqlite jsonValid) u = true) →
        insertBatchesOn (sqlite jsonValid) cfg env origin tx batches =
          insertBatches cfg env origin tx batches := by
    intro origin batches
    induction batches with
    | nil => exact fun _ _ => rfl
    | cons batch batches ih =>
        intro tx hfits
        obtain ⟨hbatch, hbatches⟩ := List.forall_mem_cons.mp hfits
        have hparts : ∀ part ∈ (chunks insertChunkSize (stamped env batch)).zipIdx,
            (upsertRecords cfg env origin batch part.1).1.all (fitsRow (sqlite jsonValid)) = true := by
          intro part hpart
          -- a chunk has no record that the batch does not have
          have hsubset : ∀ entry ∈ part.1, entry ∈ stamped env batch := by
            intro entry hentry
            rw [← flatten_chunks (n := insertChunkSize) (by decide) (stamped env batch)]
            exact List.mem_flatten.mpr ⟨part.1, List.fst_mem_of_mem_zipIdx hpart, hentry⟩
          rw [List.all_eq_true]
          intro u hu
          obtain ⟨entry, hentry, hrow⟩ := List.mem_filterMap.mp hu
          exact hbatch u (List.mem_filterMap.mpr ⟨entry, hsubset entry hentry, hrow⟩)
        simp only [insertBatchesOn, insertBatches, hchunks _ _ _ _ hparts, fun tx => ih tx hbatches]
  have hbatch : upsertBatchOn (sqlite jsonValid) env payload = upsertBatch env payload := by
    funext t
    rw [upsertBatchOn, storedKey_sqlite]
  have hcounts : setCountsOn (sqlite jsonValid) env = setCounts env := rfl
  have hrows : ∀ batch ∈ payload.entityRecords,
      ∀ u ∈ (upsertRecords cfg env (originOf env payload) batch (stamped env batch)).1,
        fitsRow (sqlite jsonValid) u = true := fun batch hmem u hu =>
    hfitsRows u (List.mem_flatMap.mpr ⟨batch, hmem, hu⟩)
  have htx : insertTxOn (sqlite jsonValid) cfg env payload db = insertTx cfg env payload db := by
    simp only [insertTxOn, insertTx, executeOn, hfitsBatch, if_true, hbatch,
      fun tx => hbatches _ _ tx hrows, hcounts]
  rw [insertPayload, ← htx]
  unfold insertPayloadOn
  cases insertTxOn (sqlite jsonValid) cfg env payload db <;> rfl

/-- On SQLite a deletion is that of `deleteByKey`. -/
theorem deleteByKeyOn_sqlite (cfg : Config) (t : RecordTable) (cutoff key : Str) :
    deleteByKeyOn (sqlite jsonValid) cfg t cutoff key = deleteByKey cfg t cutoff key := rfl

end

/-! ## What the transaction does -/

theorem toOption_bind {ε α β : Type} (x : Except ε α) (f : α → Except ε β) :
    (x >>= f).toOption = x.toOption.bind fun a => (f a).toOption := by
  cases x <;> rfl

section

variable {D : Driver} {env : PostEnv} (hfails : ∀ statement, env.fails statement = false)

include hfails

theorem toOption_execute {σ : Type} (statement : TxStatement) (f : σ → σ) (tx : σ) :
    (execute env statement f tx).toOption = some (f tx) := by
  rw [execute, hfails statement]
  rfl

theorem toOption_executeOn {σ : Type} (fits : Bool) (statement : TxStatement) (f : σ → σ) (tx : σ) :
    (executeOn fits env statement f tx).toOption = if fits then some (f tx) else none := by
  rw [executeOn]
  split_ifs
  · exact toOption_execute hfails statement f tx
  · rfl

/-- The chunks of a batch go through if every row fits. -/
theorem toOption_insertChunksOn (cfg : Config) (origin : UploadOrigin) (batch : EntityBatch)
    (parts : List (List (Record × Str) × ℕ)) (tx : RecordTable) :
    (insertChunksOn D cfg env origin batch tx parts).toOption =
      let collected := upsertRecords cfg env origin batch (parts.map Prod.fst).flatten
      if collected.1.all (fitsRow D) then some (upsertRowsOn D tx collected.1, collected.2)
      else none := by
  induction parts generalizing tx with
  | nil => rfl
  | cons part parts ih =>
      have hpart : (insertChunkOn D cfg env origin batch tx part).toOption =
          let collected := upsertRecords cfg env origin batch part.1
          if collected.1.all (fitsRow D) then some (upsertRowsOn D tx collected.1, collected.2)
          else none := by
        simp only [insertChunkOn]
        by_cases hnone : (upsertRecords cfg env origin batch part.1).1 = []
        · rw [if_pos hnone, hnone]
          rfl
        · rw [if_neg hnone, toOption_bind, toOption_executeOn hfails]
          split_ifs <;> rfl
      have hall : upsertRecords cfg env origin batch ((part :: parts).map Prod.fst).flatten =
          let first := upsertRecords cfg env origin batch part.1
          let rest := upsertRecords cfg env origin batch (parts.map Prod.fst).flatten
          (first.1 ++ rest.1, first.2.1 ++ rest.2.1, first.2.2 ++ rest.2.2) := by
        simp [upsertRecords]
      simp only [insertChunksOn, toOption_bind, hpart, hall, List.all_append, Bool.and_eq_true]
      by_cases hfirst : (upsertRecords cfg env origin batch part.1).1.all (fitsRow D) = true
      · rw [if_pos hfirst, Option.bind_some, ih]
        by_cases hrest : (upsertRecords cfg env origin batch
            (parts.map Prod.fst).flatten).1.all (fitsRow D) = true
        · rw [if_pos hrest, if_pos ⟨hfirst, hrest⟩, upsertRowsOn, upsertRowsOn, upsertRowsOn,
            List.foldl_append]
          rfl
        · rw [if_neg hrest, if_neg fun h => hrest h.2]
          rfl
      · rw [if_neg hfirst, if_neg fun h => hfirst h.1]
        rfl

/-- And so do the batches. -/
theorem toOption_insertBatchesOn (cfg : Config) (origin : UploadOrigin) (batches : List EntityBatch)
    (tx : RecordTable) :
    (insertBatchesOn D cfg env origin tx batches).toOption =
      let rows := batches.flatMap fun batch =>
        (upsertRecords cfg env origin batch (stamped env batch)).1
      let failed := batches.flatMap fun batch =>
        (upsertRecords cfg env origin batch (stamped env batch)).2.2
      if rows.all (fitsRow D) then
        some (upsertRowsOn D tx rows, rows.map UpsertRow.key, failed)
      else none := by
  induction batches generalizing tx with
  | nil => rfl
  | cons batch batches ih =>
      simp only [insertBatchesOn, toOption_bind, toOption_insertChunksOn hfails, List.zipIdx_map_fst,
        flatten_chunks (n := insertChunkSize) (by decide), List.flatMap_cons, List.all_append,
        Bool.and_eq_true]
      by_cases hfirst : (upsertRecords cfg env origin batch (stamped env batch)).1.all
          (fitsRow D) = true
      · rw [if_pos hfirst, Option.bind_some, ih]
        by_cases hrest : (batches.flatMap fun batch =>
            (upsertRecords cfg env origin batch (stamped env batch)).1).all (fitsRow D) = true
        · simp only [if_pos hrest, if_pos (And.intro hfirst hrest), upsertRowsOn, List.foldl_append,
            List.map_append]
          rfl
        · rw [if_neg hrest, if_neg fun h => hrest h.2]
          rfl
      · rw [if_neg hfirst, if_neg fun h => hfirst h.1]
        rfl

end

/-- Unless a statement fails by itself, an upload is stored exactly if every column takes it; its rows
are then upserted in order, and its reply lists its keys. -/
theorem insertPayloadOn_cases (D : Driver) {env : PostEnv}
    (hfails : ∀ statement, env.fails statement = false) (cfg : Config) (payload : UploadPayload)
    (db : ReceiverDb) :
    (takes D cfg env payload = true ∧ ∃ batches, insertPayloadOn D cfg env payload db =
      (⟨upsertRowsOn D db.records (rowsOf cfg env payload), batches⟩,
        .ok (acceptedOf payload, unkeyedOf payload))) ∨
    (takes D cfg env payload = false ∧ ∃ e, insertPayloadOn D cfg env payload db = (db, .error e)) := by
  have hrecords := toOption_insertBatchesOn (D := D) hfails cfg (originOf env payload)
    payload.entityRecords db.records
  have hunkeyed : (payload.entityRecords.flatMap fun batch =>
      (upsertRecords cfg env (originOf env payload) batch (stamped env batch)).2.2) =
        unkeyedOf payload := by
    simp only [upsertRecords, unkeyed_stamped]
    rfl
  have hrows : (payload.entityRecords.flatMap fun batch =>
      (upsertRecords cfg env (originOf env payload) batch (stamped env batch)).1) =
        rowsOf cfg env payload := rfl
  rw [hrows, hunkeyed] at hrecords
  simp only [map_key_rowsOf] at hrecords
  -- the transaction, whichever statement it fails at
  have htx : (insertTxOn D cfg env payload db).toOption =
      if takes D cfg env payload then
        some (⟨upsertRowsOn D db.records (rowsOf cfg env payload),
          setCountsOn D env (acceptedOf payload).length (unkeyedOf payload).length
            (upsertBatchOn D env payload db.batches)⟩, acceptedOf payload, unkeyedOf payload)
      else none := by
    simp only [insertTxOn, toOption_bind, toOption_execute hfails, toOption_executeOn hfails,
      Option.bind_some, takes, Bool.and_eq_true, id]
    by_cases hbatch : fitsBatch D cfg env payload = true
    · rw [if_pos hbatch, Option.bind_some, hrecords]
      by_cases hall : (rowsOf cfg env payload).all (fitsRow D) = true
      · rw [if_pos hall, if_pos ⟨hbatch, hall⟩]
        rfl
      · rw [if_neg hall, if_neg fun h => hall h.2]
        rfl
    · rw [if_neg hbatch, if_neg fun h => hbatch h.1]
      rfl
  cases htakes : takes D cfg env payload with
  | true =>
      rw [htakes, if_pos rfl] at htx
      refine Or.inl ⟨rfl, setCountsOn D env (acceptedOf payload).length (unkeyedOf payload).length
        (upsertBatchOn D env payload db.batches), ?_⟩
      rw [insertPayloadOn]
      cases hresult : insertTxOn D cfg env payload db with
      | error e =>
          rw [hresult] at htx
          cases htx
      | ok result =>
          rw [hresult] at htx
          cases htx
          rfl
  | false =>
      rw [htakes, if_neg (by decide)] at htx
      refine Or.inr ⟨rfl, ?_⟩
      rw [insertPayloadOn]
      cases hresult : insertTxOn D cfg env payload db with
      | error e => exact ⟨e, rfl⟩
      | ok result =>
          rw [hresult] at htx
          cases htx

end WeighingSync.Receiver
