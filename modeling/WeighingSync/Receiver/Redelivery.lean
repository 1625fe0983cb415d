import WeighingSync.Common.LastWriter
import WeighingSync.Receiver.Delete
import WeighingSync.Receiver.Server

/-!
# Uploads one after another

`insertPayload` sends its rows in chunks, which comes to a plain upsert of one record after another
(`insertPayload_refines`). So a row has what the last record of its key says in the payload that was
committed last (`content_of_last_commit`), and a payload that is delivered again changes nothing but
`cloud_updated_at` (`stable_deliver`).
-/

namespace WeighingSync.Receiver

open Go

/-! ## A plain upsert of each record -/

/-- The keyed records of a payload, upserted one by one. -/
def plainInsert (cfg : Config) (env : PostEnv) (payload : UploadPayload) (t : RecordTable) :
    RecordTable :=
  payload.entityRecords.foldl
    (fun t batch => (stamped env batch).foldl
      (fun t r => match upsertRowOf cfg env (originOf env payload) batch r.1 r.2 with
        | some row => t.upsertRow row
        | none => t) t) t

/-- The parameters of one row of an insert, in the order of its columns. -/
def rowArgs (u : UpsertRow) : List (Option Str) :=
  [some u.key, some u.content.entityType, some u.content.keyType, u.content.serialNo,
    u.content.plateNo, u.content.sourceTime, some u.content.source, some u.content.sourceDatabase,
    some u.content.sourceTable, u.content.uploadedAt, u.content.rawRecord, some u.now, some u.now]

/-- The parameters of an insert. -/
def insertArgs (rows : List UpsertRow) : List (Option Str) := rows.flatMap rowArgs

/-- The rows of each insert of a payload, chunk by chunk. -/
def inserts (cfg : Config) (env : PostEnv) (payload : UploadPayload) : List (List UpsertRow) :=
  payload.entityRecords.flatMap fun batch =>
    (chunks insertChunkSize (stamped env batch)).map fun chunk =>
      (upsertRecords cfg env (originOf env payload) batch chunk).1

/-- An upload that is stored as the plain upsert of its records would store it: the lists of keys
account for its records, and so do the counts of its batch row. -/
structure StoredPlainly (cfg : Config) (env : PostEnv) (payload : UploadPayload) (db db' : ReceiverDb)
    (accepted failed : List Str) : Prop where
  records : db'.records = plainInsert cfg env payload db.records
  statements : db'.records = (inserts cfg env payload).foldl RecordTable.upsertRows db.records
  keys : accepted = acceptedOf payload
  counted : accepted.length + failed.length = total payload.entityRecords
  present : env.requestID ∈ db'.batches.keys
  batch : ∀ b ∈ db'.batches.rows, b.key = env.requestID →
    b.val.recordsCount = total payload.entityRecords ∧ b.val.acceptedCount = accepted.length ∧
      b.val.failedCount = failed.length ∧
      b.val.recordsCount = b.val.acceptedCount + b.val.failedCount

/-- What `insertPayload` owes: an upload that goes through is stored plainly, and another one leaves
both tables as they were. -/
def InsertsPlainly (cfg : Config) (env : PostEnv) (payload : UploadPayload) (db : ReceiverDb) :
    ReceiverDb × Except TxStatement (List Str × List Str) → Prop
  | (db', .ok (accepted, failed)) => StoredPlainly cfg env payload db db' accepted failed
  | (db', .error _) => db' = db

theorem plainInsert_eq (cfg : Config) (env : PostEnv) (payload : UploadPayload) (t : RecordTable) :
    plainInsert cfg env payload t = t.upsertRows (rowsOf cfg env payload) := by
  rw [plainInsert, rowsOf, RecordTable.upsertRows]
  induction payload.entityRecords generalizing t with
  | nil => rfl
  | cons batch batches ih =>
      rw [List.foldl_cons, List.flatMap_cons, List.foldl_append, ih]
      congr 1
      rw [List.foldl_filterMap]
      apply List.foldl_ext
      rintro t ⟨record, now⟩ -
      dsimp only
      cases upsertRowOf cfg env (originOf env payload) batch record now <;> rfl

/-- The rows of the chunks, put together, are the rows of the payload. -/
theorem flatten_inserts (cfg : Config) (env : PostEnv) (payload : UploadPayload) :
    (inserts cfg env payload).flatten = rowsOf cfg env payload := by
  rw [inserts, rowsOf, List.flatMap_def, List.flatten_flatten, List.map_map, ← List.flatMap_def]
  refine List.flatMap_congr fun batch _ => ?_
  have hchunks : ∀ parts : List (List (Record × Str)),
      (parts.map fun chunk => (upsertRecords cfg env (originOf env payload) batch chunk).1).flatten =
        (upsertRecords cfg env (originOf env payload) batch parts.flatten).1 := by
    intro parts
    induction parts with
    | nil => rfl
    | cons part parts ih =>
        rw [List.map_cons, List.flatten_cons, ih, List.flatten_cons, upsertRecords, upsertRecords,
          upsertRecords, List.filterMap_append]
  show List.flatten _ = _
  rw [hchunks, flatten_chunks (by decide), upsertRecords]

theorem foldl_upsertRows (t : RecordTable) (parts : List (List UpsertRow)) :
    parts.foldl RecordTable.upsertRows t = t.upsertRows parts.flatten := by
  induction parts generalizing t with
  | nil => rfl
  | cons part parts ih =>
      rw [List.foldl_cons, ih, List.flatten_cons, RecordTable.upsertRows, RecordTable.upsertRows,
        RecordTable.upsertRows, List.foldl_append]

/-- No insert binds more parameters than a full chunk of records does. -/
theorem length_insertArgs_le {cfg : Config} {env : PostEnv} {payload : UploadPayload}
    {rows : List UpsertRow} (h : rows ∈ inserts cfg env payload) :
    (insertArgs rows).length ≤ insertChunkSize * 13 := by
  obtain ⟨batch, -, h⟩ := List.mem_flatMap.mp h
  obtain ⟨chunk, hchunk, rfl⟩ := List.mem_map.mp h
  have hlength : ∀ rows : List UpsertRow, (insertArgs rows).length = rows.length * 13 := by
    intro rows
    rw [insertArgs, List.length_flatMap]
    simp [rowArgs]
  have hrows : (upsertRecords cfg env (originOf env payload) batch chunk).1.length ≤ chunk.length :=
    List.length_filterMap_le _ _
  rw [hlength]
  exact Nat.mul_le_mul_right 13 (hrows.trans (chunk_length_le hchunk))

/-- The batch row of an upload that is stored. -/
theorem batch_of_setCounts {env : PostEnv} {payload : UploadPayload} {t : KeyedTable Str BatchRow}
    {accepted failed : ℕ} {b : Entry Str BatchRow}
    (h : b ∈ (setCounts env accepted failed (upsertBatch env payload t)).rows)
    (hkey : b.key = env.requestID) : b.val.recordsCount = total payload.entityRecords ∧
      b.val.acceptedCount = accepted ∧ b.val.failedCount = failed := by
  have hcount : ∀ b ∈ (upsertBatch env payload t).rows, b.key = env.requestID →
      b.val.recordsCount = total payload.entityRecords := by
    intro b hb hb'
    rcases KeyedTable.mem_upsert.mp hb with ⟨-, hne⟩ | ⟨b₀, -, -, rfl⟩ | ⟨-, rfl⟩
    · exact absurd hb' hne
    · rfl
    · rfl
  rcases KeyedTable.mem_updateWhere.mp h with ⟨-, hother⟩ | ⟨b₀, hb₀, hown, rfl⟩
  · exact absurd (decide_eq_true hkey) (by rw [hother]; decide)
  · exact ⟨hcount b₀ hb₀ (of_decide_eq_true hown), rfl, rfl⟩

/-- `insertPayload` refines the plain upsert of the keyed records, and its inserts are bounded. -/
theorem insertPayload_refines (cfg : Config) (env : PostEnv) (payload : UploadPayload)
    (db : ReceiverDb) : InsertsPlainly cfg env payload db (insertPayload cfg env payload db) ∧
      ∀ rows ∈ inserts cfg env payload, (insertArgs rows).length ≤ insertChunkSize * 13 := by
  refine ⟨?_, fun rows hrows => length_insertArgs_le hrows⟩
  cases h : insertPayload cfg env payload db with
  | mk db' result =>
      cases result with
      | error e => exact insertPayload_error h
      | ok keys =>
          obtain ⟨accepted, failed⟩ := keys
          obtain ⟨hrecords, hbatches, haccepted, hfailed⟩ := insertPayload_ok h
          rw [map_key_rowsOf] at haccepted
          have hcounted : accepted.length + failed.length = total payload.entityRecords := by
            rw [haccepted, hfailed, length_accepted_add_unkeyed]
          refine ⟨hrecords.trans (plainInsert_eq _ _ _ _).symm, ?_, haccepted, hcounted, ?_, ?_⟩
          · rw [hrecords, foldl_upsertRows, flatten_inserts]
          · rw [hbatches, setCounts, KeyedTable.keys_updateWhere, upsertBatch,
              KeyedTable.mem_keys_upsert]
            exact Or.inr rfl
          · intro b hb hkey
            rw [hbatches] at hb
            obtain ⟨hcount, hacc, hfail⟩ := batch_of_setCounts hb hkey
            exact ⟨hcount, hacc, hfail, by omega⟩

/-! ## The content of a row -/

theorem upsertRows_eq (t : RecordTable) (rows : List UpsertRow) :
    t.upsertRows rows = t.upsertAll UpsertRow.key (fun u => ⟨u.content, u.now, u.now⟩)
      (fun u old => { old with content := u.content, cloudUpdatedAt := u.now }) rows := rfl

/-- The content that a payload has for a key: that of the last of its records of this key. -/
def lastContent (cfg : Config) (env : PostEnv) (payload : UploadPayload) (key : Str) :
    Option RecordContent :=
  (lastOf UpsertRow.key (rowsOf cfg env payload) key).map UpsertRow.content

theorem exists_lastContent (cfg : Config) (env : PostEnv) {payload : UploadPayload} {key : Str}
    (h : key ∈ acceptedOf payload) : ∃ content, lastContent cfg env payload key = some content := by
  rw [← map_key_rowsOf cfg env] at h
  obtain ⟨u, hu⟩ := exists_lastOf h
  exact ⟨u.content, by rw [lastContent, hu, Option.map_some]⟩

/-- After an upload is stored, the row of each of its keys has the content of the last record of that
key. -/
theorem content_of_insertPayload {cfg : Config} {env : PostEnv} {payload : UploadPayload}
    {db db' : ReceiverDb} {keys : List Str × List Str}
    (h : insertPayload cfg env payload db = (db', .ok keys)) {e : Entry Str StoredRecord}
    (he : e ∈ db'.records.rows) {content : RecordContent}
    (hlast : lastContent cfg env payload e.key = some content) : e.val.content = content := by
  obtain ⟨accepted, failed⟩ := keys
  obtain ⟨u, hu, rfl⟩ := Option.map_eq_some_iff.mp hlast
  rw [(insertPayload_ok h).1, upsertRows_eq] at he
  exact KeyedTable.view_of_mem_upsertAll StoredRecord.content UpsertRow.content (fun _ => rfl)
    (fun _ _ => rfl) he hu

theorem mem_keys_insertPayload {cfg : Config} {env : PostEnv} {payload : UploadPayload}
    {db db' : ReceiverDb} {keys : List Str × List Str}
    (h : insertPayload cfg env payload db = (db', .ok keys)) {key : Str} :
    key ∈ db'.records.keys ↔ key ∈ db.records.keys ∨ key ∈ acceptedOf payload := by
  obtain ⟨accepted, failed⟩ := keys
  rw [(insertPayload_ok h).1, mem_keys_upsertRows, map_key_rowsOf]

/-- The records of a payload are all stored with its `uploaded_at`. -/
theorem uploadedAt_of_mem_rowsOf {cfg : Config} {env : PostEnv} {payload : UploadPayload}
    {u : UpsertRow} (h : u ∈ rowsOf cfg env payload) :
    u.content.uploadedAt = (originOf env payload).uploadedAt := by
  obtain ⟨batch, -, h⟩ := List.mem_flatMap.mp h
  obtain ⟨⟨record, now⟩, -, h⟩ := List.mem_filterMap.mp h
  have hrow : upsertRowOf cfg env (originOf env payload) batch record now = some u := h
  rw [upsertRowOf] at hrow
  by_cases hkeyed : keyed batch.entityType record = true
  · rw [if_pos hkeyed] at hrow
    cases hrow
    rfl
  · rw [if_neg hkeyed] at hrow
    cases hrow

/-- Of two uploads that carry a key, in whichever order they are committed, the row of the key has the
content of the first of them, and then, in its place, that of the second, which brings its own
`uploaded_at`. -/
theorem content_of_last_commit {cfg : Config} {env env' : PostEnv} {p q : UploadPayload}
    {db db₁ db₂ : ReceiverDb} {keys keys' : List Str × List Str} {key : Str}
    (hp : key ∈ acceptedOf p) (hq : key ∈ acceptedOf q)
    (hfirst : insertPayload cfg env p db = (db₁, .ok keys))
    (hlast : insertPayload cfg env' q db₁ = (db₂, .ok keys')) :
    ∃ e₁ ∈ db₁.records.rows, ∃ e₂ ∈ db₂.records.rows, e₁.key = key ∧ e₂.key = key ∧ e₂.id = e₁.id ∧
      e₂.val.ingestedAt = e₁.val.ingestedAt ∧ lastContent cfg env p key = some e₁.val.content ∧
      lastContent cfg env' q key = some e₂.val.content ∧
      e₂.val.content.uploadedAt = (originOf env' q).uploadedAt := by
  have hkey₁ : key ∈ db₁.records.keys := (mem_keys_insertPayload hfirst).mpr (Or.inr hp)
  obtain ⟨e₁, he₁, rfl⟩ := KeyedTable.mem_keys.mp hkey₁
  obtain ⟨e₂, he₂, hkey₂⟩ :=
    KeyedTable.mem_keys.mp ((mem_keys_insertPayload hlast).mpr (Or.inr hq))
  obtain ⟨c₁, hc₁⟩ := exists_lastContent cfg env hp
  obtain ⟨c₂, hc₂⟩ := exists_lastContent cfg env' hq
  have hcontent₁ := content_of_insertPayload hfirst he₁ hc₁
  have hcontent₂ := content_of_insertPayload hlast he₂ (hkey₂ ▸ hc₂)
  obtain ⟨u, hu, huc⟩ := Option.map_eq_some_iff.mp hc₂
  have huploaded := uploadedAt_of_mem_rowsOf (mem_of_lastOf hu).1
  -- the row was there, so the second upload has updated it
  obtain ⟨accepted, failed⟩ := keys'
  have hrows := he₂
  rw [(insertPayload_ok hlast).1] at hrows
  rcases mem_upsertRows hrows with ⟨e, he, hid, hekey, hingested, -⟩ | ⟨-, hnew, -⟩
  · have heq : e = e₁ := KeyedTable.eq_of_key_eq he he₁ (hekey.trans hkey₂)
    subst heq
    exact ⟨e, he, e₂, he₂, rfl, hkey₂, hid.symm, hingested.symm, hcontent₁ ▸ hc₁, hcontent₂ ▸ hc₂,
      by rw [hcontent₂, ← huc, huploaded]⟩
  · rw [hkey₂] at hnew
    exact absurd hkey₁ hnew

/-- Time texts of two dates. -/
def dates (text : Str) : Option Instant :=
  if text = Str.lit "2026-08-01T08:00:00Z" then some (1785571200 * 10 ^ 9)
  else if text = Str.lit "2026-08-02T08:00:00Z" then some (1785657600 * 10 ^ 9)
  else none

/-- What a request meets that meets no failure. -/
def plainTimes : PostTimes := ⟨dates, Str.lit "6f1e8a52", 0, fun _ _ => 0, 0, fun _ => false⟩

/-- The upload of a weighing record with this plate, on this date. -/
def plateUpload (date plate : String) : UploadPayload where
  source := []
  database := []
  table := []
  uploadedAt := .str (Str.lit date)
  records := []
  weightInfoRecords :=
    [[(Str.lit "serialNo", .str (Str.lit "5")), (Str.lit "plateNo", .str (Str.lit plate))]]
  weightPhotoRecords := []

def olderUpload : UploadPayload := plateUpload "2026-08-01T08:00:00Z" "old"
def newerUpload : UploadPayload := plateUpload "2026-08-02T08:00:00Z" "new"

/-- The store after both uploads, the newer one first. -/
def newerThenOlder : ReceiverDb :=
  (insertPayload plainConfig plainTimes.env olderUpload
    (insertPayload plainConfig plainTimes.env newerUpload ⟨.empty, .empty⟩).1).1

theorem content_of_last_commit_five : ∃ db₁ db₂ keys keys',
    insertPayload plainConfig plainTimes.env newerUpload ⟨.empty, .empty⟩ = (db₁, .ok keys) ∧
    insertPayload plainConfig plainTimes.env olderUpload db₁ = (db₂, .ok keys') ∧
    ∃ e₁ ∈ db₁.records.rows, ∃ e₂ ∈ db₂.records.rows, e₁.key = Str.lit "weight_info:5" ∧
      e₂.key = Str.lit "weight_info:5" ∧ e₂.id = e₁.id ∧ e₂.val.ingestedAt = e₁.val.ingestedAt ∧
      lastContent plainConfig plainTimes.env newerUpload (Str.lit "weight_info:5") =
        some e₁.val.content ∧
      lastContent plainConfig plainTimes.env olderUpload (Str.lit "weight_info:5") =
        some e₂.val.content ∧
      e₂.val.content.uploadedAt = (originOf plainTimes.env olderUpload).uploadedAt := by
  have hnone : ∀ statement, plainTimes.env.fails statement = false := fun _ => rfl
  obtain ⟨db₁, keys, hfirst⟩ :=
    insertPayload_of_no_failure hnone plainConfig newerUpload ⟨.empty, .empty⟩
  obtain ⟨db₂, keys', hlast⟩ := insertPayload_of_no_failure hnone plainConfig olderUpload db₁
  exact ⟨db₁, db₂, keys, keys', hfirst, hlast,
    content_of_last_commit (by decide +kernel) (by decide +kernel) hfirst hlast⟩

/-- The newer upload is committed first, and the row of the record ends with the content of the older
one. -/
theorem rolled_back :
    (originOf plainTimes.env olderUpload).uploadedAt = some (timeString (1785571200 * 10 ^ 9)) ∧
      (originOf plainTimes.env newerUpload).uploadedAt = some (timeString (1785657600 * 10 ^ 9)) ∧
      Str.lit "weight_info:5" ∈ acceptedOf olderUpload ∧
      Str.lit "weight_info:5" ∈ acceptedOf newerUpload ∧
      newerThenOlder.records.rows.map (fun e => (e.key, e.val.content.plateNo)) =
        [(Str.lit "weight_info:5", some (Str.lit "old"))] ∧
      ¬ ∃ e ∈ newerThenOlder.records.rows,
        lastContent plainConfig plainTimes.env newerUpload e.key = some e.val.content := by
  decide +kernel

/-! ## Delivering a payload again -/

/-- What a row holds apart from `cloud_updated_at`. -/
def stable (e : Entry Str StoredRecord) : ℕ × Str × RecordContent × Str :=
  (e.id, e.key, e.val.content, e.val.ingestedAt)

/-- Deliveries of one payload, one after another. What a delivery meets is its own, but for how time
texts are read. -/
def deliver (cfg : Config) (timeText : Str → Option Str) (payload : UploadPayload) :
    ReceiverDb → List PostEnv → ReceiverDb × List (Except TxStatement (List Str × List Str))
  | db, [] => (db, [])
  | db, env :: envs =>
      let (db', result) := insertPayload cfg { env with timeText } payload db
      let (db'', results) := deliver cfg timeText payload db' envs
      (db'', result :: results)

/-- What a payload says of its records does not depend on what its delivery meets. -/
theorem contents_rowsOf (cfg : Config) (timeText : Str → Option Str) (env env' : PostEnv)
    (payload : UploadPayload) :
    (rowsOf cfg { env with timeText } payload).map (fun u => (u.key, u.content)) =
      (rowsOf cfg { env' with timeText } payload).map fun u => (u.key, u.content) := by
  have htext : ∀ (env : PostEnv) (batch : EntityBatch), ((stamped { env with timeText } batch).filterMap
      fun (r : Record × Str) => upsertRowOf cfg { env with timeText }
        (originOf { env with timeText } payload) batch r.1 r.2).map (fun u => (u.key, u.content)) =
      batch.records.filterMap fun record => (upsertRowOf cfg { plainEnv with timeText }
        (originOf { plainEnv with timeText } payload) batch record []).map
          fun u => (u.key, u.content) := by
    intro env batch
    rw [List.map_filterMap, ← map_fst_stamped { env with timeText } batch, List.filterMap_map]
    refine List.filterMap_congr fun r _ => ?_
    rw [Function.comp_apply, upsertRowOf, upsertRowOf]
    split_ifs <;> rfl
  rw [rowsOf, rowsOf, List.map_flatMap, List.map_flatMap]
  exact List.flatMap_congr fun batch _ => (htext env batch).trans (htext env' batch).symm

/-- So its deliveries have one content for each key. -/
theorem lastContent_congr (cfg : Config) (timeText : Str → Option Str) (env env' : PostEnv)
    (payload : UploadPayload) (key : Str) :
    lastContent cfg { env with timeText } payload key =
      lastContent cfg { env' with timeText } payload key :=
  map_lastOf_congr (contents_rowsOf cfg timeText env env' payload) key

/-- Rows that have the contents already are left as they are, but for `cloud_updated_at`. -/
theorem stable_upsertRows {t : RecordTable} {rows : List UpsertRow}
    (hkeys : ∀ u ∈ rows, u.key ∈ t.keys)
    (hcontents : ∀ e ∈ t.rows, ∀ content,
      (lastOf UpsertRow.key rows e.key).map UpsertRow.content = some content → e.val.content = content) :
    (t.upsertRows rows).rows.map stable = t.rows.map stable := by
  rw [upsertRows_eq, KeyedTable.rows_upsertAll hkeys, List.map_map]
  refine List.map_congr_left fun e he => ?_
  have hcontent := KeyedTable.view_foldl_upd UpsertRow.key
    (fun u old => { old with content := u.content, cloudUpdatedAt := u.now }) StoredRecord.content
    UpsertRow.content rows (fun _ _ => rfl) e.key e.val
  have hingested := KeyedTable.keep_foldl_upd
    (fun u old => { old with content := u.content, cloudUpdatedAt := u.now }) StoredRecord.ingestedAt
    (rows.filter fun u => u.key = e.key) (fun _ _ => rfl) e.val
  have hsame : ((lastOf UpsertRow.key rows e.key).map UpsertRow.content).getD e.val.content =
      e.val.content := by
    cases hlast : (lastOf UpsertRow.key rows e.key).map UpsertRow.content with
    | none => rfl
    | some content => exact (hcontents e he content hlast).symm
  rw [Function.comp_apply, stable, stable]
  simp only [hcontent, hingested, hsame]

/-- A store in which every key of a payload has its row with the content that the payload has for
it. -/
structure Settled (cfg : Config) (env : PostEnv) (payload : UploadPayload) (t : RecordTable) : Prop where
  keys : ∀ key ∈ acceptedOf payload, key ∈ t.keys
  contents : ∀ e ∈ t.rows, ∀ content, lastContent cfg env payload e.key = some content →
    e.val.content = content

/-- It is settled after the payload is stored. -/
theorem settled_insertPayload {cfg : Config} {env : PostEnv} {payload : UploadPayload}
    {db db' : ReceiverDb} {keys : List Str × List Str}
    (h : insertPayload cfg env payload db = (db', .ok keys)) : Settled cfg env payload db'.records :=
  ⟨fun _ hkey => (mem_keys_insertPayload h).mpr (Or.inr hkey),
    fun _ he _ hlast => content_of_insertPayload h he hlast⟩

/-- And then the payload changes nothing. -/
theorem stable_insertPayload {cfg : Config} {env : PostEnv} {payload : UploadPayload}
    {db : ReceiverDb} (h : Settled cfg env payload db.records) :
    (insertPayload cfg env payload db).1.records.rows.map stable = db.records.rows.map stable := by
  rcases records_insertPayload cfg env payload db with hsame | hrows
  · rw [hsame]
  · rw [hrows]
    refine stable_upsertRows (fun u hu => h.keys _ ?_) h.contents
    rw [← map_key_rowsOf cfg env]
    exact List.mem_map_of_mem hu

theorem Settled.congr {cfg : Config} {env : PostEnv} {payload : UploadPayload} {t t' : RecordTable}
    (h : Settled cfg env payload t) (hsame : t'.rows.map stable = t.rows.map stable) :
    Settled cfg env payload t' := by
  have hrow : ∀ e' ∈ t'.rows, ∃ e ∈ t.rows, stable e = stable e' := by
    intro e' he'
    have hmem := List.mem_map_of_mem (f := stable) he'
    rw [hsame] at hmem
    exact List.mem_map.mp hmem
  have hkeys : t'.keys = t.keys := by
    have hmap := congrArg (List.map fun s : ℕ × Str × RecordContent × Str => s.2.1) hsame
    rw [List.map_map, List.map_map] at hmap
    exact hmap
  refine ⟨fun key hkey => hkeys ▸ h.keys key hkey, fun e' he' content hlast => ?_⟩
  obtain ⟨e, he, heq⟩ := hrow e' he'
  simp only [stable, Prod.mk.injEq] at heq
  rw [← heq.2.2.1]
  exact h.contents e he content (heq.2.1 ▸ hlast)

theorem Settled.env_congr {cfg : Config} {timeText : Str → Option Str} {env : PostEnv}
    {payload : UploadPayload} {t : RecordTable} (h : Settled cfg { env with timeText } payload t)
    (env' : PostEnv) : Settled cfg { env' with timeText } payload t :=
  ⟨h.keys, fun e he content hlast =>
    h.contents e he content ((lastContent_congr cfg timeText env env' payload e.key).trans hlast)⟩

/-- A delivery that goes through reports the keys of the payload. -/
theorem result_insertPayload (cfg : Config) (env : PostEnv) (payload : UploadPayload)
    (db : ReceiverDb) :
    (insertPayload cfg env payload db).2 = .ok (acceptedOf payload, unkeyedOf payload) ∨
      ∃ e, (insertPayload cfg env payload db).2 = .error e := by
  cases h : insertPayload cfg env payload db with
  | mk db' result =>
      cases result with
      | error e => exact Or.inr ⟨e, rfl⟩
      | ok keys =>
          obtain ⟨accepted, failed⟩ := keys
          obtain ⟨-, -, haccepted, hfailed⟩ := insertPayload_ok h
          rw [map_key_rowsOf] at haccepted
          rw [haccepted, hfailed]
          exact Or.inl rfl

/-- A payload that is delivered to a store that has it settles nothing anew, and every delivery that
goes through reports the same keys. -/
theorem stable_deliver_of_settled {cfg : Config} {timeText : Str → Option Str} {env : PostEnv}
    {payload : UploadPayload} {db : ReceiverDb}
    (h : Settled cfg { env with timeText } payload db.records) (envs : List PostEnv) :
    (deliver cfg timeText payload db envs).1.records.rows.map stable = db.records.rows.map stable ∧
      ∀ result ∈ (deliver cfg timeText payload db envs).2,
        result = .ok (acceptedOf payload, unkeyedOf payload) ∨ ∃ e, result = .error e := by
  induction envs generalizing db with
  | nil => exact ⟨rfl, List.forall_mem_nil _⟩
  | cons env' envs ih =>
      have hone := stable_insertPayload (h.env_congr env')
      obtain ⟨hrows, hresults⟩ := ih (h.congr hone)
      refine ⟨hrows.trans hone, List.forall_mem_cons.mpr ⟨?_, hresults⟩⟩
      exact result_insertPayload cfg { env' with timeText } payload db

/-- A payload that is delivered any number of times, the first of them with success, leaves the
records as that first delivery does, and every delivery that goes through reports the same accepted and
failed keys. -/
theorem stable_deliver {cfg : Config} {timeText : Str → Option Str} {payload : UploadPayload}
    {db : ReceiverDb} {env : PostEnv} {keys : List Str × List Str}
    (honce : (insertPayload cfg { env with timeText } payload db).2 = .ok keys) (envs : List PostEnv) :
    (deliver cfg timeText payload db (env :: envs)).1.records.rows.map stable =
        (insertPayload cfg { env with timeText } payload db).1.records.rows.map stable ∧
      ∀ result ∈ (deliver cfg timeText payload db (env :: envs)).2,
        result = .ok keys ∨ ∃ e, result = .error e := by
  have hpair : insertPayload cfg { env with timeText } payload db =
      ((insertPayload cfg { env with timeText } payload db).1, .ok keys) := Prod.ext rfl honce
  obtain ⟨hrows, hresults⟩ := stable_deliver_of_settled (settled_insertPayload hpair) envs
  have hkeys : keys = (acceptedOf payload, unkeyedOf payload) := by
    rcases result_insertPayload cfg { env with timeText } payload db with h | ⟨e, h⟩
    · rw [honce] at h
      exact Except.ok.inj h
    · rw [honce] at h
      cases h
  subst hkeys
  exact ⟨hrows, List.forall_mem_cons.mpr ⟨Or.inl honce, hresults⟩⟩

/-- A payload that has a key twice, with different plates. -/
def twicePayload : UploadPayload :=
  { plateUpload "2026-08-01T08:00:00Z" "old" with
    weightInfoRecords := (plateUpload "2026-08-01T08:00:00Z" "old").weightInfoRecords ++
      (plateUpload "2026-08-01T08:00:00Z" "new").weightInfoRecords }

theorem stable_deliver_twice : ∃ keys,
    (insertPayload plainConfig { plainEnv with timeText := some } twicePayload ⟨.empty, .empty⟩).2 =
      .ok keys ∧
    (deliver plainConfig some twicePayload ⟨.empty, .empty⟩ [plainEnv, plainEnv]).1.records.rows.map
        stable =
      (insertPayload plainConfig { plainEnv with timeText := some } twicePayload
        ⟨.empty, .empty⟩).1.records.rows.map stable ∧
    ∀ result ∈ (deliver plainConfig some twicePayload ⟨.empty, .empty⟩ [plainEnv, plainEnv]).2,
      result = .ok keys ∨ ∃ e, result = .error e := by
  have hnone : ∀ statement, ({ plainEnv with timeText := some } : PostEnv).fails statement = false :=
    fun _ => rfl
  obtain ⟨db', keys, hinsert⟩ :=
    insertPayload_of_no_failure hnone plainConfig twicePayload ⟨.empty, .empty⟩
  have honce : (insertPayload plainConfig { plainEnv with timeText := some } twicePayload
      ⟨.empty, .empty⟩).2 = .ok keys := congrArg Prod.snd hinsert
  exact ⟨keys, honce, stable_deliver honce [plainEnv]⟩

end WeighingSync.Receiver
