import WeighingSync.Receiver.Accounting

/-!
# Identities of records

`extractRecordKey` names a record by a key type and a value, but `record_key` is made of the value
only. Two records of one kind keep rows of their own exactly when the unique index of `record_key`
tells their values apart (`separate_iff`). The index is a parameter: SQLite compares texts
exactly, and MySQL up to the collation of the table.
-/

namespace WeighingSync.Receiver

open Go

/-- The rows of an upload, upserted under an index that knows the keys up to `collate`. -/
def upsertCollated (collate : Str → Str) (t : RecordTable) (rows : List UpsertRow) : RecordTable :=
  t.upsertRows (rows.map fun r => { r with key := collate r.key })

/-- An upload that is committed. -/
structure Upload where
  cfg : Config
  env : PostEnv
  payload : UploadPayload

/-- The upload stores a record of this kind. -/
def Upload.Sends (u : Upload) (entityType : Str) (record : Record) : Prop :=
  ∃ batch ∈ u.payload.entityRecords, batch.entityType = entityType ∧ record ∈ batch.records

/-- The records after a sequence of uploads. -/
def afterUploads (collate : Str → Str) (t : RecordTable) (uploads : List Upload) : RecordTable :=
  uploads.foldl (fun t u => upsertCollated collate t (rowsOf u.cfg u.env u.payload)) t

/-- Two records have rows of their own: their `record_key` values differ, an upsert of either leaves
the row of the other as it is, and after any uploads that store both of them both rows are there. -/
structure Separate (collate : Str → Str) (entityType : Str) (r s : Record) : Prop where
  key_ne : recordKey entityType r ≠ recordKey entityType s
  kept : ∀ (t : RecordTable) (u : UpsertRow) (e : Entry Str StoredRecord),
    (u.key = recordKey entityType s ∧ e.key = collate (recordKey entityType r) ∨
      u.key = recordKey entityType r ∧ e.key = collate (recordKey entityType s)) →
    (e ∈ (upsertCollated collate t [u]).rows ↔ e ∈ t.rows)
  both : ∀ (t : RecordTable) (uploads : List Upload),
    (∃ u ∈ uploads, u.Sends entityType r) → (∃ u ∈ uploads, u.Sends entityType s) →
    ∃ e ∈ (afterUploads collate t uploads).rows, ∃ e' ∈ (afterUploads collate t uploads).rows,
      e.key = collate (recordKey entityType r) ∧ e'.key = collate (recordKey entityType s) ∧ e ≠ e'

/-! ## Uploads and the index -/

/-- SQLite compares texts exactly. -/
@[simp] theorem upsertCollated_id (t : RecordTable) (rows : List UpsertRow) :
    upsertCollated id t rows = t.upsertRows rows := by
  simp [upsertCollated]

/-- A request that is answered 200 is a committed upload. -/
theorem records_handlePost {cfg : Config} {env : PostEnv} {refusal : Option Str} {body : Str}
    {db : ReceiverDb} {p : UploadPayload} (hbody : decodeBody body = some p)
    (hok : (handlePost cfg env refusal body db).1.status = 200) :
    (handlePost cfg env refusal body db).2.records = afterUploads id db.records [⟨cfg, env, p⟩] := by
  obtain ⟨db', hinsert, hreply⟩ := stored_of_status hbody hok
  rw [hreply, (insertPayload_ok hinsert).1]
  exact (upsertCollated_id _ _).symm

theorem mem_keys_upsertCollated {collate : Str → Str} {t : RecordTable} {rows : List UpsertRow}
    {key : Str} : key ∈ (upsertCollated collate t rows).keys ↔
      key ∈ t.keys ∨ ∃ u ∈ rows, collate u.key = key := by
  rw [upsertCollated, mem_keys_upsertRows, List.map_map]
  simp

/-- Keys that are present stay, and those of stored records are added. -/
theorem mem_keys_afterUploads {collate : Str → Str} {t : RecordTable} {uploads : List Upload}
    {key : Str} : key ∈ (afterUploads collate t uploads).keys ↔
      key ∈ t.keys ∨ ∃ u ∈ uploads, ∃ row ∈ rowsOf u.cfg u.env u.payload, collate row.key = key := by
  induction uploads generalizing t with
  | nil => simp [afterUploads]
  | cons u uploads ih =>
      show key ∈ (afterUploads collate (upsertCollated collate t _) uploads).keys ↔ _
      rw [ih, mem_keys_upsertCollated, List.exists_mem_cons_iff, or_assoc]

/-- A keyed record that is stored has a row. -/
theorem mem_keys_of_sends {collate : Str → Str} {t : RecordTable} {uploads : List Upload}
    {entityType : Str} {record : Record} (hkeyed : keyed entityType record = true)
    (hsends : ∃ u ∈ uploads, u.Sends entityType record) :
    collate (recordKey entityType record) ∈ (afterUploads collate t uploads).keys := by
  obtain ⟨u, hu, batch, hbatch, rfl, hrecord⟩ := hsends
  have hkey : recordKey batch.entityType record ∈ (rowsOf u.cfg u.env u.payload).map UpsertRow.key := by
    rw [map_key_rowsOf]
    exact mem_acceptedOf.mpr ⟨batch, hbatch, record, hrecord, hkeyed, rfl⟩
  obtain ⟨row, hrow, hrowkey⟩ := List.mem_map.mp hkey
  exact mem_keys_afterUploads.mpr (Or.inr ⟨u, hu, row, hrow, by rw [hrowkey]⟩)

/-- An upsert leaves the rows of keys that the index tells apart from its own. -/
theorem mem_upsertCollated_of_ne {collate : Str → Str} {t : RecordTable} {u : UpsertRow}
    {e : Entry Str StoredRecord} (h : e.key ≠ collate u.key) :
    e ∈ (upsertCollated collate t [u]).rows ↔ e ∈ t.rows :=
  KeyedTable.mem_upsert_of_ne h

/-- A row written at another time replaces the row of its key. -/
theorem replaced_of_collate_eq {collate : Str → Str} {k k' : Str} (h : collate k = collate k')
    (content : RecordContent) : ∃ (t : RecordTable) (u : UpsertRow) (e : Entry Str StoredRecord),
      u.key = k' ∧ e.key = collate k ∧ e ∈ t.rows ∧ e ∉ (upsertCollated collate t [u]).rows := by
  refine ⟨KeyedTable.empty.insertNew (collate k) ⟨content, [], []⟩ List.not_mem_nil,
    ⟨k', content, Str.lit "later"⟩, ⟨1, collate k, ⟨content, [], []⟩⟩, rfl, rfl, List.mem_cons_self,
    fun hmem => ?_⟩
  rcases KeyedTable.mem_upsert.mp hmem with ⟨-, hne⟩ | ⟨e₀, -, -, heq⟩ | ⟨hnew, -⟩
  · exact hne h
  · have htime : Str.lit "later" = [] := congrArg (fun e => e.val.cloudUpdatedAt) heq
    cases htime
  · exact hnew (List.mem_cons.mpr (Or.inl h.symm))

/-! ## When rows are separate -/

/-- Two `record_key` values of one kind agree exactly when the values of the keys do, whatever the key
types are. -/
theorem recordKey_eq_iff {entityType : Str} {r s : Record} :
    recordKey entityType r = recordKey entityType s ↔
      (extractRecordKey entityType r).2 = (extractRecordKey entityType s).2 :=
  List.append_right_inj _

/-- Two records of one kind that have keys are stored in rows of their own if and only if the index
tells their key values apart; the key types do not matter. -/
theorem separate_iff {collate : Str → Str} {entityType : Str} {r s : Record}
    (hr : keyed entityType r = true) (hs : keyed entityType s = true) :
    Separate collate entityType r s ↔
      collate (entityType ++ Str.lit ":" ++ (extractRecordKey entityType r).2) ≠
        collate (entityType ++ Str.lit ":" ++ (extractRecordKey entityType s).2) := by
  constructor
  · intro h heq
    obtain ⟨t, u, e, hu, he, hmem, hgone⟩ := replaced_of_collate_eq heq
      ⟨entityType, [], none, none, none, [], [], [], none, none⟩
    exact hgone ((h.kept t u e (Or.inl ⟨hu, he⟩)).mpr hmem)
  · intro hne
    refine ⟨fun heq => hne (congrArg collate heq), ?_, ?_⟩
    · rintro t u e (⟨hu, he⟩ | ⟨hu, he⟩)
      · apply mem_upsertCollated_of_ne
        rw [he, hu]
        exact hne
      · apply mem_upsertCollated_of_ne
        rw [he, hu]
        exact hne.symm
    · intro t uploads hsendsr hsendss
      obtain ⟨e, he, hekey⟩ := KeyedTable.mem_keys.mp (mem_keys_of_sends (t := t) hr hsendsr)
      obtain ⟨e', he', hekey'⟩ := KeyedTable.mem_keys.mp (mem_keys_of_sends (t := t) hs hsendss)
      refine ⟨e, he, e', he', hekey, hekey', fun heq => hne ?_⟩
      rw [heq] at hekey
      exact hekey.symm.trans hekey'

/-- A weighing record that has a serial number, and one that has an id. -/
def bySerial (value : String) : Record := [(Str.lit "serialNo", .str (Str.lit value))]
def byId (value : String) : Record := [(Str.lit "id", .str (Str.lit value))]

/-- The upload of a weighing record. -/
def singleUpload (record : Record) : Upload where
  cfg := plainConfig
  env := plainEnv
  payload := {
    source := []
    database := []
    table := []
    uploadedAt := .null
    records := []
    weightInfoRecords := [record]
    weightPhotoRecords := [] }

theorem separate_iff_fiveSix : Separate id weightInfo (bySerial "5") (byId "6") ↔
    id (weightInfo ++ Str.lit ":" ++ (extractRecordKey weightInfo (bySerial "5")).2) ≠
      id (weightInfo ++ Str.lit ":" ++ (extractRecordKey weightInfo (byId "6")).2) :=
  separate_iff (by decide +kernel) (by decide +kernel)

/-- Serial number 5 and id 5 are different identities; the second of their uploads overwrites the row
of the first. -/
theorem not_separate_five :
    keyed weightInfo (bySerial "5") = true ∧ keyed weightInfo (byId "5") = true ∧
      extractRecordKey weightInfo (bySerial "5") ≠ extractRecordKey weightInfo (byId "5") ∧
      (afterUploads id .empty [singleUpload (bySerial "5"), singleUpload (byId "5")]).rows.map
        (fun e => (e.key, e.val.content.keyType)) = [(Str.lit "weight_info:5", Str.lit "id")] ∧
      ¬ Separate id weightInfo (bySerial "5") (byId "5") := by
  refine ⟨by decide +kernel, by decide +kernel, by decide +kernel, by decide +kernel, fun h => ?_⟩
  exact h.key_ne (recordKey_eq_iff.mpr (by decide +kernel))

end WeighingSync.Receiver
