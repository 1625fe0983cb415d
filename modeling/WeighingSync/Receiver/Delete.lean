import WeighingSync.Go.Http
import WeighingSync.Receiver.Store

/-!
# Deletions of the receiver

`deleteByID` of `cmd/receiver/main.go`, once the request is authorised: it answers 200 whether or not
a record was old enough to be removed, and says in the reply which of the two it was.
-/

namespace WeighingSync.Receiver

open Go

/-- The rows that `id = ?` names. -/
def hasId (id : ℤ) (r : Entry Str StoredRecord) : Bool := (r.id : ℤ) = id

/-- `deleteByID`, with the text of the cutoff; the table answers without an error. -/
def deleteByID (cfg : Config) (t : RecordTable) (cutoff : Str) (id : ℤ) : Reply × RecordTable :=
  let (deleted, t') := deleteRecord t cutoff (hasId id)
  (Reply.json 200 (.obj [(Str.lit "deleted", .bool deleted), (Str.lit "id", .num (itoa id)),
    (Str.lit "min_delete_age_hours", .num (itoa cfg.minDeleteAgeHours))]), t')

/-- The records left are the ones that were not named, or not old enough. -/
theorem mem_deleteByID (cfg : Config) {t : RecordTable} {cutoff : Str} {id : ℤ}
    {r : Entry Str StoredRecord} : r ∈ (deleteByID cfg t cutoff id).2.rows ↔
      r ∈ t.rows ∧ ((r.id : ℤ) = id → Str.lt r.val.effectiveTime cutoff = false) := by
  show r ∈ (t.deleteWhere (deletable cutoff (hasId id))).rows ↔ _
  rw [KeyedTable.mem_deleteWhere, deletable, hasId, Bool.and_eq_false_imp, decide_eq_true_eq]

@[simp] theorem nextId_deleteByID (cfg : Config) (t : RecordTable) (cutoff : Str) (id : ℤ) :
    (deleteByID cfg t cutoff id).2.nextId = t.nextId := rfl

/-- A deletion by id leaves no record of that id exactly when every record of that id is older than
the cutoff. -/
theorem gone_deleteByID_iff (cfg : Config) {t : RecordTable} {cutoff : Str} {id : ℤ} :
    (∀ r ∈ (deleteByID cfg t cutoff id).2.rows, (r.id : ℤ) ≠ id) ↔
      ∀ r ∈ t.rows, (r.id : ℤ) = id → Str.lt r.val.effectiveTime cutoff = true := by
  constructor
  · intro h r hr hid
    by_contra hage
    exact h r ((mem_deleteByID cfg).mpr ⟨hr, fun _ => by simpa using hage⟩) hid
  · intro h r hr hid
    obtain ⟨hr, hkept⟩ := (mem_deleteByID cfg).mp hr
    rw [h r hr hid] at hkept
    exact absurd (hkept hid) (by decide)

/-! ## What an upload does to the rows of the table -/

/-- A row after an upload is a row from before, with its columns or those of an uploaded row of its
key, or it is new: its id is fresh and its key was not there. -/
theorem mem_upsertRows {t : RecordTable} {rows : List UpsertRow} {e' : Entry Str StoredRecord}
    (h : e' ∈ (t.upsertRows rows).rows) :
    (∃ e ∈ t.rows, e.id = e'.id ∧ e.key = e'.key ∧ e.val.ingestedAt = e'.val.ingestedAt ∧
      (e'.val.content = e.val.content ∨ ∃ u ∈ rows, u.key = e.key ∧ e'.val.content = u.content)) ∨
    (t.nextId ≤ e'.id ∧ e'.key ∉ t.keys ∧ ∃ u ∈ rows, u.key = e'.key) := by
  induction rows generalizing t with
  | nil => exact Or.inl ⟨e', h, rfl, rfl, rfl, Or.inl rfl⟩
  | cons u rows ih =>
      rcases ih (t := t.upsertRow u) h with ⟨e₁, he₁, hid, hkey, hing, hcontent⟩ | ⟨hid, hkey, v, hv, hvkey⟩
      · rcases KeyedTable.mem_upsert.mp he₁ with ⟨he, hne⟩ | ⟨e, he, heq, rfl⟩ | ⟨hnew, rfl⟩
        · refine Or.inl ⟨e₁, he, hid, hkey, hing, hcontent.imp_right ?_⟩
          rintro ⟨v, hv, hvkey, hvcontent⟩
          exact ⟨v, List.mem_cons_of_mem u hv, hvkey, hvcontent⟩
        · refine Or.inl ⟨e, he, hid, hkey, hing, Or.inr ?_⟩
          rcases hcontent with hcontent | ⟨v, hv, hvkey, hvcontent⟩
          · exact ⟨u, List.mem_cons_self, heq.symm, hcontent⟩
          · exact ⟨v, List.mem_cons_of_mem u hv, hvkey, hvcontent⟩
        · exact Or.inr ⟨hid.le, hkey ▸ hnew, u, List.mem_cons_self, hkey⟩
      · refine Or.inr ⟨KeyedTable.nextId_le_upsert.trans hid, fun hmem => hkey ?_, v,
          List.mem_cons_of_mem u hv, hvkey⟩
        exact KeyedTable.mem_keys_upsert.mpr (Or.inl hmem)

/-- An upload leaves the rows of other keys as they are. -/
theorem mem_upsertRows_of_notMem {t : RecordTable} {rows : List UpsertRow} {e : Entry Str StoredRecord}
    (h : e.key ∉ rows.map UpsertRow.key) : e ∈ (t.upsertRows rows).rows ↔ e ∈ t.rows := by
  induction rows generalizing t with
  | nil => exact Iff.rfl
  | cons u rows ih =>
      rw [List.map_cons, List.mem_cons, not_or] at h
      exact (ih (t := t.upsertRow u) h.2).trans (KeyedTable.mem_upsert_of_ne h.1)

/-- A row of an uploaded key has the columns of an uploaded row of this key. -/
theorem content_of_mem_upsertRows {t : RecordTable} {rows : List UpsertRow}
    {e : Entry Str StoredRecord} (h : e ∈ (t.upsertRows rows).rows)
    (hkey : e.key ∈ rows.map UpsertRow.key) :
    ∃ u ∈ rows, u.key = e.key ∧ u.content = e.val.content := by
  induction rows generalizing t with
  | nil => cases hkey
  | cons u rows ih =>
      by_cases hrest : e.key ∈ rows.map UpsertRow.key
      · obtain ⟨v, hv, hvkey⟩ := ih (t := t.upsertRow u) h hrest
        exact ⟨v, List.mem_cons_of_mem u hv, hvkey⟩
      · -- the row of `u` is written last
        have hu : u.key = e.key := ((List.mem_cons.mp hkey).resolve_right hrest).symm
        have hmem : e ∈ (t.upsertRow u).rows := (mem_upsertRows_of_notMem hrest).mp h
        refine ⟨u, List.mem_cons_self, hu, ?_⟩
        rcases KeyedTable.mem_upsert.mp hmem with ⟨-, hne⟩ | ⟨e₀, -, -, rfl⟩ | ⟨-, rfl⟩
        · exact absurd hu.symm hne
        · rfl
        · rfl

theorem nextId_le_upsertRows (t : RecordTable) (rows : List UpsertRow) :
    t.nextId ≤ (t.upsertRows rows).nextId := by
  induction rows generalizing t with
  | nil => exact Nat.le_refl _
  | cons u rows ih => exact KeyedTable.nextId_le_upsert.trans (ih (t.upsertRow u))

/-- The records after an upload: upserted if it was committed, and otherwise as they were. -/
theorem records_insertPayload (cfg : Config) (env : PostEnv) (payload : UploadPayload)
    (db : ReceiverDb) :
    (insertPayload cfg env payload db).1.records = db.records ∨
      (insertPayload cfg env payload db).1.records =
        db.records.upsertRows (rowsOf cfg env payload) := by
  cases h : insertPayload cfg env payload db with
  | mk db' result =>
      cases result with
      | ok keys =>
          obtain ⟨accepted, failed⟩ := keys
          exact Or.inr (insertPayload_ok h).1
      | error e => exact Or.inl (by rw [insertPayload_error h])

end WeighingSync.Receiver
