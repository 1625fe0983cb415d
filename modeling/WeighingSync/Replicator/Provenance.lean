import WeighingSync.Replicator.Assigned
import WeighingSync.Replicator.Replica

/-!
# Where the rows of B come from

Everything that B has was uploaded to C: whatever is uploaded, deleted and fetched in whatever order,
each row of B's tables, also of the queue, is made of a record that some upload contained
(`came_from_upload`).
-/

namespace WeighingSync.Replicator

open Go Receiver

/-- The rows that C makes of the records of an upload. -/
def rowsUploaded (S : Setup) (_ : State) (a : Action) (_ : State) : List UpsertRow :=
  match a with
  | .upload env payload => rowsOf S.ccfg env payload
  | _ => []

/-- A row of C has the key and the columns of an uploaded row. -/
def Uploaded (uploads : List UpsertRow) (e : Entry Str StoredRecord) : Prop :=
  ∃ u ∈ uploads, u.key = e.key ∧ u.content = e.val.content

/-- B has received the record of a row of C that was uploaded. -/
def OfUpload (S : Setup) (uploads : List UpsertRow) (r : CRecord) : Prop :=
  ∃ e, Uploaded uploads e ∧ r = received S.floatText e

/-- A key of B is that of an uploaded row, and so is the text that stands for it. -/
def KeyUploaded (S : Setup) (uploads : List UpsertRow) (key text : Str) : Prop :=
  S.env.collate text = key ∧ ∃ u ∈ uploads, u.key = text

/-- Everything that C and B have comes from an uploaded row. -/
structure FromUploads (S : Setup) (s : State) (uploads : List UpsertRow) : Prop where
  records : ∀ e ∈ s.c.records.rows, Uploaded uploads e
  page : ∀ r ∈ s.page, OfUpload S uploads r
  replicated : ∀ x ∈ s.b.replicated.rows, KeyUploaded S uploads x.key x.val.recordKey ∧
    ∃ r, OfUpload S uploads r ∧ S.env.collate r.recordKey = x.key ∧
      x.val = { replicatedOf r with recordKey := x.val.recordKey }
  business : ∀ entityType, ∀ y ∈ (s.b.business entityType).rows,
    KeyUploaded S uploads y.key y.val.recordKey ∧
    ∃ r, OfUpload S uploads r ∧ S.env.collate r.recordKey = y.key ∧
      y.val = { businessRowOf S.env r with recordKey := y.val.recordKey }
  queue : ∀ q ∈ s.b.queue.rows, KeyUploaded S uploads q.key q.val.recordKey ∧
    ∃ r, OfUpload S uploads r ∧ S.env.collate r.recordKey = q.key ∧ q.val.cRecordId = r.id

section

variable {S : Setup} {s s' : State} {uploads : List UpsertRow}

theorem Uploaded.append {e : Entry Str StoredRecord} (h : Uploaded uploads e) (more : List UpsertRow) :
    Uploaded (uploads ++ more) e :=
  h.imp fun _ hu => ⟨List.mem_append_left _ hu.1, hu.2⟩

theorem OfUpload.append {r : CRecord} (h : OfUpload S uploads r) (more : List UpsertRow) :
    OfUpload S (uploads ++ more) r :=
  h.imp fun _ he => ⟨he.1.append more, he.2⟩

theorem KeyUploaded.append {key text : Str} (h : KeyUploaded S uploads key text)
    (more : List UpsertRow) : KeyUploaded S (uploads ++ more) key text :=
  ⟨h.1, h.2.imp fun _ hu => ⟨List.mem_append_left _ hu.1, hu.2⟩⟩

theorem FromUploads.append (h : FromUploads S s uploads) (more : List UpsertRow) :
    FromUploads S s (uploads ++ more) where
  records := fun e he => (h.records e he).append more
  page := fun r hr => (h.page r hr).append more
  replicated := fun x hx => (h.replicated x hx).imp (·.append more)
    fun hr => hr.imp fun _ hr => ⟨hr.1.append more, hr.2⟩
  business := fun entityType y hy => (h.business entityType y hy).imp (·.append more)
    fun hr => hr.imp fun _ hr => ⟨hr.1.append more, hr.2⟩
  queue := fun q hq => (h.queue q hq).imp (·.append more)
    fun hr => hr.imp fun _ hr => ⟨hr.1.append more, hr.2⟩

/-- The key of a record that B has received was uploaded. -/
theorem OfUpload.key {r : CRecord} (h : OfUpload S uploads r) :
    KeyUploaded S uploads (S.env.collate r.recordKey) r.recordKey := by
  obtain ⟨e, ⟨u, hu, hkey, -⟩, rfl⟩ := h
  exact ⟨rfl, u, hu, hkey⟩

/-- What C has after an upload that it commits, or not. -/
theorem uploaded_insertPayload {env : PostEnv} {payload : UploadPayload} {c : ReceiverDb}
    (h : ∀ e ∈ c.records.rows, Uploaded uploads e) :
    ∀ e ∈ (insertPayload S.ccfg env payload c).1.records.rows,
      Uploaded (uploads ++ rowsOf S.ccfg env payload) e := by
  intro e he
  rcases records_insertPayload S.ccfg env payload c with hsame | hrows
  · exact (h e (hsame ▸ he)).append _
  · rw [hrows] at he
    by_cases hkey : e.key ∈ (rowsOf S.ccfg env payload).map UpsertRow.key
    · obtain ⟨u, hu, hukey, hcontent⟩ := content_of_mem_upsertRows he hkey
      exact ⟨u, List.mem_append_right _ hu, hukey, hcontent⟩
    · exact (h e ((mem_upsertRows_of_notMem hkey).mp he)).append _

theorem fromUploads_store {now : ℤ} {r : CRecord} {rest : List CRecord} {b : ReplicatorDb}
    (hs : FromUploads S s uploads) (hpage : s.page = r :: rest)
    (hstore : storeRecord S.env S.cfg now r s.b = some b) :
    FromUploads S { s with b, page := rest } uploads := by
  have hr : OfUpload S uploads r := hs.page r (hpage ▸ List.mem_cons_self)
  have happlied := applied_storeRecord hstore
  obtain ⟨_, -, -, -, hqueue⟩ := exists_stored S.env hstore
  constructor
  case records => exact hs.records
  case page => exact fun r' hr' => hs.page r' (hpage ▸ List.mem_cons_of_mem r hr')
  case replicated =>
    intro x hx
    change x ∈ b.replicated.rows at hx
    rw [happlied.replicated] at hx
    -- a row that is overwritten keeps the text of its key, which was uploaded earlier
    rcases KeyedTable.mem_upsert.mp hx with ⟨hx, -⟩ | ⟨x₀, hx₀, hkey, rfl⟩ | ⟨-, rfl⟩
    · exact hs.replicated x hx
    · exact ⟨(hs.replicated x₀ hx₀).1, r, hr, hkey.symm, rfl⟩
    · exact ⟨hr.key, r, hr, rfl, rfl⟩
  case business =>
    intro entityType y hy
    change y ∈ (b.business entityType).rows at hy
    rw [happlied.business, ofTable, List.filter_singleton] at hy
    cases hsame : decide (entityType = Str.lit "weight_photo" ↔ r.entity = Str.lit "weight_photo") with
    | false =>
        rw [hsame] at hy
        exact hs.business entityType y hy
    | true =>
        rw [hsame] at hy
        rcases KeyedTable.mem_upsert.mp hy with ⟨hy, -⟩ | ⟨y₀, hy₀, hkey, rfl⟩ | ⟨-, rfl⟩
        · exact hs.business entityType y hy
        · exact ⟨(hs.business entityType y₀ hy₀).1, r, hr, hkey.symm, rfl⟩
        · exact ⟨hr.key, r, hr, rfl, rfl⟩
  case queue =>
    intro q hq
    change q ∈ b.queue.rows at hq
    rw [hqueue] at hq
    split_ifs at hq
    · rcases KeyedTable.mem_upsert.mp hq with ⟨hq, -⟩ | ⟨q₀, hq₀, hkey, rfl⟩ | ⟨-, rfl⟩
      · exact hs.queue q hq
      · exact ⟨(hs.queue q₀ hq₀).1, r, hr, hkey.symm, rfl⟩
      · exact ⟨hr.key, r, hr, rfl, rfl⟩
    · exact hs.queue q hq

theorem fromUploads_step {a : Action} (hs : FromUploads S s uploads) (hstep : step S s a = some s') :
    FromUploads S s' (uploads ++ rowsUploaded S s a s') := by
  -- a step that uploads nothing adds nothing to the log
  have hnone : rowsUploaded S s a s' = [] → FromUploads S s' uploads →
      FromUploads S s' (uploads ++ rowsUploaded S s a s') := by
    intro hnone h
    rw [hnone, List.append_nil]
    exact h
  cases stepped_of_step hstep with
  | upload env payload =>
      exact { hs.append _ with records := uploaded_insertPayload hs.records }
  | fetch hpage =>
      refine hnone rfl { hs with page := fun r hr => ?_ }
      obtain ⟨e, he, rfl⟩ := mem_fetchedPage hr
      exact ⟨e, hs.records e he, rfl⟩
  | store now r rest b hpage hstore => exact hnone rfl (fromUploads_store hs hpage hstore)
  | delete cutoff lost job rest hjobs houtcome =>
      exact hnone rfl
        { hs with records := fun e he => hs.records e (KeyedTable.mem_deleteWhere.mp he).1 }
  | mark now job rest outcome hjobs houtcome =>
      refine hnone rfl { hs with queue := fun q hq => ?_ }
      rcases mem_markJob hq with ⟨hq, -⟩ | ⟨q₀, hq₀, -, -, hkey, hrecord, hid⟩
      · exact hs.queue q hq
      · rw [hkey, hrecord, hid]
        exact hs.queue q₀ hq₀
  | abortFetch | crash => exact hnone rfl { hs with page := List.forall_mem_nil _ }
  | load | refuse | abortCleanup =>
      exact hnone rfl ⟨hs.records, hs.page, hs.replicated, hs.business, hs.queue⟩

end

/-- In every run all that C and B have was uploaded: no row of B is made of anything but a record that
some upload contained. -/
theorem came_from_upload {S : Setup} {p : State × List UpsertRow}
    (h : ((cluster S).logged (rowsUploaded S)).Reachable p) : FromUploads S p.1 p.2 := by
  refine System.logged_invariant (I := FromUploads S) (fun s hs => ?_)
    (fun s uploads a s' hI hstep => fromUploads_step hI hstep) h
  have hfresh : s = freshState := hs
  rw [hfresh]
  refine ⟨List.forall_mem_nil _, List.forall_mem_nil _, List.forall_mem_nil _,
    fun entityType y hy => ?_, List.forall_mem_nil _⟩
  unfold ReplicatorDb.business at hy
  split_ifs at hy <;> exact absurd hy List.not_mem_nil

/-- A record is uploaded, fetched and stored, and uploaded again under a key in lower case. -/
theorem came_from_upload_cased :
    ∃ p, ((cluster foldedSetup).logged (rowsUploaded foldedSetup)).Reachable p ∧
      FromUploads foldedSetup p.1 p.2 ∧ p.1.b.replicated.rows.length = 1 ∧ p.2.length = 2 := by
  obtain ⟨p, hp, hP⟩ := System.exists_of_exec
    (S := (cluster foldedSetup).logged (rowsUploaded foldedSetup))
    (K := fun _ _ => True) (s := (freshState, []))
    (l := [uploadOf "A" "2026-01-01T00:00:00Z", .fetch, .store 0, uploadOf "a" "2026-01-02T00:00:00Z",
      .fetch, .store 0])
    (P := fun p => decide (p.1.b.replicated.rows.length = 1 ∧ p.2.length = 2)) ⟨rfl, rfl⟩
    (by decide +kernel)
  exact ⟨p, hp, came_from_upload hp, of_decide_eq_true hP⟩

end WeighingSync.Replicator
