import WeighingSync.Replicator.Cluster

/-!
# The outbox and the replica

`storeRecord` with the failures of its statements, in runs in which C answers anything. The queue of
deletions is an outbox: a row is in it only together with the row it is about
(`consistent_of_reachable`). Rows belong together up to the collation of their keys.
-/

namespace WeighingSync.Replicator

open Go

/-! ## The transaction of `storeRecord` -/

/-- The statements of the transaction of `storeRecord`. -/
inductive StoreStatement
  | begin
  | replicated
  | business
  | queue
  | commit
  deriving DecidableEq, Repr

/-- The errors of `storeRecord`: a statement that fails, a raw record that is no JSON object, or a
commit that took place although its answer was lost. -/
inductive StoreError
  | failed (statement : StoreStatement)
  | undecodable
  | answerLost
  deriving DecidableEq, Repr

/-- A statement within the transaction. -/
def attempt {σ : Type*} (fails : StoreStatement → Bool) (statement : StoreStatement) (f : σ → σ)
    (tx : σ) : Except StoreError σ :=
  if fails statement then .error (.failed statement) else .ok (f tx)

section

variable (env : StoreEnv) (cfg : Config) (now : ℤ) (fails : StoreStatement → Bool)

/-- `upsertBusinessRecord` within the transaction: the raw record is decoded before the statement. -/
def upsertBusinessTx (r : CRecord) (tx : ReplicatorDb) : Except StoreError ReplicatorDb :=
  match upsertBusinessRecord env r tx with
  | none => .error .undecodable
  | some tx' => attempt fails .business (fun _ => tx') tx

/-- The statement that queues the deletion, with cleanup enabled. -/
def enqueueTx (r : CRecord) (tx : ReplicatorDb) : Except StoreError ReplicatorDb :=
  if cfg.cleanupEnabled then
    attempt fails .queue (fun tx => { tx with queue := enqueue env now r tx.queue }) tx
  else .ok tx

/-- The statements of `storeRecord`, up to its commit. -/
def storeTx (r : CRecord) (db : ReplicatorDb) : Except StoreError ReplicatorDb := do
  let tx ← attempt fails .begin id db
  let tx ← attempt fails .replicated
    (fun tx => { tx with replicated := upsertReplicated env r tx.replicated }) tx
  let tx ← upsertBusinessTx env fails r tx
  let tx ← enqueueTx env cfg now fails r tx
  attempt fails .commit id tx

/-- `storeRecord`: the tables that it leaves and the error it returns. The deferred rollback undoes
what was not committed. -/
def storeRecordTx (answerLost : Bool) (r : CRecord) (db : ReplicatorDb) :
    ReplicatorDb × Option StoreError :=
  match storeTx env cfg now fails r db with
  | .ok db' => (db', if answerLost then some .answerLost else none)
  | .error e => (db, some e)

end

section

variable {env : StoreEnv} {cfg : Config} {now : ℤ} {fails : StoreStatement → Bool} {r : CRecord}
  {db db' : ReplicatorDb}

theorem attempt_eq_ok_iff {σ : Type*} {statement : StoreStatement} {f : σ → σ} {tx tx' : σ} :
    attempt fails statement f tx = .ok tx' ↔ fails statement = false ∧ tx' = f tx := by
  unfold attempt
  cases fails statement <;> simp [eq_comm]

/-- A transaction that goes through has stored the record. -/
theorem storeRecord_of_storeTx (h : storeTx env cfg now fails r db = .ok db') :
    storeRecord env cfg now r db = some db' := by
  obtain ⟨tx₁, hbegin, h⟩ := bind_eq_ok_iff.mp h
  obtain ⟨tx₂, hreplicated, h⟩ := bind_eq_ok_iff.mp h
  obtain ⟨tx₃, hbusiness, h⟩ := bind_eq_ok_iff.mp h
  obtain ⟨tx₄, hqueue, hcommit⟩ := bind_eq_ok_iff.mp h
  obtain ⟨-, rfl⟩ := attempt_eq_ok_iff.mp hbegin
  obtain ⟨-, rfl⟩ := attempt_eq_ok_iff.mp hreplicated
  obtain ⟨-, rfl⟩ := attempt_eq_ok_iff.mp hcommit
  unfold upsertBusinessTx at hbusiness
  split at hbusiness
  · cases hbusiness
  · next tx' hstored =>
    obtain ⟨-, rfl⟩ := attempt_eq_ok_iff.mp hbusiness
    rw [storeRecord, hstored, Option.map_some]
    unfold enqueueTx at hqueue
    split_ifs at hqueue ⊢ with hcleanup
    · obtain ⟨-, rfl⟩ := attempt_eq_ok_iff.mp hqueue
      rfl
    · cases hqueue
      rfl

/-- The tables after `storeRecord` are those before it, or the record is stored. -/
theorem storeRecordTx_cases (env : StoreEnv) (cfg : Config) (now : ℤ) (fails : StoreStatement → Bool)
    (answerLost : Bool) (r : CRecord) (db : ReplicatorDb) :
    (storeRecordTx env cfg now fails answerLost r db).1 = db ∨
      storeRecord env cfg now r db = some (storeRecordTx env cfg now fails answerLost r db).1 := by
  unfold storeRecordTx
  split
  · next db' h => exact Or.inr (storeRecord_of_storeTx h)
  · exact Or.inl rfl

/-- An error before the commit leaves the tables as they were. -/
theorem storeRecordTx_error {answerLost : Bool} {e : StoreError}
    (h : (storeRecordTx env cfg now fails answerLost r db).2 = some e) (he : e ≠ .answerLost) :
    (storeRecordTx env cfg now fails answerLost r db).1 = db := by
  unfold storeRecordTx at h ⊢
  split at h
  · simp only at h
    split_ifs at h
    cases h
    exact absurd rfl he
  · rfl

/-- Where no statement fails, this is `storeRecord` as it is without failures. -/
theorem storeTx_of_no_failure (env : StoreEnv) (cfg : Config) (now : ℤ) (r : CRecord)
    (db : ReplicatorDb) : storeTx env cfg now (fun _ => false) r db =
      match storeRecord env cfg now r db with
      | some db' => .ok db'
      | none => .error .undecodable := by
  have hattempt : ∀ {σ : Type} (statement : StoreStatement) (f : σ → σ) (tx : σ),
      attempt (fun _ => false) statement f tx = .ok (f tx) := fun _ _ _ => rfl
  unfold storeTx storeRecord upsertBusinessTx enqueueTx
  simp only [hattempt, bind, Except.bind, id_eq]
  cases upsertBusinessRecord env r { db with replicated := upsertReplicated env r db.replicated } with
  | none => rfl
  | some tx =>
      cases hcleanup : cfg.cleanupEnabled <;> simp

end

/-! ## Runs -/

/-- The tables of B, what is left of the page that C answered with, and the jobs of the delete pass. -/
structure OutboxState where
  db : ReplicatorDb
  page : List CRecord
  jobs : List DeleteJob

/-- The steps of B: C answers with any records, the next of them is stored as far as its statements
go, jobs are loaded, the first job is marked with whatever became of its `DELETE`, its mark fails, or B
starts anew. -/
inductive OutboxAction
  | respond (page : List CRecord)
  | store (now : ℤ) (fails : StoreStatement → Bool) (answerLost : Bool)
  | load (now : ℤ)
  | mark (now : ℤ) (outcome : DeleteOutcome)
  | markFails
  | crash

/-- One step. -/
def outboxStep (env : StoreEnv) (cfg : Config) (s : OutboxState) : OutboxAction → Option OutboxState
  | .respond page => some { s with page }
  | .store now fails answerLost =>
      match s.page with
      | [] => none
      | r :: rest =>
          if r.acceptable then
            let (db, error) := storeRecordTx env cfg now fails answerLost r s.db
            some { s with db, page := if error = none then rest else [] }
          else some { s with page := [] }
  | .load now =>
      if cfg.cleanupEnabled ∧ s.jobs = [] then
        some { s with jobs := loadDeleteJobs cfg now s.db.queue }
      else none
  | .mark now outcome =>
      match s.jobs with
      | [] => none
      | job :: rest =>
          some { s with db := { s.db with queue := markJob now job outcome s.db.queue }, jobs := rest }
  | .markFails => some { s with jobs := [] }
  | .crash => some { s with page := [], jobs := [] }

/-- B from its first start on. -/
def outbox (env : StoreEnv) (cfg : Config) : System OutboxState OutboxAction where
  init s := s = ⟨emptyDb, [], []⟩
  step := outboxStep env cfg

/-! ## Rows that belong together -/

/-- The two rules: a replicated row has its row in the business table of its type, under a key that
MySQL takes for its own, with its id and its raw record; and a queue row has its replicated row, of
the same key and id. -/
structure OutboxConsistent (env : StoreEnv) (db : ReplicatorDb) : Prop where
  business : ∀ x ∈ db.replicated.rows, ∃ y ∈ (db.business x.val.entityType).rows,
    env.collate y.val.recordKey = env.collate x.val.recordKey ∧ y.val.cRecordId = x.val.cRecordId ∧
      y.val.rawRecord = x.val.rawRecord
  queue : ∀ q ∈ db.queue.rows, ∃ x ∈ db.replicated.rows,
    x.val.recordKey = q.val.recordKey ∧ x.val.cRecordId = q.val.cRecordId

/-- The invariant: the rules by the keys of the tables, the keys themselves, and no replicated row
without a queue row. -/
structure OutboxInv (env : StoreEnv) (db : ReplicatorDb) : Prop where
  replicated_key : ∀ x ∈ db.replicated.rows, x.key = env.collate x.val.recordKey
  business_key : ∀ entityType, ∀ y ∈ (db.business entityType).rows,
    y.key = env.collate y.val.recordKey
  business : ∀ x ∈ db.replicated.rows, ∃ y ∈ (db.business x.val.entityType).rows,
    y.key = x.key ∧ y.val.cRecordId = x.val.cRecordId ∧ y.val.rawRecord = x.val.rawRecord
  queue : ∀ q ∈ db.queue.rows, ∃ x ∈ db.replicated.rows,
    x.key = q.key ∧ x.val.recordKey = q.val.recordKey ∧ x.val.cRecordId = q.val.cRecordId
  queued : ∀ x ∈ db.replicated.rows, x.key ∈ db.queue.keys

theorem OutboxInv.consistent {env : StoreEnv} {db : ReplicatorDb} (h : OutboxInv env db) :
    OutboxConsistent env db := by
  refine ⟨fun x hx => ?_, fun q hq => ?_⟩
  · obtain ⟨y, hy, hkey, hid, hraw⟩ := h.business x hx
    exact ⟨y, hy, by rw [← h.business_key _ y hy, hkey, h.replicated_key x hx], hid, hraw⟩
  · obtain ⟨x, hx, -, hkey, hid⟩ := h.queue q hq
    exact ⟨x, hx, hkey, hid⟩

/-! ## What storing a record keeps -/

section

variable {env : StoreEnv} {cfg : Config} {now : ℤ} {r : CRecord} {db db' : ReplicatorDb}

/-- The replicated rows after a record is stored: those of other keys, and the row of its key. -/
theorem mem_upsertReplicated {x : Entry Str ReplicatedRow} {t : KeyedTable Str ReplicatedRow}
    (h : x ∈ (upsertReplicated env r t).rows) :
    (x ∈ t.rows ∧ x.key ≠ env.collate r.recordKey) ∨
      (x.key = env.collate r.recordKey ∧ x.val.entityType = r.entity ∧ x.val.cRecordId = r.id ∧
        x.val.rawRecord = r.record ∧
        ((∃ x₀ ∈ t.rows, x₀.key = x.key ∧ x.val.recordKey = x₀.val.recordKey) ∨
          (x.key ∉ t.keys ∧ x.val.recordKey = r.recordKey))) := by
  rcases KeyedTable.mem_upsert.mp h with hold | ⟨x₀, hx₀, hkey, rfl⟩ | ⟨hnew, rfl⟩
  · exact Or.inl hold
  · exact Or.inr ⟨hkey, rfl, rfl, rfl, Or.inl ⟨x₀, hx₀, rfl, rfl⟩⟩
  · exact Or.inr ⟨rfl, rfl, rfl, rfl, Or.inr ⟨hnew, rfl⟩⟩

/-- The row of the key of a record, after the record is stored. -/
theorem exists_upsertReplicated (env : StoreEnv) (r : CRecord) (t : KeyedTable Str ReplicatedRow) :
    ∃ x ∈ (upsertReplicated env r t).rows, x.key = env.collate r.recordKey :=
  KeyedTable.mem_keys.mp (KeyedTable.mem_keys_upsert.mpr (Or.inr rfl))

/-- Storing a record keeps the rules, in one transaction. -/
theorem outboxInv_storeRecord (hcleanup : cfg.cleanupEnabled = true) (hs : OutboxInv env db)
    (h : storeRecord env cfg now r db = some db') : OutboxInv env db' := by
  obtain ⟨values, -, hreplicated, hbusiness, hqueue⟩ := exists_stored env h
  rw [if_pos hcleanup] at hqueue
  constructor
  case replicated_key =>
    intro x hx
    rw [hreplicated] at hx
    rcases mem_upsertReplicated hx with ⟨hx, -⟩ | ⟨hkey, -, -, -, ⟨x₀, hx₀, hkey₀, hrecord⟩ | ⟨-, hrecord⟩⟩
    · exact hs.replicated_key x hx
    · rw [hrecord, ← hkey₀, hs.replicated_key x₀ hx₀]
    · rw [hrecord, hkey]
  case business_key =>
    intro entityType y hy
    rw [hbusiness] at hy
    -- the record is written to the table of its entity, and the other table is as it was
    split_ifs at hy
    all_goals
      first
        | exact hs.business_key entityType y hy
        | rcases KeyedTable.mem_upsert.mp hy with ⟨hy, -⟩ | ⟨y₀, hy₀, -, rfl⟩ | ⟨-, rfl⟩
          · exact hs.business_key entityType y hy
          · exact hs.business_key entityType y₀ hy₀
          · rfl
  case business =>
    intro x hx
    rw [hreplicated] at hx
    rcases mem_upsertReplicated hx with ⟨hx, hne⟩ | ⟨hkey, hentity, hid, hraw, -⟩
    · obtain ⟨y, hy, hykey, hyid, hyraw⟩ := hs.business x hx
      refine ⟨y, ?_, hykey, hyid, hyraw⟩
      rw [hbusiness]
      split_ifs
      all_goals first
        | exact hy
        | exact (KeyedTable.mem_upsert_of_ne (hykey ▸ hne)).mpr hy
    · -- the business row of the record is written in the same transaction
      rw [hentity, hbusiness, if_pos Iff.rfl, hkey, hid, hraw]
      have hwritten : env.collate r.recordKey ∈ (upsertBusiness env
          (businessFields r.entity) r values
          (db.business r.entity)).keys := KeyedTable.mem_keys_upsert.mpr (Or.inr rfl)
      obtain ⟨y, hy, hykey⟩ := KeyedTable.mem_keys.mp hwritten
      have hview := KeyedTable.view_of_mem_upsert (fun v : BusinessRow => (v.cRecordId, v.rawRecord))
        (b := (r.id, r.record)) rfl (fun _ => rfl) hy hykey
      exact ⟨y, hy, hykey, congrArg Prod.fst hview, congrArg Prod.snd hview⟩
  case queue =>
    intro q hq
    rw [hqueue] at hq
    rw [hreplicated]
    obtain ⟨x, hx, hxkey⟩ := exists_upsertReplicated env r db.replicated
    rcases mem_upsertReplicated hx with ⟨-, hne⟩ | ⟨-, -, hxid, -, hxrecord⟩
    · exact absurd hxkey hne
    rcases KeyedTable.mem_upsert.mp hq with ⟨hq, hne⟩ | ⟨q₀, hq₀, hkey, rfl⟩ | ⟨hnew, rfl⟩
    · obtain ⟨x, hx, hxkey, hrecord, hxid⟩ := hs.queue q hq
      exact ⟨x, (KeyedTable.mem_upsert_of_ne (hxkey ▸ hne)).mpr hx, hxkey, hrecord, hxid⟩
    · -- both rows were there, and keep the text of their key
      refine ⟨x, hx, hxkey.trans hkey.symm, ?_, hxid⟩
      obtain ⟨x₀, hx₀, hx₀key, hx₀record, -⟩ := hs.queue q₀ hq₀
      have hkeys : x₀.key = x.key := by rw [hx₀key, hkey, hxkey]
      rcases hxrecord with ⟨x₁, hx₁, hx₁key, hx₁record⟩ | ⟨hxnew, -⟩
      · have hsame : x₁ = x₀ := KeyedTable.eq_of_key_eq hx₁ hx₀ (hx₁key.trans hkeys.symm)
        rw [hx₁record, hsame, hx₀record]
      · exact absurd (KeyedTable.mem_keys.mpr ⟨x₀, hx₀, hkeys⟩) hxnew
    · -- both rows are new: a replicated row would have been queued before
      refine ⟨x, hx, hxkey, ?_, hxid⟩
      rcases hxrecord with ⟨x₁, hx₁, hx₁key, -⟩ | ⟨-, hrecord⟩
      · exact absurd (hx₁key.trans hxkey ▸ hs.queued x₁ hx₁) hnew
      · exact hrecord
  case queued =>
    intro x hx
    rw [hreplicated] at hx
    rw [hqueue, enqueue, KeyedTable.mem_keys_upsert]
    rcases mem_upsertReplicated hx with ⟨hx, -⟩ | ⟨hkey, -⟩
    · exact Or.inl (hs.queued x hx)
    · exact Or.inr hkey

/-- A mark changes neither the key nor the id of a queue row. -/
theorem outboxInv_markJob (hs : OutboxInv env db) (job : DeleteJob) (outcome : DeleteOutcome) :
    OutboxInv env { db with queue := markJob now job outcome db.queue } := by
  have hkeys : (markJob now job outcome db.queue).keys = db.queue.keys := by
    cases outcome <;> exact KeyedTable.keys_updateWhere _ _ _
  refine ⟨hs.replicated_key, hs.business_key, hs.business, fun q hq => ?_, fun x hx => ?_⟩
  · rcases mem_markJob hq with ⟨hq, -⟩ | ⟨q₀, hq₀, -, -, hkey, hrecord, hid⟩
    · exact hs.queue q hq
    · rw [hkey, hrecord, hid]
      exact hs.queue q₀ hq₀
  · show x.key ∈ (markJob now job outcome db.queue).keys
    rw [hkeys]
    exact hs.queued x hx

end

/-! ## Every reachable state -/

theorem outboxInv_empty (env : StoreEnv) : OutboxInv env emptyDb where
  replicated_key := fun _ hx => absurd hx List.not_mem_nil
  business_key := by
    intro entityType y hy
    unfold ReplicatorDb.business at hy
    split_ifs at hy <;> exact absurd hy List.not_mem_nil
  business := fun _ hx => absurd hx List.not_mem_nil
  queue := fun _ hq => absurd hq List.not_mem_nil
  queued := fun _ hx => absurd hx List.not_mem_nil

theorem outboxInv_step {env : StoreEnv} {cfg : Config} (hcleanup : cfg.cleanupEnabled = true)
    {s s' : OutboxState} {a : OutboxAction} (hs : OutboxInv env s.db)
    (hstep : outboxStep env cfg s a = some s') : OutboxInv env s'.db := by
  cases a with
  | respond page =>
      cases hstep
      exact hs
  | store now fails answerLost =>
      simp only [outboxStep] at hstep
      split at hstep
      · cases hstep
      · next r rest _ =>
        by_cases hr : r.acceptable = true
        · rw [if_pos hr] at hstep
          cases hstep
          rcases storeRecordTx_cases env cfg now fails answerLost r s.db with hsame | hstored
          · show OutboxInv env (storeRecordTx env cfg now fails answerLost r s.db).1
            rw [hsame]
            exact hs
          · exact outboxInv_storeRecord hcleanup hs hstored
        · rw [if_neg hr] at hstep
          cases hstep
          exact hs
  | load now =>
      simp only [outboxStep] at hstep
      split_ifs at hstep
      cases hstep
      exact hs
  | mark now outcome =>
      simp only [outboxStep] at hstep
      split at hstep
      · cases hstep
      · next job rest _ =>
        cases hstep
        exact outboxInv_markJob hs job outcome
  | markFails =>
      cases hstep
      exact hs
  | crash =>
      cases hstep
      exact hs

/-- With cleanup enabled, whatever C answers, whichever statements fail and wherever B stops, the
tables of B are consistent, and a `storeRecord` that returns an error before its commit leaves them as
they were. -/
theorem consistent_of_reachable {env : StoreEnv} {cfg : Config} (hcleanup : cfg.cleanupEnabled = true)
    {s : OutboxState} (h : (outbox env cfg).Reachable s) :
    OutboxConsistent env s.db ∧ ∀ now fails answerLost r e,
      (storeRecordTx env cfg now fails answerLost r s.db).2 = some e → e ≠ .answerLost →
        (storeRecordTx env cfg now fails answerLost r s.db).1 = s.db := by
  have hinv : OutboxInv env s.db := by
    refine h.invariant (I := fun s => OutboxInv env s.db) (fun s hs => ?_) fun s a s' hs hstep _ =>
      outboxInv_step hcleanup hs hstep
    have hempty : s = ⟨emptyDb, [], []⟩ := hs
    rw [hempty]
    exact outboxInv_empty env
  exact ⟨hinv.consistent, fun _ _ _ _ _ herror hbefore => storeRecordTx_error herror hbefore⟩

/-! ## Keys that differ in case -/

/-- MySQL compares keys without regard to case. -/
def foldedEnv : StoreEnv := { exactEnv with collate := Str.toLower }

/-- What B receives for a record of this key and type. -/
def responseOf (id : ℤ) (key entityType : String) : CRecord where
  id := id
  recordKey := Str.lit key
  entityType := Str.lit entityType
  keyType := Str.lit "serialNo"
  serialNo := []
  plateNo := []
  sourceTime := []
  source := []
  database := []
  table := []
  uploadedAt := []
  ingestedAt := []
  record := Str.lit "\x7b\x7d"

/-- A record, and then another of a key that differs in case and of the other type. -/
def casedRun : List OutboxAction :=
  [.respond [responseOf 1 "weight_info:A" "weight_info", responseOf 2 "weight_info:a" "weight_photo"],
    .store 0 (fun _ => false) false, .store 0 (fun _ => false) false]

theorem consistent_of_reachable_cased : ∃ s, (outbox foldedEnv smallSetup.cfg).Reachable s ∧
    (OutboxConsistent foldedEnv s.db ∧ ∀ now fails answerLost r e,
      (storeRecordTx foldedEnv smallSetup.cfg now fails answerLost r s.db).2 = some e →
        e ≠ .answerLost →
          (storeRecordTx foldedEnv smallSetup.cfg now fails answerLost r s.db).1 = s.db) ∧
    s.db.replicated.rows.length = 1 := by
  obtain ⟨s, hs, hlength⟩ := System.exists_of_exec (S := outbox foldedEnv smallSetup.cfg)
    (K := fun _ _ => True) (P := fun s => decide (s.db.replicated.rows.length = 1))
    (s := ⟨emptyDb, [], []⟩) (l := casedRun) rfl (by decide +kernel)
  exact ⟨s, hs, consistent_of_reachable rfl hs, of_decide_eq_true hlength⟩

/-- The replicated row keeps the text of the first key, and the business table of its new type has that
of the second. -/
theorem not_same_text_of_cased : ∃ s, (outbox foldedEnv smallSetup.cfg).Reachable s ∧
    ¬ ∀ x ∈ s.db.replicated.rows, ∃ y ∈ (s.db.business x.val.entityType).rows,
      y.val.recordKey = x.val.recordKey ∧ y.val.cRecordId = x.val.cRecordId ∧
        y.val.rawRecord = x.val.rawRecord := by
  obtain ⟨s, hs, hfails⟩ := System.exists_of_exec (S := outbox foldedEnv smallSetup.cfg)
    (K := fun _ _ => True)
    (P := fun s => !decide (∀ x ∈ s.db.replicated.rows, ∃ y ∈ (s.db.business x.val.entityType).rows,
      y.val.recordKey = x.val.recordKey ∧ y.val.cRecordId = x.val.cRecordId ∧
        y.val.rawRecord = x.val.rawRecord))
    (s := ⟨emptyDb, [], []⟩) (l := casedRun) rfl (by decide +kernel)
  rw [Bool.not_eq_true', decide_eq_false_iff_not] at hfails
  exact ⟨s, hs, hfails⟩

end WeighingSync.Replicator
