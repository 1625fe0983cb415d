import WeighingSync.Common.IdHistory
import WeighingSync.Replicator.Outbox

/-!
# The record that a cleanup names

C hands out an id once, and an upsert keeps it, so an id that B remembers stands for one key of C for
good, whatever is uploaded, removed and uploaded again (`deletes_own_key`). B files its queue rows
under keys as MySQL compares them, and so the key of a queue row is that of the id up to collation.
-/

namespace WeighingSync.Replicator

open Go Receiver

/-! ## Runs with other deletions, and their history -/

/-- What can happen: a step of the system, or a deletion that somebody else asks C for. -/
inductive Deed
  | act (a : Action)
  | purge (p : Entry Str StoredRecord → Bool)

/-- The system, with every id that C has had in its table and the key it had. -/
structure Observed where
  sys : State
  assigned : List (ℕ × Str)

/-- One step of the system, or a deletion by somebody else. -/
def deedStep (S : Setup) (s : State) : Deed → Option State
  | .act a => step S s a
  | .purge p => some { s with c := { s.c with records := s.c.records.deleteWhere p } }

/-- The system from its first start on. -/
def observed (S : Setup) : System Observed Deed where
  init o := o = ⟨freshState, []⟩
  step o d := (deedStep S o.sys d).map fun s => ⟨s, s.c.records.pairs ++ o.assigned⟩

/-- The id was handed out to the key. -/
def Named (assigned : List (ℕ × Str)) (id : ℤ) (key : Str) : Prop :=
  ∃ n : ℕ, (n, key) ∈ assigned ∧ (n : ℤ) = id

theorem Named.append {assigned : List (ℕ × Str)} {id : ℤ} {key : Str} (h : Named assigned id key)
    (more : List (ℕ × Str)) : Named (more ++ assigned) id key := by
  obtain ⟨n, hn, hid⟩ := h
  exact ⟨n, List.mem_append_right _ hn, hid⟩

/-- An id that was handed out to two keys was handed out to one. -/
theorem Named.key_eq {t : RecordTable} {assigned : List (ℕ × Str)} (hs : t.History assigned) {id : ℤ}
    {key key' : Str} (h : Named assigned id key) (h' : Named assigned id key') : key = key' := by
  obtain ⟨n, hn, hid⟩ := h
  obtain ⟨n', hn', hid'⟩ := h'
  exact hs.functional _ hn _ hn' (by exact_mod_cast hid.trans hid'.symm)

/-! ## The invariant -/

variable {S : Setup} {s s' : State} {assigned : List (ℕ × Str)}

/-- What B remembers of C: the ids of the page were handed out to its keys, and those of queue rows
and jobs to keys that MySQL takes for theirs. A job has its queue row. -/
structure KeysAgree (S : Setup) (assigned : List (ℕ × Str)) (s : State) : Prop where
  page : ∀ r ∈ s.page, Named assigned r.id r.recordKey
  queue_key : ∀ q ∈ s.b.queue.rows, q.key = S.env.collate q.val.recordKey
  queue : ∀ q ∈ s.b.queue.rows, ∃ key, Named assigned q.val.cRecordId key ∧ S.env.collate key = q.key
  jobs : ∀ j ∈ s.jobs, ∃ key, Named assigned j.cRecordId key ∧
    S.env.collate key = S.env.collate j.recordKey
  job_row : ∀ j ∈ s.jobs, ∃ q ∈ s.b.queue.rows, q.id = j.id ∧ q.val.recordKey = j.recordKey

theorem keysAgree_fresh (S : Setup) : KeysAgree S [] freshState where
  page := fun _ hr => absurd hr List.not_mem_nil
  queue_key := fun _ hq => absurd hq List.not_mem_nil
  queue := fun _ hq => absurd hq List.not_mem_nil
  jobs := fun _ hj => absurd hj List.not_mem_nil
  job_row := fun _ hj => absurd hj List.not_mem_nil

theorem KeysAgree.append (h : KeysAgree S assigned s) (more : List (ℕ × Str)) :
    KeysAgree S (more ++ assigned) s where
  page := fun r hr => (h.page r hr).append more
  queue_key := h.queue_key
  queue := fun q hq => (h.queue q hq).imp fun _ hkey => ⟨hkey.1.append more, hkey.2⟩
  jobs := fun j hj => (h.jobs j hj).imp fun _ hkey => ⟨hkey.1.append more, hkey.2⟩
  job_row := h.job_row

/-- What C does to its records. -/
theorem follows_of_step {a : Action} (h : Stepped S s a s') : s.c.records.Follows s'.c.records := by
  cases h with
  | upload env payload =>
      show s.c.records.Follows (insertPayload S.ccfg env payload s.c).1.records
      rcases records_insertPayload S.ccfg env payload s.c with hsame | hrows
      · rw [hsame]
        exact KeyedTable.Follows.refl _
      · rw [hrows]
        refine ⟨nextId_le_upsertRows _ _, fun e he => ?_⟩
        rcases mem_upsertRows he with ⟨e₀, he₀, hid, hkey, -⟩ | ⟨hfresh, -⟩
        · exact Or.inl ⟨e₀, he₀, hid, hkey⟩
        · exact Or.inr hfresh
  | delete cutoff lost job rest hjobs houtcome => exact KeyedTable.follows_deleteWhere _ _
  | _ => exact KeyedTable.Follows.refl _

/-- The queue rows after a record is enqueued; a row that was there keeps its id and its text. -/
theorem keysAgree_store {now : ℤ} {r : CRecord} {rest : List CRecord} {b : ReplicatorDb}
    (hs : KeysAgree S assigned s) (hpage : s.page = r :: rest)
    (hstore : storeRecord S.env S.cfg now r s.b = some b) :
    KeysAgree S assigned { s with b, page := rest } := by
  obtain ⟨_, -, -, -, hqueue⟩ := exists_stored S.env hstore
  have hr : Named assigned r.id r.recordKey := hs.page r (by rw [hpage]; exact List.mem_cons_self)
  have hrest : ∀ r' ∈ rest, Named assigned r'.id r'.recordKey := fun r' hr' =>
    hs.page r' (by rw [hpage]; exact List.mem_cons_of_mem r hr')
  split_ifs at hqueue
  swap
  · exact ⟨hrest, hqueue ▸ hs.queue_key, hqueue ▸ hs.queue, hs.jobs, hqueue ▸ hs.job_row⟩
  · refine ⟨hrest, fun q hq => ?_, fun q hq => ?_, hs.jobs, fun j hj => ?_⟩
    · change q ∈ b.queue.rows at hq
      rw [hqueue] at hq
      rcases mem_enqueue hq with ⟨hq, -⟩ | ⟨hkey, -, -, ⟨q₀, hq₀, -, hkey₀, hrecord⟩ | ⟨-, hrecord⟩⟩
      · exact hs.queue_key q hq
      · rw [hrecord, ← hs.queue_key q₀ hq₀, hkey₀]
      · rw [hrecord, hkey]
    · change q ∈ b.queue.rows at hq
      rw [hqueue] at hq
      rcases mem_enqueue hq with ⟨hq, -⟩ | ⟨hkey, hid, -⟩
      · exact hs.queue q hq
      · exact ⟨r.recordKey, hid ▸ hr, hkey.symm⟩
    · obtain ⟨q, hq, hid, hrecord⟩ := hs.job_row j hj
      show ∃ q ∈ b.queue.rows, _
      rw [hqueue]
      by_cases hkey : q.key = S.env.collate r.recordKey
      · exact ⟨_, KeyedTable.mem_upsert.mpr (Or.inr (Or.inl ⟨q, hq, hkey, rfl⟩)), hid, hrecord⟩
      · exact ⟨q, (KeyedTable.mem_upsert_of_ne hkey).mpr hq, hid, hrecord⟩

theorem keysAgree_mark {now : ℤ} {job : DeleteJob} {rest : List DeleteJob} {outcome : DeleteOutcome}
    (hs : KeysAgree S assigned s) (hjobs : s.jobs = job :: rest) :
    KeysAgree S assigned { s with
      b := { s.b with queue := markJob now job outcome s.b.queue }
      jobs := rest
      outcome := none } := by
  have hrest : ∀ j ∈ rest, j ∈ s.jobs := fun j hj => by
    rw [hjobs]
    exact List.mem_cons_of_mem job hj
  refine ⟨hs.page, fun q hq => ?_, fun q hq => ?_, fun j hj => hs.jobs j (hrest j hj), fun j hj => ?_⟩
  · rcases mem_markJob hq with ⟨hq, -⟩ | ⟨q₀, hq₀, -, -, hkey, hrecord, -⟩
    · exact hs.queue_key q hq
    · rw [hkey, hrecord, hs.queue_key q₀ hq₀]
  · rcases mem_markJob hq with ⟨hq, -⟩ | ⟨q₀, hq₀, -, -, hkey, -, hid⟩
    · exact hs.queue q hq
    · rw [hkey, hid]
      exact hs.queue q₀ hq₀
  · obtain ⟨q, hq, hid, hrecord⟩ := hs.job_row j (hrest j hj)
    -- the row of a job is marked or left alone, and keeps its text
    cases outcome with
    | succeeded =>
        by_cases hjob : q.id = job.id
        · exact ⟨_, KeyedTable.mem_updateWhere.mpr (Or.inr ⟨q, hq, decide_eq_true hjob, rfl⟩), hid,
            hrecord⟩
        · exact ⟨q, KeyedTable.mem_updateWhere.mpr (Or.inl ⟨hq, decide_eq_false hjob⟩), hid, hrecord⟩
    | failed cause =>
        by_cases hjob : q.id = job.id
        · exact ⟨_, KeyedTable.mem_updateWhere.mpr (Or.inr ⟨q, hq, decide_eq_true hjob, rfl⟩), hid,
            hrecord⟩
        · exact ⟨q, KeyedTable.mem_updateWhere.mpr (Or.inl ⟨hq, decide_eq_false hjob⟩), hid, hrecord⟩

theorem keysAgree_step {a : Action} (hlive : ∀ e ∈ s.c.records.rows, (e.id, e.key) ∈ assigned)
    (hs : KeysAgree S assigned s) (h : Stepped S s a s') : KeysAgree S assigned s' := by
  cases h with
  | upload env payload => exact ⟨hs.page, hs.queue_key, hs.queue, hs.jobs, hs.job_row⟩
  | fetch hpage =>
      refine ⟨fun r hr => ?_, hs.queue_key, hs.queue, hs.jobs, hs.job_row⟩
      obtain ⟨e, he, rfl⟩ := mem_fetchedPage hr
      exact ⟨e.id, hlive e he, rfl⟩
  | store now r rest b hpage hstore => exact keysAgree_store hs hpage hstore
  | abortFetch => exact ⟨List.forall_mem_nil _, hs.queue_key, hs.queue, hs.jobs, hs.job_row⟩
  | load now henabled hjobs =>
      refine ⟨hs.page, hs.queue_key, hs.queue, fun j hj => ?_, fun j hj => ?_⟩
      · obtain ⟨q, hq, -, rfl⟩ := mem_loadDeleteJobs hj
        obtain ⟨key, hnamed, hkey⟩ := hs.queue q hq
        exact ⟨key, hnamed, hkey.trans (hs.queue_key q hq)⟩
      · obtain ⟨q, hq, -, rfl⟩ := mem_loadDeleteJobs hj
        exact ⟨q, hq, rfl, rfl⟩
  | delete cutoff lost job rest hjobs houtcome =>
      exact ⟨hs.page, hs.queue_key, hs.queue, hs.jobs, hs.job_row⟩
  | refuse cause job rest hjobs houtcome =>
      exact ⟨hs.page, hs.queue_key, hs.queue, hs.jobs, hs.job_row⟩
  | mark now job rest outcome hjobs houtcome => exact keysAgree_mark hs hjobs
  | abortCleanup =>
      exact ⟨hs.page, hs.queue_key, hs.queue, List.forall_mem_nil _, List.forall_mem_nil _⟩
  | crash =>
      exact ⟨List.forall_mem_nil _, hs.queue_key, hs.queue, List.forall_mem_nil _,
        List.forall_mem_nil _⟩

/-- The invariant of a run: an id has one key for good, and B agrees with the history. -/
structure IdsAgree (S : Setup) (o : Observed) : Prop where
  history : o.sys.c.records.History o.assigned
  keys : KeysAgree S o.assigned o.sys

theorem idsAgree_step {o o' : Observed} {d : Deed} (hs : IdsAgree S o)
    (hstep : (observed S).step o d = some o') : IdsAgree S o' := by
  obtain ⟨s', hs', rfl⟩ := Option.map_eq_some_iff.mp hstep
  cases d with
  | act a =>
      have hstepped := stepped_of_step hs'
      exact ⟨hs.history.follow (follows_of_step hstepped),
        (keysAgree_step hs.history.live hs.keys hstepped).append _⟩
  | purge p =>
      cases hs'
      have hsame : KeysAgree S o.assigned
          { o.sys with c := { o.sys.c with records := o.sys.c.records.deleteWhere p } } :=
        ⟨hs.keys.page, hs.keys.queue_key, hs.keys.queue, hs.keys.jobs, hs.keys.job_row⟩
      exact ⟨hs.history.follow (KeyedTable.follows_deleteWhere _ p), hsame.append _⟩

theorem idsAgree_of_reachable {o : Observed} (h : (observed S).Reachable o) : IdsAgree S o := by
  refine h.invariant (I := IdsAgree S) (fun o ho => ?_) fun o d o' hs hstep _ => idsAgree_step hs hstep
  have hfresh : o = ⟨freshState, []⟩ := ho
  rw [hfresh]
  exact ⟨KeyedTable.history_empty, keysAgree_fresh S⟩

/-- An id that was handed out to a key never stands for another one, and what a `DELETE` removes for a
queue row is the record of its id, whose key MySQL takes for that of the queue row. -/
theorem deletes_own_key {o : Observed} (h : (observed S).Reachable o) :
    (∀ p ∈ o.assigned, ∀ e ∈ o.sys.c.records.rows, e.id = p.1 → e.key = p.2) ∧
      ∀ cutoff lost s', step S o.sys (.delete cutoff lost) = some s' → ∀ job ∈ o.sys.jobs.head?,
        (∃ q ∈ o.sys.b.queue.rows, q.id = job.id ∧ q.val.recordKey = job.recordKey) ∧
          ∀ e ∈ o.sys.c.records.rows, e ∉ s'.c.records.rows →
            (e.id : ℤ) = job.cRecordId ∧ S.env.collate e.key = S.env.collate job.recordKey := by
  have hinv := idsAgree_of_reachable h
  refine ⟨fun p hp e he hid => ?_, fun cutoff lost s' hstep job hjob => ?_⟩
  · exact hinv.history.functional _ (hinv.history.live e he) p hp hid
  · have hmem := List.mem_of_mem_head? hjob
    refine ⟨hinv.keys.job_row job hmem, fun e he hgone => ?_⟩
    cases stepped_of_step hstep with
    | delete _ _ job' rest hjobs houtcome =>
        have hsame : job' = job := by
          rw [hjobs] at hjob
          exact Option.some_inj.mp hjob
        subst hsame
        have hid : (e.id : ℤ) = job'.cRecordId := by
          by_contra hne
          exact hgone ((mem_deleteByID S.ccfg).mpr ⟨he, fun heq => absurd heq hne⟩)
        obtain ⟨key, hnamed, hkey⟩ := hinv.keys.jobs job' hmem
        have hlive : Named o.assigned job'.cRecordId e.key :=
          ⟨e.id, hinv.history.live e he, hid⟩
        exact ⟨hid, by rw [hlive.key_eq hinv.history hnamed, hkey]⟩

/-! ## Keys that differ in case -/

/-- The small deployment, with keys compared without regard to case. -/
def foldedSetup : Setup := { smallSetup with env := foldedEnv }

/-- Two records whose keys differ in case are fetched one after the other, and the queue row that B
has for the two is cleaned up. -/
def casedCleanup : List Deed :=
  [.act (uploadOf "A" "2026-01-01T00:00:00Z"), .act .fetch, .act (.store 0),
    .act (uploadOf "a" "2026-01-02T00:00:00Z"), .act .fetch, .act (.store 0), .act (.load 0)]

/-- The next `DELETE` removes the record of the other key. -/
def removesOtherText (o : Observed) : Bool :=
  (step foldedSetup o.sys (.delete (Str.lit "2026-06-01T00:00:00Z") none)).any fun after : State =>
    decide (∃ job ∈ o.sys.jobs.head?, ∃ e ∈ o.sys.c.records.rows, e ∉ after.c.records.rows ∧
      job.recordKey = Str.lit "weight_info:A" ∧ e.key = Str.lit "weight_info:a")

theorem deletes_own_key_cased : ∃ o, (observed foldedSetup).Reachable o ∧
    ((∀ p ∈ o.assigned, ∀ e ∈ o.sys.c.records.rows, e.id = p.1 → e.key = p.2) ∧
      ∀ cutoff lost s', step foldedSetup o.sys (.delete cutoff lost) = some s' →
        ∀ job ∈ o.sys.jobs.head?,
          (∃ q ∈ o.sys.b.queue.rows, q.id = job.id ∧ q.val.recordKey = job.recordKey) ∧
            ∀ e ∈ o.sys.c.records.rows, e ∉ s'.c.records.rows →
              (e.id : ℤ) = job.cRecordId ∧
                foldedSetup.env.collate e.key = foldedSetup.env.collate job.recordKey) ∧
    o.sys.jobs.length = 1 := by
  obtain ⟨o, ho, hlength⟩ := System.exists_of_exec (S := observed foldedSetup)
    (K := fun _ _ => True) (P := fun o => decide (o.sys.jobs.length = 1)) (s := ⟨freshState, []⟩)
    (l := casedCleanup) rfl (by decide +kernel)
  exact ⟨o, ho, deletes_own_key ho, of_decide_eq_true hlength⟩

/-- The job names the key with a capital letter, and its `DELETE` removes the record of the other
key. -/
theorem deletes_other_text_of_cased : ∃ o, (observed foldedSetup).Reachable o ∧
    ∃ s', step foldedSetup o.sys (.delete (Str.lit "2026-06-01T00:00:00Z") none) = some s' ∧
      ∃ job ∈ o.sys.jobs.head?, ∃ e ∈ o.sys.c.records.rows, e ∉ s'.c.records.rows ∧
        job.recordKey = Str.lit "weight_info:A" ∧ e.key = Str.lit "weight_info:a" := by
  obtain ⟨o, ho, hP⟩ := System.exists_of_exec (S := observed foldedSetup) (K := fun _ _ => True)
    (P := removesOtherText) (s := ⟨freshState, []⟩) (l := casedCleanup) rfl (by decide +kernel)
  obtain ⟨s', hs', hfound⟩ := (Option.any_eq_true _ _).mp hP
  exact ⟨o, ho, s', hs', of_decide_eq_true hfound⟩

end WeighingSync.Replicator
