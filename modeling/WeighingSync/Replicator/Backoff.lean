import WeighingSync.Replicator.Assigned

/-!
# How long a failed cleanup waits

The replicator under a clock, with the moment at which a `DELETE` is sent apart from its answer. The
delay after a failure is kept in the queue row, so it is respected in the runs in which no record is
stored again whose deletion has failed, and B does not stop between a failure and its mark
(`sends_in_time`). `fetchLoop` stores such a record on every pass as long as C still has it, which makes
its row due at once.
-/

namespace WeighingSync.Replicator

open Go Receiver

/-! ## Runs under a clock -/

/-- The system at a time: whether a `DELETE` is under way, and for each id how many of its `DELETE`s
have failed since the last success, and when the last of them did. -/
structure Timed where
  obs : Observed
  now : ℤ
  sending : Bool
  fails : ℤ → ℕ
  lastFailure : ℤ → ℤ

/-- Time passes, the `DELETE` of the next job is sent, or the system takes a step. -/
inductive TimedAction
  | tick (d : ℕ)
  | send
  | deed (d : Deed)

/-- The reading of the clock that a step takes. -/
def Deed.reading : Deed → Option ℤ
  | .act (.store now) | .act (.load now) | .act (.mark now) => some now
  | _ => none

/-- The steps that bring the answer of a `DELETE`. -/
def Deed.answers : Deed → Bool
  | .act (.delete _ _) | .act (.refuse _) => true
  | _ => false

/-- The steps that end a delete pass. -/
def Deed.stops : Deed → Bool
  | .act .abortCleanup | .act .crash => true
  | _ => false

/-- The state after an answer: a failure is counted, and a success ends the count. -/
def answered (t : Timed) (obs : Observed) : Timed :=
  match obs.sys.jobs, obs.sys.outcome with
  | job :: _, some (.failed _) =>
      { t with
        obs
        sending := false
        fails := Function.update t.fails job.cRecordId (t.fails job.cRecordId + 1)
        lastFailure := Function.update t.lastFailure job.cRecordId t.now }
  | job :: _, some .succeeded =>
      { t with obs, sending := false, fails := Function.update t.fails job.cRecordId 0 }
  | _, _ => { t with obs, sending := false }

/-- One step. -/
def timedStep (S : Setup) (t : Timed) : TimedAction → Option Timed
  | .tick d => some { t with now := t.now + d }
  | .send =>
      if t.sending = false ∧ t.obs.sys.jobs ≠ [] ∧ t.obs.sys.outcome = none then
        some { t with sending := true }
      else none
  | .deed d =>
      if (∀ now ∈ d.reading, now = t.now) ∧ (d.answers = true → t.sending = true) then
        ((observed S).step t.obs d).map fun obs =>
          if d.answers then answered t obs else { t with obs, sending := t.sending && !d.stops }
      else none

/-- The system under a clock, from its first start on. -/
def timed (S : Setup) : System Timed TimedAction where
  init t := t.obs = ⟨freshState, []⟩ ∧ t.sending = false ∧ t.fails = fun _ => 0
  step := timedStep S

/-- The `DELETE` of the id has failed and is not marked yet. -/
def Awaiting (s : State) (id : ℤ) : Prop :=
  ∃ cause, s.outcome = some (.failed cause) ∧ ∃ job ∈ s.jobs.head?, job.cRecordId = id

instance (s : State) (id : ℤ) : Decidable (Awaiting s id) :=
  match h : s.outcome with
  | some (.failed cause) =>
      decidable_of_iff (∃ job ∈ s.jobs.head?, job.cRecordId = id)
        ⟨fun hjob => ⟨cause, h, hjob⟩, fun hawaits => hawaits.choose_spec.2⟩
  | some .succeeded => isFalse fun hawaits => by rw [Awaiting, h] at hawaits; simp at hawaits
  | none => isFalse fun hawaits => by rw [Awaiting, h] at hawaits; simp at hawaits

/-- The condition on a step: a record that is stored has no failed deletion, unless the mark of the
failure is still to come; and a delete pass does not end between a failure and its mark. -/
def KeepsDelay (t : Timed) : TimedAction → Prop
  | .deed (.act (.store _)) => ∀ r ∈ t.obs.sys.page.head?,
      t.fails r.id = 0 ∨ Awaiting t.obs.sys r.id
  | .deed (.act .abortCleanup) | .deed (.act .crash) =>
      ∀ job ∈ t.obs.sys.jobs.head?, ¬ Awaiting t.obs.sys job.cRecordId
  | _ => True

instance (t : Timed) : DecidablePred (KeepsDelay t)
  | .deed (.act (.store _)) => inferInstanceAs (Decidable (∀ r ∈ t.obs.sys.page.head?,
      t.fails r.id = 0 ∨ Awaiting t.obs.sys r.id))
  | .deed (.act .abortCleanup) | .deed (.act .crash) =>
      inferInstanceAs (Decidable (∀ job ∈ t.obs.sys.jobs.head?, ¬ Awaiting t.obs.sys job.cRecordId))
  | .tick _ | .send | .deed (.purge _) | .deed (.act (.upload _ _)) | .deed (.act .fetch)
  | .deed (.act .abortFetch) | .deed (.act (.load _)) | .deed (.act (.delete _ _))
  | .deed (.act (.refuse _)) | .deed (.act (.mark _)) => isTrue trivial

/-- The delay after the `k`-th failure in a row, in microseconds. -/
def delayAfter (k : ℕ) : ℤ := min (2 ^ (k - 1)) 128 * 1000000

/-- A `DELETE` that is sent for an id that has failed is sent no earlier than the delay after its last
failure. -/
def SendsInTime (t : Timed) : TimedAction → Prop
  | .send => ∀ job ∈ t.obs.sys.jobs.head?, 1 ≤ t.fails job.cRecordId →
      t.lastFailure job.cRecordId + delayAfter (t.fails job.cRecordId) ≤ t.now
  | _ => True

/-- The delay that `retryDelay` gives is long enough if the row counts no fewer failures. -/
theorem delayAfter_le {k : ℕ} {retries : ℤ} (hk : 1 ≤ k) (h : (k : ℤ) ≤ retries) :
    delayAfter k ≤ retryDelay retries * 1000000 := by
  have hexp : min (k - 1) 7 ≤ ((min retries 8) - 1).toNat := by omega
  have hpow : (2 : ℤ) ^ min (k - 1) 7 ≤ retryDelay retries :=
    pow_le_pow_right₀ (by decide) hexp
  have hmin : min ((2 : ℤ) ^ (k - 1)) 128 ≤ 2 ^ min (k - 1) 7 := by
    rcases le_total (k - 1) 7 with hle | hle
    · rw [min_eq_left hle]
      exact min_le_left _ _
    · rw [min_eq_right hle]
      exact min_le_right _ _
  rw [delayAfter]
  omega

/-! ## Rows, jobs and ids -/

section

variable {S : Setup} {o : Observed}

/-- Two queue rows name different ids. -/
theorem queue_eq_of_cRecordId_eq (h : IdsAgree S o) {q q' : Entry Str QueueRow}
    (hq : q ∈ o.sys.b.queue.rows) (hq' : q' ∈ o.sys.b.queue.rows)
    (heq : q.val.cRecordId = q'.val.cRecordId) : q = q' := by
  obtain ⟨key, hnamed, hkey⟩ := h.keys.queue q hq
  obtain ⟨key', hnamed', hkey'⟩ := h.keys.queue q' hq'
  have hsame : key = key' := (heq ▸ hnamed).key_eq h.history hnamed'
  exact KeyedTable.eq_of_key_eq hq hq' (by rw [← hkey, ← hkey', hsame])

/-- A queue row that names the id of a job is the row of the job. -/
theorem id_eq_of_cRecordId_eq (h : IdsAgree S o) {q : Entry Str QueueRow} {j : DeleteJob}
    (hq : q ∈ o.sys.b.queue.rows) (hj : j ∈ o.sys.jobs) (heq : q.val.cRecordId = j.cRecordId) :
    q.id = j.id := by
  obtain ⟨key, hnamed, hkey⟩ := h.keys.queue q hq
  obtain ⟨key', hnamed', hkey'⟩ := h.keys.jobs j hj
  obtain ⟨q', hq', hid, hrecord⟩ := h.keys.job_row j hj
  have hsame : key = key' := (heq ▸ hnamed).key_eq h.history hnamed'
  have hrow : q = q' := KeyedTable.eq_of_key_eq hq hq' (by
    rw [← hkey, hsame, hkey', ← hrecord, ← h.keys.queue_key q' hq'])
  rw [hrow, hid]

end

/-! ## The invariant -/

/-- The jobs whose `DELETE` is still to be sent or answered. -/
def unsent (s : State) : List DeleteJob :=
  match s.outcome with
  | none => s.jobs
  | some _ => s.jobs.tail

/-- The invariant of the queue, of the jobs and of the failures so far. -/
structure Delays (s : State) (now : ℤ) (fails : ℤ → ℕ) (lastFailure : ℤ → ℤ) : Prop where
  retry_nonneg : ∀ q ∈ s.b.queue.rows, 0 ≤ q.val.retryCount
  rows : ∀ q ∈ s.b.queue.rows, q.val.status ≠ .done → 1 ≤ fails q.val.cRecordId →
    Awaiting s q.val.cRecordId ∨ ((fails q.val.cRecordId : ℤ) ≤ q.val.retryCount ∧
      lastFailure q.val.cRecordId + delayAfter (fails q.val.cRecordId) ≤ q.val.nextAttemptAt)
  job_nonneg : ∀ j ∈ s.jobs, 0 ≤ j.retries
  todo : ∀ j ∈ unsent s, 1 ≤ fails j.cRecordId → (fails j.cRecordId : ℤ) ≤ j.retries ∧
    lastFailure j.cRecordId + delayAfter (fails j.cRecordId) ≤ now
  awaiting : ∀ j ∈ s.jobs.head?, Awaiting s j.cRecordId → (fails j.cRecordId : ℤ) ≤ j.retries + 1
  past : ∀ id, 1 ≤ fails id → lastFailure id ≤ now
  stale : ∀ j ∈ s.jobs, ∀ q ∈ s.b.queue.rows, q.id = j.id →
    q.val.cRecordId = j.cRecordId ∨ fails q.val.cRecordId = 0
  ids : (s.jobs.map DeleteJob.id).Nodup
  record_ids : (s.jobs.map DeleteJob.cRecordId).Nodup

section

variable {S : Setup} {s s' : State} {now : ℤ} {fails : ℤ → ℕ} {lastFailure : ℤ → ℤ}

theorem awaiting_congr (houtcome : s'.outcome = s.outcome) (hjobs : s'.jobs = s.jobs) (id : ℤ) :
    Awaiting s' id ↔ Awaiting s id := by
  rw [Awaiting, Awaiting, houtcome, hjobs]

/-- What the delete pass sees is all that matters. -/
theorem Delays.congr (h : Delays s now fails lastFailure) (hqueue : s'.b.queue = s.b.queue)
    (hjobs : s'.jobs = s.jobs) (houtcome : s'.outcome = s.outcome) :
    Delays s' now fails lastFailure := by
  have hunsent : unsent s' = unsent s := by rw [unsent, unsent, houtcome, hjobs]
  have hawaits := awaiting_congr houtcome hjobs
  constructor
  · rw [hqueue]
    exact h.retry_nonneg
  · rw [hqueue]
    intro q hq hstatus hfails
    rw [hawaits]
    exact h.rows q hq hstatus hfails
  · rw [hjobs]
    exact h.job_nonneg
  · rw [hunsent]
    exact h.todo
  · rw [hjobs]
    intro j hj haw
    exact h.awaiting j hj ((hawaits _).mp haw)
  · exact h.past
  · rw [hjobs, hqueue]
    exact h.stale
  · rw [hjobs]
    exact h.ids
  · rw [hjobs]
    exact h.record_ids

theorem Delays.later (h : Delays s now fails lastFailure) {now' : ℤ} (hle : now ≤ now') :
    Delays s now' fails lastFailure :=
  ⟨h.retry_nonneg, h.rows, h.job_nonneg,
    fun j hj hfails => ⟨(h.todo j hj hfails).1, (h.todo j hj hfails).2.trans hle⟩, h.awaiting,
    fun id hfails => (h.past id hfails).trans hle, h.stale, h.ids, h.record_ids⟩

theorem not_awaiting_of_head (h : ∀ job ∈ s.jobs.head?, ¬ Awaiting s job.cRecordId) (id : ℤ) :
    ¬ Awaiting s id := by
  rintro ⟨cause, houtcome, job, hjob, rfl⟩
  exact h job hjob ⟨cause, houtcome, job, hjob, rfl⟩

/-- A record that is stored takes its queue row to the front, which no failure stands against. -/
theorem delays_store {o : Observed} (hids : IdsAgree S o) (h : Delays o.sys now fails lastFailure)
    {reading : ℤ} {r : CRecord} {rest : List CRecord} {b : ReplicatorDb}
    (hpage : o.sys.page = r :: rest) (hok : fails r.id = 0 ∨ Awaiting o.sys r.id)
    (hstore : storeRecord S.env S.cfg reading r o.sys.b = some b) :
    Delays { o.sys with b, page := rest } now fails lastFailure := by
  obtain ⟨_, -, -, -, hqueue⟩ := exists_stored S.env hstore
  split_ifs at hqueue
  swap
  · -- without cleanup nothing is queued
    exact h.congr hqueue rfl rfl
  refine ⟨fun q hq => ?_, fun q hq hstatus hfails => ?_, h.job_nonneg, h.todo, h.awaiting, h.past,
    fun j hj q hq hid => ?_, h.ids, h.record_ids⟩
  · change q ∈ b.queue.rows at hq
    rw [hqueue] at hq
    rcases KeyedTable.mem_upsert.mp hq with ⟨hq, -⟩ | ⟨q₀, -, -, rfl⟩ | ⟨-, rfl⟩
    · exact h.retry_nonneg q hq
    · exact le_refl _
    · exact le_refl _
  · change q ∈ b.queue.rows at hq
    rw [hqueue] at hq
    rcases mem_enqueue hq with ⟨hq, -⟩ | ⟨-, hcid, -⟩
    · exact h.rows q hq hstatus hfails
    · rw [hcid] at hfails ⊢
      rcases hok with hzero | hawaits
      · omega
      · exact Or.inl hawaits
  · change q ∈ b.queue.rows at hq
    rw [hqueue] at hq
    rcases mem_enqueue hq with ⟨hq, -⟩ | ⟨hkey, hcid, -, ⟨q₀, hq₀, hid₀, hkey₀, -⟩ | ⟨hnew, -⟩⟩
    · exact h.stale j hj q hq hid
    · rw [hcid]
      rcases hok with hzero | ⟨-, -, job, hjob, hjobid⟩
      · exact Or.inr hzero
      · -- the failure that awaits its mark is that of the row that is queued again
        have hmem := List.mem_of_mem_head? hjob
        obtain ⟨key, hnamed, hjobkey⟩ := hids.keys.jobs job hmem
        obtain ⟨q', hq', hid', hrecord'⟩ := hids.keys.job_row job hmem
        have hrkey : key = r.recordKey := (hjobid ▸ hnamed).key_eq hids.history
          (hids.keys.page r (by rw [hpage]; exact List.mem_cons_self))
        have hrow : q' = q₀ := KeyedTable.eq_of_key_eq hq' hq₀ (by
          rw [hids.keys.queue_key q' hq', hrecord', ← hjobkey, hrkey, hkey₀, hkey])
        have hsame : j = job := List.inj_on_of_nodup_map h.ids hj hmem (by
          rw [← hid, ← hid₀, ← hrow, hid'])
        exact Or.inl (hsame ▸ hjobid.symm)
    · -- no job has the id of a new row
      obtain ⟨q', hq', hid', -⟩ := hids.keys.job_row j hj
      exact absurd (hid'.trans (hid.symm.trans hnew)) (KeyedTable.ne_nextId hq')

/-- The jobs that are loaded have waited long enough. -/
theorem delays_load {o : Observed} (hids : IdsAgree S o) (h : Delays o.sys now fails lastFailure)
    (hjobs : o.sys.jobs = []) :
    Delays { o.sys with jobs := loadDeleteJobs S.cfg now o.sys.b.queue, outcome := none } now fails
      lastFailure := by
  -- no job is left, so every failure has been marked
  have hnone : ∀ id, ¬ Awaiting o.sys id := not_awaiting_of_head (by
    rw [hjobs]
    intro job hjob
    cases hjob)
  have hdue : ∀ j ∈ loadDeleteJobs S.cfg now o.sys.b.queue, ∃ q ∈ o.sys.b.queue.rows,
      q.val.status ≠ .done ∧ q.val.nextAttemptAt ≤ now ∧ jobOf q = j := by
    intro j hj
    obtain ⟨q, hq, rfl⟩ := List.mem_map.mp hj
    obtain ⟨hq, hdue⟩ := List.mem_filter.mp (mem_of_mem_window hq)
    rw [due, Bool.and_eq_true, decide_eq_true_eq] at hdue
    refine ⟨q, hq, fun hdone => ?_, hdue.2, rfl⟩
    rw [hdone] at hdue
    exact absurd hdue.1 (by decide)
  have hnodup : (o.sys.b.queue.rows.map fun q => q.val.cRecordId).Nodup := by
    refine (List.nodup_map_iff_inj_on (List.Nodup.of_map _ o.sys.b.queue.id_nodup)).mpr ?_
    exact fun q hq q' hq' heq => queue_eq_of_cRecordId_eq hids hq hq' heq
  refine ⟨h.retry_nonneg, fun q hq hstatus hfails => ?_, fun j hj => ?_, fun j hj hfails => ?_, ?_,
    h.past, fun j hj q hq hid => ?_, ?_, ?_⟩
  · exact Or.inr ((h.rows q hq hstatus hfails).resolve_left (hnone _))
  · obtain ⟨q, hq, -, -, rfl⟩ := hdue j hj
    exact h.retry_nonneg q hq
  · obtain ⟨q, hq, hstatus, hnext, rfl⟩ := hdue j hj
    obtain ⟨hretry, htime⟩ := (h.rows q hq hstatus hfails).resolve_left (hnone _)
    exact ⟨hretry, htime.trans hnext⟩
  · rintro j - ⟨cause, houtcome, -⟩
    cases houtcome
  · obtain ⟨q₀, hq₀, -, -, rfl⟩ := hdue j hj
    exact Or.inl (by rw [KeyedTable.eq_of_id_eq hq hq₀ hid]; rfl)
  · rw [loadDeleteJobs, List.map_map]
    exact nodup_map_window (o.sys.b.queue.id_nodup.sublist (List.filter_sublist.map _))
  · rw [loadDeleteJobs, List.map_map]
    exact nodup_map_window (hnodup.sublist (List.filter_sublist.map _))

/-- A job that is finished, or all of them. -/
theorem delays_stop (h : Delays s now fails lastFailure)
    (hok : ∀ job ∈ s.jobs.head?, ¬ Awaiting s job.cRecordId) (page : List CRecord) :
    Delays { s with page, jobs := [], outcome := none } now fails lastFailure := by
  have hnone := not_awaiting_of_head hok
  refine ⟨h.retry_nonneg, fun q hq hstatus hfails => ?_, List.forall_mem_nil _, List.forall_mem_nil _,
    ?_, h.past, List.forall_mem_nil _, List.nodup_nil, List.nodup_nil⟩
  · exact Or.inr ((h.rows q hq hstatus hfails).resolve_left (hnone _))
  · intro j hj
    cases hj

/-- The other jobs have other ids. -/
theorem cRecordId_ne_of_tail {jobs rest : List DeleteJob} {job : DeleteJob} (hjobs : jobs = job :: rest)
    (hnodup : (jobs.map DeleteJob.cRecordId).Nodup) {j : DeleteJob} (hj : j ∈ rest) :
    j.cRecordId ≠ job.cRecordId := by
  rw [hjobs, List.map_cons, List.nodup_cons] at hnodup
  exact fun heq => hnodup.1 (heq ▸ List.mem_map_of_mem hj)

/-- A failure is counted, and awaits its mark. -/
theorem delays_failed {o : Observed} (hids : IdsAgree S o) (h : Delays o.sys now fails lastFailure)
    {job : DeleteJob} {rest : List DeleteJob} (hjobs : o.sys.jobs = job :: rest)
    (houtcome : o.sys.outcome = none) (c : ReceiverDb) (cause : Str) (sent : List ℤ) :
    Delays { o.sys with c, outcome := some (.failed cause), sent } now
      (Function.update fails job.cRecordId (fails job.cRecordId + 1))
      (Function.update lastFailure job.cRecordId now) := by
  have hunsent : unsent o.sys = job :: rest := by rw [unsent, houtcome, hjobs]
  have hmem : job ∈ o.sys.jobs := by rw [hjobs]; exact List.mem_cons_self
  have hawaits : Awaiting { o.sys with c, outcome := some (.failed cause), sent } job.cRecordId :=
    ⟨cause, rfl, job, by rw [hjobs]; exact Option.mem_some_self job, rfl⟩
  have hquiet : ∀ id, ¬ Awaiting o.sys id := by
    rintro id ⟨cause, hcause, -⟩
    rw [houtcome] at hcause
    cases hcause
  refine ⟨h.retry_nonneg, fun q hq hstatus hfails => ?_, h.job_nonneg, fun j hj hfails => ?_, ?_, ?_,
    fun j hj q hq hid => ?_, h.ids, h.record_ids⟩
  · by_cases hq' : q.val.cRecordId = job.cRecordId
    · exact Or.inl (hq' ▸ hawaits)
    · rw [Function.update_of_ne hq'] at hfails ⊢
      rw [Function.update_of_ne hq']
      exact Or.inr ((h.rows q hq hstatus hfails).resolve_left (hquiet _))
  · have hjrest : j ∈ rest := by
      change j ∈ o.sys.jobs.tail at hj
      rwa [hjobs] at hj
    have hne := cRecordId_ne_of_tail hjobs h.record_ids hjrest
    rw [Function.update_of_ne hne] at hfails ⊢
    rw [Function.update_of_ne hne]
    exact h.todo j (by rw [hunsent]; exact List.mem_cons_of_mem job hjrest) hfails
  · intro j hj _
    change j ∈ o.sys.jobs.head? at hj
    rw [hjobs] at hj
    cases hj
    rw [Function.update_self]
    have hnonneg := h.job_nonneg job hmem
    by_cases hfails : 1 ≤ fails job.cRecordId
    · have hretry := (h.todo job (by rw [hunsent]; exact List.mem_cons_self) hfails).1
      omega
    · omega
  · intro id hfails
    by_cases hid : id = job.cRecordId
    · rw [hid, Function.update_self]
    · rw [Function.update_of_ne hid] at hfails ⊢
      exact h.past id hfails
  · by_cases hq' : q.val.cRecordId = job.cRecordId
    · -- the row of the id that failed is the row of its job
      have hrow := id_eq_of_cRecordId_eq hids hq hmem hq'
      have hsame : j = job := List.inj_on_of_nodup_map h.ids hj hmem (hid.symm.trans hrow)
      exact Or.inl (hsame ▸ hq')
    · rw [Function.update_of_ne hq']
      exact h.stale j hj q hq hid

/-- A success ends the count. -/
theorem delays_succeeded {s : State} (h : Delays s now fails lastFailure) {job : DeleteJob}
    {rest : List DeleteJob} (hjobs : s.jobs = job :: rest) (houtcome : s.outcome = none)
    (c : ReceiverDb) (sent : List ℤ) : Delays { s with c, outcome := some .succeeded, sent } now
      (Function.update fails job.cRecordId 0) lastFailure := by
  have hunsent : unsent s = job :: rest := by rw [unsent, houtcome, hjobs]
  have hquiet : ∀ id, ¬ Awaiting s id := by
    rintro id ⟨cause, hcause, -⟩
    rw [houtcome] at hcause
    cases hcause
  have hcount : ∀ id, 1 ≤ Function.update fails job.cRecordId 0 id →
      Function.update fails job.cRecordId 0 id = fails id := by
    intro id hid
    by_cases hne : id = job.cRecordId
    · rw [hne, Function.update_self] at hid
      omega
    · rw [Function.update_of_ne hne]
  refine ⟨h.retry_nonneg, fun q hq hstatus hfails => ?_, h.job_nonneg, fun j hj hfails => ?_, ?_, ?_,
    fun j hj q hq hid => ?_, h.ids, h.record_ids⟩
  · have heq := hcount _ hfails
    rw [heq] at hfails ⊢
    exact Or.inr ((h.rows q hq hstatus hfails).resolve_left (hquiet _))
  · have heq := hcount _ hfails
    rw [heq] at hfails ⊢
    change j ∈ s.jobs.tail at hj
    rw [hjobs] at hj
    exact h.todo j (by rw [hunsent]; exact List.mem_cons_of_mem job hj) hfails
  · rintro j - ⟨cause, hcause, -⟩
    cases hcause
  · intro id hfails
    rw [hcount id hfails] at hfails
    exact h.past id hfails
  · refine (h.stale j hj q hq hid).imp_right fun hzero => ?_
    by_cases hq' : q.val.cRecordId = job.cRecordId
    · rw [hq', Function.update_self]
    · rw [Function.update_of_ne hq', hzero]

/-- The queue row of a job, after a failure is marked, counts it and waits for it. -/
theorem mem_markDeleteFailure {job : DeleteJob} {cause : Str} {t : KeyedTable Str QueueRow}
    {q : Entry Str QueueRow} (h : q ∈ (markDeleteFailure now job cause t).rows) :
    (q ∈ t.rows ∧ q.id ≠ job.id) ∨ ∃ q₀ ∈ t.rows, q₀.id = job.id ∧ q.id = q₀.id ∧
      q.val.cRecordId = q₀.val.cRecordId ∧ q.val.retryCount = job.retries + 1 ∧
        q.val.nextAttemptAt = now + retryDelay (job.retries + 1) * 1000000 := by
  rcases KeyedTable.mem_updateWhere.mp h with ⟨hq, hid⟩ | ⟨q₀, hq₀, hid, rfl⟩
  · exact Or.inl ⟨hq, of_decide_eq_false hid⟩
  · exact Or.inr ⟨q₀, hq₀, of_decide_eq_true hid, rfl, rfl, rfl, rfl⟩

/-- A mark settles what has become of a job. -/
theorem delays_mark {o : Observed} (hids : IdsAgree S o) (h : Delays o.sys now fails lastFailure)
    {job : DeleteJob} {rest : List DeleteJob} {outcome : DeleteOutcome}
    (hjobs : o.sys.jobs = job :: rest) (houtcome : o.sys.outcome = some outcome) :
    Delays { o.sys with
      b := { o.sys.b with queue := markJob now job outcome o.sys.b.queue }
      jobs := rest
      outcome := none } now fails lastFailure := by
  have hmem : job ∈ o.sys.jobs := by rw [hjobs]; exact List.mem_cons_self
  have hrest : ∀ j ∈ rest, j ∈ o.sys.jobs := fun j hj => by
    rw [hjobs]
    exact List.mem_cons_of_mem job hj
  have hunsent : unsent o.sys = rest := by rw [unsent, houtcome, hjobs]; rfl
  have hids' := h.ids
  have hrecords := h.record_ids
  rw [hjobs, List.map_cons, List.nodup_cons] at hids' hrecords
  -- a row that awaits the mark is the row of the job
  have hawaits : ∀ q ∈ o.sys.b.queue.rows, Awaiting o.sys q.val.cRecordId →
      q.id = job.id ∧ q.val.cRecordId = job.cRecordId := by
    rintro q hq ⟨-, -, job', hjob', hid⟩
    rw [hjobs] at hjob'
    cases hjob'
    exact ⟨id_eq_of_cRecordId_eq hids hq hmem hid.symm, hid.symm⟩
  have hstale : ∀ j ∈ rest, ∀ q ∈ (markJob now job outcome o.sys.b.queue).rows, q.id = j.id →
      q.val.cRecordId = j.cRecordId ∨ fails q.val.cRecordId = 0 := by
    intro j hj q hq hid
    rcases mem_markJob hq with ⟨hq, -⟩ | ⟨q₀, hq₀, -, hid₀, -, -, hcid⟩
    · exact h.stale j (hrest j hj) q hq hid
    · rw [hcid]
      exact h.stale j (hrest j hj) q₀ hq₀ (hid₀.symm.trans hid)
  have hnone : ∀ j ∈ rest.head?, ∀ s' : State, s'.outcome = none → Awaiting s' j.cRecordId →
      (fails j.cRecordId : ℤ) ≤ j.retries + 1 := by
    rintro j - s' hquiet ⟨cause, hcause, -⟩
    rw [hquiet] at hcause
    cases hcause
  cases outcome with
  | succeeded =>
      have hrows : ∀ q ∈ (markJob now job .succeeded o.sys.b.queue).rows, q.val.status = .done ∨
          (q ∈ o.sys.b.queue.rows) := by
        intro q hq
        rcases KeyedTable.mem_updateWhere.mp hq with ⟨hq, -⟩ | ⟨q₀, -, -, rfl⟩
        · exact Or.inr hq
        · exact Or.inl rfl
      have hquiet : ∀ id, ¬ Awaiting o.sys id := by
        rintro id ⟨cause, hcause, -⟩
        rw [houtcome] at hcause
        cases hcause
      refine ⟨fun q hq => ?_, fun q hq hstatus hfails => ?_, fun j hj => h.job_nonneg j (hrest j hj),
        fun j hj => h.todo j (by rw [hunsent]; exact hj), fun j hj => hnone j hj _ rfl, h.past,
        fun j hj q hq => hstale j hj q hq, hids'.2, hrecords.2⟩
      · rcases KeyedTable.mem_updateWhere.mp hq with ⟨hq, -⟩ | ⟨q₀, hq₀, -, rfl⟩
        · exact h.retry_nonneg q hq
        · exact h.retry_nonneg q₀ hq₀
      · rcases hrows q hq with hdone | hq
        · exact absurd hdone hstatus
        · exact Or.inr ((h.rows q hq hstatus hfails).resolve_left (hquiet _))
  | failed cause =>
      have hnonneg := h.job_nonneg job hmem
      refine ⟨fun q hq => ?_, fun q hq hstatus hfails => ?_, fun j hj => h.job_nonneg j (hrest j hj),
        fun j hj => h.todo j (by rw [hunsent]; exact hj), fun j hj => hnone j hj _ rfl, h.past,
        fun j hj q hq => hstale j hj q hq, hids'.2, hrecords.2⟩
      · rcases mem_markDeleteFailure hq with ⟨hq, -⟩ | ⟨q₀, -, -, -, -, hretry, -⟩
        · exact h.retry_nonneg q hq
        · rw [hretry]
          omega
      · rcases mem_markDeleteFailure hq with ⟨hq, hne⟩ | ⟨q₀, hq₀, hid₀, -, hcid, hretry, hnext⟩
        · refine Or.inr ((h.rows q hq hstatus hfails).resolve_left fun hawait => ?_)
          exact hne (hawaits q hq hawait).1
        · rw [hcid] at hfails ⊢
          rw [hretry, hnext]
          rcases h.stale job hmem q₀ hq₀ hid₀ with hown | hzero
          · -- the failure that is marked is the last one of the id
            rw [hown] at hfails ⊢
            have hcount := h.awaiting job (by rw [hjobs]; exact Option.mem_some_self job)
              ⟨cause, houtcome, job, by rw [hjobs]; exact Option.mem_some_self job, rfl⟩
            have hdelay := delayAfter_le hfails hcount
            have hpast := h.past job.cRecordId hfails
            exact Or.inr ⟨hcount, by omega⟩
          · omega

end

/-! ## Every run that meets the condition -/

section

variable {S : Setup} {t t' : Timed}

theorem delays_answered {obs : Observed} {job : DeleteJob} {rest : List DeleteJob} (hids : IdsAgree S t.obs)
    (h : Delays t.obs.sys t.now t.fails t.lastFailure) (hjobs : t.obs.sys.jobs = job :: rest)
    (houtcome : t.obs.sys.outcome = none) {c : ReceiverDb} {outcome : DeleteOutcome} {sent : List ℤ}
    (hobs : obs.sys = { t.obs.sys with c, outcome := some outcome, sent }) :
    Delays (answered t obs).obs.sys (answered t obs).now (answered t obs).fails
      (answered t obs).lastFailure := by
  have hjobs' : obs.sys.jobs = job :: rest := by rw [hobs, ← hjobs]
  have houtcome' : obs.sys.outcome = some outcome := by rw [hobs]
  cases outcome with
  | succeeded =>
      have heq : answered t obs = { t with
          obs, sending := false, fails := Function.update t.fails job.cRecordId 0 } := by
        rw [answered, hjobs', houtcome']
      rw [heq]
      show Delays obs.sys t.now _ t.lastFailure
      rw [hobs]
      exact delays_succeeded h hjobs houtcome c sent
  | failed cause =>
      have heq : answered t obs = { t with
          obs
          sending := false
          fails := Function.update t.fails job.cRecordId (t.fails job.cRecordId + 1)
          lastFailure := Function.update t.lastFailure job.cRecordId t.now } := by
        rw [answered, hjobs', houtcome']
      rw [heq]
      show Delays obs.sys t.now _ _
      rw [hobs]
      exact delays_failed hids h hjobs houtcome c cause sent

theorem delays_step {a : TimedAction} (hids : IdsAgree S t.obs)
    (h : Delays t.obs.sys t.now t.fails t.lastFailure) (hok : KeepsDelay t a)
    (hstep : timedStep S t a = some t') : Delays t'.obs.sys t'.now t'.fails t'.lastFailure := by
  cases a with
  | tick d =>
      cases hstep
      exact h.later (by simp)
  | send =>
      simp only [timedStep] at hstep
      split_ifs at hstep
      cases hstep
      exact h
  | deed d =>
      rw [timedStep] at hstep
      by_cases hguard : (∀ now ∈ d.reading, now = t.now) ∧ (d.answers = true → t.sending = true)
      swap
      · rw [if_neg hguard] at hstep
        cases hstep
      rw [if_pos hguard] at hstep
      obtain ⟨obs, hobs, rfl⟩ := Option.map_eq_some_iff.mp hstep
      obtain ⟨s', hs', rfl⟩ := Option.map_eq_some_iff.mp hobs
      cases d with
      | purge p =>
          cases hs'
          exact h.congr rfl rfl rfl
      | act a =>
          cases stepped_of_step hs' with
          | upload env payload => exact h.congr rfl rfl rfl
          | fetch hpage => exact h.congr rfl rfl rfl
          | store now r rest b hpage hstore =>
              exact delays_store hids h hpage (hok r (by rw [hpage]; exact Option.mem_some_self r)) hstore
          | abortFetch => exact h.congr rfl rfl rfl
          | load now henabled hjobs =>
              have hnow : now = t.now := hguard.1 now rfl
              rw [hnow]
              exact delays_load hids h hjobs
          | delete cutoff lost job rest hjobs houtcome =>
              exact delays_answered hids h hjobs houtcome rfl
          | refuse cause job rest hjobs houtcome => exact delays_answered hids h hjobs houtcome rfl
          | mark now job rest outcome hjobs houtcome =>
              have hnow : now = t.now := hguard.1 now rfl
              rw [hnow]
              exact delays_mark hids h hjobs houtcome
          | abortCleanup => exact delays_stop h hok _
          | crash => exact delays_stop h hok _

/-- The clock and the counts are beside the system, which takes its own steps. -/
theorem obs_step {a : TimedAction} (hstep : timedStep S t a = some t') :
    t'.obs = t.obs ∨ ∃ d, (observed S).step t.obs d = some t'.obs := by
  cases a with
  | tick d =>
      cases hstep
      exact Or.inl rfl
  | send =>
      simp only [timedStep] at hstep
      split_ifs at hstep
      cases hstep
      exact Or.inl rfl
  | deed d =>
      rw [timedStep] at hstep
      split_ifs at hstep
      all_goals
        obtain ⟨obs, hobs, rfl⟩ := Option.map_eq_some_iff.mp hstep
        refine Or.inr ⟨d, hobs.trans (congrArg some ?_)⟩
      · unfold answered
        split <;> rfl
      · rfl

theorem delays_of_reached (h : (timed S).ReachedBy KeepsDelay t) :
    IdsAgree S t.obs ∧ Delays t.obs.sys t.now t.fails t.lastFailure := by
  refine h.invariant (I := fun t => IdsAgree S t.obs ∧
    Delays t.obs.sys t.now t.fails t.lastFailure) (fun t ht => ?_) fun t a t' hs hstep hok => ?_
  · obtain ⟨hobs, -, hfails⟩ := ht
    rw [hobs, hfails]
    refine ⟨⟨KeyedTable.history_empty, keysAgree_fresh S⟩, ?_⟩
    have hzero : ¬ 1 ≤ (fun _ : ℤ => 0) (0 : ℤ) := by decide
    exact ⟨List.forall_mem_nil _, List.forall_mem_nil _, List.forall_mem_nil _, List.forall_mem_nil _,
      fun j hj => (by cases hj), fun id hid => absurd hid hzero, List.forall_mem_nil _,
      List.nodup_nil, List.nodup_nil⟩
  · refine ⟨?_, delays_step hs.1 hs.2 hok hstep⟩
    rcases obs_step hstep with hsame | ⟨d, hd⟩
    · rw [hsame]
      exact hs.1
    · exact idsAgree_step hs.1 hd

/-- In a run in which no record is stored whose deletion has failed, unless the failure is still to be
marked, and no delete pass ends between a failure and its mark, every `DELETE` for an id that has failed
`k` times in a row is sent at least `min (2 ^ (k - 1)) 128` seconds after the last failure. -/
theorem sends_in_time (h : (timed S).ReachedBy KeepsDelay t) {a : TimedAction}
    (hstep : (timed S).step t a = some t') : SendsInTime t a := by
  obtain ⟨-, hdelays⟩ := delays_of_reached h
  cases a with
  | send =>
      intro job hjob hfails
      have hstep' : timedStep S t .send = some t' := hstep
      simp only [timedStep] at hstep'
      split_ifs at hstep' with hguard
      refine (hdelays.todo job ?_ hfails).2
      rw [unsent, hguard.2.2]
      exact List.mem_of_mem_head? hjob
  | tick d => trivial
  | deed d => trivial

end

/-! ## A failed record that is fetched again -/

instance (t : Timed) : DecidablePred (SendsInTime t)
  | .send => inferInstanceAs (Decidable (∀ job ∈ t.obs.sys.jobs.head?, 1 ≤ t.fails job.cRecordId →
      t.lastFailure job.cRecordId + delayAfter (t.fails job.cRecordId) ≤ t.now))
  | .tick _ | .deed _ => isTrue trivial

/-- The small deployment at its first start. -/
def freshTimed : Timed := ⟨⟨freshState, []⟩, 0, false, fun _ => 0, fun _ => 0⟩

/-- A record is stored, and its first `DELETE` fails. -/
def firstFailure : List TimedAction :=
  [.deed (.act (uploadOf "a" "2026-01-01T00:00:00Z")), .deed (.act .fetch), .deed (.act (.store 0)),
    .deed (.act (.load 0)), .send, .deed (.act (.refuse (Str.lit "timeout"))), .deed (.act (.mark 0))]

/-- A `DELETE` can be sent. -/
def canSend (t : Timed) : Bool := (timedStep smallSetup t .send).isSome

theorem sends_in_time_oneSecond : ∃ t t', (timed smallSetup).ReachedBy KeepsDelay t ∧
    (timed smallSetup).step t .send = some t' ∧ t.fails 1 = 1 ∧ SendsInTime t .send := by
  obtain ⟨t, ht, hP⟩ := System.exists_of_exec (S := timed smallSetup) (K := KeepsDelay)
    (P := fun t => canSend t && decide (t.fails 1 = 1)) (s := freshTimed)
    (l := firstFailure ++ [.tick 1000000, .deed (.act (.load 1000000))]) ⟨rfl, rfl, rfl⟩
    (by decide +kernel)
  obtain ⟨hsend, hfails⟩ := Bool.and_eq_true_iff.mp hP
  obtain ⟨t', ht'⟩ := Option.isSome_iff_exists.mp hsend
  exact ⟨t, t', ht, ht', of_decide_eq_true hfails, sends_in_time ht ht'⟩

/-- C still has the record, so the next pass stores it again, and its row is due at once: the second
`DELETE` is sent at the very time of the failure of the first. -/
theorem not_sends_in_time_refetched : ∃ t t', (timed smallSetup).Reachable t ∧
    (timed smallSetup).step t .send = some t' ∧ t.fails 1 = 1 ∧ t.lastFailure 1 = t.now ∧
      ¬ SendsInTime t .send := by
  obtain ⟨t, ht, hP⟩ := System.exists_of_exec (S := timed smallSetup) (K := fun _ _ => True)
    (P := fun t => canSend t && (decide (t.fails 1 = 1 ∧ t.lastFailure 1 = t.now) &&
      !decide (SendsInTime t .send))) (s := freshTimed)
    (l := firstFailure ++ [.deed (.act .fetch), .deed (.act (.store 0)), .deed (.act (.load 0))])
    ⟨rfl, rfl, rfl⟩ (by decide +kernel)
  obtain ⟨hsend, hrest⟩ := Bool.and_eq_true_iff.mp hP
  obtain ⟨hfails, hlate⟩ := Bool.and_eq_true_iff.mp hrest
  obtain ⟨t', ht'⟩ := Option.isSome_iff_exists.mp hsend
  rw [Bool.not_eq_true', decide_eq_false_iff_not] at hlate
  exact ⟨t, t', ht, ht', (of_decide_eq_true hfails).1, (of_decide_eq_true hfails).2, hlate⟩

end WeighingSync.Replicator
