import WeighingSync.Replicator.Cleanup

/-!
# Records that are queued again

The marks of `deleteLoop` name a queue row by its id and nothing else, while `fetchLoop` may in the
meantime have queued the same record again for another row of C. A mark belongs to the row it lands
on in the runs in which no record is queued again, under another id of C, while a job for it is
loaded (`marks_own_id`).
-/

namespace WeighingSync.Replicator

open Go Receiver

variable {S : Setup} {s s' : State} {a : Action}

/-- A record that is stored has, as far as jobs for it are loaded, the id that these name. -/
def KeepsJobIds (S : Setup) (s : State) : Action → Prop
  | .store _ => ∀ r ∈ s.page.head?, ∀ j ∈ s.jobs,
      S.env.collate j.recordKey = S.env.collate r.recordKey → j.cRecordId = r.id
  | _ => True

instance (S : Setup) (s : State) : DecidablePred (KeepsJobIds S s)
  | .store _ => inferInstanceAs (Decidable (∀ r ∈ s.page.head?, ∀ j ∈ s.jobs,
      S.env.collate j.recordKey = S.env.collate r.recordKey → j.cRecordId = r.id))
  | .delete _ _ | .upload _ _ | .fetch | .mark _ | .abortFetch | .load _ | .refuse _
  | .abortCleanup | .crash => isTrue trivial

/-- A mark lands on a queue row that names the id its `DELETE` has named. -/
def MarksOwnId (s : State) : Action → Prop
  | .mark _ => ∀ job ∈ s.jobs.head?, ∀ q ∈ s.b.queue.rows, q.id = job.id →
      q.val.cRecordId = job.cRecordId
  | _ => True

instance (s : State) : DecidablePred (MarksOwnId s)
  | .mark _ => inferInstanceAs (Decidable (∀ job ∈ s.jobs.head?, ∀ q ∈ s.b.queue.rows, q.id = job.id →
      q.val.cRecordId = job.cRecordId))
  | .delete _ _ | .upload _ _ | .fetch | .store _ | .abortFetch | .load _ | .refuse _
  | .abortCleanup | .crash => isTrue trivial

/-- A queue row stays pending until a `DELETE` for the id it names has been sent. -/
def Attempted (s : State) : Prop :=
  ∀ q ∈ s.b.queue.rows, q.val.status ≠ .pending → q.val.cRecordId ∈ s.sent

/-- The invariant of the queue: rows are filed under their collated key, a loaded job agrees with its
row, and no id is marked before it is sent. -/
structure QueueAgrees (S : Setup) (s : State) : Prop where
  keys : ∀ q ∈ s.b.queue.rows, q.key = S.env.collate q.val.recordKey
  jobs : ∀ j ∈ s.jobs, j.id < s.b.queue.nextId ∧ ∀ q ∈ s.b.queue.rows, q.id = j.id →
    q.key = S.env.collate j.recordKey ∧ q.val.cRecordId = j.cRecordId
  head_sent : s.outcome ≠ none → ∀ j ∈ s.jobs.head?, j.cRecordId ∈ s.sent
  attempted : Attempted s

theorem queueAgrees_fresh (S : Setup) : QueueAgrees S freshState := by
  constructor
  · intro q hq
    cases hq
  · intro j hj
    cases hj
  · intro hout
    exact absurd rfl hout
  · intro q hq
    cases hq

/-- Storing the next record of the page keeps the queue in agreement with the jobs. -/
theorem queueAgrees_store {now : ℤ} {r : CRecord} {rest : List CRecord} {b : ReplicatorDb}
    (hs : QueueAgrees S s) (hpage : s.page = r :: rest) (hok : KeepsJobIds S s (.store now))
    (hstore : storeRecord S.env S.cfg now r s.b = some b) :
    QueueAgrees S { s with b, page := rest } := by
  obtain ⟨_, -, -, -, hqueue⟩ := exists_stored S.env hstore
  split_ifs at hqueue
  swap
  · -- without cleanup nothing is queued
    exact ⟨hqueue ▸ hs.keys, hqueue ▸ hs.jobs, hs.head_sent, by
      intro q hq
      exact hs.attempted q (hqueue ▸ hq)⟩
  · refine ⟨?_, ?_, hs.head_sent, ?_⟩
    · intro q hq
      change q ∈ b.queue.rows at hq
      rw [hqueue] at hq
      rcases mem_enqueue hq with ⟨hq, -⟩ | ⟨hkey, -, -, ⟨q₀, hq₀, -, hkey₀, hrecord⟩ | ⟨-, hrecord⟩⟩
      · exact hs.keys q hq
      · rw [hrecord, ← hs.keys q₀ hq₀, hkey₀]
      · rw [hrecord, hkey]
    · intro j hj
      obtain ⟨hlt, hrow⟩ := hs.jobs j hj
      refine ⟨?_, ?_⟩
      · show j.id < b.queue.nextId
        rw [hqueue]
        exact hlt.trans_le KeyedTable.nextId_le_upsert
      · intro q hq hid
        change q ∈ b.queue.rows at hq
        rw [hqueue] at hq
        rcases mem_enqueue hq with ⟨hq, -⟩ | ⟨hkey, hcid, -, ⟨q₀, hq₀, hid₀, hkey₀, -⟩ | ⟨hnew, -⟩⟩
        · exact hrow q hq hid
        · -- the row of the job is queued again: by assumption under the id of the job
          obtain ⟨hjkey, -⟩ := hrow q₀ hq₀ (hid₀.trans hid)
          refine ⟨hkey₀ ▸ hjkey, ?_⟩
          rw [hcid]
          refine (hok r (by rw [hpage]; rfl) j hj ?_).symm
          rw [← hjkey, hkey₀, hkey]
        · omega
    · intro q hq hstatus
      change q ∈ b.queue.rows at hq
      rw [hqueue] at hq
      rcases mem_enqueue hq with ⟨hq, -⟩ | ⟨-, -, hpending, -⟩
      · exact hs.attempted q hq hstatus
      · exact absurd hpending hstatus

/-- Marking a job keeps the queue in agreement with the other jobs. -/
theorem queueAgrees_mark {now : ℤ} {job : DeleteJob} {rest : List DeleteJob} {outcome : DeleteOutcome}
    (hs : QueueAgrees S s) (hjobs : s.jobs = job :: rest) (houtcome : s.outcome = some outcome) :
    QueueAgrees S { s with
      b := { s.b with queue := markJob now job outcome s.b.queue }
      jobs := rest
      outcome := none } := by
  have hjob : job ∈ s.jobs := by rw [hjobs]; exact List.mem_cons_self
  refine ⟨?_, ?_, fun hout => absurd rfl hout, ?_⟩
  · intro q hq
    rcases mem_markJob hq with ⟨hq, -⟩ | ⟨q₀, hq₀, -, -, hkey, hrecord, -⟩
    · exact hs.keys q hq
    · rw [hkey, hrecord, hs.keys q₀ hq₀]
  · intro j hj
    obtain ⟨hlt, hrow⟩ := hs.jobs j (by rw [hjobs]; exact List.mem_cons_of_mem job hj)
    refine ⟨by simpa using hlt, ?_⟩
    intro q hq hid
    rcases mem_markJob hq with ⟨hq, -⟩ | ⟨q₀, hq₀, -, hid₀, hkey, -, hcid⟩
    · exact hrow q hq hid
    · rw [hkey, hcid]
      exact hrow q₀ hq₀ (hid₀.symm.trans hid)
  · intro q hq hstatus
    rcases mem_markJob hq with ⟨hq, -⟩ | ⟨q₀, hq₀, hidjob, -, -, -, hcid⟩
    · exact hs.attempted q hq hstatus
    · show q.val.cRecordId ∈ s.sent
      rw [hcid, ((hs.jobs job hjob).2 q₀ hq₀ hidjob).2]
      exact hs.head_sent (by rw [houtcome]; exact Option.some_ne_none _) job (by rw [hjobs]; rfl)

theorem queueAgrees_step (hs : QueueAgrees S s) (hok : KeepsJobIds S s a) (h : Stepped S s a s') :
    QueueAgrees S s' := by
  cases h with
  | upload env payload => exact ⟨hs.keys, hs.jobs, hs.head_sent, hs.attempted⟩
  | fetch hpage => exact ⟨hs.keys, hs.jobs, hs.head_sent, hs.attempted⟩
  | store now r rest b hpage hstore => exact queueAgrees_store hs hpage hok hstore
  | abortFetch => exact ⟨hs.keys, hs.jobs, hs.head_sent, hs.attempted⟩
  | load now henabled hjobs =>
      refine ⟨hs.keys, ?_, fun hout => absurd rfl hout, hs.attempted⟩
      intro j hj
      obtain ⟨q₀, hq₀, -, rfl⟩ := mem_loadDeleteJobs hj
      refine ⟨s.b.queue.id_lt q₀ hq₀, ?_⟩
      intro q hq hid
      have hsame : q = q₀ := KeyedTable.eq_of_id_eq hq hq₀ hid
      rw [hsame]
      exact ⟨hs.keys q₀ hq₀, rfl⟩
  | delete cutoff lost job rest hjobs houtcome =>
      refine ⟨hs.keys, hs.jobs, ?_, fun q hq hstatus =>
        List.mem_cons_of_mem _ (hs.attempted q hq hstatus)⟩
      intro _ j hj
      rw [hjobs] at hj
      cases hj
      exact List.mem_cons_self
  | refuse cause job rest hjobs houtcome =>
      refine ⟨hs.keys, hs.jobs, ?_, fun q hq hstatus =>
        List.mem_cons_of_mem _ (hs.attempted q hq hstatus)⟩
      intro _ j hj
      change j ∈ s.jobs.head? at hj
      rw [hjobs] at hj
      cases hj
      exact List.mem_cons_self
  | mark now job rest outcome hjobs houtcome => exact queueAgrees_mark hs hjobs houtcome
  | abortCleanup =>
      exact ⟨hs.keys, fun j hj => (nomatch hj), fun hout => absurd rfl hout, hs.attempted⟩
  | crash => exact ⟨hs.keys, fun j hj => (nomatch hj), fun hout => absurd rfl hout, hs.attempted⟩

/-- In a run in which no record with a loaded job is queued again under another id, every mark lands
on a row of its own id, and every row stays pending until a `DELETE` for its id has been sent. -/
theorem marks_own_id (S : Setup) {s s' : State} {a : Action}
    (h : (cluster S).ReachedBy (KeepsJobIds S) s) (hstep : (cluster S).step s a = some s') :
    MarksOwnId s a ∧ Attempted s := by
  have hinv : QueueAgrees S s := by
    refine h.invariant ?_ ?_
    · intro s₀ hs₀
      have hfresh : s₀ = freshState := hs₀
      subst hfresh
      exact queueAgrees_fresh S
    · intro s₀ a₀ s₁ hs hstep₀ hok
      exact queueAgrees_step hs hok (stepped_of_step hstep₀)
  refine ⟨?_, hinv.attempted⟩
  cases a with
  | mark now =>
      intro job hjob q hq hid
      exact ((hinv.jobs job (List.mem_of_mem_head? hjob)).2 q hq hid).2
  | _ => trivial

/-- A record is cleaned up, uploaded again and fetched again, and then cleaned up once more. -/
theorem marks_own_id_secondCleanup : ∃ s s',
    (cluster smallSetup).ReachedBy (KeepsJobIds smallSetup) s ∧
    (cluster smallSetup).step s (.mark 0) = some s' ∧ MarksOwnId s (.mark 0) ∧ Attempted s := by
  obtain ⟨s, hs, hmark⟩ := System.exists_of_exec (S := cluster smallSetup) (s := freshState)
    (P := fun s => (step smallSetup s (.mark 0)).isSome) rfl
    (show ((cluster smallSetup).exec (KeepsJobIds smallSetup) freshState
      [uploadOf "a" "2026-01-01T00:00:00Z", .fetch, .store 0, .load 0,
        .delete (Str.lit "2026-06-01T00:00:00Z") none, .mark 0,
        uploadOf "a" "2026-01-01T00:00:00Z", .fetch, .store 0, .load 0,
        .delete (Str.lit "2026-06-01T00:00:00Z") none]).any _ = true by decide +kernel)
  obtain ⟨s', hs'⟩ := Option.isSome_iff_exists.mp hmark
  exact ⟨s, s', hs, hs', marks_own_id smallSetup hs hs'⟩

/-- The `DELETE` of a step removes the record that it names. -/
def RemovesNamed (s : State) : Action → Prop
  | .delete cutoff none => ∀ job ∈ s.jobs.head?, ∃ e ∈ s.c.records.rows, (e.id : ℤ) = job.cRecordId ∧
      Str.lt e.val.effectiveTime cutoff = true
  | _ => True

instance (s : State) : DecidablePred (RemovesNamed s)
  | .delete cutoff none => inferInstanceAs (Decidable (∀ job ∈ s.jobs.head?,
      ∃ e ∈ s.c.records.rows, (e.id : ℤ) = job.cRecordId ∧ Str.lt e.val.effectiveTime cutoff = true))
  | .delete _ (some _) | .upload _ _ | .fetch | .store _ | .abortFetch | .load _ | .refuse _ | .mark _
  | .abortCleanup | .crash => isTrue trivial

/-- A record is removed from C and, before its job is marked, uploaded, fetched and queued again: the
mark then lands on the new queue entry, although every `DELETE` has removed what it named. -/
theorem not_marksOwnId_requeued : ∃ s s', (cluster smallSetup).ReachedBy RemovesNamed s ∧
    (cluster smallSetup).step s (.mark 0) = some s' ∧ ¬ MarksOwnId s (.mark 0) := by
  obtain ⟨s, hs, hrun⟩ := System.exists_of_exec (S := cluster smallSetup) (s := freshState)
    (P := fun s => (step smallSetup s (.mark 0)).isSome && !decide (MarksOwnId s (.mark 0))) rfl
    (show ((cluster smallSetup).exec RemovesNamed freshState
      [uploadOf "a" "2026-01-01T00:00:00Z", .fetch, .store 0, .load 0,
        .delete (Str.lit "2026-06-01T00:00:00Z") none,
        uploadOf "a" "2026-01-01T00:00:00Z", .fetch, .store 0]).any _ = true by decide +kernel)
  rw [Bool.and_eq_true, Bool.not_eq_true', decide_eq_false_iff_not] at hrun
  obtain ⟨s', hs'⟩ := Option.isSome_iff_exists.mp hrun.1
  exact ⟨s, s', hs, hs', hrun.2⟩

end WeighingSync.Replicator
