import WeighingSync.Common.Drain
import WeighingSync.Common.Runs
import WeighingSync.Replicator.Cluster
import WeighingSync.Replicator.FetchPass

/-!
# Working off the queue of deletions

A pass of `deletePending` in which every `DELETE` is answered works off one batch of the rows that are due
when it loads them. Every pass and every request reads the clock anew, so rows become due in between, also
in front of older ones. As many passes as the rows that are due at the last reading have batches have sent
one `DELETE` for every row that was due at the first (`queue_drains`).
-/

namespace WeighingSync.Replicator

open Go Receiver

/-- The readings of the clocks in a pass: when B loads the jobs, and for the job of each queue row the
cutoff of C and when B marks the row. -/
structure PassTimes where
  load : ℤ
  cutoff : ℕ → Str
  mark : ℕ → ℤ

/-- The queue rows that are due, in the order in which they are loaded. -/
def dueRows (now : ℤ) (s : State) : List (Entry Str QueueRow) :=
  (s.b.queue.rows.filter (due now)).insertionSort fun a b => a.id ≤ b.id

/-- The `DELETE` of a job is answered, and its row is marked. -/
def finishJob (S : Setup) (times : PassTimes) (s : State) (job : DeleteJob) : State :=
  { s with
    c := { s.c with records := (deleteByID S.ccfg s.c.records (times.cutoff job.id) job.cRecordId).2 }
    b := { s.b with queue := markDeleteDone (times.mark job.id) job.id s.b.queue }
    sent := job.cRecordId :: s.sent }

/-- A queue row after the jobs of some ids are finished. -/
def finished (times : PassTimes) (ids : List ℕ) (q : Entry Str QueueRow) : Entry Str QueueRow :=
  if q.id ∈ ids then
    { q with val :=
      { q.val with status := .done, lastError := none, completedAt := some (times.mark q.id) } }
  else q

/-- `deletePending`, when every `DELETE` is answered. -/
def deletePass (S : Setup) (times : PassTimes) (s : State) : State :=
  (loadDeleteJobs S.cfg times.load s.b.queue).foldl (finishJob S times) { s with jobs := [], outcome := none }

/-- The requests of a pass: the row and the cutoff of each. -/
def requestsOf (S : Setup) (times : PassTimes) (s : State) : List (Entry Str QueueRow × Str) :=
  ((dueRows times.load s).take S.cfg.batchSize).map fun q => (q, times.cutoff q.id)

/-- The state after passes. -/
def deletePasses (S : Setup) (passes : List PassTimes) (s : State) : State :=
  passes.foldl (fun s times => deletePass S times s) s

/-- The requests of passes. -/
def requests (S : Setup) : List PassTimes → State → List (Entry Str QueueRow × Str)
  | [], _ => []
  | times :: passes, s => requestsOf S times s ++ requests S passes (deletePass S times s)

instance : Std.Total fun a b : Entry Str QueueRow => a.id ≤ b.id := ⟨fun a b => Nat.le_total a.id b.id⟩

instance : IsTrans (Entry Str QueueRow) fun a b => a.id ≤ b.id := ⟨fun _ _ _ => Nat.le_trans⟩

section

variable {S : Setup} {times : PassTimes} {first last now : ℤ} {s s' s'' : State}
  {log more : List (Entry Str QueueRow × Str)}

theorem mem_dueRows {q : Entry Str QueueRow} :
    q ∈ dueRows now s ↔ q ∈ s.b.queue.rows ∧ due now q = true := by
  rw [dueRows, List.mem_insertionSort, List.mem_filter]

/-- What is due is due later on. -/
theorem dueRows_mono (h : now ≤ last) {q : Entry Str QueueRow} (hq : q ∈ dueRows now s) :
    q ∈ dueRows last s := by
  obtain ⟨hmem, hdue⟩ := mem_dueRows.mp hq
  simp only [due, Bool.and_eq_true, decide_eq_true_eq] at hdue
  refine mem_dueRows.mpr ⟨hmem, ?_⟩
  simp only [due, Bool.and_eq_true, decide_eq_true_eq]
  exact ⟨hdue.1, hdue.2.trans h⟩

theorem nodup_dueRows : ((dueRows now s).map Entry.id).Nodup := by
  have hperm : (dueRows now s).Perm (s.b.queue.rows.filter (due now)) := List.perm_insertionSort _ _
  rw [(hperm.map Entry.id).nodup_iff]
  exact s.b.queue.id_nodup.sublist (List.filter_sublist.map _)

/-- The jobs of a pass are finished one after the other. -/
theorem leads_finishJobs (jobs : List DeleteJob) (s : State) (hs : s.outcome = none) :
    (cluster S).Leads (fun _ _ => True) { s with jobs }
      (jobs.foldl (finishJob S times) { s with jobs := [] }) := by
  induction jobs generalizing s with
  | nil => exact .refl
  | cons job jobs ih =>
      have hdelete : (cluster S).step { s with jobs := job :: jobs } (.delete (times.cutoff job.id) none) =
          some { s with
            c := { s.c with records := (deleteByID S.ccfg s.c.records (times.cutoff job.id) job.cRecordId).2 }
            jobs := job :: jobs
            outcome := some .succeeded
            sent := job.cRecordId :: s.sent } := by
        simp only [cluster, step, hs]
        rfl
      have hmark : (cluster S).step { s with
            c := { s.c with records := (deleteByID S.ccfg s.c.records (times.cutoff job.id) job.cRecordId).2 }
            jobs := job :: jobs
            outcome := some .succeeded
            sent := job.cRecordId :: s.sent } (.mark (times.mark job.id)) =
          some { finishJob S times { s with jobs := [] } job with jobs } := by
        rw [finishJob, hs]
        rfl
      have hrest := ih (finishJob S times { s with jobs := [] } job) hs
      exact ((System.Leads.single hdelete trivial).next hmark trivial).trans hrest

/-- A pass is a run of the system. -/
theorem leads_deletePass (henabled : S.cfg.cleanupEnabled = true) (hjobs : s.jobs = []) :
    (cluster S).Leads (fun _ _ => True) s (deletePass S times s) := by
  have hload : (cluster S).step s (.load times.load) =
      some { s with jobs := loadDeleteJobs S.cfg times.load s.b.queue, outcome := none } :=
    if_pos ⟨henabled, hjobs⟩
  exact (System.Leads.single hload trivial).trans
    (leads_finishJobs (loadDeleteJobs S.cfg times.load s.b.queue) { s with outcome := none } rfl)

/-- What finishing jobs does to the parts of the state. -/
theorem finishJobs_eq (S : Setup) (times : PassTimes) (jobs : List DeleteJob) (s : State) :
    (jobs.foldl (finishJob S times) s).jobs = s.jobs ∧
    (jobs.foldl (finishJob S times) s).sent.reverse = s.sent.reverse ++ jobs.map DeleteJob.cRecordId ∧
    (jobs.foldl (finishJob S times) s).b.replicated = s.b.replicated ∧
    (jobs.foldl (finishJob S times) s).b.queue.rows =
      s.b.queue.rows.map (finished times (jobs.map DeleteJob.id)) ∧
    ∀ e, e ∈ (jobs.foldl (finishJob S times) s).c.records.rows ↔ e ∈ s.c.records.rows ∧
      ∀ job ∈ jobs, (e.id : ℤ) = job.cRecordId →
        Str.lt e.val.effectiveTime (times.cutoff job.id) = false := by
  induction jobs generalizing s with
  | nil =>
      have hnone : finished times [] = id := funext fun q => if_neg List.not_mem_nil
      simp [hnone]
  | cons job jobs ih =>
      obtain ⟨hjobs, hsent, hreplicated, hqueue, hrecords⟩ := ih (finishJob S times s job)
      refine ⟨hjobs, ?_, hreplicated, ?_, fun e => ?_⟩
      · rw [List.foldl_cons, hsent, finishJob, List.reverse_cons, List.map_cons, List.append_assoc]
        rfl
      · rw [List.foldl_cons, hqueue]
        show List.map _ (List.map _ _) = _
        rw [List.map_map]
        refine List.map_congr_left fun q _ => ?_
        -- a row that two jobs name would be marked twice, which is the same
        by_cases hq : q.id = job.id <;> by_cases hrest : q.id ∈ jobs.map DeleteJob.id <;>
          simp [finished, hq, hrest, List.mem_cons]
      · rw [List.foldl_cons, hrecords]
        show e ∈ (deleteByID S.ccfg s.c.records (times.cutoff job.id) job.cRecordId).2.rows ∧ _ ↔ _
        rw [mem_deleteByID, List.forall_mem_cons, and_assoc]

/-- The jobs of a pass are those of the first rows that are due. -/
theorem loadDeleteJobs_eq (S : Setup) (times : PassTimes) (s : State) :
    loadDeleteJobs S.cfg times.load s.b.queue = ((dueRows times.load s).take S.cfg.batchSize).map jobOf := rfl

/-- Rows that are finished are due no more, and the others are as they were. -/
theorem filter_due_finished (times : PassTimes) (now : ℤ) (ids : List ℕ) (rows : List (Entry Str QueueRow)) :
    (rows.map (finished times ids)).filter (due now) = (rows.filter (due now)).filter fun q => q.id ∉ ids := by
  have hdue : due now ∘ finished times ids = fun q => decide (q.id ∉ ids) && due now q := by
    funext q
    by_cases hq : q.id ∈ ids
    · rw [Function.comp_apply, finished, if_pos hq, decide_eq_false (not_not.mpr hq)]
      rfl
    · rw [Function.comp_apply, finished, if_neg hq, decide_eq_true hq, Bool.true_and]
  rw [List.filter_map, List.filter_filter, hdue]
  refine (List.map_congr_left fun q hq => ?_).trans (List.map_id _)
  obtain ⟨-, hout⟩ := List.mem_filter.mp hq
  rw [Bool.and_eq_true] at hout
  exact if_neg (of_decide_eq_true hout.1)

/-- A pass makes the rows due no more that it has sent, at whatever time. -/
theorem dueRows_deletePass (now : ℤ) : dueRows now (deletePass S times s) =
    (dueRows now s).filter fun q => q.id ∉ (requestsOf S times s).map fun d => d.1.id := by
  obtain ⟨-, -, -, hqueue, -⟩ := finishJobs_eq S times
    (loadDeleteJobs S.cfg times.load s.b.queue) { s with jobs := [], outcome := none }
  have hids : (loadDeleteJobs S.cfg times.load s.b.queue).map DeleteJob.id =
      (requestsOf S times s).map fun d => d.1.id := by
    rw [loadDeleteJobs_eq, requestsOf, List.map_map, List.map_map]
    rfl
  rw [dueRows, dueRows, filter_insertionSort, deletePass, hqueue, hids, filter_due_finished]

/-- Requests have been sent for rows that are due by `last`, one for each, and no more has happened: their
rows are due no more, and C has lost of their records the ones older than the cutoff of the request. -/
structure Sent (S : Setup) (last : ℤ) (log : List (Entry Str QueueRow × Str)) (s s' : State) : Prop where
  jobs : s'.jobs = []
  run : (cluster S).Leads (fun _ _ => True) s s'
  sent : s'.sent.reverse = s.sent.reverse ++ log.map fun d => d.1.val.cRecordId
  once : (log.map fun d => d.1.id).Nodup
  listed : ∀ d ∈ log, d.1 ∈ dueRows last s
  due : ∀ now, dueRows now s' = (dueRows now s).filter fun q => q.id ∉ log.map fun d => d.1.id
  replicated : s'.b.replicated = s.b.replicated
  records : ∀ e, e ∈ s'.c.records.rows ↔ e ∈ s.c.records.rows ∧
    ∀ d ∈ log, (e.id : ℤ) = d.1.val.cRecordId → Str.lt e.val.effectiveTime d.2 = false

theorem sent_refl (hjobs : s.jobs = []) : Sent S last [] s s where
  jobs := hjobs
  run := .refl
  sent := (List.append_nil _).symm
  once := List.nodup_nil
  listed := fun _ hd => absurd hd List.not_mem_nil
  due := fun _ => (List.filter_eq_self.mpr fun _ _ => by simp).symm
  replicated := rfl
  records := fun e => by simp

theorem Sent.trans (h : Sent S last log s s') (h' : Sent S last more s' s'') :
    Sent S last (log ++ more) s s'' where
  jobs := h'.jobs
  run := h.run.trans h'.run
  sent := by rw [h'.sent, h.sent, List.map_append, List.append_assoc]
  once := by
    rw [List.map_append, List.nodup_append']
    refine ⟨h.once, h'.once, fun id hlog hmore => ?_⟩
    -- what was sent in the first part is not due any more
    obtain ⟨d, hd, rfl⟩ := List.mem_map.mp hmore
    have hdue := h'.listed d hd
    rw [h.due] at hdue
    exact of_decide_eq_true (List.mem_filter.mp hdue).2 hlog
  listed := by
    intro d hd
    rcases List.mem_append.mp hd with hd | hd
    · exact h.listed d hd
    · have hdue := h'.listed d hd
      rw [h.due] at hdue
      exact List.mem_of_mem_filter hdue
  due := by
    intro now
    rw [h'.due, h.due, List.filter_filter]
    refine List.filter_congr fun q _ => ?_
    rw [List.map_append, ← Bool.decide_and, decide_eq_decide, List.mem_append, not_or, and_comm]
  replicated := h'.replicated.trans h.replicated
  records := by
    intro e
    rw [h'.records, h.records, and_assoc, List.forall_mem_append]

/-- What a pass does. -/
theorem sent_deletePass (henabled : S.cfg.cleanupEnabled = true) (hjobs : s.jobs = [])
    (hlast : times.load ≤ last) : Sent S last (requestsOf S times s) s (deletePass S times s) := by
  obtain ⟨hnone, hsent, hreplicated, -, hrecords⟩ := finishJobs_eq S times
    (loadDeleteJobs S.cfg times.load s.b.queue) { s with jobs := [], outcome := none }
  refine ⟨hnone, leads_deletePass henabled hjobs, ?_, ?_, ?_, dueRows_deletePass, hreplicated, fun e => ?_⟩
  · rw [requestsOf, List.map_map]
    rw [loadDeleteJobs_eq, List.map_map] at hsent
    exact hsent
  · rw [requestsOf, List.map_map]
    exact nodup_dueRows.sublist ((List.take_sublist _ _).map _)
  · intro d hd
    obtain ⟨q, hq, rfl⟩ := List.mem_map.mp hd
    exact dueRows_mono hlast (List.mem_of_mem_take hq)
  · rw [deletePass, hrecords, loadDeleteJobs_eq, requestsOf, List.forall_mem_map, List.forall_mem_map]
    rfl

/-- What passes do. -/
theorem sent_deletePasses (henabled : S.cfg.cleanupEnabled = true) {passes : List PassTimes}
    (hlast : ∀ times ∈ passes, times.load ≤ last) (hjobs : s.jobs = []) :
    Sent S last (requests S passes s) s (deletePasses S passes s) := by
  induction passes generalizing s with
  | nil => exact sent_refl hjobs
  | cons times passes ih =>
      obtain ⟨htimes, hpasses⟩ := List.forall_mem_cons.mp hlast
      have hpass : Sent S last (requestsOf S times s) s (deletePass S times s) :=
        sent_deletePass henabled hjobs htimes
      exact hpass.trans (ih hpasses hpass.jobs)

/-- A pass sends a whole batch, or leaves nothing that was due when it loaded its jobs. -/
theorem dueRows_deletePass_cases (henabled : S.cfg.cleanupEnabled = true) (hjobs : s.jobs = [])
    (hfirst : first ≤ times.load) (hlast : times.load ≤ last) :
    dueRows first (deletePass S times s) = [] ∨
      (dueRows last (deletePass S times s)).length + S.cfg.batchSize ≤ (dueRows last s).length := by
  have hpass : Sent S last (requestsOf S times s) s (deletePass S times s) :=
    sent_deletePass henabled hjobs hlast
  by_cases hfull : S.cfg.batchSize ≤ (dueRows times.load s).length
  · right
    -- the rows that are sent are among those due by the last reading, and they are left out
    have hlength : (requestsOf S times s).length = S.cfg.batchSize := by
      rw [requestsOf, List.length_map, List.length_take, min_eq_left hfull]
    have hsplit := List.length_eq_length_filter_add
      (l := (dueRows last s).map Entry.id) fun id => id ∈ (requestsOf S times s).map fun d => d.1.id
    have hsent : (requestsOf S times s).length ≤ (((dueRows last s).map Entry.id).filter
        fun id => id ∈ (requestsOf S times s).map fun d => d.1.id).length := by
      rw [← List.length_map (fun d : Entry Str QueueRow × Str => d.1.id)]
      refine (hpass.once.subperm fun id hid => ?_).length_le
      obtain ⟨d, hd, rfl⟩ := List.mem_map.mp hid
      exact List.mem_filter.mpr ⟨List.mem_map_of_mem (hpass.listed d hd), decide_eq_true hid⟩
    have hrest : (dueRows last (deletePass S times s)).length = (((dueRows last s).map Entry.id).filter
        fun id => !decide (id ∈ (requestsOf S times s).map fun d => d.1.id)).length := by
      rw [hpass.due, List.filter_map, List.length_map]
      simp only [Function.comp_def, decide_not]
    rw [List.length_map] at hsplit
    omega
  · left
    -- all rows were sent that were due at this reading
    rw [List.eq_nil_iff_forall_not_mem]
    intro q hq
    have hdue := dueRows_mono hfirst hq
    rw [hpass.due] at hdue
    obtain ⟨hmem, hout⟩ := List.mem_filter.mp hdue
    refine of_decide_eq_true hout ?_
    rw [requestsOf, List.take_of_length_le (by omega), List.map_map]
    exact List.mem_map_of_mem hmem

/-- So do passes, each with its own readings. -/
theorem dueRows_deletePasses_cases (henabled : S.cfg.cleanupEnabled = true) {passes : List PassTimes}
    (htimes : ∀ times ∈ passes, first ≤ times.load ∧ times.load ≤ last) (hjobs : s.jobs = []) :
    dueRows first (deletePasses S passes s) = [] ∨ (dueRows last (deletePasses S passes s)).length +
      passes.length * S.cfg.batchSize ≤ (dueRows last s).length := by
  induction passes generalizing s with
  | nil => exact Or.inr (by simp [deletePasses])
  | cons times passes ih =>
      obtain ⟨⟨hfirst, hlast⟩, hpasses⟩ := List.forall_mem_cons.mp htimes
      have hpass : Sent S last (requestsOf S times s) s (deletePass S times s) :=
        sent_deletePass henabled hjobs hlast
      have hrest : Sent S last _ (deletePass S times s) (deletePasses S passes (deletePass S times s)) :=
        sent_deletePasses henabled (fun times h => (hpasses times h).2) hpass.jobs
      show dueRows first (deletePasses S passes (deletePass S times s)) = [] ∨
        (dueRows last (deletePasses S passes (deletePass S times s))).length + _ ≤ _
      rcases dueRows_deletePass_cases henabled hjobs hfirst hlast with hnone | hless
      · left
        rw [hrest.due, hnone, List.filter_nil]
      · rcases ih hpasses hpass.jobs with hnone | hless'
        · exact Or.inl hnone
        · right
          rw [List.length_cons, Nat.succ_mul]
          omega

end

/-- From any state without jobs: after as many passes as the rows that are due at the last reading have
batches, no row is due that was so at the first reading. One `DELETE` was sent for each such row, and else
only for rows that became due in between, none twice; B has forgotten nothing, and of the records that were
named C has only those that are not older than the cutoff of their request. -/
theorem queue_drains {S : Setup} (henabled : S.cfg.cleanupEnabled = true) {s : State}
    (hjobs : s.jobs = []) {first last : ℤ} (hle : first ≤ last) {passes : List PassTimes}
    (htimes : ∀ times ∈ passes, first ≤ times.load ∧ times.load ≤ last)
    (hlong : (dueRows last s).length ≤ passes.length * S.cfg.batchSize) :
    Sent S last (requests S passes s) s (deletePasses S passes s) ∧
      dueRows first (deletePasses S passes s) = [] ∧
      ∀ q ∈ dueRows first s, q ∈ (requests S passes s).map Prod.fst := by
  have hsent : Sent S last (requests S passes s) s (deletePasses S passes s) :=
    sent_deletePasses henabled (fun times h => (htimes times h).2) hjobs
  have hnone : dueRows first (deletePasses S passes s) = [] := by
    rcases dueRows_deletePasses_cases henabled htimes hjobs with hnone | hless
    · exact hnone
    · have hlast : dueRows last (deletePasses S passes s) = [] :=
        List.eq_nil_of_length_eq_zero (by omega)
      exact List.eq_nil_iff_forall_not_mem.mpr fun q hq =>
        List.not_mem_nil (hlast ▸ dueRows_mono hle hq)
  refine ⟨hsent, hnone, fun q hq => ?_⟩
  rw [hsent.due] at hnone
  have hid : q.id ∈ (requests S passes s).map fun d => d.1.id := by
    by_contra hout
    exact List.not_mem_nil (hnone ▸ List.mem_filter.mpr ⟨hq, decide_eq_true hout⟩)
  obtain ⟨d, hd, heq⟩ := List.mem_map.mp hid
  have hrow : d.1 = q := KeyedTable.eq_of_id_eq (mem_dueRows.mp (hsent.listed d hd)).1 (mem_dueRows.mp hq).1 heq
  exact List.mem_map.mpr ⟨d, hd, hrow⟩

/-- Three queued rows in batches of one, the second due a second later than the others. -/
def threeQueued : State :=
  let rows := [serialUpload "a" "2026-01-01T00:00:00Z", serialUpload "b" "2026-09-01T00:00:00Z",
    serialUpload "c" "2026-02-01T00:00:00Z"]
  let table := RecordTable.upsertRows KeyedTable.empty rows
  let storeAt (b : ReplicatorDb) (now : ℤ) (record : CRecord) : ReplicatorDb :=
    storePage exactEnv { twoRecordConfig with cleanupEnabled := true } now [record] b
  { freshState with
    c := { freshState.c with records := table }
    b := ([0, 1000000, 0].zip (table.rows.map (received some))).foldl
      (fun b (now, record) => storeAt b now record) emptyDb }

/-- A pass at some time, with one cutoff for its requests. -/
def passAt (now : ℤ) (cutoff : String) : PassTimes := ⟨now, fun _ => Str.lit cutoff, fun _ => now⟩

/-- The second row is sent before the third, which was due first; the third pass sends that. -/
theorem queue_drains_three :
    let passes := [passAt 0 "2026-06-01T00:00:00Z", passAt 2000000 "2026-06-01T00:00:02Z",
      passAt 4000000 "2026-06-01T00:00:04Z"]
    let s' := deletePasses smallSetup passes threeQueued
    (Sent smallSetup 4000000 (requests smallSetup passes threeQueued) threeQueued s' ∧
      dueRows 0 s' = [] ∧
      ∀ q ∈ dueRows 0 threeQueued, q ∈ (requests smallSetup passes threeQueued).map Prod.fst) ∧
    (dueRows 0 threeQueued).map Entry.id = [1, 3] ∧ s'.sent = [3, 2, 1] ∧
      s'.c.records.keys = [Str.lit "weight_info:b"] :=
  ⟨queue_drains rfl rfl (by decide) (by decide +kernel) (by decide +kernel), by decide +kernel⟩

end WeighingSync.Replicator
