import WeighingSync.Common.Transition
import WeighingSync.Receiver.Delete
import WeighingSync.Replicator.Fetch

/-!
# Replicator and receiver together

B runs two goroutines over its tables: `fetchLoop` reads a page of C and stores its records one by
one, `deleteLoop` loads due queue rows and sends a `DELETE` for each before it marks the row. A step
of the system is one statement or transaction:

* `upload`: C handles the payload of a `POST`, committed or not.
* `fetch`: C answers B's query; the page is what B goes on with.
* `store`: the transaction of `storeRecord` commits for the next record of the page.
* `abortFetch`: the pass ends early, on a record that is refused or on a failing transaction. A page that B
  cannot decode, as one of over 1 MiB, is given up so before its first record.
* `load`: `loadDeleteJobs`, with cleanup enabled.
* `delete`: C handles the `DELETE` of the next job, and its reply reaches B or is lost.
* `refuse`: the `DELETE` of the next job fails without effect on C.
* `mark`: `markDeleteDone` or `markDeleteFailure` for that job.
* `abortCleanup`, `crash`: the jobs, or the jobs and the page, are dropped.
-/

namespace WeighingSync.Replicator

open Go Receiver

/-- The settings of both programs, and how texts, times and numbers are read and printed. -/
structure Setup where
  cfg : Config
  ccfg : Receiver.Config
  env : StoreEnv
  timeText : Str → Option Str
  floatText : Str → Option Str

/-- What `doJSON` returns for a `DELETE`, whose reply body is not decoded. -/
inductive DeleteOutcome
  | succeeded
  | failed (cause : Str)
  deriving DecidableEq, Repr

/-- `doJSON` without a destination: only the status of the reply counts. -/
def readOutcome (reply : Reply) : DeleteOutcome :=
  if reply.success then .succeeded else .failed reply.received.trimSpace

/-- The state of the system: the tables of C and B, the records of the fetch pass still to store, the
jobs of the delete pass still to finish, what became of the `DELETE` of the first of them, and the
ids that requests have named so far. -/
structure State where
  c : ReceiverDb
  b : ReplicatorDb
  page : List CRecord
  jobs : List DeleteJob
  outcome : Option DeleteOutcome
  sent : List ℤ

/-- The steps of the system. Clock readings are microseconds for B and a cutoff text for C; `lost` is
the error B sees where the reply does not arrive. -/
inductive Action
  | upload (env : PostEnv) (payload : UploadPayload)
  | fetch
  | store (now : ℤ)
  | abortFetch
  | load (now : ℤ)
  | delete (cutoff : Str) (lost : Option Str)
  | refuse (cause : Str)
  | mark (now : ℤ)
  | abortCleanup
  | crash

/-- The statement that marks a job. -/
def markJob (now : ℤ) (job : DeleteJob) (outcome : DeleteOutcome) (t : KeyedTable Str QueueRow) :
    KeyedTable Str QueueRow :=
  match outcome with
  | .succeeded => markDeleteDone now job.id t
  | .failed cause => markDeleteFailure now job cause t

/-- One step. -/
def step (S : Setup) (s : State) : Action → Option State
  | .upload env payload => some { s with c := (insertPayload S.ccfg env payload s.c).1 }
  | .fetch =>
      if s.page = [] then
        some { s with page := fetchedPage S.timeText S.floatText S.ccfg S.cfg s.c.records }
      else none
  | .store now =>
      match s.page with
      | [] => none
      | r :: rest =>
          if r.acceptable then
            (storeRecord S.env S.cfg now r s.b).map fun b => { s with b, page := rest }
          else none
  | .abortFetch => some { s with page := [] }
  | .load now =>
      if S.cfg.cleanupEnabled ∧ s.jobs = [] then
        some { s with jobs := loadDeleteJobs S.cfg now s.b.queue, outcome := none }
      else none
  | .delete cutoff lost =>
      match s.jobs, s.outcome with
      | job :: _, none =>
          let (reply, records) := deleteByID S.ccfg s.c.records cutoff job.cRecordId
          some { s with
            c := { s.c with records }
            outcome := some <| match lost with
              | none => readOutcome reply
              | some cause => .failed cause
            sent := job.cRecordId :: s.sent }
      | _, _ => none
  | .refuse cause =>
      match s.jobs, s.outcome with
      | job :: _, none =>
          some { s with outcome := some (.failed cause), sent := job.cRecordId :: s.sent }
      | _, _ => none
  | .mark now =>
      match s.jobs, s.outcome with
      | job :: rest, some outcome =>
          some { s with
            b := { s.b with queue := markJob now job outcome s.b.queue }
            jobs := rest
            outcome := none }
      | _, _ => none
  | .abortCleanup => some { s with jobs := [], outcome := none }
  | .crash => some { s with page := [], jobs := [], outcome := none }

/-- Both programs at their first start, with empty tables. -/
def freshState : State := ⟨⟨.empty, .empty⟩, emptyDb, [], [], none, []⟩

/-- The system from its first start on. -/
def cluster (S : Setup) : System State Action where
  init s := s = freshState
  step := step S

/-! ## What a step can do -/

/-- The steps of the system, by what they require and what they change. -/
inductive Stepped (S : Setup) (s : State) : Action → State → Prop
  | upload (env : PostEnv) (payload : UploadPayload) :
      Stepped S s (.upload env payload) { s with c := (insertPayload S.ccfg env payload s.c).1 }
  | fetch (hpage : s.page = []) : Stepped S s .fetch
      { s with page := fetchedPage S.timeText S.floatText S.ccfg S.cfg s.c.records }
  | store (now : ℤ) (r : CRecord) (rest : List CRecord) (b : ReplicatorDb)
      (hpage : s.page = r :: rest) (hstore : storeRecord S.env S.cfg now r s.b = some b) :
      Stepped S s (.store now) { s with b, page := rest }
  | abortFetch : Stepped S s .abortFetch { s with page := [] }
  | load (now : ℤ) (henabled : S.cfg.cleanupEnabled = true) (hjobs : s.jobs = []) :
      Stepped S s (.load now)
        { s with jobs := loadDeleteJobs S.cfg now s.b.queue, outcome := none }
  | delete (cutoff : Str) (lost : Option Str) (job : DeleteJob) (rest : List DeleteJob)
      (hjobs : s.jobs = job :: rest) (houtcome : s.outcome = none) :
      Stepped S s (.delete cutoff lost)
        { s with
          c := { s.c with records := (deleteByID S.ccfg s.c.records cutoff job.cRecordId).2 }
          outcome := some ((lost.map DeleteOutcome.failed).getD .succeeded)
          sent := job.cRecordId :: s.sent }
  | refuse (cause : Str) (job : DeleteJob) (rest : List DeleteJob) (hjobs : s.jobs = job :: rest)
      (houtcome : s.outcome = none) : Stepped S s (.refuse cause)
        { s with outcome := some (.failed cause), sent := job.cRecordId :: s.sent }
  | mark (now : ℤ) (job : DeleteJob) (rest : List DeleteJob) (outcome : DeleteOutcome)
      (hjobs : s.jobs = job :: rest) (houtcome : s.outcome = some outcome) :
      Stepped S s (.mark now)
        { s with
          b := { s.b with queue := markJob now job outcome s.b.queue }
          jobs := rest
          outcome := none }
  | abortCleanup : Stepped S s .abortCleanup { s with jobs := [], outcome := none }
  | crash : Stepped S s .crash { s with page := [], jobs := [], outcome := none }

/-- Every step is one of these. -/
theorem stepped_of_step {S : Setup} {s s' : State} {a : Action} (h : step S s a = some s') :
    Stepped S s a s' := by
  cases a with
  | upload env payload =>
      cases h
      exact .upload env payload
  | fetch =>
      simp only [step] at h
      split_ifs at h with hpage
      cases h
      exact .fetch hpage
  | store now =>
      simp only [step] at h
      split at h
      · cases h
      · next r rest hpage =>
        split_ifs at h
        obtain ⟨b, hb, rfl⟩ := Option.map_eq_some_iff.mp h
        exact .store now r rest b hpage hb
  | abortFetch =>
      cases h
      exact .abortFetch
  | load now =>
      simp only [step] at h
      split_ifs at h with hload
      cases h
      exact .load now hload.1 hload.2
  | delete cutoff lost =>
      simp only [step] at h
      split at h
      · next job rest hjobs houtcome =>
        have hdelete := Stepped.delete (S := S) cutoff lost job rest hjobs houtcome
        cases lost with
        | none =>
            cases h
            exact hdelete
        | some cause =>
            cases h
            exact hdelete
      · cases h
  | refuse cause =>
      simp only [step] at h
      split at h
      · next job rest hjobs houtcome =>
        cases h
        exact .refuse cause job rest hjobs houtcome
      · cases h
  | mark now =>
      simp only [step] at h
      split at h
      · next job rest outcome hjobs houtcome =>
        cases h
        exact .mark now job rest outcome hjobs houtcome
      · cases h
  | abortCleanup =>
      cases h
      exact .abortCleanup
  | crash =>
      cases h
      exact .crash

/-! ## What the parts of a step do to the tables -/

/-- The queue rows after a record is enqueued. -/
theorem mem_enqueue {env : StoreEnv} {now : ℤ} {r : CRecord} {t : KeyedTable Str QueueRow}
    {q : Entry Str QueueRow} (h : q ∈ (enqueue env now r t).rows) :
    (q ∈ t.rows ∧ q.key ≠ env.collate r.recordKey) ∨
      (q.key = env.collate r.recordKey ∧ q.val.cRecordId = r.id ∧ q.val.status = .pending ∧
        ((∃ q₀ ∈ t.rows, q₀.id = q.id ∧ q₀.key = q.key ∧ q.val.recordKey = q₀.val.recordKey) ∨
          (q.id = t.nextId ∧ q.val.recordKey = r.recordKey))) := by
  rcases KeyedTable.mem_upsert.mp h with hold | ⟨q₀, hq₀, hkey, rfl⟩ | ⟨-, rfl⟩
  · exact Or.inl hold
  · exact Or.inr ⟨hkey, rfl, rfl, Or.inl ⟨q₀, hq₀, rfl, rfl, rfl⟩⟩
  · exact Or.inr ⟨rfl, rfl, rfl, Or.inr ⟨rfl, rfl⟩⟩

/-- The queue rows after a job is marked: only the row with the id of the job changes, and neither its
key nor the id it names. -/
theorem mem_markJob {now : ℤ} {job : DeleteJob} {outcome : DeleteOutcome}
    {t : KeyedTable Str QueueRow} {q : Entry Str QueueRow} (h : q ∈ (markJob now job outcome t).rows) :
    (q ∈ t.rows ∧ q.id ≠ job.id) ∨
      ∃ q₀ ∈ t.rows, q₀.id = job.id ∧ q.id = q₀.id ∧ q.key = q₀.key ∧
        q.val.recordKey = q₀.val.recordKey ∧ q.val.cRecordId = q₀.val.cRecordId := by
  cases outcome with
  | succeeded =>
      rcases KeyedTable.mem_updateWhere.mp h with ⟨hq, hid⟩ | ⟨q₀, hq₀, hid, rfl⟩
      · exact Or.inl ⟨hq, by simpa using hid⟩
      · exact Or.inr ⟨q₀, hq₀, by simpa using hid, rfl, rfl, rfl, rfl⟩
  | failed cause =>
      rcases KeyedTable.mem_updateWhere.mp h with ⟨hq, hid⟩ | ⟨q₀, hq₀, hid, rfl⟩
      · exact Or.inl ⟨hq, by simpa using hid⟩
      · exact Or.inr ⟨q₀, hq₀, by simpa using hid, rfl, rfl, rfl, rfl⟩

@[simp] theorem nextId_markJob (now : ℤ) (job : DeleteJob) (outcome : DeleteOutcome)
    (t : KeyedTable Str QueueRow) : (markJob now job outcome t).nextId = t.nextId := by
  cases outcome <;> rfl

/-- A job is loaded from a row of the queue that is not done. -/
theorem mem_loadDeleteJobs {cfg : Config} {now : ℤ} {t : KeyedTable Str QueueRow} {job : DeleteJob}
    (h : job ∈ loadDeleteJobs cfg now t) :
    ∃ q ∈ t.rows, q.val.status ≠ .done ∧ jobOf q = job := by
  obtain ⟨q, hq, rfl⟩ := List.mem_map.mp h
  obtain ⟨hq, hdue⟩ := List.mem_filter.mp (mem_of_mem_window hq)
  refine ⟨q, hq, fun hdone => ?_, rfl⟩
  rw [due, hdone] at hdue
  exact absurd hdue (by simp)

/-- A record of a page is what B receives of a row of C. -/
theorem mem_fetchedPage {S : Setup} {t : RecordTable} {r : CRecord}
    (h : r ∈ fetchedPage S.timeText S.floatText S.ccfg S.cfg t) :
    ∃ e ∈ t.rows, r = received S.floatText e := by
  rw [fetchedPage_eq] at h
  obtain ⟨e, he, rfl⟩ := List.mem_map.mp h
  exact ⟨e, mem_of_mem_window he, rfl⟩

/-! ## A small deployment -/

/-- One record a page, cleanup enabled, and texts, times and numbers taken as they are. -/
def smallSetup : Setup where
  cfg := { oneRecordConfig with cleanupEnabled := true }
  ccfg := defaultLimits
  env := exactEnv
  timeText := some
  floatText := some

/-- The upload of a weighing record with a serial number and a time. -/
def uploadOf (serial time : String) : Action :=
  .upload
    { timeText := some
      requestID := Str.lit "request"
      receivedAt := Str.lit time
      stamp := fun _ _ => Str.lit time
      repliedAt := Str.lit time
      fails := fun _ => false }
    { source := [], database := [], table := [], uploadedAt := .null, records := []
      weightInfoRecords :=
        [[(Str.lit "serialNo", .str (Str.lit serial)), (Str.lit "updateTime", .str (Str.lit time))]]
      weightPhotoRecords := [] }

end WeighingSync.Replicator
