import WeighingSync.Go.Truncate
import WeighingSync.Replicator.Store
import WeighingSync.Signing

/-!
# The last error of a job

`deletePending` writes down why a `DELETE` failed and goes on. The text is cut twice, to bytes: what C
answers by `doJSON`, and the whole error by `markDeleteFailure`. The column takes valid UTF-8 only, so the
failure is recorded exactly when no cut falls within a character (`recorded_iff`); otherwise the job stays
as it was and the jobs after it are not reached (`deletePending_of_not_valid`).
-/

namespace WeighingSync.Replicator

open Go

/-! ## The error -/

/-- What the `DELETE` of a job meets: an error of the client, or a reply and the text of its status. -/
inductive Meeting
  | lost (error : Str)
  | replied (status : Str) (reply : Reply)

/-- The error of a reply up to its body. -/
def errorHead (path status : Str) : Str :=
  Str.lit "C DELETE " ++ path ++ Str.lit " returned " ++ status ++ Str.lit ": "

/-- What is left of the body of a reply before it is cut. -/
def errorBody (reply : Reply) : Str := reply.received.trimSpace

/-- The error of `doJSON` for a reply that is no success. -/
def replyError (path status : Str) (reply : Reply) : Str :=
  errorHead path status ++ truncate (errorBody reply) 1000

/-- The path of the address of a record. -/
def cleanupPath (a : Addresses) (id : ℤ) : Str := Str.ofBytes (a.cleanupURL id).path

/-- `doJSON` without a destination: its error, if there is one. -/
def deleteError (a : Addresses) (id : ℤ) : Meeting → Option Str
  | .lost error => some error
  | .replied status reply =>
      if reply.success then none else some (replyError (cleanupPath a id) status reply)

/-! ## The pass -/

/-- The table of the queue. -/
abbrev Queue := KeyedTable Str QueueRow

/-- The text that `markDeleteFailure` sends. -/
def lastError (cause : Str) : Str := truncate cause 4000

/-- `markDeleteFailure`, on a column that takes valid UTF-8 only. -/
def saveFailure (now : ℤ) (job : DeleteJob) (cause : Str) (t : Queue) : Option Queue :=
  if (∃ r ∈ t.rows, r.id = job.id) ∧ ¬ (lastError cause).Valid then none
  else some (markDeleteFailure now job cause t)

/-- The error with which `deletePending` ends early. -/
structure CleanupError where
  recordKey : Str
  cause : Str
  deriving DecidableEq

/-- The loop of `deletePending`, with the reading of the clock at which each job is marked. -/
def deleteJobs (a : Addresses) (meets : DeleteJob → Meeting) (clock : DeleteJob → ℤ) :
    List DeleteJob → Queue → Queue × Option CleanupError
  | [], t => (t, none)
  | job :: jobs, t =>
      match deleteError a job.cRecordId (meets job) with
      | none => deleteJobs a meets clock jobs (markDeleteDone (clock job) job.id t)
      | some cause =>
          match saveFailure (clock job) job cause t with
          | none => (t, some ⟨job.recordKey, cause⟩)
          | some t' => deleteJobs a meets clock jobs t'

/-- `deletePending`. -/
def deletePending (a : Addresses) (cfg : Config) (now : ℤ) (meets : DeleteJob → Meeting)
    (clock : DeleteJob → ℤ) (t : Queue) : Queue × Option CleanupError :=
  deleteJobs a meets clock (loadDeleteJobs cfg now t) t

/-! ## What is cut -/

variable {a : Addresses} {meets : DeleteJob → Meeting} {clock : DeleteJob → ℤ} {job : DeleteJob}
  {jobs : List DeleteJob} {t : Queue} {cause path status : Str} {reply : Reply}

/-- The two cuts fall between characters: that of the whole error within its head if this is longer than
the column takes, and otherwise that of the body, wherever the first of the two comes. -/
def CutsBetweenRunes (path status : Str) (reply : Reply) : Prop :=
  WholeRunes 4000 (errorHead path status) ∧
    WholeRunes (min (4000 - (errorHead path status).size) 1000) (errorBody reply)

theorem valid_lastError_iff :
    (lastError (replyError path status reply)).Valid ↔ CutsBetweenRunes path status reply := by
  rw [CutsBetweenRunes, ← valid_limitReader_iff, ← valid_limitReader_iff, lastError, replyError,
    truncate_eq, truncate_eq]
  -- the second cut falls behind the head, or within it and leaves nothing of the body
  by_cases h : (errorHead path status).size ≤ 4000
  · rw [limitReader_append h, limitReader_of_size_le h, limitReader_limitReader, Str.valid_append]
  · have hnil : Str.Valid [] := by simp [Str.Valid]
    rw [limitReader_append_of_size_ge (by omega), Nat.sub_eq_zero_of_le (by omega), Nat.zero_min,
      limitReader_zero, and_iff_left hnil]

/-! ## What is recorded -/

/-- The failure of a job is recorded: the text is valid, fits, and is the beginning of the error, the
statement succeeds, the row of the job has the text, and the pass goes on. -/
structure Recorded (a : Addresses) (meets : DeleteJob → Meeting) (clock : DeleteJob → ℤ)
    (job : DeleteJob) (jobs : List DeleteJob) (cause : Str) (t : Queue) : Prop where
  valid : (lastError cause).Valid
  size_le : (lastError cause).size ≤ 4000
  truncation : (lastError cause).bytes <+: cause.bytes
  stored : saveFailure (clock job) job cause t = some (markDeleteFailure (clock job) job cause t)
  row : ∀ r ∈ t.rows, r.id = job.id → ∃ r' ∈ (markDeleteFailure (clock job) job cause t).rows,
    r'.id = job.id ∧ r'.val.status = .failed ∧ r'.val.lastError = some (lastError cause)
  goes_on : deleteJobs a meets clock (job :: jobs) t =
    deleteJobs a meets clock jobs (markDeleteFailure (clock job) job cause t)

theorem size_lastError_le (cause : Str) : (lastError cause).size ≤ 4000 := by
  rw [lastError, truncate_eq]
  exact size_limitReader_le 4000 cause

theorem bytes_lastError_prefix (cause : Str) : (lastError cause).bytes <+: cause.bytes := by
  rw [lastError, truncate_eq, bytes_limitReader]
  exact List.take_prefix 4000 _

theorem row_markDeleteFailure {now : ℤ} {r : Entry Str QueueRow} (hr : r ∈ t.rows) (hid : r.id = job.id) :
    ∃ r' ∈ (markDeleteFailure now job cause t).rows,
      r'.id = job.id ∧ r'.val.status = .failed ∧ r'.val.lastError = some (lastError cause) := by
  refine ⟨_, KeyedTable.mem_updateWhere.mpr (Or.inr ⟨r, hr, decide_eq_true hid, rfl⟩), hid, rfl, ?_⟩
  rw [lastError, truncate_eq]

theorem saveFailure_of_valid (now : ℤ) (hvalid : (lastError cause).Valid) :
    saveFailure now job cause t = some (markDeleteFailure now job cause t) :=
  if_neg fun h => h.2 hvalid

theorem saveFailure_of_not_valid (now : ℤ) (hrow : ∃ r ∈ t.rows, r.id = job.id)
    (hinvalid : ¬ (lastError cause).Valid) : saveFailure now job cause t = none :=
  if_pos ⟨hrow, hinvalid⟩

/-- A text that the column does not take ends the pass and leaves the queue as it is. -/
theorem deleteJobs_of_not_valid (hrow : ∃ r ∈ t.rows, r.id = job.id)
    (herror : deleteError a job.cRecordId (meets job) = some cause) (hinvalid : ¬ (lastError cause).Valid) :
    deleteJobs a meets clock (job :: jobs) t = (t, some ⟨job.recordKey, cause⟩) := by
  rw [deleteJobs, herror]
  simp only [saveFailure_of_not_valid (clock job) hrow hinvalid]

theorem deleteJobs_of_valid (herror : deleteError a job.cRecordId (meets job) = some cause)
    (hvalid : (lastError cause).Valid) :
    deleteJobs a meets clock (job :: jobs) t =
      deleteJobs a meets clock jobs (markDeleteFailure (clock job) job cause t) := by
  rw [deleteJobs, herror]
  simp only [saveFailure_of_valid (clock job) hvalid]

/-- C refuses the `DELETE` of a job, whatever it says. The failure is recorded exactly when the cuts of
its text fall between characters. -/
theorem recorded_iff (hmeets : meets job = .replied status reply) (hfailed : reply.success = false)
    (clock : DeleteJob → ℤ) (jobs : List DeleteJob) (t : Queue) :
    Recorded a meets clock job jobs (replyError (cleanupPath a job.cRecordId) status reply) t ↔
      CutsBetweenRunes (cleanupPath a job.cRecordId) status reply := by
  have herror : deleteError a job.cRecordId (meets job) =
      some (replyError (cleanupPath a job.cRecordId) status reply) := by
    rw [hmeets, deleteError, hfailed, if_neg Bool.false_ne_true]
  rw [← valid_lastError_iff]
  constructor
  · exact fun h => h.valid
  · intro hvalid
    exact ⟨hvalid, size_lastError_le _, bytes_lastError_prefix _, saveFailure_of_valid _ hvalid,
      fun _ hr hid => row_markDeleteFailure hr hid, deleteJobs_of_valid herror hvalid⟩

/-! ## The whole pass -/

/-- An update of rows keeps their ids. -/
theorem exists_id_updateWhere {p : Entry Str QueueRow → Bool} {f : QueueRow → QueueRow} {id : ℕ}
    (h : ∃ r ∈ t.rows, r.id = id) : ∃ r ∈ (t.updateWhere p f).rows, r.id = id := by
  obtain ⟨r, hr, hid⟩ := h
  cases hp : p r with
  | false => exact ⟨r, KeyedTable.mem_updateWhere.mpr (Or.inl ⟨hr, hp⟩), hid⟩
  | true => exact ⟨_, KeyedTable.mem_updateWhere.mpr (Or.inr ⟨r, hr, hp, rfl⟩), hid⟩

theorem deleteJobs_eq_none_iff (hrows : ∀ job ∈ jobs, ∃ r ∈ t.rows, r.id = job.id) :
    (deleteJobs a meets clock jobs t).2 = none ↔
      ∀ job ∈ jobs, ∀ cause, deleteError a job.cRecordId (meets job) = some cause →
        (lastError cause).Valid := by
  induction jobs generalizing t with
  | nil => simp [deleteJobs]
  | cons job jobs ih =>
      obtain ⟨hrow, hrows⟩ := List.forall_mem_cons.mp hrows
      rw [List.forall_mem_cons]
      cases herror : deleteError a job.cRecordId (meets job) with
      | none =>
          have hrest := ih (t := markDeleteDone (clock job) job.id t) fun j hj =>
            exists_id_updateWhere (hrows j hj)
          rw [deleteJobs, herror]
          simp only [hrest]
          simp
      | some cause =>
          have hcause : (∀ cause', some cause = some cause' → (lastError cause').Valid) ↔
              (lastError cause).Valid := by
            simp
          rw [hcause]
          by_cases hvalid : (lastError cause).Valid
          · -- the mark keeps the rows of the jobs that follow
            have hrest := ih (t := markDeleteFailure (clock job) job cause t) fun j hj =>
              exists_id_updateWhere (hrows j hj)
            rw [deleteJobs_of_valid herror hvalid, hrest, and_iff_right hvalid]
          · rw [deleteJobs_of_not_valid hrow herror hvalid]
            simp [hvalid]

/-- A job that has been loaded is in the queue. -/
theorem exists_row_of_loaded {cfg : Config} {now : ℤ} (h : job ∈ loadDeleteJobs cfg now t) :
    ∃ r ∈ t.rows, r.id = job.id := by
  obtain ⟨r, hr, rfl⟩ := List.mem_map.mp h
  exact ⟨r, (List.mem_filter.mp (mem_of_mem_window hr)).1, rfl⟩

/-- A pass goes through all its jobs exactly when the text of every failure is valid. -/
theorem deletePending_eq_none_iff (cfg : Config) (now : ℤ) :
    (deletePending a cfg now meets clock t).2 = none ↔
      ∀ job ∈ loadDeleteJobs cfg now t, ∀ cause, deleteError a job.cRecordId (meets job) = some cause →
        (lastError cause).Valid :=
  deleteJobs_eq_none_iff fun _ => exists_row_of_loaded

/-- If that of the first job is not, the pass does nothing, and the next one begins with the same job. -/
theorem deletePending_of_not_valid {cfg : Config} {now : ℤ} (hload : loadDeleteJobs cfg now t = job :: jobs)
    (herror : deleteError a job.cRecordId (meets job) = some cause) (hinvalid : ¬ (lastError cause).Valid) :
    deletePending a cfg now meets clock t = (t, some ⟨job.recordKey, cause⟩) := by
  have hrow : ∃ r ∈ t.rows, r.id = job.id := exists_row_of_loaded (by rw [hload]; exact List.mem_cons_self)
  rw [deletePending, hload, deleteJobs_of_not_valid hrow herror hinvalid]

/-! ## A body that is cut -/

theorem validateRoute_records : validateRoute (bytesOf "/weighing-data-sync/records") = true := by
  decide +kernel

/-- The addresses by default. -/
def recordsAddresses : Addresses := addressesOf (bytesOf "/weighing-data-sync/records") validateRoute_records

/-- The first job of a queue. -/
def firstJob : DeleteJob := ⟨1, 7, Str.lit "A1", 0⟩

/-- C answers an error with this body. -/
def serverError (body : Str) : Reply := ⟨500, body⟩

/-- The status that goes with it. -/
def serverErrorStatus : Str := Str.lit "500 Internal Server Error"

/-- A body whose last character of two bytes begins at the last of the thousand. -/
def cutBody : Str := List.replicate 999 (.char 'x') ++ Str.lit "é"

/-- A short text is recorded whole. -/
theorem recorded_iff_short :
    CutsBetweenRunes (cleanupPath recordsAddresses firstJob.cRecordId) serverErrorStatus
        (serverError (Str.lit "忙")) ∧
      Recorded recordsAddresses (fun _ => .replied serverErrorStatus (serverError (Str.lit "忙")))
        (fun _ => 0) firstJob []
        (replyError (cleanupPath recordsAddresses firstJob.cRecordId) serverErrorStatus
          (serverError (Str.lit "忙")))
        (KeyedTable.empty : Queue) := by
  have hvalid : (lastError (replyError (cleanupPath recordsAddresses firstJob.cRecordId) serverErrorStatus
      (serverError (Str.lit "忙")))).Valid := by
    decide +kernel
  have hcuts := valid_lastError_iff.mp hvalid
  exact ⟨hcuts, (recorded_iff rfl rfl (fun _ => 0) [] KeyedTable.empty).mpr hcuts⟩

/-- A longer one is cut within a character, and no job after it is reached. -/
theorem not_recorded_cut : cutBody.Valid ∧ (serverError cutBody).success = false ∧
    ∀ (clock : DeleteJob → ℤ) (jobs : List DeleteJob) (t : Queue),
      ¬ Recorded recordsAddresses (fun _ => .replied serverErrorStatus (serverError cutBody)) clock firstJob
          jobs (replyError (cleanupPath recordsAddresses firstJob.cRecordId) serverErrorStatus
            (serverError cutBody)) t ∧
        ((∃ r ∈ t.rows, r.id = firstJob.id) →
          (deleteJobs recordsAddresses (fun _ => .replied serverErrorStatus (serverError cutBody)) clock
            (firstJob :: jobs) t).1 = t) := by
  have hinvalid : ¬ (lastError (replyError (cleanupPath recordsAddresses firstJob.cRecordId)
      serverErrorStatus (serverError cutBody))).Valid := by
    decide +kernel
  refine ⟨by decide +kernel, rfl, fun clock jobs t => ⟨fun h => hinvalid h.valid, fun hrow => ?_⟩⟩
  rw [deleteJobs_of_not_valid hrow rfl hinvalid]

end WeighingSync.Replicator
