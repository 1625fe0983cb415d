import WeighingSync.Go.Json

/-!
# Uploads of the synchronizer

What the two engines of the Rust program share: `retry_transient` of `src/sync/retry.rs`, the
classification of errors of `src/sync/error.rs`, and the decoding of a response with two lists. A
Rust `String` is a text without stray bytes. The HTTP client and the JSON parser are parameters; the
struct that a response is decoded to is written out.
-/

namespace WeighingSync.Engine

open Go

/-! ## Errors -/

/-- `UploadError`, with the text of the error. -/
inductive UploadError
  | transient (error : Str)
  | permanent (error : Str)
  deriving DecidableEq, Repr

/-- `UploadError::status_is_permanent`. -/
def statusIsPermanent (status : ℕ) : Bool :=
  if 400 ≤ status ∧ status < 500 then !(status = 408 || status = 429) else false

/-- `UploadError::from_status`, given how a status is printed. -/
def UploadError.fromStatus (statusText : ℕ → Str) (status : ℕ) (body : Str) : UploadError :=
  let error := Str.lit "remote upload failed with status " ++ statusText status ++ Str.lit ": " ++ body
  if statusIsPermanent status then .permanent error else .transient error

/-! ## Retries -/

/-- The settings of `retry_transient`, in nanoseconds. -/
structure RetryPolicy where
  initialDelay : ℕ
  maxDelay : ℕ
  maxElapsed : ℕ
  deriving DecidableEq, Repr

/-- `MIN_RETRY_DELAY`: a millisecond. -/
def minRetryDelay : ℕ := 1000000

/-- What `retry_transient` has done so far: its result, once it returns, and the delays it has slept
for. -/
structure RetryRun (α : Type) where
  result : Option (Except Str α)
  slept : List ℕ

/-- The loop of `retry_transient`, given the results of the attempts and the time that has elapsed
after each. A product that overflows is beyond the maximal delay as well. -/
def retryLoop {α : Type} (maxDelay maxElapsed : ℕ) :
    ℕ → List (Except UploadError α × ℕ) → RetryRun α
  | _, [] => ⟨none, []⟩
  | delay, (outcome, elapsed) :: attempts =>
      match outcome with
      | .ok value => ⟨some (.ok value), []⟩
      | .error (.permanent error) => ⟨some (.error error), []⟩
      | .error (.transient error) =>
          if maxElapsed ≤ elapsed then ⟨some (.error error), []⟩
          else
            let run := retryLoop maxDelay maxElapsed (min (2 * delay) maxDelay) attempts
            { run with slept := min delay (maxElapsed - elapsed) :: run.slept }

/-- `retry_transient`. -/
def retryTransient {α : Type} (policy : RetryPolicy) (attempts : List (Except UploadError α × ℕ)) :
    RetryRun α :=
  let delay := max policy.initialDelay minRetryDelay
  retryLoop (max policy.maxDelay delay) policy.maxElapsed delay attempts

/-- A value that is returned is the value of an attempt. -/
theorem mem_of_retryTransient {α : Type} {policy : RetryPolicy}
    {attempts : List (Except UploadError α × ℕ)} {value : α}
    (h : (retryTransient policy attempts).result = some (.ok value)) :
    ∃ attempt ∈ attempts, attempt.1 = .ok value := by
  have hloop : ∀ maxDelay maxElapsed (attempts : List (Except UploadError α × ℕ)) delay,
      (retryLoop maxDelay maxElapsed delay attempts).result = some (.ok value) →
        ∃ attempt ∈ attempts, attempt.1 = .ok value := by
    intro maxDelay maxElapsed attempts delay
    induction attempts generalizing delay with
    | nil =>
        intro hnone
        cases hnone
    | cons attempt attempts ih =>
        obtain ⟨outcome, elapsed⟩ := attempt
        intro hresult
        cases outcome with
        | ok value' =>
            cases hresult
            exact ⟨_, List.mem_cons_self, rfl⟩
        | error e =>
            cases e with
            | permanent error => cases hresult
            | transient error =>
                simp only [retryLoop] at hresult
                split_ifs at hresult
                · cases hresult
                · obtain ⟨attempt, hattempt, hvalue⟩ := ih _ hresult
                  exact ⟨attempt, List.mem_cons_of_mem _ hattempt, hvalue⟩
  exact hloop _ _ _ _ h

/-! ## Replies -/

/-- A reply: its status, and its body if it can be read. -/
structure HttpReply where
  status : ℕ
  body : Option Str
  deriving DecidableEq, Repr

/-- `StatusCode::is_success`. -/
def HttpReply.isSuccess (r : HttpReply) : Bool := 200 ≤ r.status && r.status < 300

/-- One attempt: the text of its clock, the reply to its request if there is one, and the time that
has elapsed when it ends. -/
structure Attempt where
  uploadedAt : Str
  respond : Json → Option HttpReply
  elapsed : ℕ

/-- The libraries that the engines use to read replies: how a status is printed and how a text is
parsed as JSON. -/
structure HttpLib where
  statusText : ℕ → Str
  parseJson : Str → Option Json

/-! ## Responses with two lists -/

/-- A response: the records accepted and the records failed. -/
structure TwoLists (α : Type) where
  accepted : List α
  failed : List α
  deriving DecidableEq, Repr

/-- A field of type `Vec<T>` with `#[serde(default)]`: `null` is not a list, and a field that is
repeated is an error. -/
def vecField {α : Type} (element : Json → Option α) (name : String) (fields : List (Str × Json)) :
    Option (List α) :=
  match fields.filter fun f => f.1 = Str.lit name with
  | [] => some []
  | [(_, .arr xs)] => xs.mapM element
  | _ => none

/-- An element of a sequence that stands for a struct, where one is left. -/
def vecElement {α : Type} (element : Json → Option α) : Option Json → Option (List α)
  | none => some []
  | some (.arr xs) => xs.mapM element
  | some _ => none

/-- Derived `Deserialize` of a struct with two such fields, which an object or a sequence may stand
for. -/
def decodeTwoLists {α : Type} (element : Json → Option α) (accepted failed : String) :
    Json → Option (TwoLists α)
  | .obj fields => do
      let accepted ← vecField element accepted fields
      let failed ← vecField element failed fields
      return ⟨accepted, failed⟩
  | .arr xs =>
      if 2 < xs.length then none
      else do
        let accepted ← vecElement element xs[0]?
        let failed ← vecElement element xs[1]?
        return ⟨accepted, failed⟩
  | _ => none

/-- The response that leaves it open which records were accepted. -/
def TwoLists.silent {α : Type} (r : TwoLists α) : Bool := r.accepted.isEmpty && r.failed.isEmpty

/-- What an engine takes as accepted: the accepted list, or the whole batch if both lists are
empty. -/
def TwoLists.acceptedFrom {α : Type} (r : TwoLists α) (batch : List α) : List α :=
  if r.silent then batch else r.accepted

end WeighingSync.Engine
