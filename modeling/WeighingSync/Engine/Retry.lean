import WeighingSync.Engine.Upload

/-!
# Retries

`retry_transient` of `src/sync/retry.rs` with its durations, which are bounded. On every clock that a
sleep advances by what was asked for, it ends after a bounded number of calls, with the result of the
last of them (`retry_ends`). No duration it computes differs from the exact one (`retry_exact`).
-/

namespace WeighingSync.Engine

open Go

/-! ## Durations -/

/-- `Duration`, in nanoseconds: its seconds have 64 bits. -/
structure Duration where
  nanos : ℕ
  lt : nanos < 2 ^ 64 * 10 ^ 9

theorem minRetryDelay_lt : minRetryDelay < 2 ^ 64 * 10 ^ 9 := by decide

theorem saturatingSub_lt (a b : Duration) : a.nanos - b.nanos < 2 ^ 64 * 10 ^ 9 :=
  lt_of_le_of_lt (Nat.sub_le _ _) a.lt

/-- `MIN_RETRY_DELAY`. -/
def Duration.minRetryDelay : Duration := ⟨Engine.minRetryDelay, minRetryDelay_lt⟩

/-- `max` and `min`. -/
def Duration.max (a b : Duration) : Duration := if a.nanos ≤ b.nanos then b else a
def Duration.min (a b : Duration) : Duration := if a.nanos ≤ b.nanos then a else b

/-- `checked_mul(2)`. -/
def Duration.checkedDouble (a : Duration) : Option Duration :=
  if h : 2 * a.nanos < 2 ^ 64 * 10 ^ 9 then some ⟨2 * a.nanos, h⟩ else none

/-- `saturating_sub`. -/
def Duration.saturatingSub (a b : Duration) : Duration := ⟨a.nanos - b.nanos, saturatingSub_lt a b⟩

@[simp] theorem Duration.nanos_max (a b : Duration) :
    (a.max b).nanos = Max.max a.nanos b.nanos := by
  rw [Duration.max]
  split_ifs <;> omega

@[simp] theorem Duration.nanos_min (a b : Duration) :
    (a.min b).nanos = Min.min a.nanos b.nanos := by
  rw [Duration.min]
  split_ifs <;> omega

/-- A product that overflows is beyond every bound. -/
theorem Duration.nanos_double (a bound : Duration) :
    ((a.checkedDouble.getD bound).min bound).nanos = Min.min (2 * a.nanos) bound.nanos := by
  have hbound := bound.lt
  rw [Duration.nanos_min, Duration.checkedDouble]
  split_ifs with h
  · rfl
  · rw [Option.getD_none]
    omega

/-! ## The loop -/

/-- An attempt: the result of the operation, and `started_at.elapsed()` when it is back. -/
abbrev Timed (α : Type) := Except UploadError α × Duration

/-- The loop of `retry_transient` over the attempts it makes: what it returns, if it does, and the
durations it sleeps for. -/
def retryDurations {α : Type} (maxDelay maxElapsed : Duration) :
    Duration → List (Timed α) → Option (Except Str α) × List Duration
  | _, [] => (none, [])
  | delay, (outcome, elapsed) :: attempts =>
      match outcome with
      | .ok value => (some (.ok value), [])
      | .error (.permanent error) => (some (.error error), [])
      | .error (.transient error) =>
          if maxElapsed.nanos ≤ elapsed.nanos then (some (.error error), [])
          else
            let sleepFor := delay.min (maxElapsed.saturatingSub elapsed)
            let run := retryDurations maxDelay maxElapsed
              ((delay.checkedDouble.getD maxDelay).min maxDelay) attempts
            (run.1, sleepFor :: run.2)

/-- The arguments of `retry_transient`. -/
structure RetrySettings where
  initialDelay : Duration
  maxDelay : Duration
  maxElapsed : Duration

namespace RetrySettings

/-- The first delay. -/
def firstDelay (settings : RetrySettings) : Duration :=
  settings.initialDelay.max Duration.minRetryDelay

/-- `retry_transient`. -/
def retry {α : Type} (settings : RetrySettings) (attempts : List (Timed α)) :
    Option (Except Str α) × List Duration :=
  retryDurations (settings.maxDelay.max settings.firstDelay) settings.maxElapsed settings.firstDelay
    attempts

/-- The settings without bounds on durations. -/
def policy (settings : RetrySettings) : RetryPolicy where
  initialDelay := settings.initialDelay.nanos
  maxDelay := settings.maxDelay.nanos
  maxElapsed := settings.maxElapsed.nanos

end RetrySettings

/-- No duration overflows: the loop does what it does with unbounded ones. -/
theorem retry_exact {α : Type} (settings : RetrySettings) (attempts : List (Timed α)) :
    (settings.retry attempts).1 =
        (retryTransient settings.policy (attempts.map fun a => (a.1, a.2.nanos))).result ∧
      (settings.retry attempts).2.map Duration.nanos =
        (retryTransient settings.policy (attempts.map fun a => (a.1, a.2.nanos))).slept := by
  have hloop : ∀ (maxDelay maxElapsed : Duration) (attempts : List (Timed α)) (delay : Duration),
      (retryDurations maxDelay maxElapsed delay attempts).1 = (retryLoop maxDelay.nanos
          maxElapsed.nanos delay.nanos (attempts.map fun a => (a.1, a.2.nanos))).result ∧
        (retryDurations maxDelay maxElapsed delay attempts).2.map Duration.nanos =
          (retryLoop maxDelay.nanos maxElapsed.nanos delay.nanos
            (attempts.map fun a => (a.1, a.2.nanos))).slept := by
    intro maxDelay maxElapsed attempts
    induction attempts with
    | nil => exact fun _ => ⟨rfl, rfl⟩
    | cons attempt attempts ih =>
        intro delay
        obtain ⟨outcome, elapsed⟩ := attempt
        rcases outcome with (error | error) | value
        · rw [List.map_cons, retryDurations, retryLoop]
          simp only
          split_ifs with hspent
          · exact ⟨rfl, rfl⟩
          · obtain ⟨hresult, hslept⟩ := ih ((delay.checkedDouble.getD maxDelay).min maxDelay)
            rw [Duration.nanos_double] at hresult hslept
            refine ⟨hresult, ?_⟩
            rw [List.map_cons, hslept, Duration.nanos_min]
            rfl
        · exact ⟨rfl, rfl⟩
        · exact ⟨rfl, rfl⟩
  have hsettings := hloop (settings.maxDelay.max settings.firstDelay) settings.maxElapsed attempts
    settings.firstDelay
  rw [Duration.nanos_max, RetrySettings.firstDelay, Duration.nanos_max] at hsettings
  exact hsettings

/-! ## Runs of the loop -/

section

variable {α : Type} (firstDelay maxDelay maxElapsed : ℕ) (x : ℕ → Except UploadError α × ℕ)

/-- After this attempt the loop goes on: the error is transient, and the budget is not spent. -/
def GoesOn (i : ℕ) : Prop := (∃ error, (x i).1 = .error (.transient error)) ∧ (x i).2 < maxElapsed

/-- The delay after this many attempts. -/
def delayAt (i : ℕ) : ℕ := min (firstDelay * 2 ^ i) maxDelay

/-- The sleep after an attempt: the delay, cut to the budget that remains. -/
def sleepAt (i : ℕ) : ℕ := min (delayAt firstDelay maxDelay i) (maxElapsed - (x i).2)

/-- What the last attempt makes of the loop. -/
def Final (attempt : Except UploadError α × ℕ) (result : Except Str α) : Prop :=
  match attempt.1 with
  | .ok value => result = .ok value
  | .error (.permanent error) => result = .error error
  | .error (.transient error) => result = .error error ∧ maxElapsed ≤ attempt.2

variable {firstDelay maxDelay maxElapsed x}

theorem delayAt_succ (i : ℕ) :
    min (2 * delayAt firstDelay maxDelay i) maxDelay = delayAt firstDelay maxDelay (i + 1) := by
  have hpow : firstDelay * 2 ^ (i + 1) = 2 * (firstDelay * 2 ^ i) := by ring
  rw [delayAt, delayAt, hpow]
  omega

theorem firstDelay_le_delayAt (h : firstDelay ≤ maxDelay) (i : ℕ) :
    firstDelay ≤ delayAt firstDelay maxDelay i :=
  le_min (Nat.le_mul_of_pos_right _ (Nat.pow_pos (by decide))) h

variable (firstDelay maxDelay) in
/-- As long as the loop goes on, it sleeps and doubles its delay. -/
theorem retryLoop_range (i m : ℕ) (rest : List (Except UploadError α × ℕ))
    (h : ∀ j, i ≤ j → j < i + m → GoesOn maxElapsed x j) :
    (retryLoop maxDelay maxElapsed (delayAt firstDelay maxDelay i)
        ((List.range' i m).map x ++ rest)).result =
        (retryLoop maxDelay maxElapsed (delayAt firstDelay maxDelay (i + m)) rest).result ∧
      (retryLoop maxDelay maxElapsed (delayAt firstDelay maxDelay i)
        ((List.range' i m).map x ++ rest)).slept =
        (List.range' i m).map (sleepAt firstDelay maxDelay maxElapsed x) ++
          (retryLoop maxDelay maxElapsed (delayAt firstDelay maxDelay (i + m)) rest).slept := by
  induction m generalizing i with
  | zero => exact ⟨rfl, rfl⟩
  | succ m ih =>
      obtain ⟨⟨error, herror⟩, hspent⟩ := h i le_rfl (by omega)
      have hnext := ih (i + 1) fun j hj hlt => h j (by omega) (by omega)
      have hx : x i = (.error (.transient error), (x i).2) := Prod.ext herror rfl
      rw [List.range'_succ, List.map_cons, List.cons_append, hx, retryLoop]
      simp only [if_neg (not_le.mpr hspent), delayAt_succ]
      rw [show i + (m + 1) = i + 1 + m by omega]
      exact ⟨hnext.1, by rw [hnext.2]; rfl⟩

variable (maxDelay) in
/-- The attempt after which it does not go on ends it. -/
theorem retryLoop_final {i : ℕ} (h : ¬ GoesOn maxElapsed x i) (delay : ℕ) :
    ∃ result, retryLoop maxDelay maxElapsed delay [x i] = ⟨some result, []⟩ ∧
      Final maxElapsed (x i) result := by
  rcases hx : x i with ⟨outcome, elapsed⟩
  rcases outcome with (error | error) | value
  · have hspent : maxElapsed ≤ elapsed := by
      by_contra hlt
      refine h ⟨⟨error, by rw [hx]⟩, ?_⟩
      rw [hx]
      exact not_le.mp hlt
    exact ⟨.error error, by rw [retryLoop]; exact if_pos hspent, rfl, hspent⟩
  · exact ⟨.error error, rfl, rfl⟩
  · exact ⟨.ok value, rfl, rfl⟩

/-- The clock never goes back, and a sleep advances it by what was asked for, as long as the loop goes
on. -/
def Advances (firstDelay maxDelay maxElapsed : ℕ) (x : ℕ → Except UploadError α × ℕ) : Prop :=
  ∀ i, (∀ j ≤ i, GoesOn maxElapsed x j) →
    (x i).2 + sleepAt firstDelay maxDelay maxElapsed x i ≤ (x (i + 1)).2

/-- Before the last sleep none is cut: after a cut one the budget is spent. -/
theorem sleepAt_eq {i : ℕ} (hclock : Advances firstDelay maxDelay maxElapsed x)
    (h : ∀ j ≤ i + 1, GoesOn maxElapsed x j) :
    sleepAt firstDelay maxDelay maxElapsed x i = delayAt firstDelay maxDelay i := by
  have hstep := hclock i fun j hj => h j (by omega)
  have hnow := (h i (by omega)).2
  have hnext := (h (i + 1) le_rfl).2
  rw [sleepAt] at *
  omega

/-- The clock counts the sleeps. -/
theorem sum_sleepAt_le {n : ℕ} (hclock : Advances firstDelay maxDelay maxElapsed x)
    (h : ∀ j < n, GoesOn maxElapsed x j) :
    ((List.range n).map (sleepAt firstDelay maxDelay maxElapsed x)).sum ≤ (x n).2 := by
  induction n with
  | zero => exact Nat.zero_le _
  | succ n ih =>
      have hsum := ih fun j hj => h j (by omega)
      have hstep := hclock n fun j hj => h j (by omega)
      rw [List.range_succ, List.map_append, List.sum_append, List.map_singleton, List.sum_singleton]
      omega

/-- The sleeps stay within the budget. -/
theorem sum_sleepAt_le_maxElapsed {n : ℕ} (hclock : Advances firstDelay maxDelay maxElapsed x)
    (h : ∀ j < n, GoesOn maxElapsed x j) :
    ((List.range n).map (sleepAt firstDelay maxDelay maxElapsed x)).sum ≤ maxElapsed := by
  cases n with
  | zero => exact Nat.zero_le _
  | succ n =>
      have hsum : ((List.range n).map (sleepAt firstDelay maxDelay maxElapsed x)).sum ≤ (x n).2 :=
        sum_sleepAt_le hclock fun j hj => h j (by omega)
      have hspent := (h n (by omega)).2
      rw [List.range_succ, List.map_append, List.sum_append, List.map_singleton, List.sum_singleton]
      have hlast : sleepAt firstDelay maxDelay maxElapsed x n ≤ maxElapsed - (x n).2 := min_le_right _ _
      omega

/-- Every sleep but the last is at least the first delay. -/
theorem mul_firstDelay_le {n : ℕ} (hle : firstDelay ≤ maxDelay)
    (hclock : Advances firstDelay maxDelay maxElapsed x) (h : ∀ j ≤ n, GoesOn maxElapsed x j) :
    n * firstDelay ≤ (x n).2 := by
  induction n with
  | zero => omega
  | succ n ih =>
      have hn := ih fun j hj => h j (by omega)
      have hstep := hclock n fun j hj => h j (by omega)
      have hdelay : firstDelay ≤ delayAt firstDelay maxDelay n := firstDelay_le_delayAt hle n
      rw [sleepAt_eq hclock h] at hstep
      have hmul : (n + 1) * firstDelay = n * firstDelay + firstDelay := by ring
      omega

/-- So the loop goes on a bounded number of times. -/
theorem lt_of_goesOn {n : ℕ} (hpos : 0 < firstDelay) (hle : firstDelay ≤ maxDelay)
    (hclock : Advances firstDelay maxDelay maxElapsed x) (h : ∀ j ≤ n, GoesOn maxElapsed x j) :
    n ≤ maxElapsed / firstDelay := by
  have hmul := mul_firstDelay_le hle hclock h
  have hspent := (h n le_rfl).2
  exact (Nat.le_div_iff_mul_le hpos).mpr (by omega)

/-- There is a last attempt. -/
theorem exists_last (hpos : 0 < firstDelay) (hle : firstDelay ≤ maxDelay)
    (hclock : Advances firstDelay maxDelay maxElapsed x) :
    ∃ n ≤ maxElapsed / firstDelay + 1, ¬ GoesOn maxElapsed x n ∧ ∀ j < n, GoesOn maxElapsed x j := by
  classical
  have hstop : ∃ n, ¬ GoesOn maxElapsed x n := by
    by_contra hall
    push Not at hall
    have hlt := lt_of_goesOn (n := maxElapsed / firstDelay + 1) hpos hle hclock fun j _ => hall j
    omega
  have hbefore : ∀ j < Nat.find hstop, GoesOn maxElapsed x j := fun j hj =>
    not_not.mp (Nat.find_min hstop hj)
  refine ⟨Nat.find hstop, ?_, Nat.find_spec hstop, hbefore⟩
  by_contra hlt
  have hn := lt_of_goesOn (n := maxElapsed / firstDelay + 1) hpos hle hclock fun j hj =>
    hbefore j (by omega)
  omega

end

/-! ## What `retry_transient` does -/

namespace RetrySettings

variable {α : Type} (settings : RetrySettings) (attempts : ℕ → Timed α)

/-- The largest delay. -/
def largestDelay : Duration := settings.maxDelay.max settings.firstDelay

/-- What `retry_transient` has done after so many attempts. -/
def after (calls : ℕ) : Option (Except Str α) × List Duration :=
  settings.retry ((List.range calls).map attempts)

/-- The clock of the attempts: where a sleep is asked for after an attempt, the clock has gone on by it
at least when the next attempt is back. -/
def OnClock : Prop :=
  ∀ i, ∀ sleep ∈ (settings.after attempts (i + 1)).2[i]?,
    (attempts i).2.nanos + sleep.nanos ≤ (attempts (i + 1)).2.nanos

/-- `retry_transient` ends after this many sleeps, with this result. -/
structure Ends (sleeps : ℕ) (result : Except Str α) (slept : List Duration) : Prop where
  /-- It returns after one more call than it sleeps, and not before. -/
  returns : settings.after attempts (sleeps + 1) = (some result, slept)
  continues : ∀ calls ≤ sleeps, (settings.after attempts calls).1 = none
  calls_le : sleeps + 1 ≤ 2 + settings.maxElapsed.nanos / settings.firstDelay.nanos
  /-- The calls before the last one fail transiently, and the last one decides the result. -/
  transient : ∀ i < sleeps, ∃ error, (attempts i).1 = .error (.transient error)
  result : match (attempts sleeps).1 with
    | .ok value => result = .ok value
    | .error (.permanent error) => result = .error error
    | .error (.transient error) =>
        result = .error error ∧ settings.maxElapsed.nanos ≤ (attempts sleeps).2.nanos
  /-- The sleeps are the delays, the last one cut to the budget that remains. -/
  length_slept : slept.length = sleeps
  delay : ∀ i, i + 1 < sleeps → ∀ sleep ∈ slept[i]?,
    sleep.nanos = min (settings.firstDelay.nanos * 2 ^ i) settings.largestDelay.nanos
  last_delay : ∀ i, i + 1 = sleeps → ∀ sleep ∈ slept[i]?,
    sleep.nanos = min (min (settings.firstDelay.nanos * 2 ^ i) settings.largestDelay.nanos)
      (settings.maxElapsed.nanos - (attempts i).2.nanos)
  sum_le : (slept.map Duration.nanos).sum ≤ settings.maxElapsed.nanos
  /-- No duration overflows: with unbounded ones it sleeps the same. -/
  exact : ∀ calls, (settings.after attempts calls).2.map Duration.nanos =
    (retryTransient settings.policy
      ((List.range calls).map fun i => ((attempts i).1, (attempts i).2.nanos))).slept

variable {settings attempts}

/-- The attempts with their readings as numbers. -/
def readings (attempts : ℕ → Timed α) (i : ℕ) : Except UploadError α × ℕ :=
  ((attempts i).1, (attempts i).2.nanos)

theorem firstDelay_pos : 0 < settings.firstDelay.nanos := by
  rw [firstDelay, Duration.nanos_max]
  exact lt_max_of_lt_right (by decide)

theorem firstDelay_le : settings.firstDelay.nanos ≤ settings.largestDelay.nanos := by
  rw [largestDelay, Duration.nanos_max]
  exact le_max_right _ _

variable (settings attempts) in
/-- What has been done after some attempts, in numbers. -/
theorem after_eq (calls : ℕ) :
    (settings.after attempts calls).1 = (retryLoop settings.largestDelay.nanos
        settings.maxElapsed.nanos (delayAt settings.firstDelay.nanos settings.largestDelay.nanos 0)
        ((List.range' 0 calls).map (readings attempts))).result ∧
      (settings.after attempts calls).2.map Duration.nanos = (retryLoop settings.largestDelay.nanos
        settings.maxElapsed.nanos (delayAt settings.firstDelay.nanos settings.largestDelay.nanos 0)
        ((List.range' 0 calls).map (readings attempts))).slept := by
  have hfirst : delayAt settings.firstDelay.nanos settings.largestDelay.nanos 0 =
      settings.firstDelay.nanos := by
    rw [delayAt, pow_zero, mul_one]
    exact min_eq_left firstDelay_le
  have hexact := retry_exact settings ((List.range calls).map attempts)
  rw [List.map_map, retryTransient] at hexact
  rw [hfirst, after, ← List.range_eq_range', largestDelay, firstDelay, Duration.nanos_max,
    Duration.nanos_max]
  exact hexact

/-- As long as the attempts let it go on, it does not return. -/
theorem after_of_goesOn (calls : ℕ)
    (h : ∀ j < calls, GoesOn settings.maxElapsed.nanos (readings attempts) j) :
    (settings.after attempts calls).1 = none ∧
      (settings.after attempts calls).2.map Duration.nanos = (List.range calls).map
        (sleepAt settings.firstDelay.nanos settings.largestDelay.nanos settings.maxElapsed.nanos
          (readings attempts)) := by
  obtain ⟨hresult, hslept⟩ := after_eq settings attempts calls
  obtain ⟨hresult', hslept'⟩ := retryLoop_range settings.firstDelay.nanos settings.largestDelay.nanos
    0 calls [] fun j _ hj => h j (by omega)
  rw [List.append_nil] at hresult' hslept'
  rw [hresult, hslept, hresult', hslept', List.range_eq_range']
  exact ⟨rfl, List.append_nil _⟩

/-- With the attempt that ends it, it returns. -/
theorem after_of_last {n : ℕ}
    (h : ∀ j < n, GoesOn settings.maxElapsed.nanos (readings attempts) j)
    (hlast : ¬ GoesOn settings.maxElapsed.nanos (readings attempts) n) :
    ∃ result, (settings.after attempts (n + 1)).1 = some result ∧
      Final settings.maxElapsed.nanos (readings attempts n) result ∧
      (settings.after attempts (n + 1)).2.map Duration.nanos = (List.range n).map
        (sleepAt settings.firstDelay.nanos settings.largestDelay.nanos settings.maxElapsed.nanos
          (readings attempts)) := by
  obtain ⟨hresult, hslept⟩ := after_eq settings attempts (n + 1)
  obtain ⟨hresult', hslept'⟩ := retryLoop_range settings.firstDelay.nanos settings.largestDelay.nanos
    0 n [readings attempts n] fun j _ hj => h j (by omega)
  obtain ⟨result, hfinal, hends⟩ := retryLoop_final settings.largestDelay.nanos hlast
    (delayAt settings.firstDelay.nanos settings.largestDelay.nanos (0 + n))
  have hattempts : (List.range' 0 (n + 1)).map (readings attempts) =
      (List.range' 0 n).map (readings attempts) ++ [readings attempts n] := by
    rw [← List.range_eq_range', ← List.range_eq_range', List.range_succ, List.map_append]
    rfl
  rw [hattempts] at hresult hslept
  rw [hfinal] at hresult' hslept'
  refine ⟨result, hresult.trans hresult', hends, ?_⟩
  rw [hslept, hslept', List.append_nil, List.range_eq_range']

theorem nanos_of_getElem? {slept : List Duration} {n : ℕ} {f : ℕ → ℕ}
    (h : slept.map Duration.nanos = (List.range n).map f) {i : ℕ} {sleep : Duration}
    (hsleep : slept[i]? = some sleep) : i < n ∧ sleep.nanos = f i := by
  have hi := congrArg (fun l : List ℕ => l[i]?) h
  simp only [List.getElem?_map, hsleep, Option.map_some] at hi
  obtain ⟨j, hj, hf⟩ := Option.map_eq_some_iff.mp hi.symm
  obtain ⟨hlt, rfl⟩ := List.getElem?_eq_some_iff.mp hj
  rw [List.length_range] at hlt
  rw [List.getElem_range] at hf
  exact ⟨hlt, hf.symm⟩

/-- A clock that the sleeps advance advances by the sleeps of the loop. -/
theorem OnClock.advances (h : settings.OnClock attempts) :
    Advances settings.firstDelay.nanos settings.largestDelay.nanos settings.maxElapsed.nanos
      (readings attempts) := by
  intro i hgoes
  have hslept := (after_of_goesOn (i + 1)
    fun j hj => hgoes j (by omega)).2
  have hlength := congrArg List.length hslept
  rw [List.length_map, List.length_map, List.length_range] at hlength
  have hsleep := List.getElem?_eq_getElem (l := (settings.after attempts (i + 1)).2) (i := i)
    (by omega)
  have hstep := h i _ hsleep
  rw [(nanos_of_getElem? hslept hsleep).2] at hstep
  exact hstep

/-- On every clock that the sleeps advance, `retry_transient` ends. -/
theorem retry_ends (h : settings.OnClock attempts) :
    ∃ sleeps result slept, settings.Ends attempts sleeps result slept := by
  have hclock := h.advances
  obtain ⟨n, hn, hlast, hgoes⟩ := exists_last firstDelay_pos firstDelay_le hclock
  obtain ⟨result, hreturns, hfinal, hslept⟩ := after_of_last hgoes hlast
  refine ⟨n, result, (settings.after attempts (n + 1)).2, ?_⟩
  exact {
    returns := Prod.ext hreturns rfl
    continues := fun calls hcalls => (after_of_goesOn calls fun j hj => hgoes j (by omega)).1
    calls_le := by omega
    transient := fun i hi => (hgoes i hi).1
    result := hfinal
    length_slept := by
      have hlength := congrArg List.length hslept
      rwa [List.length_map, List.length_map, List.length_range] at hlength
    delay := by
      intro i hi sleep hsleep
      rw [(nanos_of_getElem? hslept hsleep).2]
      exact sleepAt_eq hclock fun j hj => hgoes j (by omega)
    last_delay := fun i _ sleep hsleep => (nanos_of_getElem? hslept hsleep).2
    sum_le := by
      rw [hslept]
      exact sum_sleepAt_le_maxElapsed hclock hgoes
    exact := by
      intro calls
      have hexact := (retry_exact settings ((List.range calls).map attempts)).2
      rwa [List.map_map] at hexact }

end RetrySettings

/-! ## Two failures and a success -/

theorem milliseconds_lt (n : ℕ) : min n 1000 * 1000000 < 2 ^ 64 * 10 ^ 9 := by omega

/-- Milliseconds, up to a second. -/
def milliseconds (n : ℕ) : Duration := ⟨min n 1000 * 1000000, milliseconds_lt n⟩

/-- The settings of a test, and an operation that succeeds when it is called for the third time. -/
def testSettings : RetrySettings where
  initialDelay := milliseconds 1
  maxDelay := milliseconds 2
  maxElapsed := milliseconds 50
def testAttempts (i : ℕ) : Timed Str :=
  (if i < 2 then .error (.transient (Str.lit "try again")) else .ok (Str.lit "done"),
    milliseconds (10 * i))

theorem onClock_test : testSettings.OnClock testAttempts := by
  intro i sleep hsleep
  rcases i with _ | _ | i
  · have hfirst : (testSettings.after testAttempts 1).2[0]? = some (milliseconds 1) := rfl
    rw [hfirst] at hsleep
    cases hsleep
    decide
  · have hsecond : (testSettings.after testAttempts 2).2[1]? = some (milliseconds 2) := rfl
    rw [hsecond] at hsleep
    cases hsleep
    decide
  · have hattempts : (List.range (i + 2 + 1)).map testAttempts = testAttempts 0 :: testAttempts 1 ::
        testAttempts 2 :: (List.range i).map fun j => testAttempts (j + 3) := by
      rw [List.range_succ_eq_map, List.range_succ_eq_map, List.range_succ_eq_map]
      simp [Function.comp_def]
    have hslept : (testSettings.after testAttempts (i + 2 + 1)).2 =
        [milliseconds 1, milliseconds 2] := by
      rw [RetrySettings.after, hattempts]
      rfl
    rw [hslept] at hsleep
    cases hsleep

theorem retry_ends_test :
    ∃ sleeps result slept, testSettings.Ends testAttempts sleeps result slept :=
  RetrySettings.retry_ends onClock_test

end WeighingSync.Engine
