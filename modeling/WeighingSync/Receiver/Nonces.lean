import WeighingSync.Common.Transition
import WeighingSync.Receiver.Signature

/-!
# Replays

A run of the receiver verifies any number of requests at once. A step reads the clock for one of
them, or lets one of them use the nonce store, or lets time pass. A nonce is kept until the window of
its timestamp has closed, so it keeps a second request out as long as no request uses the store later
than that (`accepted_nodup`).
-/

namespace WeighingSync.Receiver

open Go

/-- A request that is being verified, with its readings of the clock so far. -/
structure Verification where
  secret : Bytes
  request : Request
  body : Bytes
  sinceNow : Option Instant
  untilNow : Option Instant

/-- The clock, the nonces, the requests under way, and the timestamp and nonce of each request that
was accepted. -/
structure RunState where
  now : Instant
  nonces : NonceStore
  pending : List Verification
  accepted : List (ℤ × Bytes)

/-- What can happen: time passes, a request arrives, `time.Since` or `time.Until` reads the clock for
a request, or `nonceStore.Add` does. -/
inductive RunAction
  | tick (d : ℕ)
  | arrive (secret : Bytes) (request : Request) (body : Bytes)
  | readSince (i : ℕ)
  | readUntil (i : ℕ)
  | add (i : ℕ)

section

variable (crypto : Crypto) (skew : ℤ)

/-- The timestamp and the nonce that a request is signed with. -/
def Request.stamp (r : Request) : ℤ × Bytes := ((atoi r.timestamp).getD 0, r.nonce.bytes)

/-- One step of a run. -/
def runStep (s : RunState) : RunAction → Option RunState
  | .tick d => some { s with now := s.now + d }
  | .arrive secret request body =>
      some { s with pending := s.pending ++ [⟨secret, request, body, none, none⟩] }
  | .readSince i =>
      (s.pending[i]?.filter fun v => v.sinceNow.isNone).map fun v =>
        { s with pending := s.pending.set i { v with sinceNow := some s.now } }
  | .readUntil i =>
      (s.pending[i]?.filter fun v => v.sinceNow.isSome && v.untilNow.isNone).map fun v =>
        { s with pending := s.pending.set i { v with untilNow := some s.now } }
  | .add i => do
      let v ← s.pending[i]?
      let sinceNow ← v.sinceNow
      let untilNow ← v.untilNow
      let result := verifySignature crypto skew v.secret v.request v.body sinceNow untilNow s.now s.nonces
      return { s with
        nonces := result.2
        pending := s.pending.eraseIdx i
        accepted := if result.1 = none then v.request.stamp :: s.accepted else s.accepted }

/-- A server that has just started, at any time. -/
def server : System RunState RunAction where
  init s := s.nonces = [] ∧ s.pending = [] ∧ s.accepted = []
  step := runStep crypto skew

/-- A request that has passed the checks before it reaches the nonce store before the window of its
timestamp has closed. -/
def AddsInWindow (s : RunState) : RunAction → Prop
  | .add i => ∀ v ∈ s.pending[i]?, ∀ sinceNow ∈ v.sinceNow, ∀ untilNow ∈ v.untilNow,
      (checkSignature crypto skew v.secret v.request v.body sinceNow untilNow).isOk = true →
        s.now ≤ unixTime v.request.stamp.1 + skew
  | _ => True

instance (s : RunState) : DecidablePred (AddsInWindow crypto skew s)
  | .add i => inferInstanceAs (Decidable (∀ v ∈ s.pending[i]?, ∀ sinceNow ∈ v.sinceNow,
      ∀ untilNow ∈ v.untilNow,
        (checkSignature crypto skew v.secret v.request v.body sinceNow untilNow).isOk = true →
          s.now ≤ unixTime v.request.stamp.1 + skew))
  | .tick _ | .arrive _ _ _ | .readSince _ | .readUntil _ => isTrue trivial

/-- What a request is found to be signed with is its timestamp and its nonce. -/
theorem checkSignature_eq_ok {secret : Bytes} {r : Request} {body : Bytes} {sinceNow untilNow : Instant}
    {p : ℤ × Bytes} (h : checkSignature crypto skew secret r body sinceNow untilNow = .ok p) :
    p = r.stamp := by
  unfold checkSignature at h
  split_ifs at h
  split at h
  · cases h
  · next ts hts =>
    split_ifs at h
    split at h
    · cases h
    · simp only at h
      split_ifs at h
      cases h
      rw [Request.stamp, hts, Option.getD_some]

/-- What one step does to the clock, the nonces and the accepted requests. -/
inductive RunStepped (s : RunState) (a : RunAction) (s' : RunState) : Prop
  | quiet (hnow : s.now ≤ s'.now) (hnonces : s'.nonces = s.nonces) (haccepted : s'.accepted = s.accepted)
  | replayed (hnow : s'.now = s.now) (hnonces : s'.nonces = s.nonces.purge s.now)
      (haccepted : s'.accepted = s.accepted)
  | fresh (ts : ℤ) (nonce : Bytes)
      (hwindow : AddsInWindow crypto skew s a → s.now ≤ unixTime ts + skew)
      (hfresh : nonce ∉ (s.nonces.purge s.now).map Prod.fst) (hnow : s'.now = s.now)
      (hnonces : s'.nonces = (nonce, unixTime ts + skew) :: s.nonces.purge s.now)
      (haccepted : s'.accepted = (ts, nonce) :: s.accepted)

variable {crypto skew}

theorem runStepped_of_step {s s' : RunState} {a : RunAction} (h : runStep crypto skew s a = some s') :
    RunStepped crypto skew s a s' := by
  cases a with
  | tick d =>
      cases h
      exact .quiet (by simp) rfl rfl
  | arrive secret request body =>
      cases h
      exact .quiet (le_refl _) rfl rfl
  | readSince i =>
      obtain ⟨v, -, rfl⟩ := Option.map_eq_some_iff.mp h
      exact .quiet (le_refl _) rfl rfl
  | readUntil i =>
      obtain ⟨v, -, rfl⟩ := Option.map_eq_some_iff.mp h
      exact .quiet (le_refl _) rfl rfl
  | add i =>
      obtain ⟨v, hv, h⟩ := Option.bind_eq_some_iff.mp h
      obtain ⟨sinceNow, hsince, h⟩ := Option.bind_eq_some_iff.mp h
      obtain ⟨untilNow, huntil, h⟩ := Option.bind_eq_some_iff.mp h
      cases hcheck : checkSignature crypto skew v.secret v.request v.body sinceNow untilNow with
      | error message =>
          have hverify : verifySignature crypto skew v.secret v.request v.body sinceNow untilNow s.now
              s.nonces = (some message, s.nonces) := by rw [verifySignature, hcheck]
          simp only [hverify] at h
          cases h
          exact .quiet (le_refl _) rfl rfl
      | ok p =>
          have hwindow : AddsInWindow crypto skew s (.add i) → s.now ≤ unixTime p.1 + skew := by
            intro hok
            rw [checkSignature_eq_ok _ _ hcheck]
            exact hok v hv sinceNow hsince untilNow huntil (by rw [hcheck]; rfl)
          -- the store forgets what has expired before it looks
          by_cases hmem : p.2 ∈ (s.nonces.purge s.now).map Prod.fst
          · have hverify : verifySignature crypto skew v.secret v.request v.body sinceNow untilNow s.now
                s.nonces = (some (Str.lit "nonce already used"), s.nonces.purge s.now) := by
              rw [verifySignature, hcheck]
              simp only [NonceStore.add, if_pos hmem]
            simp only [hverify] at h
            cases h
            exact .replayed rfl rfl rfl
          · have hverify : verifySignature crypto skew v.secret v.request v.body sinceNow untilNow s.now
                s.nonces = (none, (p.2, unixTime p.1 + skew) :: s.nonces.purge s.now) := by
              rw [verifySignature, hcheck]
              simp only [NonceStore.add, if_neg hmem]
            simp only [hverify] at h
            cases h
            refine .fresh p.1 p.2 hwindow hmem rfl rfl ?_
            rw [checkSignature_eq_ok _ _ hcheck]
            rfl

/-! ## The invariant -/

/-- The nonce of an accepted request is in the store until the window of its timestamp has closed, and
no request was accepted twice. -/
structure NoReplay (skew : ℤ) (s : RunState) : Prop where
  kept : ∀ p ∈ s.accepted, s.now ≤ unixTime p.1 + skew → (p.2, unixTime p.1 + skew) ∈ s.nonces
  nodup : s.accepted.Nodup

/-- What has not expired is not deleted. -/
theorem mem_purge {nonces : NonceStore} {now : Instant} {item : Bytes × Instant} :
    item ∈ nonces.purge now ↔ item ∈ nonces ∧ now ≤ item.2 := by
  simp [NonceStore.purge, List.mem_filter]

theorem noReplay_step {s s' : RunState} {a : RunAction} (h : NoReplay skew s)
    (hstep : runStep crypto skew s a = some s') (hok : AddsInWindow crypto skew s a) :
    NoReplay skew s' := by
  cases runStepped_of_step hstep with
  | quiet hnow hnonces haccepted =>
      refine ⟨fun p hp hle => ?_, haccepted ▸ h.nodup⟩
      rw [haccepted] at hp
      rw [hnonces]
      exact h.kept p hp (hnow.trans hle)
  | replayed hnow hnonces haccepted =>
      refine ⟨fun p hp hle => ?_, haccepted ▸ h.nodup⟩
      rw [haccepted] at hp
      rw [hnow] at hle
      rw [hnonces]
      exact mem_purge.mpr ⟨h.kept p hp hle, hle⟩
  | fresh ts nonce hwindow hfresh hnow hnonces haccepted =>
      refine ⟨fun p hp hle => ?_, ?_⟩
      · rw [hnow] at hle
        rw [hnonces]
        rw [haccepted] at hp
        rcases List.mem_cons.mp hp with rfl | hp
        · exact List.mem_cons_self
        · exact List.mem_cons_of_mem _ (mem_purge.mpr ⟨h.kept p hp hle, hle⟩)
      · -- had it been accepted before, its nonce would still be in the store
        rw [haccepted, List.nodup_cons]
        refine ⟨fun hmem => hfresh ?_, h.nodup⟩
        have hkept := h.kept _ hmem (hwindow hok)
        exact List.mem_map.mpr ⟨_, mem_purge.mpr ⟨hkept, hwindow hok⟩, rfl⟩

/-- In a run in which no properly signed request reaches the nonce store after the window of its
timestamp has closed, no pair of timestamp and nonce is accepted twice. -/
theorem accepted_nodup {s : RunState}
    (h : (server crypto skew).ReachedBy (AddsInWindow crypto skew) s) : s.accepted.Nodup := by
  have hrun : NoReplay skew s := by
    refine h.invariant (I := NoReplay skew) (fun s hs => ?_) fun s a s' hs hstep hok =>
      noReplay_step hs hstep hok
    obtain ⟨-, -, haccepted⟩ := hs
    refine ⟨fun p hp => ?_, ?_⟩
    · rw [haccepted] at hp
      cases hp
    · rw [haccepted]
      exact List.nodup_nil
  exact hrun.nodup

/-! ## The last moment of the window -/

/-- Five minutes. -/
def defaultSkew : ℤ := 300 * 10 ^ 9

/-- A server that starts at the last moment of the window of the sample request. -/
def lastMoment : RunState := ⟨1787846400 * 10 ^ 9 + defaultSkew, [], [], []⟩

/-- The verification of the sample request. -/
def sampleSteps (late : ℕ) : List RunAction :=
  [.arrive (bytesOf "secret") sampleRequest [], .readSince 0, .readUntil 0, .tick late, .add 0]

theorem accepted_nodup_once : ∃ s, (server sampleCrypto defaultSkew).ReachedBy
    (AddsInWindow sampleCrypto defaultSkew) s ∧ s.accepted.Nodup ∧
      (s.accepted == [(1787846400, bytesOf "nonce")]) = true := by
  obtain ⟨s, hs, haccepted⟩ := System.exists_of_exec (S := server sampleCrypto defaultSkew)
    (P := fun s => s.accepted == [(1787846400, bytesOf "nonce")]) (s := lastMoment) ⟨rfl, rfl, rfl⟩
    (show ((server sampleCrypto defaultSkew).exec (AddsInWindow sampleCrypto defaultSkew) lastMoment
      (sampleSteps 0 ++ sampleSteps 0)).any _ = true by decide +kernel)
  exact ⟨s, hs, accepted_nodup hs, haccepted⟩

/-- The request is accepted at the last moment of its window. It is sent again at once, passes the
test of its timestamp, and uses the nonce store one nanosecond later, when its nonce has expired. -/
theorem not_accepted_nodup : ∃ s, (server sampleCrypto defaultSkew).Reachable s ∧
    ¬ s.accepted.Nodup := by
  obtain ⟨s, hs, haccepted⟩ := System.exists_of_exec (S := server sampleCrypto defaultSkew)
    (K := fun _ _ => True)
    (P := fun s => s.accepted == [(1787846400, bytesOf "nonce"), (1787846400, bytesOf "nonce")])
    (s := lastMoment) ⟨rfl, rfl, rfl⟩
    (show ((server sampleCrypto defaultSkew).exec (fun _ _ => True) lastMoment
      (sampleSteps 0 ++ sampleSteps 1)).any _ = true by decide +kernel)
  refine ⟨s, hs, ?_⟩
  rw [eq_of_beq haccepted]
  decide

end

end WeighingSync.Receiver
