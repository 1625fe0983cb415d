import WeighingSync.Engine.Acknowledged

/-!
# The timeout of an answer

The loop of `read_ack` starts a timeout of its own for every frame, and another for every pong. Control
frames in time put off its end: with `n` of them before the answer the wait may take `2 * n + 1` timeouts
(`time_le_of_readAck`), and a peer that keeps pinging is waited for as long as it likes
(`readAck_keepAlives`). An answer is taken late exactly when such frames bridge the time to it
(`inTime_iff`).
-/

namespace WeighingSync.Engine

open Go

/-! ## What a frame does -/

/-- The payload of a frame that is taken for the answer. -/
def Arrival.answer (a : Arrival) : Option Bytes :=
  match a.incoming with
  | .message (.text text) => some text.bytes
  | .message (.binary bytes) => some bytes
  | _ => none

/-- When the loop starts over after a control frame that it has waited for since `now`. -/
def Arrival.resumed (ackTimeout now : ℕ) (a : Arrival) : Option ℕ :=
  match a.incoming with
  | .message (.ping _) =>
      if a.pong.succeeds then
        (a.pong.takes.filter fun takes => takes ≤ ackTimeout).map fun takes => max now a.time + takes
      else none
  | .message (.pong _) => some (max now a.time)
  | .message .frame => some (max now a.time)
  | _ => none

/-- The first frame that is taken for the answer. -/
def firstAnswer (arrivals : List Arrival) : Option Arrival :=
  arrivals.find? fun a => a.answer.isSome

/-- From `start` on, control frames in time keep the loop waiting, the last time from `now` on. -/
inductive KeptWaiting (ackTimeout : ℕ) : ℕ → List Arrival → ℕ → Prop
  | start (now : ℕ) : KeptWaiting ackTimeout now [] now
  | control {start now last : ℕ} (a : Arrival) (arrivals : List Arrival)
      (htime : a.time ≤ start + ackTimeout) (hresumed : a.resumed ackTimeout start = some now)
      (hrest : KeptWaiting ackTimeout now arrivals last) :
      KeptWaiting ackTimeout start (a :: arrivals) last

variable {lib : AckLib} {ackTimeout start now last : ℕ} {a : Arrival} {arrivals control : List Arrival}
  {payload : Bytes} {ack : WebSocketAck}

theorem answer_eq_none_of_resumed (h : a.resumed ackTimeout start = some now) : a.answer = none := by
  unfold Arrival.resumed at h
  unfold Arrival.answer
  split at h <;> simp_all

theorem Sent.within_eq_ok_iff {sent : Sent} {limit took : ℕ} {late failed : String} :
    sent.within limit late failed = .ok took ↔
      sent.succeeds = true ∧ sent.takes.filter (fun takes => takes ≤ limit) = some took := by
  unfold Sent.within
  cases sent.takes.filter fun takes => takes ≤ limit with
  | none => simp
  | some takes => cases sent.succeeds <;> simp

/-- One turn of the loop: the frame is in time, and it is the answer or the loop starts over. -/
theorem readAck_cons_eq_ok_iff : readAck lib ackTimeout start (a :: arrivals) = .ok ack ↔
    a.time ≤ start + ackTimeout ∧
      ((∃ payload, a.answer = some payload ∧ parseAckPayload lib payload = .ok ack) ∨
        ∃ now, a.resumed ackTimeout start = some now ∧ readAck lib ackTimeout now arrivals = .ok ack) := by
  rw [readAck]
  by_cases htime : start + ackTimeout < a.time
  · rw [if_pos htime]
    have hlate : ¬ a.time ≤ start + ackTimeout := by omega
    simp [hlate]
  · rw [if_neg htime, and_iff_right (by omega)]
    unfold Arrival.answer Arrival.resumed
    cases a.incoming with
    | failed => simp
    | ended => simp
    | message m =>
        cases m with
        | text text => simp
        | binary bytes => simp
        | pong payload => simp
        | close reason => simp
        | frame => simp
        -- a ping starts the wait anew once its pong is sent
        | ping payload =>
            simp only [reduceCtorEq, false_and, exists_false, false_or]
            cases hpong : a.pong.within ackTimeout "websocket pong timed out"
                "failed to send websocket pong" with
            | error e =>
                constructor
                · intro h
                  cases h
                · rintro ⟨now, hresumed, -⟩
                  split_ifs at hresumed with hsucceeds
                  obtain ⟨took, htakes, -⟩ := Option.map_eq_some_iff.mp hresumed
                  rw [Sent.within_eq_ok_iff.mpr ⟨hsucceeds, htakes⟩] at hpong
                  cases hpong
            | ok took =>
                obtain ⟨hsucceeds, htakes⟩ := Sent.within_eq_ok_iff.mp hpong
                simp [hsucceeds, htakes]

/-- What `read_ack` returns is the answer after control frames that kept it waiting. -/
theorem readAck_eq_ok_iff : readAck lib ackTimeout start arrivals = .ok ack ↔
    ∃ control a rest now payload, arrivals = control ++ a :: rest ∧
      KeptWaiting ackTimeout start control now ∧ a.time ≤ now + ackTimeout ∧
      a.answer = some payload ∧ parseAckPayload lib payload = .ok ack := by
  induction arrivals generalizing start with
  | nil => simp [readAck]
  | cons a arrivals ih =>
      rw [readAck_cons_eq_ok_iff]
      constructor
      · rintro ⟨htime, ⟨payload, hanswer, haccept⟩ | ⟨now, hresumed, hread⟩⟩
        · exact ⟨[], a, arrivals, start, payload, rfl, .start start, htime, hanswer, haccept⟩
        · obtain ⟨control, b, rest, last, payload, rfl, hkept, hb, hanswer, haccept⟩ := ih.mp hread
          exact ⟨a :: control, b, rest, last, payload, rfl, .control a control htime hresumed hkept, hb,
            hanswer, haccept⟩
      · rintro ⟨control, b, rest, last, payload, hsplit, hkept, hb, hanswer, haccept⟩
        cases hkept with
        | start =>
            cases hsplit
            exact ⟨hb, Or.inl ⟨payload, hanswer, haccept⟩⟩
        | control c control htime hresumed hkept =>
            cases hsplit
            exact ⟨htime, Or.inr ⟨_, hresumed,
              ih.mpr ⟨control, b, rest, last, payload, rfl, hkept, hb, hanswer, haccept⟩⟩⟩

/-- The answer is the first frame that can be one. -/
theorem firstAnswer_of_keptWaiting (h : KeptWaiting ackTimeout start control now)
    (hanswer : a.answer = some payload) (rest : List Arrival) :
    firstAnswer (control ++ a :: rest) = some a := by
  rw [firstAnswer]
  induction h with
  | start now => rw [List.nil_append, List.find?_cons_of_pos (by rw [hanswer]; rfl)]
  | control c control htime hresumed hrest ih =>
      rw [List.cons_append, List.find?_cons_of_neg (by rw [answer_eq_none_of_resumed hresumed]; simp), ih]

/-! ## How long it takes -/

/-- A control frame puts off the end of the wait by two timeouts at most, its own and that of a pong. -/
theorem le_of_resumed (htime : a.time ≤ start + ackTimeout)
    (h : a.resumed ackTimeout start = some now) : now ≤ start + 2 * ackTimeout := by
  unfold Arrival.resumed at h
  split at h
  · split_ifs at h
    obtain ⟨takes, htakes, rfl⟩ := Option.map_eq_some_iff.mp h
    have hle : takes ≤ ackTimeout := by simpa using (Option.filter_eq_some_iff.mp htakes).2
    omega
  · cases h
    omega
  · cases h
    omega
  · cases h

theorem le_of_keptWaiting (h : KeptWaiting ackTimeout start control last) :
    last ≤ start + 2 * control.length * ackTimeout := by
  induction h with
  | start now => simp
  | control a arrivals htime hresumed hrest ih =>
      have hnow := le_of_resumed htime hresumed
      rw [List.length_cons]
      linarith

/-- With `n` control frames before it an answer is taken for `2 * n + 1` timeouts. -/
theorem time_le_of_readAck (h : readAck lib ackTimeout start arrivals = .ok ack) :
    ∃ control a rest, arrivals = control ++ a :: rest ∧ firstAnswer arrivals = some a ∧
      a.time ≤ start + (2 * control.length + 1) * ackTimeout := by
  obtain ⟨control, a, rest, now, payload, rfl, hkept, htime, hanswer, -⟩ := readAck_eq_ok_iff.mp h
  have hnow := le_of_keptWaiting hkept
  exact ⟨control, a, rest, rfl, firstAnswer_of_keptWaiting hkept hanswer rest, by linarith⟩

/-- So many pings, one timeout after the other. -/
def keepAlives (ackTimeout : ℕ) : ℕ → ℕ → List Arrival
  | _, 0 => []
  | now, n + 1 =>
      ⟨now + ackTimeout, .message (.ping []), ⟨some 0, true⟩⟩ :: keepAlives ackTimeout (now + ackTimeout) n

theorem keptWaiting_keepAlives (ackTimeout start n : ℕ) :
    KeptWaiting ackTimeout start (keepAlives ackTimeout start n) (start + n * ackTimeout) := by
  induction n generalizing start with
  | zero =>
      rw [keepAlives, zero_mul, add_zero]
      exact .start start
  | succ n ih =>
      have hrest := ih (start + ackTimeout)
      rw [show start + ackTimeout + n * ackTimeout = start + (n + 1) * ackTimeout by ring] at hrest
      refine .control _ _ (le_refl _) ?_ hrest
      simp [Arrival.resumed]

/-- An answer that comes as late as one likes is taken if pings bridge the time to it. -/
theorem readAck_keepAlives (n : ℕ) (haccept : parseAckPayload lib payload = .ok ack) (pong : Sent)
    (rest : List Arrival) :
    readAck lib ackTimeout start (keepAlives ackTimeout start n ++
      ⟨start + (n + 1) * ackTimeout, .message (.binary payload), pong⟩ :: rest) = .ok ack := by
  refine readAck_eq_ok_iff.mpr ⟨_, _, rest, _, payload, rfl, keptWaiting_keepAlives ackTimeout start n, ?_,
    rfl, haccept⟩
  show start + (n + 1) * ackTimeout ≤ start + n * ackTimeout + ackTimeout
  linarith

/-! ## Answers in time -/

/-- No answer is taken that arrives later than the timeout after the start. -/
def InTime (lib : AckLib) (ackTimeout start : ℕ) (arrivals : List Arrival) : Prop :=
  ∀ a ack, firstAnswer arrivals = some a → readAck lib ackTimeout start arrivals = .ok ack →
    a.time ≤ start + ackTimeout

/-- Control frames, each within the timeout of the last one, bridge the time to an answer that says
success and that arrives later than the timeout after the start. -/
def Prolonged (lib : AckLib) (ackTimeout start : ℕ) (arrivals : List Arrival) : Prop :=
  ∃ control a rest now payload, arrivals = control ++ a :: rest ∧
    KeptWaiting ackTimeout start control now ∧ a.answer = some payload ∧
    (∃ ack, parseAckPayload lib payload = .ok ack) ∧
    start + ackTimeout < a.time ∧ a.time ≤ now + ackTimeout

/-- Whatever arrives and when: no answer is taken after the timeout exactly when no control frames
bridge the time to one. -/
theorem inTime_iff (lib : AckLib) (ackTimeout start : ℕ) (arrivals : List Arrival) :
    InTime lib ackTimeout start arrivals ↔ ¬ Prolonged lib ackTimeout start arrivals := by
  constructor
  · rintro h ⟨control, a, rest, now, payload, rfl, hkept, hanswer, ⟨ack, haccept⟩, hlate, htime⟩
    have hread := readAck_eq_ok_iff.mpr
      ⟨control, a, rest, now, payload, rfl, hkept, htime, hanswer, haccept⟩
    have hle := h a ack (firstAnswer_of_keptWaiting hkept hanswer rest) hread
    omega
  · intro h a ack hfirst hread
    obtain ⟨control, b, rest, now, payload, rfl, hkept, htime, hanswer, haccept⟩ :=
      readAck_eq_ok_iff.mp hread
    rw [firstAnswer_of_keptWaiting hkept hanswer rest] at hfirst
    cases hfirst
    by_contra hlate
    exact h ⟨control, a, rest, now, payload, rfl, hkept, hanswer, ⟨ack, haccept⟩, by omega, htime⟩

/-- A ping after twenty seconds and the answer after forty, within thirty seconds of the ping. -/
theorem not_inTime_pinged : ¬ InTime sampleWebSocketLib.toAckLib (30 * 10 ^ 9) 0
    [⟨20 * 10 ^ 9, .message (.ping []), ⟨some 0, true⟩⟩,
      ⟨40 * 10 ^ 9, .message (.text (Str.lit "true")), ⟨none, false⟩⟩] := by
  intro h
  have hread : readAck sampleWebSocketLib.toAckLib (30 * 10 ^ 9) 0
      [⟨20 * 10 ^ 9, .message (.ping []), ⟨some 0, true⟩⟩,
        ⟨40 * 10 ^ 9, .message (.text (Str.lit "true")), ⟨none, false⟩⟩] = .ok ⟨true, none, none⟩ := by
    decide +kernel
  have hlate := h _ _ rfl hread
  revert hlate
  decide

end WeighingSync.Engine
