import WeighingSync.Common.AllOrNothing
import WeighingSync.Engine.WebSocket
import WeighingSync.Go.Float
import WeighingSync.Go.JsonRoundTrip
import WeighingSync.Go.Utf8

/-!
# What an acknowledgement says

`ack_from_envelope` goes by the first of four fields that is there. An accepted payload says somewhere
that the batch was taken; it says nowhere that it was not, exactly when no field after the first
contradicts it (`acknowledged_iff`).
-/

namespace WeighingSync.Engine

open Go

/-! ## The first of several readings -/

section

variable {α : Type*} {readings : List (Option α)} {a b : α}

/-- The first reading that is there is `a`, and one after it is `b`. -/
def Overruled (readings : List (Option α)) (a b : α) : Prop :=
  ∃ before after, readings = before ++ some a :: after ∧ (∀ x ∈ before, x = none) ∧ some b ∈ after

/-- A reading differs from the first one that is there exactly when it is overruled. -/
theorem mem_iff_overruled (h : readings.findSome? id = some a) (hne : b ≠ a) :
    some b ∈ readings ↔ Overruled readings a b := by
  constructor
  · intro hmem
    obtain ⟨before, x, after, rfl, rfl, hbefore⟩ := List.findSome?_eq_some_iff.mp h
    refine ⟨before, after, rfl, hbefore, ?_⟩
    rcases List.mem_append.mp hmem with hmem | hmem
    · cases hbefore _ hmem
    · rcases List.mem_cons.mp hmem with heq | hmem
      · exact absurd (Option.some.inj heq) hne
      · exact hmem
  · rintro ⟨before, after, rfl, -, hmem⟩
    exact List.mem_append_right _ (List.mem_cons_of_mem _ hmem)

end

/-! ## What a payload says -/

/-- The fields that are flags. -/
def flagNames : List String := ["accepted", "ok", "success"]

/-- The payload says that the batch was taken. -/
inductive SaysSuccess : Json → Prop
  | bool : SaysSuccess (.bool true)
  | text (status : Str) (h : isWord successWords status = true) : SaysSuccess (.str status)
  | flag (fields : List (Str × Json)) (name : String) (hname : name ∈ flagNames)
      (h : Json.lookup fields (Str.lit name) = some (.bool true)) : SaysSuccess (.obj fields)
  | status (fields : List (Str × Json)) (status : Str)
      (hstatus : Json.lookup fields (Str.lit "status") = some (.str status))
      (h : isWord successWords status = true) : SaysSuccess (.obj fields)

/-- The payload says that the batch was not taken, or not all of it. -/
inductive SaysFailure : Json → Prop
  | bool : SaysFailure (.bool false)
  | text (status : Str) (h : isWord rejectionWords status = true) : SaysFailure (.str status)
  | flag (fields : List (Str × Json)) (name : String) (hname : name ∈ flagNames)
      (h : Json.lookup fields (Str.lit name) = some (.bool false)) : SaysFailure (.obj fields)
  | status (fields : List (Str × Json)) (status : Str)
      (hstatus : Json.lookup fields (Str.lit "status") = some (.str status))
      (h : isWord rejectionWords status = true) : SaysFailure (.obj fields)
  | failed (fields : List (Str × Json)) (literal : Str)
      (hfailed : Json.lookup fields (Str.lit "failed") = some (.num literal))
      (h : 0 < literalValue literal) : SaysFailure (.obj fields)
  | failedIds (fields : List (Str × Json)) (ids : List Json)
      (hids : Json.lookup fields (Str.lit "failed_ids") = some (.arr ids)) (h : ids ≠ []) :
      SaysFailure (.obj fields)

/-- What a field that is a flag says, if it is there. -/
def flagSignal (fields : List (Str × Json)) (name : String) : Option Bool :=
  (Json.lookup fields (Str.lit name)).bind decodeBool

/-- What the status says, if it is one of the words. -/
def statusSignal (fields : List (Str × Json)) : Option Bool :=
  statusIsSuccess ((Json.lookup fields (Str.lit "status")).bind decodeText)

/-- What the fields say, in the order in which they are looked at. -/
def signals (fields : List (Str × Json)) : List (Option Bool) :=
  flagNames.map (flagSignal fields) ++ [statusSignal fields]

/-- A field says that the batch was taken, and one that is looked at later says that it was not. -/
def ContradictsItself : Json → Prop
  | .obj fields => Overruled (signals fields) true false
  | _ => False

/-! ## Fields -/

variable {fields : List (Str × Json)} {envelope : AckEnvelope} {ack : WebSocketAck}

theorem eq_bind_of_optionField {α : Type} {decode : Json → Option α} {name : String} {x : Option α}
    (hnull : decode .null = none) (h : optionField decode name fields = some x) :
    x = (Json.lookup fields (Str.lit name)).bind decode := by
  unfold optionField at h
  split at h
  · next hlookup =>
      rw [hlookup]
      exact (Option.some.inj h).symm
  · next hlookup =>
      rw [hlookup, Option.bind_some, hnull]
      exact (Option.some.inj h).symm
  · next j hlookup =>
      obtain ⟨y, hy, hx⟩ := Option.map_eq_some_iff.mp h
      rw [hlookup, Option.bind_some, hy, hx]

theorem decodeBool_eq_some {j : Json} {b : Bool} : decodeBool j = some b ↔ j = .bool b := by
  cases j <;> simp [decodeBool]

theorem decodeText_eq_some {j : Json} {s : Str} : decodeText j = some s ↔ j = .str s := by
  cases j <;> simp [decodeText]

theorem flagSignal_eq_some {name : String} {b : Bool} :
    flagSignal fields name = some b ↔ Json.lookup fields (Str.lit name) = some (.bool b) := by
  rw [flagSignal, Option.bind_eq_some_iff]
  constructor
  · rintro ⟨j, hj, hb⟩
    rw [hj, decodeBool_eq_some.mp hb]
  · exact fun h => ⟨_, h, rfl⟩

/-- No word says both. -/
theorem not_isWord_of_isWord {status : Str} (h : isWord rejectionWords status = true) :
    isWord successWords status = false := by
  have hdisjoint : ∀ r ∈ rejectionWords, ∀ s ∈ successWords,
      (Str.lit r).toLower ≠ (Str.lit s).toLower := by decide
  obtain ⟨r, hr, hword⟩ := List.any_eq_true.mp h
  rw [isWord, List.any_eq_false]
  intro s hs hother
  exact hdisjoint r hr s hs ((of_decide_eq_true hword).symm.trans (of_decide_eq_true hother))

theorem statusIsSuccess_eq_some {status : Str} {b : Bool} :
    statusIsSuccess (some status) = some b ↔
      isWord (if b then successWords else rejectionWords) status = true := by
  rw [statusIsSuccess, Option.bind_some]
  cases b with
  | true =>
      rw [if_pos rfl]
      split_ifs with h <;> simp [h]
  | false =>
      rw [if_neg Bool.false_ne_true]
      constructor
      · intro h
        split_ifs at h with hsuccess hrejected
        · cases h
        · exact hrejected
      · intro h
        rw [not_isWord_of_isWord h, h, if_neg Bool.false_ne_true, if_pos rfl]

theorem statusSignal_eq_some {b : Bool} : statusSignal fields = some b ↔
    ∃ status, Json.lookup fields (Str.lit "status") = some (.str status) ∧
      isWord (if b then successWords else rejectionWords) status = true := by
  rw [statusSignal]
  cases hlookup : Json.lookup fields (Str.lit "status") with
  | none => simp [statusIsSuccess]
  | some j =>
      rw [Option.bind_some]
      cases htext : decodeText j with
      | none =>
          constructor
          · intro h
            cases h
          · rintro ⟨status, hj, -⟩
            cases hj
            cases htext
      | some status =>
          rw [statusIsSuccess_eq_some, decodeText_eq_some.mp htext]
          constructor
          · exact fun h => ⟨status, rfl, h⟩
          · rintro ⟨status', hj, h⟩
            cases hj
            exact h

theorem mem_signals {b : Bool} : some b ∈ signals fields ↔
    (∃ name ∈ flagNames, Json.lookup fields (Str.lit name) = some (.bool b)) ∨
      ∃ status, Json.lookup fields (Str.lit "status") = some (.str status) ∧
        isWord (if b then successWords else rejectionWords) status = true := by
  rw [signals, List.mem_append, List.mem_map, List.mem_singleton, eq_comm (a := some b),
    statusSignal_eq_some]
  simp only [flagSignal_eq_some]

/-! ## Envelopes -/

/-- What the derived decoder makes of an object. -/
structure Decoded (fields : List (Str × Json)) (envelope : AckEnvelope) : Prop where
  signals : [envelope.accepted, envelope.ok, envelope.success, statusIsSuccess envelope.status] =
    signals fields
  failed : optionField decodeUsize "failed" fields = some envelope.failed
  failedIds : valuesField "failed_ids" fields = some envelope.failedIds

theorem decoded_of_decode (h : AckEnvelope.decode fields = some envelope) :
    Decoded fields envelope := by
  simp only [AckEnvelope.decode, Option.bind_eq_bind, Option.bind_eq_some_iff, Option.pure_def,
    Option.some.injEq] at h
  obtain ⟨accepted, haccepted, ok, hok, success, hsuccess, status, hstatus, received, -, message, -,
    failed, hfailed, failedIds, hids, rfl⟩ := h
  refine ⟨?_, hfailed, hids⟩
  rw [eq_bind_of_optionField rfl haccepted, eq_bind_of_optionField rfl hok,
    eq_bind_of_optionField rfl hsuccess, eq_bind_of_optionField rfl hstatus]
  rfl

/-- An envelope is accepted if nothing failed and the first field that is there says so. -/
theorem accepted_of_ackFromEnvelope (h : ackFromEnvelope envelope = .ok ack) :
    envelope.failed.getD 0 = 0 ∧ envelope.failedIds = [] ∧
      [envelope.accepted, envelope.ok, envelope.success, statusIsSuccess envelope.status].findSome? id =
        some true := by
  unfold ackFromEnvelope at h
  split_ifs at h with hfailed
  obtain ⟨hnone, hids⟩ := not_or.mp hfailed
  refine ⟨by omega, not_not.mp hids, ?_⟩
  simp only at h
  split at h
  · next haccepted =>
      rw [← haccepted]
      cases envelope.accepted <;> cases envelope.ok <;> cases envelope.success <;>
        cases statusIsSuccess envelope.status <;> rfl
  · cases h
  · cases h

/-- A count that was decoded says as much as its literal. -/
theorem literalValue_of_decodeUsize {literal : Str} {n : ℕ}
    (h : decodeUsize (.num literal) = some n) : literalValue literal = n :=
  literalValue_of_digitsValue (Option.eq_some_of_filter_eq_some h)

/-! ## Accepted payloads -/

/-- An object that is accepted says that the batch was taken; a field that says the opposite is one that
an earlier field hides. -/
theorem consistent_of_accepted (hdecode : AckEnvelope.decode fields = some envelope)
    (haccept : ackFromEnvelope envelope = .ok ack) :
    SaysSuccess (.obj fields) ∧
      (SaysFailure (.obj fields) ↔ Overruled (signals fields) true false) := by
  have hdecoded := decoded_of_decode hdecode
  obtain ⟨hfailed, hids, hfirst⟩ := accepted_of_ackFromEnvelope haccept
  rw [hdecoded.signals] at hfirst
  have hsignal : SaysFailure (.obj fields) ↔ some false ∈ signals fields := by
    rw [mem_signals]
    constructor
    · intro h
      cases h with
      | flag _ name hname h => exact Or.inl ⟨name, hname, h⟩
      | status _ status hstatus h => exact Or.inr ⟨status, hstatus, h⟩
      | failed _ literal hliteral hpos =>
          -- what is no count is not decoded, and a count is accepted only if it is zero
          have hcount := hdecoded.failed
          rw [optionField, hliteral] at hcount
          obtain ⟨n, hn, hsome⟩ := Option.map_eq_some_iff.mp hcount
          rw [← hsome, Option.getD_some] at hfailed
          rw [literalValue_of_decodeUsize hn, hfailed, Nat.cast_zero] at hpos
          exact absurd hpos (lt_irrefl 0)
      | failedIds _ ids hlist hne =>
          have hvalues := hdecoded.failedIds
          rw [valuesField, hlist, hids] at hvalues
          exact absurd (Option.some.inj hvalues) hne
    · rintro (⟨name, hname, h⟩ | ⟨status, hstatus, h⟩)
      · exact .flag fields name hname h
      · exact .status fields status hstatus h
  rw [hsignal, mem_iff_overruled hfirst Bool.false_ne_true]
  refine ⟨?_, Iff.rfl⟩
  obtain ⟨x, hx, hsome⟩ := List.exists_of_findSome?_eq_some hfirst
  rw [id_eq] at hsome
  rw [hsome, mem_signals] at hx
  rcases hx with ⟨name, hname, h⟩ | ⟨status, hstatus, h⟩
  · exact .flag fields name hname h
  · exact .status fields status hstatus h

theorem accepted_of_ackFromStatus {status : Str} {received : Option ℕ} {message : Option Str}
    (h : ackFromStatus status received message = .ok ack) :
    isWord successWords status = true := by
  unfold ackFromStatus at h
  split at h
  · next hsuccess => exact statusIsSuccess_eq_some.mp hsuccess
  · cases h
  · cases h

/-- An accepted payload says that the batch was taken, and it says nowhere that it was not exactly when
it does not contradict itself. -/
theorem consistent_iff {lib : AckLib} {payload : Bytes} {j : Json}
    (hparse : lib.fromSlice payload = some j) (haccept : parseAckPayload lib payload = .ok ack) :
    (SaysSuccess j ∧ ¬ SaysFailure j) ↔ ¬ ContradictsItself j := by
  rw [parseAckPayload, hparse] at haccept
  cases j with
  | null => cases haccept
  | num literal => cases haccept
  | arr xs => cases haccept
  | bool b =>
      cases b with
      | false => cases haccept
      | true =>
          have hnone : ¬ SaysFailure (.bool true) := by
            intro h
            cases h
          exact iff_of_true ⟨.bool, hnone⟩ not_false
  | str status =>
      have hword := accepted_of_ackFromStatus haccept
      have hnone : ¬ SaysFailure (.str status) := by
        intro h
        cases h with
        | text _ hrejected =>
            rw [not_isWord_of_isWord hrejected] at hword
            cases hword
      exact iff_of_true ⟨.text status hword, hnone⟩ not_false
  | obj fields =>
      simp only at haccept
      split at haccept
      · cases haccept
      · next envelope hdecode =>
          obtain ⟨hsuccess, hfailure⟩ := consistent_of_accepted hdecode haccept
          rw [ContradictsItself, ← hfailure, and_iff_right hsuccess]

/-! ## Counts -/

/-- A count that passes `validate_ack_record_count` is the number of records. -/
theorem received_of_validateAckRecordCount {expected n : ℕ}
    (h : validateAckRecordCount ack expected = .ok ()) (hn : ack.received = some n) : n = expected := by
  rw [validateAckRecordCount, hn] at h
  simp only at h
  split_ifs at h with heq
  exact heq

/-- What `push_batch_with_ack` returns has been read and has passed the check of its count. -/
theorem read_of_pushBatchWithAck {lib : WebSocketLib} {client : WebSocketClient} {session : Session}
    {records : List Json} (h : client.pushBatchWithAck lib session records = .ok ack) :
    (∃ now, readAck lib.toAckLib client.ackTimeout now session.arrivals = .ok ack) ∧
      validateAckRecordCount ack records.length = .ok () := by
  unfold WebSocketClient.pushBatchWithAck at h
  split at h
  · cases h
  · split_ifs at h
    obtain ⟨request, -, h⟩ := bind_eq_ok_iff.mp h
    obtain ⟨config, -, h⟩ := bind_eq_ok_iff.mp h
    obtain ⟨connecting, -, h⟩ := bind_eq_ok_iff.mp h
    obtain ⟨sending, -, h⟩ := bind_eq_ok_iff.mp h
    obtain ⟨ack', hread, h⟩ := bind_eq_ok_iff.mp h
    obtain ⟨_, hcount, h⟩ := bind_eq_ok_iff.mp h
    cases h
    exact ⟨⟨_, hread⟩, hcount⟩

/-- An accepted payload says that the batch was taken, and it says nowhere that it was not exactly when
it does not contradict itself. A count that is returned is the number of the records that were sent. -/
theorem acknowledged_iff (lib : WebSocketLib) (client : WebSocketClient) :
    (∀ payload j ack, lib.fromSlice payload = some j → parseAckPayload lib.toAckLib payload = .ok ack →
      ((SaysSuccess j ∧ ¬ SaysFailure j) ↔ ¬ ContradictsItself j)) ∧
    ∀ session records ack n, client.pushBatchWithAck lib session records = .ok ack →
      ack.received = some n → n = records.length := by
  constructor
  · intro payload j ack hparse haccept
    exact consistent_iff hparse haccept
  · intro session records ack n hpush hn
    exact received_of_validateAckRecordCount (read_of_pushBatchWithAck hpush).2 hn

/-! ## Payloads -/

/-- The libraries of a client that takes every endpoint and every header. -/
def sampleWebSocketLib : WebSocketLib where
  fromSlice := fun payload => parse (Str.ofBytes payload)
  display := Json.encode
  toVec := fun j => some j.encode.bytes
  validEndpoint := fun _ => true
  validHeader := fun _ => true

theorem fromSlice_encode {j : Json} (h : j.WellFormed) :
    sampleWebSocketLib.fromSlice j.encode.bytes = some j.repair := by
  have hbytes : Str.ofBytes j.encode.bytes = j.encode := by
    apply ofBytes_bytes
    intro b hb
    cases valid_encode j h _ hb
  show parse (Str.ofBytes j.encode.bytes) = some j.repair
  rw [hbytes, parse_encode h]

/-- An upload that is answered after a second. -/
def answeredWith (j : Json) : Session where
  uploadedAt := Str.lit "2026-07-01T00:00:00Z"
  start := 0
  connected := ⟨some 0, true⟩
  sent := ⟨some 0, true⟩
  arrivals := [⟨10 ^ 9, .message (.text j.encode), ⟨none, false⟩⟩]

/-- A peer that counts two records. -/
def countedAck : Json := .obj [(Str.lit "ok", .bool true), (Str.lit "received", .num (Str.lit "2"))]

/-- A peer that says that it took the batch, and that it did not. -/
def hiddenAck : Json := .obj [(Str.lit "accepted", .bool true), (Str.lit "ok", .bool false)]

/-- Two records are acknowledged. -/
theorem acknowledged_iff_counted :
    (∃ j ack, sampleWebSocketLib.fromSlice countedAck.encode.bytes = some j ∧
      parseAckPayload sampleWebSocketLib.toAckLib countedAck.encode.bytes = .ok ack ∧
      ((SaysSuccess j ∧ ¬ SaysFailure j) ↔ ¬ ContradictsItself j)) ∧
    ∃ ack, (WebSocketClient.new (Str.lit "ws://localhost")).pushBatchWithAck sampleWebSocketLib
        (answeredWith countedAck) [.null, .null] = .ok ack ∧
      ack.received = some 2 ∧ 2 = [Json.null, Json.null].length := by
  have hnumber : validNumber (Str.lit "2") = true ∧ ∀ r ∈ Str.lit "2", isNumberRune r = true := by
    decide
  have hparse := fromSlice_encode (j := countedAck) ⟨trivial, hnumber, trivial⟩
  have hack : parseAckPayload sampleWebSocketLib.toAckLib countedAck.encode.bytes =
      .ok ⟨true, some 2, none⟩ := by
    decide +kernel
  have hpush : (WebSocketClient.new (Str.lit "ws://localhost")).pushBatchWithAck sampleWebSocketLib
      (answeredWith countedAck) [.null, .null] = .ok ⟨true, some 2, none⟩ := by
    decide +kernel
  obtain ⟨hconsistent, hcount⟩ :=
    acknowledged_iff sampleWebSocketLib (WebSocketClient.new (Str.lit "ws://localhost"))
  exact ⟨⟨_, _, hparse, hack, hconsistent _ _ _ hparse hack⟩, _, hpush, rfl,
    hcount _ _ _ _ hpush rfl⟩

/-- The first flag counts and the second is not looked at. -/
theorem not_consistent_hidden :
    ∃ j ack, sampleWebSocketLib.fromSlice hiddenAck.encode.bytes = some j ∧
      parseAckPayload sampleWebSocketLib.toAckLib hiddenAck.encode.bytes = .ok ack ∧
      SaysFailure j := by
  have hparse := fromSlice_encode (j := hiddenAck) ⟨trivial, trivial, trivial⟩
  have hack : parseAckPayload sampleWebSocketLib.toAckLib hiddenAck.encode.bytes =
      .ok ⟨true, none, none⟩ := by
    decide +kernel
  refine ⟨_, _, hparse, hack, ?_⟩
  exact .flag _ "ok" (by decide) (flagSignal_eq_some.mp (by decide +kernel))

end WeighingSync.Engine
