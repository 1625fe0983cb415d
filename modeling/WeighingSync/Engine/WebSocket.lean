import WeighingSync.Engine.Upload
import WeighingSync.Go.Url

/-!
# The WebSocket client

`src/client/websocket.rs`: a batch is sent over a connection of its own, and an answer is awaited that
acknowledges it. `serde_json`, the connection and the clock are parameters; an object of `serde_json` has
one value for a name, which is the last that the text gives. Durations are nanoseconds, and a task is
polled as soon as it can go on.
-/

namespace WeighingSync.Engine

open Go

/-! ## Acknowledgements -/

/-- `WebSocketAck`. -/
structure WebSocketAck where
  accepted : Bool
  received : Option ℕ
  message : Option Str
  deriving DecidableEq, Repr

/-- `AckEnvelope`. -/
structure AckEnvelope where
  accepted : Option Bool
  ok : Option Bool
  success : Option Bool
  status : Option Str
  received : Option ℕ
  message : Option Str
  failed : Option ℕ
  failedIds : List Json

/-- A field of type `Option<T>` with `#[serde(default)]`: `null` is no value. -/
def optionField {α : Type} (decode : Json → Option α) (name : String) (fields : List (Str × Json)) :
    Option (Option α) :=
  match Json.lookup fields (Str.lit name) with
  | none => some none
  | some .null => some none
  | some j => (decode j).map some

/-- A field of type `Vec<Value>` with `#[serde(default)]`: `null` is no list. -/
def valuesField (name : String) (fields : List (Str × Json)) : Option (List Json) :=
  match Json.lookup fields (Str.lit name) with
  | none => some []
  | some (.arr xs) => some xs
  | some _ => none

/-- A `bool`. -/
def decodeBool : Json → Option Bool
  | .bool b => some b
  | _ => none

/-- A `String`. -/
def decodeText : Json → Option Str
  | .str s => some s
  | _ => none

/-- A `usize`: digits that fit in 64 bits, with no sign, fraction or exponent. -/
def decodeUsize : Json → Option ℕ
  | .num literal => (digitsValue literal).filter fun n => n < 2 ^ 64
  | _ => none

/-- Derived `Deserialize` of `AckEnvelope`. -/
def AckEnvelope.decode (fields : List (Str × Json)) : Option AckEnvelope := do
  let accepted ← optionField decodeBool "accepted" fields
  let ok ← optionField decodeBool "ok" fields
  let success ← optionField decodeBool "success" fields
  let status ← optionField decodeText "status" fields
  let received ← optionField decodeUsize "received" fields
  let message ← optionField decodeText "message" fields
  let failed ← optionField decodeUsize "failed" fields
  let failedIds ← valuesField "failed_ids" fields
  return { accepted, ok, success, status, received, message, failed, failedIds }

/-- `eq_ignore_ascii_case`. -/
def eqIgnoreAsciiCase (s t : Str) : Bool := s.toLower = t.toLower

/-- The words for a batch that was taken. -/
def successWords : List String := ["ok", "ack", "accepted", "success", "succeeded"]

/-- The words for a batch that was not. -/
def rejectionWords : List String := ["error", "failed", "rejected"]

/-- The status is one of these words, in any letter case and with blanks around it. -/
def isWord (words : List String) (status : Str) : Bool :=
  words.any fun word => eqIgnoreAsciiCase status.trimSpace (Str.lit word)

/-- `status_is_success`. -/
def statusIsSuccess (status : Option Str) : Option Bool :=
  status.bind fun status =>
    if isWord successWords status then some true
    else if isWord rejectionWords status then some false
    else none

/-- `ack_from_status`. -/
def ackFromStatus (status : Str) (received : Option ℕ) (message : Option Str) :
    Except Str WebSocketAck :=
  match statusIsSuccess (some status) with
  | some true => .ok { accepted := true, received, message }
  | some false => .error (Str.lit "websocket endpoint rejected batch with status " ++ status)
  | none => .error (Str.lit "unsupported websocket ack status " ++ status)

/-- `ack_from_envelope`. -/
def ackFromEnvelope (envelope : AckEnvelope) : Except Str WebSocketAck :=
  if 0 < envelope.failed.getD 0 ∨ envelope.failedIds ≠ [] then
    .error (Str.lit "websocket endpoint rejected " ++
      natText (envelope.failed.getD envelope.failedIds.length) ++ Str.lit " records")
  else
    let accepted := ((envelope.accepted.or envelope.ok).or envelope.success).or
      (statusIsSuccess envelope.status)
    match accepted with
    | some true =>
        .ok { accepted := true, received := envelope.received, message := envelope.message }
    | some false =>
        .error (envelope.message.getD (Str.lit "websocket endpoint rejected batch"))
    | none =>
        .error (Str.lit "websocket ack must contain accepted/ok/success or a success status")

/-- How `serde_json` reads a payload and prints a value. -/
structure AckLib where
  fromSlice : Bytes → Option Json
  display : Json → Str

/-- `parse_ack_payload`. -/
def parseAckPayload (lib : AckLib) (payload : Bytes) : Except Str WebSocketAck :=
  match lib.fromSlice payload with
  | none => .error (Str.lit "failed to decode websocket ack")
  | some (.bool true) => .ok { accepted := true, received := none, message := none }
  | some (.bool false) => .error (Str.lit "websocket endpoint rejected batch")
  | some (.str status) => ackFromStatus status none none
  | some (.obj fields) =>
      match AckEnvelope.decode fields with
      | none => .error (Str.lit "failed to parse websocket ack")
      | some envelope => ackFromEnvelope envelope
  | some other => .error (Str.lit "unsupported websocket ack payload: " ++ lib.display other)

/-- `validate_ack_record_count`. -/
def validateAckRecordCount (ack : WebSocketAck) (expected : ℕ) : Except Str Unit :=
  match ack.received with
  | none => .ok ()
  | some received =>
      if received = expected then .ok ()
      else .error (Str.lit "websocket ack received count " ++ natText received ++
        Str.lit " does not match sent count " ++ natText expected)

/-! ## Waiting for the answer -/

/-- `Message`, with the reason of a frame that closes the connection. -/
inductive Message
  | text (text : Str)
  | binary (bytes : Bytes)
  | ping (payload : Bytes)
  | pong (payload : Bytes)
  | close (reason : Option Str)
  | frame
  deriving DecidableEq

/-- What the stream of a connection gives: a frame, an error, or its end. -/
inductive Incoming
  | message (message : Message)
  | failed
  | ended
  deriving DecidableEq

/-- What becomes of an operation of the connection: how long it takes, if it ends, and how. -/
structure Sent where
  takes : Option ℕ
  succeeds : Bool
  deriving DecidableEq

/-- An operation under a `timeout`, with the contexts of its two errors: how long it took. -/
def Sent.within (sent : Sent) (limit : ℕ) (late failed : String) : Except Str ℕ :=
  match sent.takes.filter fun takes => takes ≤ limit with
  | none => .error (Str.lit late)
  | some takes => if sent.succeeds then .ok takes else .error (Str.lit failed)

/-- What arrives: when, what, and what becomes of the pong that answers it if it is a ping. -/
structure Arrival where
  time : ℕ
  incoming : Incoming
  pong : Sent
  deriving DecidableEq

/-- The error for a frame that closes the connection. -/
def closeReason (reason : Option Str) : Str :=
  (reason.filter fun reason => reason ≠ []).getD (Str.lit "remote closed websocket before ack")

/-- `read_ack`, from the instant at which its loop starts over. -/
def readAck (lib : AckLib) (ackTimeout : ℕ) : ℕ → List Arrival → Except Str WebSocketAck
  | _, [] => .error (Str.lit "websocket ack timed out")
  | now, a :: arrivals =>
      if now + ackTimeout < a.time then .error (Str.lit "websocket ack timed out")
      else
        match a.incoming with
        | .ended => .error (Str.lit "websocket closed before ack")
        | .failed => .error (Str.lit "failed to read websocket ack")
        | .message (.text text) => parseAckPayload lib text.bytes
        | .message (.binary bytes) => parseAckPayload lib bytes
        | .message (.ping _) =>
            match a.pong.within ackTimeout "websocket pong timed out"
                "failed to send websocket pong" with
            | .error e => .error e
            | .ok took => readAck lib ackTimeout (max now a.time + took) arrivals
        | .message (.pong _) => readAck lib ackTimeout (max now a.time) arrivals
        | .message (.close reason) => .error (closeReason reason)
        | .message .frame => readAck lib ackTimeout (max now a.time) arrivals

/-! ## The client -/

/-- `WebSocketClient`; a `usize` has 64 bits. -/
structure WebSocketClient where
  endpoint : Str
  apiKey : Option Str
  connectTimeout : ℕ
  ackTimeout : ℕ
  maxMessageBytes : ℕ
  writeBufferBytes : ℕ

/-- `WebSocketClient::new`. -/
def WebSocketClient.new (endpoint : Str) : WebSocketClient where
  endpoint := endpoint
  apiKey := none
  connectTimeout := 10 * 10 ^ 9
  ackTimeout := 30 * 10 ^ 9
  maxMessageBytes := 16 * 1024 * 1024
  writeBufferBytes := 128 * 1024

/-- The libraries of the client: `serde_json`, which endpoints a request can be made for, and which
texts are header values. -/
structure WebSocketLib extends AckLib where
  toVec : Json → Option Bytes
  validEndpoint : Str → Bool
  validHeader : Str → Bool

/-- The request that opens a connection. -/
structure ClientRequest where
  endpoint : Str
  contentType : Str
  authorization : Option Str

/-- `build_request`. -/
def WebSocketClient.buildRequest (lib : WebSocketLib) (client : WebSocketClient) :
    Except Str ClientRequest :=
  if lib.validEndpoint client.endpoint then
    let value := client.apiKey.map fun key => Str.lit "Bearer " ++ key
    if value.all lib.validHeader then
      .ok { endpoint := client.endpoint, contentType := Str.lit "application/json", authorization := value }
    else .error (Str.lit "failed to parse header value")
  else .error (Str.lit "invalid websocket endpoint " ++ client.endpoint)

/-- The limits of a connection. -/
structure WebSocketConfig where
  writeBufferSize : ℕ
  maxWriteBufferSize : ℕ
  maxMessageSize : ℕ
  maxFrameSize : ℕ

/-- `websocket_config`. -/
def WebSocketClient.websocketConfig (client : WebSocketClient) : Except Str WebSocketConfig :=
  let size := client.writeBufferBytes + max client.maxMessageBytes 1
  if size < 2 ^ 64 then
    .ok {
      writeBufferSize := client.writeBufferBytes
      maxWriteBufferSize := max size (min (client.writeBufferBytes + 1) (2 ^ 64 - 1))
      maxMessageSize := client.maxMessageBytes
      maxFrameSize := client.maxMessageBytes }
  else .error (Str.lit "websocket write buffer and max message size are too large")

/-- `WebSocketUploadRequest`. -/
def webSocketUploadRequest (uploadedAt : Str) (records : List Json) : Json :=
  .obj [(Str.lit "source", .str (Str.lit "weighing-data-sync")),
    (Str.lit "uploaded_at", .str uploadedAt),
    (Str.lit "records", .arr records)]

/-- What one upload meets: the text of its clock, when it connects, what becomes of the connection and
of the batch, and what then arrives. -/
structure Session where
  uploadedAt : Str
  start : ℕ
  connected : Sent
  sent : Sent
  arrivals : List Arrival

/-- `push_batch_with_ack`. What closing the connection returns is not looked at. -/
def WebSocketClient.pushBatchWithAck (lib : WebSocketLib) (client : WebSocketClient)
    (session : Session) (records : List Json) : Except Str WebSocketAck :=
  match lib.toVec (webSocketUploadRequest session.uploadedAt records) with
  | none => .error (Str.lit "failed to serialize websocket batch")
  | some payload =>
      if client.maxMessageBytes < payload.length then
        .error (Str.lit "websocket batch payload is " ++ natText payload.length ++
          Str.lit " bytes, exceeding configured max " ++ natText client.maxMessageBytes ++
          Str.lit " bytes")
      else do
        let _ ← client.buildRequest lib
        let _ ← client.websocketConfig
        let connecting ← session.connected.within client.connectTimeout "websocket connect timed out"
          "failed to connect websocket endpoint"
        let sending ← session.sent.within client.ackTimeout "websocket send timed out"
          "failed to send websocket batch"
        let ack ← readAck lib.toAckLib client.ackTimeout (session.start + connecting + sending)
          session.arrivals
        validateAckRecordCount ack records.length
        return ack

end WeighingSync.Engine
