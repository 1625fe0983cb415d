import WeighingSync.Engine.Upload
import WeighingSync.Go.JsonValue
import WeighingSync.Go.Url
import WeighingSync.Go.Utf8

/-!
# The receiving service of the synchronizer

`put_weighing_data` of `src/server.rs`, with the extractors of its route, and `insert_inbound_payload` of
`src/db/mod.rs`. A batch that is accepted is answered with the serial numbers that it names, whether its
row in `inbound_payloads` was inserted or not.
-/

namespace WeighingSync.Inbound

open Go Engine

/-! ## Values -/

/-- What `serde_json` writes and reads. -/
structure SerdeLib where
  toText : Json → Str
  fromBytes : Str → Option Json
  -- what is written of a number that has been read as one of 64 bits
  number : Str → Option Str

/-- The second value is read of the text of the first: objects become maps, and numbers what is read of
them. -/
def Reread (f : Str → Option Str) (j j' : Json) : Prop := j.canonical.mapNumbers f = some j'

/-- The value is one of `serde_json`: its texts are Unicode, its numbers can be read, and it is nested no
deeper than is read again. -/
structure SerdeLib.IsValue (lib : SerdeLib) (j : Json) : Prop where
  wellFormed : j.WellFormed
  valid : j.repair = j
  numbers : ∀ t ∈ j.numbers, (lib.number t).isSome = true
  read : ∃ j', lib.fromBytes (lib.toText j) = some j' ∧ Reread lib.number j j'

/-- A value is written as text, and what is read is a value. -/
structure SerdeLib.Documented (lib : SerdeLib) : Prop where
  text : ∀ j, lib.IsValue j → (lib.toText j).Valid
  value : ∀ text j, lib.fromBytes text = some j → lib.IsValue j

/-- `Value::get`. -/
def get (key : String) : Json → Option Json
  | .obj fields => Json.lookup fields (Str.lit key)
  | _ => none

/-- `Value::as_str`. -/
def asStr : Json → Option Str
  | .str s => some s
  | _ => none

/-- `Value::as_array`. -/
def asArray : Json → Option (List Json)
  | .arr xs => some xs
  | _ => none

/-- The records of a payload. -/
def records (payload : Json) : List Json := ((get "records" payload).bind asArray).getD []

/-- The serial number that a record is accepted under. -/
def serialNo (record : Json) : Option Str :=
  ((get "serialNo" record).or (get "serial_no" record)).bind asStr

/-- The serial numbers that a payload is answered with. -/
def serialNos (payload : Json) : List Str := (records payload).filterMap serialNo

/-- A text of a payload that says where it is from. -/
def origin (key : String) (payload : Json) : Str :=
  ((get key payload).bind asStr).getD (Str.lit "unknown")

/-! ## The table -/

/-- A row of `inbound_payloads`. -/
structure InboundRow where
  requestId : Str
  source : Str
  sourceDb : Str
  sourceTable : Str
  recordsCount : ℕ
  payloadJson : Str
  receivedAt : Str
  deriving DecidableEq, Repr

/-- `inbound_payloads`, with its primary key. -/
structure InboundPayloads where
  rows : List InboundRow
  id_nodup : (rows.map InboundRow.requestId).Nodup

/-- The table that `run_migrations` creates. -/
def InboundPayloads.empty : InboundPayloads := ⟨[], List.nodup_nil⟩

theorem nodup_insert {rows : List InboundRow} (h : (rows.map InboundRow.requestId).Nodup) {row : InboundRow}
    (hnew : row.requestId ∉ rows.map InboundRow.requestId) :
    ((rows ++ [row]).map InboundRow.requestId).Nodup := by
  rw [List.map_append, List.map_singleton, List.nodup_append']
  exact ⟨h, List.nodup_singleton _, List.disjoint_singleton.mpr hnew⟩

/-- The `INSERT` of `insert_inbound_payload`; it fails if there is a row of the same request. -/
def InboundPayloads.insert (table : InboundPayloads) (row : InboundRow) : Option InboundPayloads :=
  if h : row.requestId ∉ table.rows.map InboundRow.requestId then
    some ⟨table.rows ++ [row], nodup_insert table.id_nodup h⟩
  else none

/-- A row goes to the end of the table, unless there is one with its id. -/
theorem rows_insert (table : InboundPayloads) (row : InboundRow) :
    ((table.insert row).getD table).rows =
      table.rows ++ [row].filter fun row => row.requestId ∉ table.rows.map InboundRow.requestId := by
  unfold InboundPayloads.insert
  split_ifs with hold
  · rw [List.filter_cons_of_neg (by simpa using hold), List.filter_nil, List.append_nil]
    rfl
  · rw [List.filter_cons_of_pos (by simpa using hold), List.filter_nil]
    rfl

/-- The row of a payload. -/
def inboundRow (lib : SerdeLib) (requestId receivedAt : Str) (payload : Json) : InboundRow where
  requestId := requestId
  source := origin "source" payload
  sourceDb := origin "database" payload
  sourceTable := origin "table" payload
  recordsCount := (records payload).length
  payloadJson := lib.toText payload
  receivedAt := receivedAt

/-! ## The token -/

/-- What `HeaderValue::to_str` takes as text: ASCII that is visible, the blank and the tab. -/
def isTextByte (b : UInt8) : Bool := (32 ≤ b && b < 127) || b = 9

/-- `HeaderValue::to_str`. -/
def headerText (value : Bytes) : Option Str :=
  if value.all isTextByte then some (Str.ofBytes value) else none

/-- The token of a header, with the scheme in one of two spellings. -/
def bearerToken (value : Str) : Option Str :=
  let value := value.trimSpace
  (value.dropPrefix? (Str.lit "Bearer ")).or (value.dropPrefix? (Str.lit "bearer "))

/-- `extract_bearer_token`, of the first `Authorization` header. -/
def extractBearerToken (authorization : Option Bytes) : Option Str :=
  (authorization.bind headerText).bind bearerToken

/-! ## Requests -/

/-- `AppState`: the token that is expected, if there is one, and whether there is a database. -/
structure AppState where
  apiKey : Option Str
  persist : Bool
  deriving DecidableEq, Repr

/-- The state of the server and the limit of its route, with the texts of axum's rejections. -/
structure Service where
  lib : SerdeLib
  app : AppState
  maxBodyBytes : ℕ
  rejectionText : ℕ → Str

/-- A request to the route: its first `Authorization` header, whether its content type is JSON, and its
body. -/
structure Request where
  authorization : Option Bytes
  jsonContentType : Bool
  body : Str

/-- What a request meets: its id, the texts of the clock, and whether its `INSERT` fails for another reason
than its id. -/
structure Course where
  requestId : Str
  receivedAt : Str
  repliedAt : Str
  insertFails : Bool

/-- The check of the token. -/
def AppState.admits (app : AppState) (authorization : Option Bytes) : Bool :=
  app.apiKey.all fun expected =>
    (extractBearerToken authorization).any fun token => token.trimSpace = expected

/-- A reply with an error. -/
def refusal (lib : SerdeLib) (course : Course) (status : ℕ) (error : String) : HttpReply :=
  ⟨status, some (lib.toText (.obj [(Str.lit "error", .str (Str.lit error)),
    (Str.lit "request_id", .str course.requestId)]))⟩

/-- `PutResponse`. -/
def putResponse (course : Course) (payload : Json) : Json :=
  .obj [(Str.lit "request_id", .str course.requestId), (Str.lit "accepted", .bool true),
    (Str.lit "accepted_serial_nos", .arr ((serialNos payload).map .str)),
    (Str.lit "failed_serial_nos", .arr []),
    (Str.lit "records_count", .num (natText (records payload).length)),
    (Str.lit "received_at", .str course.repliedAt)]

/-- The persistence of a payload: a row that cannot be inserted is only logged. -/
def persisted (S : Service) (course : Course) (payload : Json) (table : InboundPayloads) : InboundPayloads :=
  if S.app.persist ∧ course.insertFails = false then
    (table.insert (inboundRow S.lib course.requestId course.receivedAt payload)).getD table
  else table

/-- `put_weighing_data`. -/
def putWeighingData (S : Service) (course : Course) (authorization : Option Bytes) (payload : Json)
    (table : InboundPayloads) : HttpReply × InboundPayloads :=
  if S.app.admits authorization = false then
    (refusal S.lib course 401 "invalid or missing bearer token", table)
  else if records payload = [] then
    (refusal S.lib course 400 "records is missing or empty", table)
  else (⟨200, some (S.lib.toText (putResponse course payload))⟩, persisted S course payload table)

/-- The payload that `Json<Value>` extracts, or the status of its rejection. -/
def extract (S : Service) (request : Request) : Except ℕ Json :=
  if request.jsonContentType = false then .error 415
  else if S.maxBodyBytes < request.body.size then .error 413
  else
    match S.lib.fromBytes request.body with
    | some payload => .ok payload
    | none => .error 400

/-- The route of the service. -/
def put (S : Service) (course : Course) (request : Request) (table : InboundPayloads) :
    HttpReply × InboundPayloads :=
  -- the body is read before the handler runs, and so before the token is looked at
  match extract S request with
  | .error status => (⟨status, some (S.rejectionText status)⟩, table)
  | .ok payload => putWeighingData S course request.authorization payload table

end WeighingSync.Inbound
