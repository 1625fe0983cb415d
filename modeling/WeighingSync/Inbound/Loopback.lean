import WeighingSync.Engine.Edits
import WeighingSync.Engine.WriteBack
import WeighingSync.Inbound.Register
import WeighingSync.Inbound.Token

/-!
# The engine and the service

The engine of the SQL Server source, uploading to the service of another instance. Requests and replies may
be lost, other clients put payloads in between, and the rows of the source may be edited at any time. As
long as the service inserts what it accepts, a flag is set only on a row whose serial number is in a payload
of the register (`flagged_is_registered`). The service acknowledges a payload also if its row could not be
inserted, so without this the flag may be all that is left of a record.
-/

namespace WeighingSync.Inbound

open Go Engine

/-! ## The two programs -/

/-- The engine with its key and the service that it uploads to. Both read JSON in the same way. -/
structure Loopback where
  service : Service
  apiKey : Option Str
  statusText : ℕ → Str
  floats : FloatLib
  server : Server
  source : SqlServerConfig
  cfg : SyncConfig

namespace Loopback

variable (L : Loopback)

/-- The engine. -/
def engine : Setup where
  lib := ⟨⟨L.statusText, L.service.lib.fromBytes⟩, L.floats⟩
  server := L.server
  source := L.source
  cfg := L.cfg

/-- The upload of records as a request. -/
def request (uploadedAt : Str) (records : List SqlServerWeightRecord) : Request where
  authorization := L.apiKey.map bearerAuth
  jsonContentType := true
  body := L.service.lib.toText (SqlServerEngine.uploadRequest L.source uploadedAt records)

/-- What becomes of a request: it is lost, its reply is lost, or it is answered. -/
inductive Fate
  | lost
  | unanswered
  | answered
  deriving DecidableEq

/-- An upload: the clock of the engine, the course of the service, and what becomes of it. -/
structure Upload where
  uploadedAt : Str
  course : Course
  fate : Fate

/-- The table of the source with the engine, and the table of the service. -/
structure State where
  engine : Engine.State
  table : InboundPayloads

/-- What may happen: a step of the engine or an edit, an upload, or a request of another client. -/
inductive Move
  | engine (a : Action)
  | upload (u : Upload)
  | other (course : Course) (request : Request)

/-- What the service does with an upload. -/
def serve (u : Upload) (records : List SqlServerWeightRecord) (table : InboundPayloads) :
    HttpReply × InboundPayloads :=
  put L.service u.course (L.request u.uploadedAt records) table

/-- The attempt that an upload is for the engine. -/
def attempt (u : Upload) (records : List SqlServerWeightRecord) (table : InboundPayloads) : Attempt where
  uploadedAt := u.uploadedAt
  respond _ := if u.fate = .answered then some (L.serve u records table).1 else none
  elapsed := 0

/-- One step. -/
def step (s : State) : Move → Option State
  | .engine (.attempt _) => none
  | .engine a => (L.engine.step s.engine a).map fun e => ⟨e, s.table⟩
  | .upload u =>
      match s.engine.phase with
      | .uploading _ records =>
          (L.engine.step s.engine (.attempt (L.attempt u records s.table))).map fun e =>
            ⟨e, if u.fate = .lost then s.table else (L.serve u records s.table).2⟩
      | _ => none
  | .other course request => some ⟨s.engine, (put L.service course request s.table).2⟩

/-- The runs of the two. -/
def runs : System State Move where
  init s := s.engine.phase = .idle
  step := L.step

end Loopback

/-! ## What is uploaded and what is answered -/

/-- The serial numbers of an upload. -/
theorem serialNos_uploadRequest {lib : FloatLib} (source : SqlServerConfig) (uploadedAt : Str)
    {records : List SqlServerWeightRecord} (h : ∀ record ∈ records, ∃ row, rowToRecord lib row = .ok record) :
    serialNos (SqlServerEngine.uploadRequest source uploadedAt records) =
      records.map SqlServerWeightRecord.serialNo := by
  have hrecords : Inbound.records (SqlServerEngine.uploadRequest source uploadedAt records) =
      records.map fun record => Json.ofMap record.data := rfl
  rw [serialNos, hrecords, List.filterMap_map, ← List.filterMap_eq_map]
  refine List.filterMap_congr fun record hrecord => ?_
  obtain ⟨row, hrow⟩ := h record hrecord
  obtain ⟨hnodup, hmem, -⟩ := data_of_rowToRecord hrow
  have hperm := List.perm_insertionSort Json.fieldLE record.data
  have hfound : get "serialNo" (Json.ofMap record.data) = some (.str record.serialNo) := by
    rw [Json.ofMap, get, Json.lookup_eq_some_iff ((hperm.map Prod.fst).nodup_iff.mpr hnodup)]
    exact hperm.mem_iff.mpr hmem
  rw [Function.comp_apply, Function.comp_apply, serialNo, hfound]
  rfl

/-- A list of texts is read as it was written. -/
theorem texts_reread {f : Str → Option Str} {texts : List Str} {j' : Json}
    (h : Reread f (.arr (texts.map .str)) j') : j' = .arr (texts.map .str) := by
  obtain ⟨ys, hys, rfl⟩ := reread_arr.mp h
  rw [List.forall₂_map_left_iff] at hys
  congr 1
  clear h
  induction hys with
  | nil => rfl
  | cons hy _ ih =>
      cases hy
      rw [List.map_cons, ih]

theorem vecField_of_get {α : Type} {element : Json → Option α} {name : String} {fields : List (Str × Json)}
    {xs : List Json} (hnodup : (fields.map Prod.fst).Nodup) (h : get name (.obj fields) = some (.arr xs)) :
    vecField element name fields = xs.mapM element := by
  have hmem := (Json.lookup_eq_some_iff hnodup).mp h
  have hfilter : fields.filter (fun f => f.1 = Str.lit name) = [(Str.lit name, .arr xs)] := by
    clear h
    induction fields with
    | nil => cases hmem
    | cons g fields ih =>
        rw [List.map_cons, List.nodup_cons] at hnodup
        rcases List.mem_cons.mp hmem with rfl | hmem
        · have hrest : fields.filter (fun f => f.1 = Str.lit name) = [] :=
            List.filter_eq_nil_iff.mpr fun f hf hname =>
              hnodup.1 (List.mem_map.mpr ⟨f, hf, of_decide_eq_true hname⟩)
          rw [List.filter_cons_of_pos (by simp), hrest]
        · have hother : ¬ g.1 = Str.lit name := fun hname =>
            hnodup.1 (hname ▸ List.mem_map_of_mem hmem)
          rw [List.filter_cons_of_neg (by simpa using hother), ih hnodup.2 hmem]
  rw [vecField, hfilter]

/-- The engine reads the serial numbers of a payload in the reply to it. -/
theorem decodeResponse_reread {f : Str → Option Str} {course : Course} {payload j' : Json}
    (h : Reread f (putResponse course payload) j') :
    SqlServerEngine.decodeResponse j' = some ⟨serialNos payload, []⟩ := by
  have haccepted := reread_get h "accepted_serial_nos"
  have hfailed := reread_get h "failed_serial_nos"
  obtain ⟨fields', hfields, rfl⟩ := reread_obj h
  have hnodup : (fields'.map Prod.fst).Nodup := by
    rw [Json.names_of_forall₂ hfields]
    exact Json.nodup_of_pairwise_lt (Json.pairwise_canonicalMembers _)
  have hserials : get "accepted_serial_nos" (.obj fields') = some (.arr ((serialNos payload).map .str)) := by
    have hwritten : get "accepted_serial_nos" (putResponse course payload) =
        some (.arr ((serialNos payload).map .str)) := rfl
    rw [hwritten] at haccepted
    generalize get "accepted_serial_nos" (.obj fields') = y at haccepted
    cases haccepted with
    | some hy => rw [texts_reread hy]
  have hnone : get "failed_serial_nos" (.obj fields') = some (.arr []) := by
    have hwritten : get "failed_serial_nos" (putResponse course payload) =
        some (.arr (([] : List Str).map .str)) := rfl
    rw [hwritten] at hfailed
    generalize get "failed_serial_nos" (.obj fields') = y at hfailed
    cases hfailed with
    | some hy => rw [texts_reread hy, List.map_nil]
  have hread : ((serialNos payload).map Json.str).mapM SqlServerEngine.decodeSerialNo =
      some (serialNos payload) := by
    have hall := mapM_some_of_forall (f := SqlServerEngine.decodeSerialNo ∘ Json.str) (g := id)
      fun x (_ : x ∈ serialNos payload) => rfl
    rwa [List.map_id, ← List.mapM_map] at hall
  rw [SqlServerEngine.decodeResponse, decodeTwoLists, vecField_of_get hnodup hserials,
    vecField_of_get hnodup hnone, hread]
  rfl

section

variable {lib : SqlServerEngine.Lib} {source : SqlServerConfig} {records : List SqlServerWeightRecord}
  {attempt : Attempt} {reply : HttpReply}

theorem uploadBatch_of_failure
    (h : attempt.respond (SqlServerEngine.uploadRequest source attempt.uploadedAt records) = some reply)
    (hstatus : reply.status ≠ 204) (hfailure : reply.isSuccess = false) :
    SqlServerEngine.uploadBatch lib source records attempt =
      .error (.fromStatus lib.statusText reply.status (reply.body.getD []).repair) := by
  rw [SqlServerEngine.uploadBatch, h]
  simp only [if_neg hstatus, if_pos hfailure]

variable (lib) in
theorem uploadBatch_of_success {body : Str}
    (h : attempt.respond (SqlServerEngine.uploadRequest source attempt.uploadedAt records) = some ⟨200, some body⟩)
    (hvalid : body.Valid) {j : Json} {response : TwoLists Str} (hparse : lib.parseJson body = some j)
    (hdecode : SqlServerEngine.decodeResponse j = some response) :
    SqlServerEngine.uploadBatch lib source records attempt =
      .ok (if body.trimSpace = [] then ⟨[], []⟩ else response) := by
  rw [SqlServerEngine.uploadBatch, h]
  have hsuccess : ¬ HttpReply.isSuccess ⟨200, some body⟩ = false := by
    intro h
    cases h
  simp only [Str.repair_eq_self_iff.mpr hvalid, hparse, Option.bind_some, hdecode, if_neg hsuccess]
  rw [if_neg (by decide)]
  split_ifs <;> rfl

end

section

variable {L : Loopback} {u : Loopback.Upload} {records : List SqlServerWeightRecord}
  {table : InboundPayloads} {response : TwoLists Str}

/-- What is written in an upload are values: the request of the engine, and the reply of the service. -/
structure Loopback.Values (L : Loopback) (u : Loopback.Upload) (records : List SqlServerWeightRecord) : Prop where
  request : L.service.lib.IsValue (SqlServerEngine.uploadRequest L.source u.uploadedAt records)
  reply : ∀ payload, Accepted L.service (L.request u.uploadedAt records) payload →
    L.service.lib.IsValue (putResponse u.course payload)

/-- The payload that the service takes of an upload has the serial numbers of its records. -/
theorem serialNos_of_accepted
    (hvalue : L.service.lib.IsValue (SqlServerEngine.uploadRequest L.source u.uploadedAt records))
    (hrecords : ∀ record ∈ records, ∃ row, rowToRecord L.floats row = .ok record) {payload : Json}
    (h : Accepted L.service (L.request u.uploadedAt records) payload) :
    serialNos payload = records.map SqlServerWeightRecord.serialNo := by
  obtain ⟨payload', hread, hreread⟩ := hvalue.read
  have hextracted := h.extracted
  unfold extract at hextracted
  split_ifs at hextracted
  rw [Loopback.request, hread] at hextracted
  cases hextracted
  rw [serialNos_reread hreread, serialNos_uploadRequest L.source u.uploadedAt hrecords]

variable (table) in
/-- What the engine makes of an upload whose payload is taken, if it is answered. -/
theorem uploadBatch_of_accepted (hlib : L.service.lib.Documented) (hvalues : L.Values u records)
    (hfate : u.fate = .answered) {payload : Json}
    (h : Accepted L.service (L.request u.uploadedAt records) payload) : ∃ response,
      SqlServerEngine.uploadBatch L.engine.lib L.source records (L.attempt u records table) = .ok response ∧
        (response = ⟨[], []⟩ ∨ response = ⟨serialNos payload, []⟩) := by
  have hvalue := hvalues.reply payload h
  obtain ⟨reply', hread, hreread⟩ := hvalue.read
  have hrespond : (L.attempt u records table).respond
      (SqlServerEngine.uploadRequest L.source (L.attempt u records table).uploadedAt records) =
        some ⟨200, some (L.service.lib.toText (putResponse u.course payload))⟩ := by
    rw [Loopback.attempt, if_pos hfate, Loopback.serve, put_of_accepted h]
  have hupload := uploadBatch_of_success L.engine.lib hrespond (hlib.text _ hvalue) hread
    (decodeResponse_reread hreread)
  refine ⟨_, hupload, ?_⟩
  split_ifs
  · exact Or.inl rfl
  · exact Or.inr rfl

/-- What it takes as accepted are the serial numbers of the batch. -/
theorem acceptedSerialNos_of_silent {serials : List Str}
    (hserials : serials = records.map SqlServerWeightRecord.serialNo)
    (h : response = ⟨[], []⟩ ∨ response = ⟨serials, []⟩) :
    SqlServerEngine.acceptedSerialNos records response = serials := by
  rw [SqlServerEngine.acceptedSerialNos, TwoLists.acceptedFrom]
  rcases h with rfl | rfl
  · exact hserials.symm
  · split_ifs
    · exact hserials.symm
    · rfl

/-- An upload is acknowledged only if it is answered and its payload is taken, and then with the serial
numbers of the batch. -/
theorem accepted_of_uploadBatch (hlib : L.service.lib.Documented) (hvalues : L.Values u records)
    (hrecords : ∀ record ∈ records, ∃ row, rowToRecord L.floats row = .ok record)
    (h : SqlServerEngine.uploadBatch L.engine.lib L.source records (L.attempt u records table) = .ok response) :
    u.fate = .answered ∧ ∃ payload, Accepted L.service (L.request u.uploadedAt records) payload ∧
      SqlServerEngine.acceptedSerialNos records response = serialNos payload := by
  by_cases hfate : u.fate = .answered
  · refine ⟨hfate, ?_⟩
    by_cases haccepted : ∃ payload, Accepted L.service (L.request u.uploadedAt records) payload
    · obtain ⟨payload, haccepted⟩ := haccepted
      obtain ⟨response', hupload, hresponse⟩ := uploadBatch_of_accepted table hlib hvalues hfate haccepted
      obtain rfl : response = response' := Except.ok.inj (h.symm.trans hupload)
      exact ⟨payload, haccepted, acceptedSerialNos_of_silent
        (serialNos_of_accepted hvalues.request hrecords haccepted) hresponse⟩
    · push Not at haccepted
      obtain ⟨hstatus, -⟩ := put_of_not_accepted u.course table haccepted
      have hrefused : ∀ status ∈ refusedStatuses, status ≠ 204 ∧
          (200 ≤ status && status < 300) = false := by decide
      obtain ⟨hne, hfailure⟩ := hrefused _ hstatus
      have hrespond : (L.attempt u records table).respond
          (SqlServerEngine.uploadRequest L.source (L.attempt u records table).uploadedAt records) =
            some (put L.service u.course (L.request u.uploadedAt records) table).1 := by
        rw [Loopback.attempt, if_pos hfate, Loopback.serve]
      rw [uploadBatch_of_failure hrespond hne hfailure] at h
      cases h
  · have hrespond : (L.attempt u records table).respond
        (SqlServerEngine.uploadRequest L.source (L.attempt u records table).uploadedAt records) = none := by
      rw [Loopback.attempt, if_neg hfate]
    rw [SqlServerEngine.uploadBatch, hrespond] at h
    cases h

end

/-- An upload that is acknowledged leads to its marks. -/
theorem step_upload {L : Loopback} {u : Loopback.Upload} {rows fetched : List WeightRow}
    {records : List SqlServerWeightRecord} {table : InboundPayloads} {response : TwoLists Str}
    (h : SqlServerEngine.uploadBatch L.engine.lib L.source records (L.attempt u records table) = .ok response) :
    L.step ⟨⟨rows, .uploading fetched records⟩, table⟩ (.upload u) =
      some ⟨⟨rows, Setup.marking fetched records (L.engine.toMark records response)⟩,
        if u.fate = .lost then table else (L.serve u records table).2⟩ := by
  have hstep : L.engine.step ⟨rows, .uploading fetched records⟩ (.attempt (L.attempt u records table)) =
      some ⟨rows, Setup.marking fetched records (L.engine.toMark records response)⟩ := by
    simp only [Setup.step]
    rw [show SqlServerEngine.uploadBatch L.engine.lib L.engine.source records _ = _ from h]
  rw [Loopback.step]
  simp only [hstep, Option.map_some]

/-! ## Runs -/

/-- A payload of the register has the serial number. -/
def Registered (L : Loopback) (table : InboundPayloads) (serial : Str) : Prop :=
  ∃ row ∈ table.rows, ∃ payload, L.service.lib.fromBytes row.payloadJson = some payload ∧
    serial ∈ serialNos payload

/-- Whatever row the next step sets the flag of, a serial number that the database takes as its own is
registered. -/
def FlagsRegistered (L : Loopback) (s : Loopback.State) : Prop :=
  ∀ m s', L.step s m = some s' → ∀ (i : ℕ) (row row' : WeightRow), s.engine.rows[i]? = some row →
    s'.engine.rows[i]? = some row' → row.isUploadCloud ≠ some 1 → row'.isUploadCloud = some 1 →
    ∃ serial, L.server.named [serial] row = true ∧ Registered L s.table serial

/-- An upload whose texts are values, and whose payload is inserted if it is taken: its row has a new id, and
the statement does not fail. -/
def Persists (L : Loopback) (s : Loopback.State) : Loopback.Move → Prop
  | .upload u =>
      match s.engine.phase with
      | .uploading _ records => L.Values u records ∧ u.course.insertFails = false ∧
          u.course.requestId ∉ s.table.rows.map InboundRow.requestId
      | _ => True
  | _ => True

section

variable {L : Loopback} {s s' : Loopback.State} {m : Loopback.Move} {table : InboundPayloads}

/-- What is registered stays so. -/
theorem registered_put {serial : Str} (h : Registered L table serial) (course : Course) (request : Request) :
    Registered L (put L.service course request table).2 serial := by
  obtain ⟨row, hrow, hpayload⟩ := h
  refine ⟨row, ?_, hpayload⟩
  rw [rows_put]
  exact List.mem_append_left _ hrow

/-- What is accepted and inserted is registered. -/
theorem registered_of_accepted (hlib : L.service.lib.Documented) (hpersist : L.service.app.persist = true)
    {course : Course} {request : Request} {payload : Json} (h : Accepted L.service request payload)
    (hinsert : course.insertFails = false) (hnew : course.requestId ∉ table.rows.map InboundRow.requestId)
    {serial : Str} (hserial : serial ∈ serialNos payload) :
    Registered L (put L.service course request table).2 serial := by
  obtain ⟨payload', hread, hreread⟩ := reread_payload hlib h
  refine ⟨inboundRow L.service.lib course.requestId course.receivedAt payload, ?_, payload', hread, ?_⟩
  · rw [rows_put, attempted_of_accepted h, if_pos ⟨hpersist, hinsert⟩]
    refine List.mem_append_right _ (List.mem_filter.mpr ⟨List.mem_singleton_self _, ?_⟩)
    exact decide_eq_true hnew
  · rw [serialNos_reread hreread]
    exact hserial

theorem reachedBy_upload {u : Loopback.Upload} {rows fetched : List WeightRow}
    {records : List SqlServerWeightRecord} {response : TwoLists Str}
    (hreached : L.runs.ReachedBy (Persists L) ⟨⟨rows, .uploading fetched records⟩, table⟩)
    (hok : Persists L ⟨⟨rows, .uploading fetched records⟩, table⟩ (.upload u))
    (h : SqlServerEngine.uploadBatch L.engine.lib L.source records (L.attempt u records table) = .ok response) :
    L.runs.ReachedBy (Persists L) ⟨⟨rows, Setup.marking fetched records (L.engine.toMark records response)⟩,
      if u.fate = .lost then table else (L.serve u records table).2⟩ :=
  .next (a := .upload u) hreached (step_upload h) hok

/-- The records of a batch are read of rows, and what remains to be marked is registered. -/
def InOrder (L : Loopback) (s : Loopback.State) : Prop :=
  match s.engine.phase with
  | .idle => True
  | .uploading _ records => ∀ record ∈ records, ∃ row, rowToRecord L.floats row = .ok record
  | .marking _ _ remaining => ∀ serial ∈ remaining.flatten, Registered L s.table serial

theorem inOrder_marking {fetched : List WeightRow} {records : List SqlServerWeightRecord} {rows : List WeightRow}
    {remaining : List (List Str)} (h : ∀ serial ∈ remaining.flatten, Registered L table serial) :
    InOrder L ⟨⟨rows, Setup.marking fetched records remaining⟩, table⟩ := by
  cases remaining with
  | nil => trivial
  | cons chunk remaining => exact h

/-- Every record of a batch is read of a row. -/
theorem exists_row_of_mapM {lib : FloatLib} {rows : List WeightRow} {records : List SqlServerWeightRecord}
    (h : rows.mapM (rowToRecord lib) = .ok records) :
    ∀ record ∈ records, ∃ row, rowToRecord lib row = .ok record := by
  induction rows generalizing records with
  | nil =>
      cases h
      exact fun record hrecord => absurd hrecord List.not_mem_nil
  | cons row rows ih =>
      rw [List.mapM_cons] at h
      obtain ⟨first, hfirst, h⟩ := bind_eq_ok_iff.mp h
      obtain ⟨rest, hrest, h⟩ := bind_eq_ok_iff.mp h
      cases h
      intro record hrecord
      rcases List.mem_cons.mp hrecord with rfl | hrecord
      · exact ⟨row, hfirst⟩
      · exact ih hrest record hrecord

theorem inOrder_step (hlib : L.service.lib.Documented) (hpersist : L.service.app.persist = true)
    (hs : InOrder L s) (hstep : L.step s m = some s') (hok : Persists L s m) : InOrder L s' := by
  obtain ⟨⟨rows, phase⟩, table⟩ := s
  cases m with
  | other course request =>
      cases hstep
      cases phase with
      | idle => trivial
      | uploading fetched records => exact hs
      | marking fetched records remaining =>
          exact fun serial hserial => registered_put (hs serial hserial) course request
  | upload u =>
      cases phase with
      | uploading fetched records =>
          obtain ⟨hvalues, hinsert, hnew⟩ := hok
          obtain ⟨e, he, rfl⟩ := Option.map_eq_some_iff.mp hstep
          simp only [Setup.step] at he
          split at he
          · next response hresponse =>
            cases he
            obtain ⟨hfate, payload, haccepted, hserials⟩ :=
              accepted_of_uploadBatch hlib hvalues hs hresponse
            refine inOrder_marking fun serial hserial => ?_
            rw [hfate, if_neg (by decide)]
            refine registered_of_accepted hlib hpersist haccepted hinsert hnew ?_
            -- the statements name the serial numbers of the reply
            rw [← hserials]
            unfold Setup.toMark at hserial
            split_ifs at hserial
            · rwa [flatten_chunks (by decide)] at hserial
            · cases hserial
          · cases he
            exact hs
          · cases he
            trivial
      | idle => cases hstep
      | marking fetched records remaining => cases hstep
  | engine a =>
      cases a with
      | attempt attempt => cases hstep
      | edit i row =>
          cases hstep
          exact hs
      | fetch =>
          obtain ⟨e, he, rfl⟩ := Option.map_eq_some_iff.mp hstep
          simp only [Setup.step] at he
          split at he
          · next hfetched =>
            cases he
            exact exists_row_of_mapM hfetched
          · cases he
      | giveUp =>
          cases phase with
          | uploading fetched records =>
              cases hstep
              trivial
          | idle => cases hstep
          | marking fetched records remaining => cases hstep
      | mark =>
          cases phase with
          | marking fetched records remaining =>
              cases remaining with
              | nil => cases hstep
              | cons chunk remaining =>
                  cases hstep
                  exact inOrder_marking fun serial hserial =>
                    hs serial (List.mem_append_right chunk hserial)
          | idle => cases hstep
          | uploading fetched records => cases hstep
      | fail =>
          cases phase with
          | marking fetched records remaining =>
              cases hstep
              trivial
          | idle => cases hstep
          | uploading fetched records => cases hstep

end

/-- What is named by a list of serial numbers is named by one of them. -/
theorem exists_named {server : Server} {serials : List Str} {row : WeightRow}
    (h : server.named serials row = true) : ∃ serial ∈ serials, server.named [serial] row = true := by
  obtain ⟨own, hown, h⟩ := (Option.any_eq_true _ _).mp h
  obtain ⟨serial, hserial, hsame⟩ := List.any_eq_true.mp h
  refine ⟨serial, hserial, (Option.any_eq_true _ _).mpr ⟨own, hown, ?_⟩⟩
  exact List.any_eq_true.mpr ⟨serial, List.mem_singleton_self _, hsame⟩

/-- A step of the two is one of the engine, or leaves its table alone. -/
theorem engine_step {L : Loopback} {s s' : Loopback.State} {m : Loopback.Move} (hstep : L.step s m = some s') :
    (∃ a, L.engine.step s.engine a = some s'.engine) ∨ s'.engine = s.engine := by
  cases m with
  | other course request =>
      cases hstep
      exact Or.inr rfl
  | upload u =>
      simp only [Loopback.step] at hstep
      split at hstep
      · obtain ⟨e, he, rfl⟩ := Option.map_eq_some_iff.mp hstep
        exact Or.inl ⟨_, he⟩
      · cases hstep
  | engine a =>
      cases a with
      | attempt attempt => cases hstep
      | edit i row =>
          cases hstep
          exact Or.inl ⟨.edit i row, rfl⟩
      | fetch | giveUp | mark | fail =>
          obtain ⟨e, he, rfl⟩ := Option.map_eq_some_iff.mp hstep
          exact Or.inl ⟨_, he⟩

/-- The flags that the next step sets are on rows that are registered. -/
theorem flagsRegistered_of_inOrder {L : Loopback} {s : Loopback.State} (hs : InOrder L s) : FlagsRegistered L s := by
  intro m s' hstep i row row' hrow hrow' hflag hflag'
  rcases engine_step hstep with ⟨a, ha⟩ | hsame
  · rcases rows_step ha with hsame | ⟨j, edit, hedit⟩ | ⟨fetched, records, chunk, remaining, hphase, hmark⟩
    · rw [hsame, hrow, Option.some_inj] at hrow'
      exact absurd (hrow' ▸ hflag') hflag
    · rw [hedit] at hrow'
      exact absurd (isUploadCloud_edited hrow hrow' ▸ hflag') hflag
    · rw [hmark, Server.markChunk, List.getElem?_map, hrow, Option.map_some, Option.some_inj] at hrow'
      by_cases hchunk : L.engine.server.named chunk row = true
      · obtain ⟨serial, hserial, hnamed⟩ := exists_named hchunk
        rw [InOrder, hphase] at hs
        exact ⟨serial, hnamed, hs serial (List.mem_append_left _ hserial)⟩
      · rw [if_neg hchunk] at hrow'
        exact absurd (hrow' ▸ hflag') hflag
  · rw [hsame, hrow, Option.some_inj] at hrow'
    exact absurd (hrow' ▸ hflag') hflag

/-- In every run in which the service inserts what it accepts, a flag is set only on a row whose serial
number is in a payload of the register: whatever is lost, edited or put by others meanwhile. -/
theorem flagged_is_registered (L : Loopback) (hlib : L.service.lib.Documented)
    (hpersist : L.service.app.persist = true) {s : Loopback.State} (h : L.runs.ReachedBy (Persists L) s) :
    FlagsRegistered L s := by
  refine flagsRegistered_of_inOrder (h.invariant (fun s hinit => ?_) fun s m s' hs hstep hok =>
    inOrder_step hlib hpersist hs hstep hok)
  rw [InOrder, show s.engine.phase = .idle from hinit]
  trivial

/-! ## A first upload -/

/-- An engine and a service with one key; the first request just fits. -/
def plainLoop : Loopback where
  service := { plainService with maxBodyBytes := (firstRequest "A").encode.size }
  apiKey := some (Str.lit "secret")
  statusText := natText
  floats := plainLib.toFloatLib
  server := plainServer
  source := plainSource
  cfg := oneRecordConfig

def firstUpload : Loopback.Upload := ⟨firstVisit.uploadedAt, firstCourse, .answered⟩

/-- The first row of two is fetched. -/
abbrev firstFetched : Loopback.State :=
  ⟨⟨twoWeights, .uploading [pendingWeight "A"] [weightRecord "A"]⟩, .empty⟩

theorem step_firstFetched :
    plainLoop.step ⟨⟨twoWeights, .idle⟩, .empty⟩ (.engine .fetch) = some firstFetched := by
  have hbatch : plainServer.pendingRows 1 twoWeights = [pendingWeight "A"] := by decide +kernel
  have hfetched : plainServer.fetchPending plainLib.toFloatLib 1 twoWeights = .ok [weightRecord "A"] := by
    rw [Server.fetchPending, hbatch]
    rfl
  have hstep : plainLoop.engine.step ⟨twoWeights, .idle⟩ .fetch = some firstFetched.engine := by
    have hserver : plainLoop.engine.server.fetchPending plainLoop.engine.lib.toFloatLib
        plainLoop.engine.cfg.batchSize twoWeights = .ok [weightRecord "A"] := hfetched
    rw [firstFetched, ← hbatch, Setup.step]
    simp only [hserver]
    rfl
  rw [Loopback.step, hstep]
  · rfl
  · intro attempt h
    cases h

/-- A reply with texts that are valid is a value. -/
theorem isValue_putResponse {course : Course} {payload : Json} (hid : course.requestId.Valid)
    (htime : course.repliedAt.Valid) (hserials : ∀ s ∈ serialNos payload, s.Valid) :
    plainSerde.IsValue (putResponse course payload) := by
  have hname : ∀ name : String, (Str.lit name).repair = Str.lit name := fun name =>
    Str.repair_eq_self_iff.mpr (Str.valid_lit name)
  have htexts : Json.repairElements ((serialNos payload).map Json.str) = (serialNos payload).map Json.str := by
    rw [Json.repairElements_eq, List.map_map]
    exact List.map_congr_left fun s hs => congrArg Json.str (Str.repair_eq_self_iff.mpr (hserials s hs))
  refine isValue_plainSerde ?_ ?_
  · rw [putResponse, Json.wellFormed_obj]
    simp only [List.forall_mem_cons, Json.wellFormed_arr]
    refine ⟨trivial, trivial, fun s hs => ?_, List.forall_mem_nil _, ?_, trivial, List.forall_mem_nil _⟩
    · obtain ⟨text, -, rfl⟩ := List.mem_map.mp hs
      trivial
    · exact wellFormed_itoa (records payload).length
  · rw [putResponse, Json.repair_obj]
    simp only [List.map_cons, List.map_nil, hname, htexts, Json.repair, Json.repairElements,
      Str.repair_eq_self_iff.mpr hid, Str.repair_eq_self_iff.mpr htime]

theorem values_firstUpload : plainLoop.Values firstUpload [weightRecord "A"] := by
  have hrequest := isValue_plainSerde (wellFormed_firstRequest "A") (repair_firstRequest "A")
  refine ⟨hrequest, fun payload haccepted => isValue_putResponse (Str.valid_lit _) (Str.valid_lit _) ?_⟩
  have hserials := serialNos_of_accepted hrequest (fun record hrecord =>
    ⟨pendingWeight "A", by rw [List.mem_singleton.mp hrecord]; rfl⟩) haccepted
  rw [hserials]
  intro s hs
  rw [List.mem_singleton.mp hs]
  exact Str.valid_lit "A"

theorem accepted_firstUpload :
    ∃ payload, Accepted plainLoop.service (plainLoop.request firstUpload.uploadedAt [weightRecord "A"]) payload := by
  obtain ⟨payload, hread, hreread⟩ := values_firstUpload.request.read
  have hlength := (records_reread hreread).length_eq
  refine ⟨payload, ?_, (by decide +kernel), fun hempty => ?_⟩
  · have hbody : plainLoop.service.lib.fromBytes
        (plainLoop.request firstUpload.uploadedAt [weightRecord "A"]).body = some payload := hread
    have htype : (plainLoop.request firstUpload.uploadedAt [weightRecord "A"]).jsonContentType = true := rfl
    have htext : (plainLoop.request firstUpload.uploadedAt [weightRecord "A"]).body =
        (firstRequest "A").encode := rfl
    have hlimit : plainLoop.service.maxBodyBytes = (firstRequest "A").encode.size := rfl
    rw [extract, if_neg (by rw [htype]; decide), hlimit, hbody, htext, if_neg (Nat.lt_irrefl _)]
  · rw [hempty] at hlength
    cases hlength

/-- The flag of the first row is about to be set, and its serial number is registered. -/
theorem flagged_is_registered_first : ∃ s : Loopback.State, FlagsRegistered plainLoop s ∧
    ∃ s', plainLoop.step s (.engine .mark) = some s' := by
  have hidle : plainLoop.runs.ReachedBy (Persists plainLoop) ⟨⟨twoWeights, .idle⟩, .empty⟩ := .start rfl
  have hfetched : plainLoop.runs.ReachedBy (Persists plainLoop) firstFetched :=
    hidle.next (a := .engine .fetch) step_firstFetched trivial
  obtain ⟨payload, haccepted⟩ := accepted_firstUpload
  obtain ⟨response, hresponse, hserials⟩ :=
    uploadBatch_of_accepted .empty documented_plainSerde values_firstUpload rfl haccepted
  have hmark : plainLoop.engine.toMark [weightRecord "A"] response = [[Str.lit "A"]] := by
    have hbatch := serialNos_of_accepted values_firstUpload.request
      (fun record hrecord => ⟨pendingWeight "A", by rw [List.mem_singleton.mp hrecord]; rfl⟩) haccepted
    rw [Setup.toMark, acceptedSerialNos_of_silent hbatch hserials, hbatch]
    rfl
  have hmarking := reachedBy_upload hfetched ⟨values_firstUpload, rfl, List.not_mem_nil⟩ hresponse
  rw [hmark] at hmarking
  generalize (if firstUpload.fate = .lost then InboundPayloads.empty
    else (plainLoop.serve firstUpload [weightRecord "A"] .empty).2) = table at hmarking
  exact ⟨_, flagged_is_registered plainLoop documented_plainSerde rfl hmarking, _, rfl⟩

end WeighingSync.Inbound
