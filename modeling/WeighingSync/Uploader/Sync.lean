import WeighingSync.Go.Http
import WeighingSync.Uploader.Source
import WeighingSync.Uploader.State

/-!
# One pass of the uploader

`syncOnce` of `cmd/uploader/main.go` with `post` and `acknowledged`: read the two windows, leave out
what is confirmed already, send the rest in one request, and append to the state file what the
reply acknowledges. The exchange with C is a function from the request body to the reply, if one
arrives; the texts of the clock are inputs.
-/

namespace WeighingSync.Uploader

open Go

/-- `uploadResponse`. -/
structure UploadResponse where
  acceptedRecordKeys : List Str
  failedRecordKeys : List Str
  accepted : List Str
  failed : List Str
  deriving DecidableEq, Repr

/-- The response of a reply without content. -/
def UploadResponse.empty : UploadResponse := ⟨[], [], [], []⟩

/-- The JSON object of the map `data`. -/
def dataJSON (data : List (Str × Scalar)) : Json :=
  Json.ofMap (data.map fun f => (f.1, f.2.json))

/-- A list of records that `omitempty` leaves out where it is empty. -/
def omitEmptyRecords (name : String) (records : List SourceRecord) : List (Str × Json) :=
  if records = [] then [] else [(Str.lit name, .arr (records.map fun r => dataJSON r.data))]

/-- `uploadPayload`, for the records of a pass. -/
def uploadPayload (cfg : Config) (uploadedAt : Str) (pending : List SourceRecord) : Json :=
  .obj ([(Str.lit "source", .str cfg.source), (Str.lit "database", .str cfg.database),
      (Str.lit "uploaded_at", .str uploadedAt)] ++
    omitEmptyRecords "weight_info_records" (pending.filter fun r => r.entityType ≠ weightPhoto) ++
    omitEmptyRecords "weight_photo_records" (pending.filter fun r => r.entityType = weightPhoto))

/-- Decoding of `uploadResponse`. -/
def decodeResponse (j : Json) : Option UploadResponse := do
  let fields ← j.decodeObject
  let acceptedRecordKeys ←
    Json.decodeStrings (Json.structField fields (Str.lit "accepted_record_keys"))
  let failedRecordKeys ←
    Json.decodeStrings (Json.structField fields (Str.lit "failed_record_keys"))
  let accepted ← Json.decodeStrings (Json.structField fields (Str.lit "accepted_serial_nos"))
  let failed ← Json.decodeStrings (Json.structField fields (Str.lit "failed_serial_nos"))
  return { acceptedRecordKeys, failedRecordKeys, accepted, failed }

/-- Why `post` returns an error. -/
inductive PostError
  | send
  | status (code : ℕ) (text : Str)
  | decode
  deriving DecidableEq, Repr

/-- What `post` makes of a reply. -/
def readResponse (reply : Reply) : Except PostError UploadResponse :=
  if reply.success = false then .error (.status reply.status reply.received.trimSpace)
  else if reply.status = 204 ∨ reply.received.trimSpace = [] then .ok .empty
  else
    match (parse reply.received).bind decodeResponse with
    | some response => .ok response
    | none => .error .decode

/-- `post`. -/
def post (send : Str → Option Reply) (body : Str) : Except PostError UploadResponse :=
  match send body with
  | none => .error .send
  | some reply => readResponse reply

/-- The keys that a response acknowledges. -/
def UploadResponse.acceptedSet (response : UploadResponse) : List Str :=
  response.acceptedRecordKeys ++
    response.accepted.map fun serial => Str.lit "weight_info:" ++ serial

/-- The key under which `acknowledged` looks a record up. -/
def SourceRecord.lookupKey (r : SourceRecord) : Str :=
  if r.recordKey = [] then
    (if r.entityType = [] then Str.lit "weight_info" else r.entityType) ++ Str.lit ":" ++ r.serial
  else r.recordKey

/-- `acknowledged`. -/
def acknowledged (records : List SourceRecord) (response : UploadResponse) : List SourceRecord :=
  if response = .empty then records
  else records.filter fun r => r.lookupKey ∈ response.acceptedSet

/-- The state entry of an acknowledged record. -/
def SourceRecord.entry (acceptedAt : Str) (r : SourceRecord) : StateEntry where
  entityType := r.entityType
  primaryKey := r.pk
  recordKey := r.recordKey
  serialNo := r.serial
  acceptedAt := acceptedAt

/-- Why `syncOnce` returns an error. -/
inductive SyncError
  | fetch (e : FetchError)
  | post (e : PostError)
  | noneAccepted (submitted : ℕ)
  | append (accepted : ℕ) (e : StateError)
  deriving DecidableEq, Repr

/-- How a pass ends; `idle` is the pass that logs "no unconfirmed SQL Server records". -/
inductive Outcome
  | idle
  | synced (submitted accepted failed : ℕ)
  | failed (e : SyncError)
  deriving DecidableEq, Repr

/-- A pass: how it ends, the request body it has sent, if any, and the state it leaves. -/
structure Pass where
  outcome : Outcome
  posted : Option Str
  confirmed : List SourceRecord
  store : StateStore

/-- What a pass meets: the texts of its clock, the replies of C, and the room left on the disk. -/
structure Exchange where
  uploadedAt : Str
  acceptedAt : Str
  send : Str → Option Reply
  room : Option ℕ

/-- The record is in the state store. -/
def SourceRecord.confirmedIn (r : SourceRecord) (store : StateStore) : Bool :=
  store.contains r.entityType r.pk

/-- The records of a pass that the state store does not have. -/
def pendingOf (store : StateStore) (records : List SourceRecord) : List SourceRecord :=
  records.filter fun r => !r.confirmedIn store

/-- The request body of a pass. -/
def requestBody (cfg : Config) (x : Exchange) (pending : List SourceRecord) : Str :=
  (uploadPayload cfg x.uploadedAt pending).encode

/-- `syncOnce`. -/
def syncOnce (cfg : Config) (db : SourceDb) (store : StateStore) (x : Exchange) : Pass :=
  match fetchAll cfg db with
  | .error e => ⟨.failed (.fetch e), none, [], store⟩
  | .ok records =>
      let pending := pendingOf store records
      if pending = [] then ⟨.idle, none, [], store⟩
      else
        let body := requestBody cfg x pending
        match post x.send body with
        | .error e => ⟨.failed (.post e), some body, [], store⟩
        | .ok response =>
            let accepted := acknowledged pending response
            if accepted = [] then ⟨.failed (.noneAccepted pending.length), some body, [], store⟩
            else
              match store.append (accepted.map (SourceRecord.entry x.acceptedAt)) x.room with
              | (store', .error e) =>
                  ⟨.failed (.append accepted.length e), some body, accepted, store'⟩
              | (store', .ok ()) =>
                  ⟨.synced pending.length accepted.length
                    (response.failedRecordKeys.length + response.failed.length),
                    some body, accepted, store'⟩

/-! ## What a pass can do -/

theorem acknowledged_subset (records : List SourceRecord) (response : UploadResponse) :
    acknowledged records response ⊆ records := by
  unfold acknowledged
  split_ifs
  · exact List.Subset.refl _
  · exact List.filter_subset_self _

/-- A pass ends before its request, and leaves the state as it was; or it has sent what is pending,
confirms records among these, and leaves the state with their entries appended. -/
theorem syncOnce_cases (cfg : Config) (db : SourceDb) (store : StateStore) (x : Exchange) :
    (∃ e, fetchAll cfg db = .error e ∧
      syncOnce cfg db store x = ⟨.failed (.fetch e), none, [], store⟩) ∨
    ∃ records, fetchAll cfg db = .ok records ∧
      ((pendingOf store records = [] ∧ syncOnce cfg db store x = ⟨.idle, none, [], store⟩) ∨
       (pendingOf store records ≠ [] ∧
        (syncOnce cfg db store x).outcome ≠ .idle ∧
        (syncOnce cfg db store x).posted = some (requestBody cfg x (pendingOf store records)) ∧
        (syncOnce cfg db store x).store =
          (store.append ((syncOnce cfg db store x).confirmed.map
            (SourceRecord.entry x.acceptedAt)) x.room).1 ∧
        (syncOnce cfg db store x).confirmed =
          match post x.send (requestBody cfg x (pendingOf store records)) with
          | .ok response => acknowledged (pendingOf store records) response
          | .error _ => [])) := by
  unfold syncOnce
  cases hfetch : fetchAll cfg db with
  | error e => exact Or.inl ⟨e, rfl, rfl⟩
  | ok records =>
      refine Or.inr ⟨records, rfl, ?_⟩
      by_cases hpending : pendingOf store records = []
      · exact Or.inl ⟨hpending, by simp [hpending]⟩
      · refine Or.inr ⟨hpending, ?_⟩
        simp only [hpending, if_false]
        cases hpost : post x.send (requestBody cfg x (pendingOf store records)) with
        | error e => simp [StateStore.append]
        | ok response =>
            simp only
            by_cases hacc : acknowledged (pendingOf store records) response = []
            · simp [hacc, StateStore.append]
            · simp only [hacc, if_false]
              cases happend : store.append ((acknowledged (pendingOf store records) response).map
                (SourceRecord.entry x.acceptedAt)) x.room with
              | mk store' result => cases result <;> simp [happend]

end WeighingSync.Uploader
