import WeighingSync.Go.Http
import WeighingSync.Receiver.Store

/-!
# Uploads to the receiver

`handlePost` of `cmd/receiver/main.go`. The refusal of `authorize`, if there is one, comes with the
request. A request is stored and answered 200, or leaves the tables as they were
(`handlePost_cases`).
-/

namespace WeighingSync.Receiver

open Go

/-- The list of strings in a reply. -/
def stringsJSON (xs : List Str) : Json := .arr (xs.map .str)

/-- The fields of the reply to an upload that was stored, in the order in which `json.Marshal` writes
a map. -/
def postFields (env : PostEnv) (payload : UploadPayload) (accepted failed : List Str) :
    List (Str × Json) :=
  [(Str.lit "accepted", .bool failed.isEmpty),
    (Str.lit "accepted_record_keys", stringsJSON accepted),
    (Str.lit "accepted_serial_nos", stringsJSON (acceptedWeightInfoSerials payload accepted)),
    (Str.lit "failed_record_keys", stringsJSON failed),
    (Str.lit "failed_serial_nos", stringsJSON []),
    (Str.lit "received_at", .str env.repliedAt),
    (Str.lit "records_count", .num (natText (total payload.entityRecords))),
    (Str.lit "request_id", .str env.requestID),
    (Str.lit "weight_info_count", .num (natText payload.normalizedWeightInfo.length)),
    (Str.lit "weight_photo_count", .num (natText payload.weightPhotoRecords.length))]

/-- The reply to an upload that was stored. -/
def postJSON (env : PostEnv) (payload : UploadPayload) (accepted failed : List Str) : Json :=
  .obj (postFields env payload accepted failed)

/-- The body of a request as `handlePost` decodes it. -/
def decodeBody (body : Str) : Option UploadPayload := (parseFirst body).bind decodePayload

/-- `handlePost`. -/
def handlePost (cfg : Config) (env : PostEnv) (refusal : Option Str) (body : Str) (db : ReceiverDb) :
    Reply × ReceiverDb :=
  if cfg.maxBodyBytes < body.size then
    (.error 413 (Str.lit "body too large, max " ++ itoa cfg.maxBodyBytes ++ Str.lit " bytes"), db)
  else
    match refusal with
    | some message => (.error 401 message, db)
    | none =>
        match decodeBody body with
        | none => (.error 400 (Str.lit "invalid json body"), db)
        | some payload =>
            if total payload.entityRecords = 0 then
              (.error 400 (Str.lit "records is missing or empty"), db)
            else
              match insertPayload cfg env payload db with
              | (db', .error _) => (.error 500 (Str.lit "database write failed"), db')
              | (db', .ok (accepted, failed)) =>
                  (.json 200 (postJSON env payload accepted failed), db')

/-! ## Keys of a payload -/

/-- The keys that C derives for the records of a payload, in order. -/
def acceptedOf (payload : UploadPayload) : List Str :=
  payload.entityRecords.flatMap fun batch =>
    (batch.records.filter (keyed batch.entityType)).map (recordKey batch.entityType)

/-- The keys of the rows of a payload are those of its keyed records. -/
theorem map_key_rowsOf (cfg : Config) (env : PostEnv) (payload : UploadPayload) :
    (rowsOf cfg env payload).map UpsertRow.key = acceptedOf payload := by
  rw [rowsOf, acceptedOf, List.map_flatMap]
  refine List.flatMap_congr fun batch _ => ?_
  have hkey : ∀ r : Record × Str,
      (upsertRowOf cfg env (originOf env payload) batch r.1 r.2).map UpsertRow.key =
        if keyed batch.entityType r.1 then some (recordKey batch.entityType r.1) else none := by
    intro r
    rw [upsertRowOf]
    split_ifs <;> rfl
  rw [List.map_filterMap]
  simp only [hkey]
  rw [← map_fst_stamped env batch, List.filter_map, List.map_map, ← List.filterMap_eq_map, ← List.filterMap_eq_filter,
    List.filterMap_filterMap]
  refine List.filterMap_congr fun r _ => ?_
  by_cases hr : keyed batch.entityType r.1 <;> simp [hr, Option.guard]

theorem mem_acceptedOf {payload : UploadPayload} {key : Str} :
    key ∈ acceptedOf payload ↔ ∃ batch ∈ payload.entityRecords, ∃ record ∈ batch.records,
      keyed batch.entityType record = true ∧ recordKey batch.entityType record = key := by
  simp only [acceptedOf, List.mem_flatMap, List.mem_map, List.mem_filter, and_assoc]

/-- Every record of a payload is accepted or reported as failed. -/
theorem length_accepted_add_unkeyed (payload : UploadPayload) :
    (acceptedOf payload).length + (unkeyedOf payload).length = total payload.entityRecords := by
  rw [acceptedOf, unkeyedOf, total]
  induction payload.entityRecords with
  | nil => rfl
  | cons batch batches ih =>
      have hsplit := List.length_eq_length_filter_add (l := batch.records) (keyed batch.entityType)
      simp only [List.flatMap_cons, List.length_append, List.length_map, List.map_cons,
        List.sum_cons] at ih ⊢
      omega

/-- No `record_key` is the empty key that records without one are reported with. -/
theorem recordKey_ne_nil (entityType : Str) (record : Record) : recordKey entityType record ≠ [] := by
  simp [recordKey, Str.lit]

theorem eq_nil_of_mem_unkeyedOf {payload : UploadPayload} {key : Str} (h : key ∈ unkeyedOf payload) :
    key = [] := by
  obtain ⟨batch, -, hbatch⟩ := List.mem_flatMap.mp h
  obtain ⟨record, -, rfl⟩ := List.mem_map.mp hbatch
  rfl

/-- The serial numbers that C reports name records that it has accepted. -/
theorem serial_mem_accepted {payload : UploadPayload} {accepted : List Str} {serial : Str}
    (h : serial ∈ acceptedWeightInfoSerials payload accepted) :
    weightInfo ++ Str.lit ":" ++ serial ∈ accepted := by
  obtain ⟨record, -, hserial⟩ := List.mem_filterMap.mp h
  simp only at hserial
  split_ifs at hserial with hmem hne
  cases hserial
  -- the serial number is the first candidate for the key of a weighing record
  have hkey : recordKey weightInfo record =
      weightInfo ++ Str.lit ":" ++ extractString record ["serialNo", "serial_no"] := by
    rw [recordKey, extractRecordKey, keyCandidates, if_neg (by decide), firstKey, if_pos hne]
  rwa [hkey] at hmem

/-! ## The size of a reply -/

/-- The bytes of a JSON list of strings: its brackets, and every string with a comma after it, or
with the bracket. -/
def listSize (xs : List Str) : ℕ := max 2 (1 + (xs.map fun x => (quote x).size + 1).sum)

/-- The bytes of the reply to an upload that was stored. The constant counts the field names, the
punctuation and the empty list of failed serial numbers. -/
def replySize (env : PostEnv) (accepted serials failed : List Str) (info photo : ℕ) : ℕ :=
  194 + (formatBool failed.isEmpty).size + listSize accepted + listSize serials + listSize failed +
    (quote env.repliedAt).size + (quote env.requestID).size + (natText (info + photo)).size +
    (natText info).size + (natText photo).size

theorem size_stringsJSON (xs : List Str) : (stringsJSON xs).encode.size = listSize xs := by
  have helements : ∀ xs : List Str, xs ≠ [] →
      (Json.encodeElements (xs.map .str)).size + 1 = (xs.map fun x => (quote x).size + 1).sum := by
    intro xs hxs
    induction xs with
    | nil => exact absurd rfl hxs
    | cons x xs ih =>
        rw [List.map_cons, Json.encodeElements, Str.size_append, List.map_cons, List.sum_cons]
        by_cases htail : xs = []
        · subst htail
          rfl
        · have hsize : (Rune.char ',').size = 1 := rfl
          rw [← ih htail, if_neg (by simpa using htail), Str.size_cons, hsize, Json.encode]
          omega
  have hbracket : (Rune.char '[').size = 1 ∧ (Rune.char ']').size = 1 := ⟨rfl, rfl⟩
  rw [stringsJSON, Json.encode, Str.size_cons, Str.size_append, Str.size_cons, Str.size_nil,
    hbracket.1, hbracket.2, listSize]
  by_cases hxs : xs = []
  · subst hxs
    rfl
  · have hsum := helements xs hxs
    omega

theorem size_postJSON (env : PostEnv) (payload : UploadPayload) (accepted failed : List Str) :
    (postJSON env payload accepted failed).encode.size =
      replySize env accepted (acceptedWeightInfoSerials payload accepted) failed
        payload.normalizedWeightInfo.length payload.weightPhotoRecords.length := by
  have htotal : total payload.entityRecords =
      payload.normalizedWeightInfo.length + payload.weightPhotoRecords.length := by
    simp [total, UploadPayload.entityRecords]
  have hnone : listSize [] = 2 := rfl
  have hchar : (Rune.char ':').size = 1 ∧ (Rune.char ',').size = 1 ∧ (Rune.char '\x7b').size = 1 ∧
      (Rune.char '\x7d').size = 1 := ⟨rfl, rfl, rfl, rfl⟩
  rw [postJSON, postFields, htotal]
  simp only [Json.encode, Json.encodeFields, Str.size_cons, Str.size_append, Str.size_nil,
    size_stringsJSON, hnone, hchar, List.isEmpty_cons, List.isEmpty_nil, if_true, Bool.false_eq_true,
    if_false]
  have hnames : (quote (Str.lit "accepted")).size = 10 ∧
      (quote (Str.lit "accepted_record_keys")).size = 22 ∧
      (quote (Str.lit "accepted_serial_nos")).size = 21 ∧
      (quote (Str.lit "failed_record_keys")).size = 20 ∧
      (quote (Str.lit "failed_serial_nos")).size = 19 ∧
      (quote (Str.lit "received_at")).size = 13 ∧ (quote (Str.lit "records_count")).size = 15 ∧
      (quote (Str.lit "request_id")).size = 12 ∧ (quote (Str.lit "weight_info_count")).size = 19 ∧
      (quote (Str.lit "weight_photo_count")).size = 20 := by
    decide
  obtain ⟨h₁, h₂, h₃, h₄, h₅, h₆, h₇, h₈, h₉, h₁₀⟩ := hnames
  rw [h₁, h₂, h₃, h₄, h₅, h₆, h₇, h₈, h₉, h₁₀, replySize]
  omega

theorem wellFormed_postJSON (env : PostEnv) (payload : UploadPayload)
    (accepted failed : List Str) :
    (postJSON env payload accepted failed).WellFormed := by
  have hstrings : ∀ xs : List Str, (stringsJSON xs).WellFormed := by
    intro xs
    rw [stringsJSON, Json.wellFormed_arr]
    intro x hx
    obtain ⟨s, -, rfl⟩ := List.mem_map.mp hx
    trivial
  have hcount : ∀ n : ℕ, (Json.num (natText n)).WellFormed := fun n => wellFormed_itoa n
  rw [postJSON, Json.wellFormed_obj, postFields]
  simp only [List.forall_mem_cons, hstrings, hcount, true_and]
  exact ⟨trivial, trivial, trivial, List.forall_mem_nil _⟩

/-! ## What a request does -/

/-- A request is refused and changes nothing; or its payload is stored, and the reply lists the keys
of its keyed records and an empty key for every other one. -/
theorem handlePost_cases (cfg : Config) (env : PostEnv) (refusal : Option Str) (body : Str)
    (db : ReceiverDb) :
    ((handlePost cfg env refusal body db).1.success = false ∧
      (handlePost cfg env refusal body db).2 = db) ∨
    ∃ payload db', decodeBody body = some payload ∧ total payload.entityRecords ≠ 0 ∧
      insertPayload cfg env payload db = (db', .ok (acceptedOf payload, unkeyedOf payload)) ∧
      handlePost cfg env refusal body db =
        (.json 200 (postJSON env payload (acceptedOf payload) (unkeyedOf payload)), db') := by
  unfold handlePost
  split_ifs with hsize
  · exact Or.inl ⟨rfl, rfl⟩
  · cases refusal with
    | some message => exact Or.inl ⟨rfl, rfl⟩
    | none =>
        cases hbody : decodeBody body with
        | none => exact Or.inl ⟨rfl, rfl⟩
        | some payload =>
            simp only
            by_cases htotal : total payload.entityRecords = 0
            · rw [if_pos htotal]
              exact Or.inl ⟨rfl, rfl⟩
            · rw [if_neg htotal]
              cases hinsert : insertPayload cfg env payload db with
              | mk db' result =>
                  cases result with
                  | error e => exact Or.inl ⟨rfl, insertPayload_error hinsert⟩
                  | ok keys =>
                      obtain ⟨accepted, failed⟩ := keys
                      obtain ⟨-, -, haccepted, hfailed⟩ := insertPayload_ok hinsert
                      rw [map_key_rowsOf] at haccepted
                      subst haccepted hfailed
                      exact Or.inr ⟨payload, db', rfl, htotal, hinsert, rfl⟩

/-- A request that is small enough, authorised and not empty is stored if no statement fails. -/
theorem status_of_no_failure {cfg : Config} {env : PostEnv} {body : Str} {payload : UploadPayload}
    (db : ReceiverDb) (hsize : (body.size : ℤ) ≤ cfg.maxBodyBytes)
    (hfails : ∀ statement, env.fails statement = false) (hbody : decodeBody body = some payload)
    (htotal : total payload.entityRecords ≠ 0) : (handlePost cfg env none body db).1.status = 200 := by
  obtain ⟨db', ⟨accepted, failed⟩, hinsert⟩ := insertPayload_of_no_failure hfails cfg payload db
  unfold handlePost
  rw [if_neg (not_lt.mpr hsize)]
  simp only [hbody]
  rw [if_neg htotal, hinsert]
  rfl

end WeighingSync.Receiver
