import WeighingSync.Go.JsonStruct

/-!
# Uploaded records as the receiver reads them

`uploadPayload`, `extractString` and `extractRecordKey` of `cmd/receiver/main.go`. A record is the
map that one element of the payload decodes to, with its numbers as literals. `timeText` stands for
`parseTimeText` followed by `timeString`: the stored text of a time text, if it is one.
-/

namespace WeighingSync.Receiver

open Go

/-- One uploaded record: a `map[string]any`. -/
abbrev Record := List (Str × Json)

/-- `uploadPayload`. -/
structure UploadPayload where
  source : Str
  database : Str
  table : Str
  uploadedAt : Json
  records : List Record
  weightInfoRecords : List Record
  weightPhotoRecords : List Record

/-- A field of type `[]map[string]any`, as maps. -/
def decodeRecords (j : Option Json) : Option (List Record) :=
  (Json.decodeMaps j).map fun xs => xs.map Json.toMap

/-- Decoding of `uploadPayload`. -/
def decodePayload (j : Json) : Option UploadPayload := do
  let fields ← j.decodeObject
  let source ← Json.decodeString (Json.structField fields (Str.lit "source"))
  let database ← Json.decodeString (Json.structField fields (Str.lit "database"))
  let table ← Json.decodeString (Json.structField fields (Str.lit "table"))
  let records ← decodeRecords (Json.structField fields (Str.lit "records"))
  let weightInfoRecords ← decodeRecords (Json.structField fields (Str.lit "weight_info_records"))
  let weightPhotoRecords ← decodeRecords (Json.structField fields (Str.lit "weight_photo_records"))
  return {
    source, database, table, records, weightInfoRecords, weightPhotoRecords
    uploadedAt := (Json.structField fields (Str.lit "uploaded_at")).getD .null }

/-- The two kinds of records, and the source tables they are filed under. -/
def weightInfo : Str := Str.lit "weight_info"
def weightPhoto : Str := Str.lit "weight_photo"

/-- `normalizedWeightInfo`. -/
def UploadPayload.normalizedWeightInfo (p : UploadPayload) : List Record :=
  if p.weightInfoRecords.length > 0 then p.weightInfoRecords else p.records

/-- `entityRecordBatch`. -/
structure EntityBatch where
  entityType : Str
  sourceTable : Str
  records : List Record

/-- `entityRecords`. -/
def UploadPayload.entityRecords (p : UploadPayload) : List EntityBatch :=
  [⟨weightInfo, Str.lit "tbl_weightInfo", p.normalizedWeightInfo⟩,
    ⟨weightPhoto, Str.lit "tbl_weightPhoto", p.weightPhotoRecords⟩]

/-- `total`. -/
def total (batches : List EntityBatch) : ℕ := (batches.map fun b => b.records.length).sum

/-- The text that `extractString` takes from a value: nothing from `null` and from composites. -/
def scalarText : Json → Option Str
  | .str s => some s.trimSpace
  | .num literal => some literal
  | .bool b => some (formatBool b)
  | _ => none

/-- `extractString`: the first of the fields that holds a scalar decides. -/
def extractString (record : Record) : List String → Str
  | [] => []
  | key :: keys =>
      match (Json.lookup record (Str.lit key)).bind scalarText with
      | some text => text
      | none => extractString record keys

/-- The candidates of `extractRecordKey`: a key type and the fields it is read from. -/
def keyCandidates (entityType : Str) : List (String × List String) :=
  if entityType = weightPhoto then [("id", ["id"]), ("serialNo", ["serialNo", "serial_no"])]
  else
    [("serialNo", ["serialNo", "serial_no"]), ("id", ["id"]), ("ticket_no", ["ticket_no", "ticketNo"])]

/-- The first candidate with a non-empty text. -/
def firstKey (record : Record) : List (String × List String) → Str × Str
  | [] => ([], [])
  | (keyType, fields) :: candidates =>
      if extractString record fields ≠ [] then (Str.lit keyType, extractString record fields)
      else firstKey record candidates

/-- `extractRecordKey`: the key type and the key, both empty where the record has none. -/
def extractRecordKey (entityType : Str) (record : Record) : Str × Str :=
  firstKey record (keyCandidates entityType)

/-- The `record_key` column of a record. -/
def recordKey (entityType : Str) (record : Record) : Str :=
  entityType ++ Str.lit ":" ++ (extractRecordKey entityType record).2

/-- The record has a key. -/
def keyed (entityType : Str) (record : Record) : Bool := (extractRecordKey entityType record).2 ≠ []

/-- `acceptedWeightInfoSerials`. -/
def acceptedWeightInfoSerials (payload : UploadPayload) (acceptedKeys : List Str) : List Str :=
  payload.normalizedWeightInfo.filterMap fun record =>
    if recordKey weightInfo record ∈ acceptedKeys then
      let serial := extractString record ["serialNo", "serial_no"]
      if serial ≠ [] then some serial else none
    else none

section

variable (timeText : Str → Option Str)

/-- `parseAnyTime`, as the text that is stored. -/
def parseAnyTime (value : Option Json) : Option Str :=
  let text := match value with
    | some (.str s) => s.trimSpace
    | some (.num literal) => literal
    | _ => []
  if text = [] then none else timeText text

/-- The `source_time` of a record: the first of these fields that holds a time. -/
def sourceTime (record : Record) : Option Str :=
  (["updateTime", "secondTime", "firstTime", "tareTime", "grossTime", "measured_at",
      "measuredAt"].findSome? fun key => parseAnyTime timeText (Json.lookup record (Str.lit key)))

end

/-- `nullableString`. -/
def nullableString (s : Str) : Option Str := if s = [] then none else some s

/-- `fallback`. -/
def fallback (value : Str) (fallbackValue : String) : Str :=
  if value.trimSpace = [] then Str.lit fallbackValue else value.trimSpace

/-- A record is keyed or not by the text its candidates give. -/
theorem keyed_iff {entityType : Str} {record : Record} :
    keyed entityType record = true ↔
      ∃ c ∈ keyCandidates entityType, extractString record c.2 ≠ [] := by
  have hfirst : ∀ candidates, (firstKey record candidates).2 ≠ [] ↔
      ∃ c ∈ candidates, extractString record c.2 ≠ [] := by
    intro candidates
    induction candidates with
    | nil => simp [firstKey]
    | cons c candidates ih =>
        rw [firstKey, List.exists_mem_cons_iff]
        split_ifs with hc
        · exact ⟨fun _ => Or.inl hc, fun _ => hc⟩
        · rw [ih]
          exact ⟨Or.inr, fun h => h.resolve_left hc⟩
  rw [keyed, extractRecordKey]
  simpa using hfirst (keyCandidates entityType)

end WeighingSync.Receiver
