import WeighingSync.Common.Window
import WeighingSync.Receiver.Store

/-!
# Queries of the receiver

`handleQuery` and `queryRecords` of `cmd/receiver/main.go`: which rows a query selects, in which
order, and what the reply says of each. The parameters are what `q.Get` gives; the clock and the
route do not matter here. `floatText` is how `encoding/json` prints the 64-bit float nearest to a
number literal, if it has one: the reply carries the raw record with its numbers read that way.
-/

namespace WeighingSync.Receiver

open Go

/-! ## Parameters -/

/-- `parseBoundedInt`. -/
def parseBoundedInt (text : Str) (fallbackValue minValue maxValue : ℤ) : ℤ :=
  if text = [] then fallbackValue
  else
    match atoi text with
    | none => fallbackValue
    | some value =>
        if value < minValue then minValue else if value > maxValue then maxValue else value

/-- `parseOptionalInt64`: zero where the text is blank, and none where it is no positive integer. -/
def parseOptionalInt64 (text : Str) : Option ℤ :=
  if text.trimSpace = [] then some 0
  else (atoi text.trimSpace).filter fun value => 0 < value

/-- `firstNonEmpty`. -/
def firstNonEmpty : List Str → Str
  | [] => []
  | value :: values => if value.trimSpace ≠ [] then value.trimSpace else firstNonEmpty values

/-- The spellings of a true flag. -/
def trueText (s : Str) : Bool := s.toLower ∈ ["1", "true", "yes", "on"].map Str.lit

/-- `shouldReturnRaw`. -/
def shouldReturnRaw (includeRaw : Str) (fallbackValue : Bool) : Bool :=
  if includeRaw.trimSpace = [] then fallbackValue else trueText includeRaw.trimSpace

/-! ## Selection -/

/-- `queryFilter`; the bounds are texts of `timeString`. -/
structure QueryFilter where
  id : ℤ
  recordKey : Str
  entityType : Str
  serialNo : Str
  plateNo : Str
  fromTime : Option Str
  toTime : Option Str
  limit : ℤ
  offset : ℤ

/-- The `WHERE` clause of `queryRecords`; a comparison with a null column does not hold. -/
def QueryFilter.selects (f : QueryFilter) (r : Entry Str StoredRecord) : Bool :=
  (f.id ≤ 0 || (r.id : ℤ) = f.id) &&
  (f.recordKey = [] || r.key = f.recordKey) &&
  (f.entityType = [] || r.val.content.entityType = f.entityType) &&
  (f.serialNo = [] || r.val.content.serialNo = some f.serialNo) &&
  (f.plateNo = [] || r.val.content.plateNo = some f.plateNo) &&
  (f.fromTime.all fun t => r.val.content.sourceTime.any fun s => !Str.lt s t) &&
  (f.toTime.all fun t => r.val.content.sourceTime.any fun s => !Str.lt t s)

/-- `ORDER BY COALESCE(source_time, ingested_at) DESC, record_key DESC`. -/
def newestFirst (a b : Entry Str StoredRecord) : Prop :=
  Str.lt b.val.effectiveTime a.val.effectiveTime = true ∨
    (a.val.effectiveTime = b.val.effectiveTime ∧ Str.lt a.key b.key = false)

instance : DecidableRel newestFirst := fun a b => inferInstanceAs (Decidable
  (Str.lt b.val.effectiveTime a.val.effectiveTime = true ∨
    (a.val.effectiveTime = b.val.effectiveTime ∧ Str.lt a.key b.key = false)))

/-- `queryRecords`. -/
def queryRecords (t : RecordTable) (f : QueryFilter) : List (Entry Str StoredRecord) :=
  (((t.rows.filter f.selects).insertionSort newestFirst).drop f.offset.toNat).take f.limit.toNat

/-! ## Replies -/

/-- What the reply says of a row: an entry of `out`. -/
structure PageItem where
  id : ℕ
  recordKey : Str
  entityType : Str
  keyType : Str
  ingestedAt : Str
  serialNo : Option Str
  plateNo : Option Str
  sourceTime : Option Str
  source : Str
  database : Str
  table : Str
  uploadedAt : Option Str
  record : Option Json

section

variable (floatText : Str → Option Str)

/-- The raw record of a row: the JSON value of its text, or the text itself where it is none. -/
def rawJSON (text : Str) : Json :=
  match (parse text).bind fun j => j.canonical.mapNumbers floatText with
  | some j => j
  | none => .str text

/-- The entry of a row. -/
def pageItem (includeRaw : Bool) (r : Entry Str StoredRecord) : PageItem where
  id := r.id
  recordKey := r.key
  entityType := r.val.content.entityType
  keyType := r.val.content.keyType
  ingestedAt := r.val.ingestedAt
  serialNo := r.val.content.serialNo
  plateNo := r.val.content.plateNo
  sourceTime := r.val.content.sourceTime
  source := r.val.content.source
  database := r.val.content.sourceDatabase
  table := r.val.content.sourceTable
  uploadedAt := r.val.content.uploadedAt
  record := if includeRaw then r.val.content.rawRecord.map (rawJSON floatText) else none

/-- A field that is there if its column is not null. -/
def optionalField (name : String) (s : Option Str) : List (Str × Json) :=
  s.toList.map fun t => (Str.lit name, .str t)

/-- The JSON object of an entry, its fields in order of their names. -/
def PageItem.json (i : PageItem) : Json :=
  .obj ([(Str.lit "database", .str i.database), (Str.lit "entity_type", .str i.entityType),
      (Str.lit "id", .num (natText i.id)), (Str.lit "ingested_at", .str i.ingestedAt),
      (Str.lit "key_type", .str i.keyType)] ++
    optionalField "plateNo" i.plateNo ++ (i.record.toList.map fun j => (Str.lit "record", j)) ++
    [(Str.lit "record_key", .str i.recordKey)] ++ optionalField "serialNo" i.serialNo ++
    [(Str.lit "source", .str i.source)] ++ optionalField "source_time" i.sourceTime ++
    [(Str.lit "table", .str i.table)] ++ optionalField "uploaded_at" i.uploadedAt)

/-- The filter that the parameters of a query ask for, if its `id` can be read. -/
def queryFilter (cfg : Config) (timeText : Str → Option Str) (get : String → Str) :
    Option QueryFilter :=
  (parseOptionalInt64 (get "id")).map fun id => {
    id
    recordKey := firstNonEmpty [get "record_key", get "recordKey", get "key"]
    entityType := firstNonEmpty [get "entity_type", get "entityType"]
    serialNo := firstNonEmpty [get "serialNo", get "serial_no"]
    plateNo := firstNonEmpty [get "plateNo", get "plate_no", get "plate"]
    fromTime := if (get "from").trimSpace = [] then none else timeText (get "from").trimSpace
    toTime := if (get "to").trimSpace = [] then none else timeText (get "to").trimSpace
    limit := parseBoundedInt (get "limit") cfg.defaultLimit 1 cfg.maxLimit
    offset := parseBoundedInt (get "offset") 0 0 1000000 }

/-- The entries that `handleQuery` answers an authorised query with. -/
def queryPage (cfg : Config) (timeText : Str → Option Str) (get : String → Str) (t : RecordTable) :
    Option (List PageItem) :=
  (queryFilter cfg timeText get).map fun f =>
    (queryRecords t f).map
      (pageItem floatText (shouldReturnRaw (get "include_raw") cfg.returnRawRecords))

end

/-- Every limit that a query can ask for lies within the configured bounds. -/
theorem parseBoundedInt_mem {text : Str} {fallbackValue minValue maxValue : ℤ}
    (hmin : minValue ≤ fallbackValue) (hmax : fallbackValue ≤ maxValue) :
    minValue ≤ parseBoundedInt text fallbackValue minValue maxValue ∧
      parseBoundedInt text fallbackValue minValue maxValue ≤ maxValue := by
  unfold parseBoundedInt
  split
  · exact ⟨hmin, hmax⟩
  · split
    · exact ⟨hmin, hmax⟩
    · split_ifs <;> omega

/-- A number that is asked for in decimal is cut down to the maximum. -/
theorem parseBoundedInt_natText {n : ℕ} (hn : 1 ≤ n) (hlt : n < 2 ^ 63) (fallbackValue : ℤ)
    (maxValue : ℤ) :
    parseBoundedInt (natText n) fallbackValue 1 maxValue = min (n : ℤ) maxValue := by
  rw [parseBoundedInt, if_neg (natText_ne_nil n), atoi_natText hlt]
  simp only
  split_ifs <;> omega

end WeighingSync.Receiver
