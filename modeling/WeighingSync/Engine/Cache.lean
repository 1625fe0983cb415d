import WeighingSync.Common.Window
import WeighingSync.Engine.Rfc3339
import WeighingSync.Engine.Upload

/-!
# The local cache

The table `weighing_records` of `src/db/mod.rs` and the records of `src/db/models.rs` that its rows
are read as. UUIDs and times are parsed and printed by libraries, which are parameters; a weight is
its 64 bits.
-/

namespace WeighingSync.Engine

open Go

/-- `SyncStatus`; the table admits no other text. -/
inductive SyncStatus
  | pending
  | synced
  | failed
  deriving DecidableEq, Repr

/-- `WeightUnit`. -/
inductive WeightUnit
  | kilogram
  | pound
  deriving DecidableEq, Repr

/-- `WeightUnit::parse`. -/
def WeightUnit.parse (value : Str) : Option WeightUnit :=
  if value ∈ ["kilogram", "kg"].map Str.lit then some .kilogram
  else if value ∈ ["pound", "lb", "lbs"].map Str.lit then some .pound
  else none

/-- `WeightUnit::as_str`. -/
def WeightUnit.asStr : WeightUnit → Str
  | .kilogram => Str.lit "kilogram"
  | .pound => Str.lit "pound"

/-- The 128 bits of a UUID. -/
abbrev Uuid := BitVec 128

/-- What the column `retry_count` holds: an integer, or the real number 2^63. -/
inductive RetryCount
  | integer (n : Int64)
  | real
  deriving DecidableEq, Repr

namespace RetryCount

/-- `retry_count + 1`: one more than the largest integer is a real number, and adding one to that does not
change it. -/
def succ : RetryCount → RetryCount
  | .integer n => if n = Int64.maxValue then .real else .integer (n + 1)
  | .real => .real

/-- The integer that is decoded of the column. -/
def decode : RetryCount → Option Int64
  | .integer n => some n
  | .real => none

/-- The number. -/
def value : RetryCount → ℤ
  | .integer n => n.toInt
  | .real => 2 ^ 63

theorem value_le (c : RetryCount) : c.value ≤ 2 ^ 63 := by
  cases c with
  | integer n =>
      have hlt := n.toInt_lt
      rw [value]
      omega
  | real => exact le_rfl

/-- The count grows by one, up to 2^63. -/
theorem value_succ (c : RetryCount) : c.succ.value = min (c.value + 1) (2 ^ 63) := by
  cases c with
  | integer n =>
      have hlt := n.toInt_lt
      have hle := n.le_toInt
      rw [succ]
      split_ifs with hmax
      · rw [hmax]
        decide
      · have hne : n.toInt ≠ 2 ^ 63 - 1 := fun h => hmax (Int64.toInt_inj.mp h)
        rw [value, value, Int64.toInt_add, Int64.toInt_one, Int.bmod_eq_of_le (by omega) (by omega)]
        omega
  | real => decide

theorem succ_eq_self_iff {c : RetryCount} : c.succ = c ↔ c = .real := by
  constructor
  · intro h
    cases c with
    | integer n =>
        have hlt := n.toInt_lt
        have hvalue := value_succ (.integer n)
        rw [h, value] at hvalue
        omega
    | real => rfl
  · rintro rfl
    rfl

end RetryCount

/-- A row of `weighing_records`. -/
structure CacheRow where
  id : Str
  ticketNo : Str
  scaleNo : Str
  plateNo : Option Str
  weightKg : UInt64
  originalUnit : Str
  measuredAt : Str
  status : SyncStatus
  retryCount : RetryCount
  lastError : Option Str
  createdAt : Str
  updatedAt : Str
  deriving DecidableEq, Repr

/-- `WeighingRecord`. -/
structure WeighingRecord where
  id : Uuid
  ticketNo : Str
  scaleNo : Str
  plateNo : Option Str
  weightKg : UInt64
  originalUnit : WeightUnit
  measuredAt : DateTime
  status : SyncStatus
  retryCount : Int64
  lastError : Option Str
  createdAt : DateTime
  updatedAt : DateTime
  deriving DecidableEq, Repr

/-- The libraries for UUIDs, times and numbers. A time is printed by `to_rfc3339` for the cache, and by
its serializer in an upload. -/
structure RecordLib where
  parseUuid : Str → Option Uuid
  uuidText : Uuid → Str
  parseRfc3339 : Str → Option DateTime
  toRfc3339 : DateTime → Str
  timeText : DateTime → Str
  floatJson : UInt64 → Json
  pounds : UInt64 → UInt64

/-- `WeighingRecord::try_from`, with the decoding of the row before it. -/
def WeighingRecord.tryFrom (lib : RecordLib) (model : CacheRow) : Option WeighingRecord := do
  let id ← lib.parseUuid model.id
  let originalUnit ← WeightUnit.parse model.originalUnit
  let measuredAt ← lib.parseRfc3339 model.measuredAt
  let createdAt ← lib.parseRfc3339 model.createdAt
  let updatedAt ← lib.parseRfc3339 model.updatedAt
  let retryCount ← model.retryCount.decode
  return {
    id, originalUnit, measuredAt, createdAt, updatedAt, retryCount
    ticketNo := model.ticketNo
    scaleNo := model.scaleNo
    plateNo := model.plateNo
    weightKg := model.weightKg
    status := model.status
    lastError := model.lastError }

/-- What a column of type `REAL` gives back of a number: there is no negative zero. -/
def realColumn (weight : UInt64) : UInt64 := if weight = 0x8000000000000000 then 0 else weight

/-- No number, which is bound as a null. -/
def isNaN (weight : UInt64) : Bool := 0x7FF0000000000000 < weight &&& 0x7FFFFFFFFFFFFFFF

/-- The row that `insert_record` writes. -/
def WeighingRecord.row (lib : RecordLib) (record : WeighingRecord) : CacheRow where
  id := lib.uuidText record.id
  ticketNo := record.ticketNo
  scaleNo := record.scaleNo
  plateNo := record.plateNo
  weightKg := realColumn record.weightKg
  originalUnit := record.originalUnit.asStr
  measuredAt := lib.toRfc3339 record.measuredAt
  status := record.status
  retryCount := .integer record.retryCount
  lastError := record.lastError
  createdAt := lib.toRfc3339 record.createdAt
  updatedAt := lib.toRfc3339 record.updatedAt

/-- The table, with its primary key. -/
structure Cache where
  rows : List CacheRow
  id_nodup : (rows.map CacheRow.id).Nodup

namespace Cache

/-- The table just created. -/
def empty : Cache := ⟨[], List.nodup_nil⟩

theorem nodup_insert {cache : Cache} {row : CacheRow} (h : row.id ∉ cache.rows.map CacheRow.id) :
    ((cache.rows ++ [row]).map CacheRow.id).Nodup := by
  rw [List.map_append, List.nodup_append']
  refine ⟨cache.id_nodup, List.nodup_singleton _, ?_⟩
  simpa [List.Disjoint] using h

/-- `insert_record`: an error if the weight is no number, or if there is a row of this id. -/
def insertRecord (lib : RecordLib) (record : WeighingRecord) (cache : Cache) : Option Cache :=
  if isNaN record.weightKg then none
  else if h : (record.row lib).id ∈ cache.rows.map CacheRow.id then none
  else some ⟨cache.rows ++ [record.row lib], nodup_insert h⟩

/-- The rows of `fetch_pending`: pending and failed ones, first measured first. -/
def pendingRows (cache : Cache) (limit : ℕ) : List CacheRow :=
  window (fun a b : CacheRow => Str.lt b.measuredAt a.measuredAt = false) limit
    (cache.rows.filter fun row => row.status = .pending || row.status = .failed)

/-- `fetch_pending`: an error as soon as one row cannot be read. -/
def fetchPending (lib : RecordLib) (cache : Cache) (limit : ℕ) : Option (List WeighingRecord) :=
  (cache.pendingRows limit).mapM (WeighingRecord.tryFrom lib)

/-- `UPDATE … WHERE id IN (ids)`. -/
def updateIn (cache : Cache) (ids : List Str) (f : CacheRow → CacheRow)
    (hf : ∀ row, (f row).id = row.id) : Cache where
  rows := cache.rows.map fun row => if row.id ∈ ids then f row else row
  id_nodup := by
    have hid : (CacheRow.id ∘ fun row => if row.id ∈ ids then f row else row) = CacheRow.id := by
      funext row
      rw [Function.comp_apply]
      split_ifs
      · exact hf row
      · rfl
    rw [List.map_map, hid]
    exact cache.id_nodup

/-- What `mark_synced` sets. -/
def setSynced (now : Str) (row : CacheRow) : CacheRow :=
  { row with status := .synced, lastError := none, updatedAt := now }

/-- What `mark_failed` sets. -/
def setFailed (now error : Str) (row : CacheRow) : CacheRow :=
  { row with
    status := .failed
    retryCount := row.retryCount.succ
    lastError := some error
    updatedAt := now }

/-- `mark_synced`. -/
def markSynced (lib : RecordLib) (now : Str) (ids : List Uuid) (cache : Cache) : Cache :=
  cache.updateIn (ids.map lib.uuidText) (setSynced now) fun _ => rfl

/-- `mark_failed`. -/
def markFailed (lib : RecordLib) (now error : Str) (ids : List Uuid) (cache : Cache) : Cache :=
  cache.updateIn (ids.map lib.uuidText) (setFailed now error) fun _ => rfl

end Cache

end WeighingSync.Engine
