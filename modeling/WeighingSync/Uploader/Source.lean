import WeighingSync.Common.Window
import WeighingSync.Go.Bytes
import WeighingSync.Go.Json
import WeighingSync.Uploader.Config

/-!
# Source rows of the uploader

The two SQL Server tables that the uploader reads, and `toJSON`, `stringValue` and `fetchEntity` of
`cmd/uploader/main.go`. The pending predicate is whatever the configured SQL expression says of a
row, and the order is that of the primary key column, with ties in any fixed order.
-/

namespace WeighingSync.Uploader

open Go

/-- A column value as the driver delivers it. A float is given by what `fmt.Sprint` prints of it, a
time by its format with layout `2006-01-02 15:04:05`. -/
inductive SqlValue
  | null
  | int (n : ℤ)
  | bool (b : Bool)
  | float (printed : Str)
  | text (s : Str)
  | bytes (b : List UInt8)
  | time (printed : Str)
  deriving DecidableEq, Repr

/-- What `toJSON` makes of a column value. -/
inductive Scalar
  | null
  | text (s : Str)
  | int (n : ℤ)
  | bool (b : Bool)
  deriving DecidableEq, Repr

/-- The JSON value of a scalar. -/
def Scalar.json : Scalar → Json
  | .null => .null
  | .text s => .str s
  | .int n => .num (itoa n)
  | .bool b => .bool b

/-- `toJSON`. -/
def toJSON (value : SqlValue) (databaseType : Str) : Scalar :=
  match value with
  | .null => .null
  | .time printed => .text printed
  | .bytes b =>
      if databaseType.toUpper.contains (Str.lit "BINARY") ||
          databaseType.toUpper.contains (Str.lit "IMAGE") then
        .text (base64 b)
      else .text (Str.ofBytes b)
  | .float printed => .text printed
  | .int n => .int n
  | .bool b => .bool b
  | .text s => .text s

/-- `stringValue`, of a value that `toJSON` may give. -/
def stringValue : Scalar → Str
  | .null => []
  | .text s => s.trimSpace
  | .bool b => formatBool b
  | .int n => itoa n

/-- A column of a result row. -/
structure Cell where
  column : Str
  databaseType : Str
  value : SqlValue
  deriving DecidableEq, Repr

/-- A result row. SQL Server names columns in Unicode, and no two columns of a table alike. -/
structure Row where
  cells : List Cell
  columns_valid : ∀ c ∈ cells, c.column.Valid
  columns_nodup : (cells.map Cell.column).Nodup
  deriving DecidableEq

/-- The map `data` of `fetchEntity`. -/
def Row.data (row : Row) : List (Str × Scalar) :=
  row.cells.map fun c => (c.column, toJSON c.value c.databaseType)

/-- `data[column]`; an absent column reads as nil. -/
def column (data : List (Str × Scalar)) (name : Str) : Scalar :=
  ((data.find? fun f => f.1 = name).map Prod.snd).getD .null

/-- The two kinds of records. -/
def weightInfo : Str := Str.lit "weight_info"
def weightPhoto : Str := Str.lit "weight_photo"

/-- A row as `fetchEntity` hands it on. -/
structure SourceRecord where
  entityType : Str
  pk : Str
  recordKey : Str
  serial : Str
  data : List (Str × Scalar)
  deriving DecidableEq, Repr

/-- The record of a row, whatever its key. -/
def sourceRecord (entityType primaryKey serialColumn : Str) (row : Row) : SourceRecord where
  entityType := entityType
  pk := stringValue (column row.data primaryKey)
  recordKey := entityType ++ Str.lit ":" ++ stringValue (column row.data primaryKey)
  serial := stringValue (column row.data serialColumn)
  data := row.data

/-- A source table: its rows, the rows that satisfy the pending predicate, the order of its primary
key, and whether reading it fails. -/
structure SourceTable where
  rows : List Row
  pending : Row → Bool
  le : Row → Row → Bool
  fails : Bool

namespace SourceTable

/-- The rows that satisfy the pending predicate. -/
def pendingRows (t : SourceTable) : List Row := t.rows.filter t.pending

/-- The answer to `SELECT TOP (n) * … WHERE pending ORDER BY primary key ASC`. -/
def top (t : SourceTable) (n : ℕ) : List Row := window (fun a b => t.le a b = true) n t.pendingRows

/-- The pending rows that the query leaves out. -/
def rest (t : SourceTable) (n : ℕ) : List Row := beyond (fun a b => t.le a b = true) n t.pendingRows

theorem mem_pendingRows_iff (t : SourceTable) (n : ℕ) {row : Row} :
    row ∈ t.pendingRows ↔ row ∈ t.top n ∨ row ∈ t.rest n :=
  mem_iff_window_or_beyond

end SourceTable

/-- Why `fetchEntity` returns an error. -/
inductive FetchError
  | query (table : Str)
  | emptyKey (table primaryKey serialColumn : Str)
  deriving DecidableEq, Repr

/-- A record that `fetchEntity` accepts: neither its key nor its serial number is empty. -/
def SourceRecord.identified (r : SourceRecord) : Bool := r.pk ≠ [] && r.serial ≠ []

/-- `fetchEntity`. -/
def fetchEntity (batchSize : ℤ) (t : SourceTable) (entityType table primaryKey serialColumn : Str) :
    Except FetchError (List SourceRecord) :=
  if t.fails then .error (.query table)
  else
    let result := (t.top batchSize.toNat).map (sourceRecord entityType primaryKey serialColumn)
    if result.all SourceRecord.identified then .ok result
    else .error (.emptyKey table primaryKey serialColumn)

/-- The source database. -/
structure SourceDb where
  info : SourceTable
  photo : SourceTable

/-- The record of a weighing row under a configuration. -/
def Config.infoRecord (cfg : Config) : Row → SourceRecord :=
  sourceRecord weightInfo cfg.infoPrimaryKey cfg.infoSerialColumn

/-- The record of a photo row under a configuration. -/
def Config.photoRecord (cfg : Config) : Row → SourceRecord :=
  sourceRecord weightPhoto cfg.photoPrimaryKey cfg.photoSerialColumn

/-- `fetchAll`. -/
def fetchAll (cfg : Config) (db : SourceDb) : Except FetchError (List SourceRecord) := do
  let infoRecords ← fetchEntity cfg.batchSize db.info weightInfo cfg.infoTable cfg.infoPrimaryKey
    cfg.infoSerialColumn
  let photoRecords ← fetchEntity cfg.batchSize db.photo weightPhoto cfg.photoTable
    cfg.photoPrimaryKey cfg.photoSerialColumn
  return infoRecords ++ photoRecords

/-- `fetchEntity` reads the window, or fails. -/
theorem fetchEntity_eq_ok_iff {batchSize : ℤ} {t : SourceTable}
    {entityType table primaryKey serialColumn : Str} {records : List SourceRecord} :
    fetchEntity batchSize t entityType table primaryKey serialColumn = .ok records ↔
      t.fails = false ∧
      records = (t.top batchSize.toNat).map (sourceRecord entityType primaryKey serialColumn) ∧
      ∀ r ∈ records, r.identified = true := by
  unfold fetchEntity
  constructor
  · intro h
    split at h
    · cases h
    · next hfails =>
      simp only at h
      split at h
      · next hall =>
        cases h
        exact ⟨by simpa using hfails, rfl, List.all_eq_true.mp hall⟩
      · cases h
  · rintro ⟨hfails, rfl, hall⟩
    rw [hfails]
    simp only [Bool.false_eq_true, if_false]
    rw [if_pos (List.all_eq_true.mpr hall)]

/-- `fetchAll` reads the two windows, or fails. -/
theorem fetchAll_eq_ok_iff {cfg : Config} {db : SourceDb} {records : List SourceRecord} :
    fetchAll cfg db = .ok records ↔
      db.info.fails = false ∧ db.photo.fails = false ∧
      records = (db.info.top cfg.batchSize.toNat).map cfg.infoRecord ++
        (db.photo.top cfg.batchSize.toNat).map cfg.photoRecord ∧
      ∀ r ∈ records, r.identified = true := by
  have hok : fetchAll cfg db = .ok records ↔ ∃ infos photos,
      fetchEntity cfg.batchSize db.info weightInfo cfg.infoTable cfg.infoPrimaryKey
        cfg.infoSerialColumn = .ok infos ∧
      fetchEntity cfg.batchSize db.photo weightPhoto cfg.photoTable cfg.photoPrimaryKey
        cfg.photoSerialColumn = .ok photos ∧ records = infos ++ photos := by
    unfold fetchAll
    cases fetchEntity cfg.batchSize db.info weightInfo cfg.infoTable cfg.infoPrimaryKey
      cfg.infoSerialColumn with
    | error e => simp [bind, Except.bind]
    | ok infos =>
        cases fetchEntity cfg.batchSize db.photo weightPhoto cfg.photoTable cfg.photoPrimaryKey
          cfg.photoSerialColumn with
        | error e => simp [bind, Except.bind]
        | ok photos => simp [bind, Except.bind, pure, Except.pure, eq_comm]
  rw [hok]
  simp only [fetchEntity_eq_ok_iff]
  constructor
  · rintro ⟨infos, photos, ⟨hfails, rfl, hinfos⟩, ⟨hfails', rfl, hphotos⟩, rfl⟩
    refine ⟨hfails, hfails', rfl, fun r hr => ?_⟩
    exact (List.mem_append.mp hr).elim (hinfos r) (hphotos r)
  · rintro ⟨hfails, hfails', rfl, hall⟩
    exact ⟨_, _, ⟨hfails, rfl, fun r hr => hall r (List.mem_append_left _ hr)⟩,
      ⟨hfails', rfl, fun r hr => hall r (List.mem_append_right _ hr)⟩, rfl⟩

end WeighingSync.Uploader
