import WeighingSync.Common.Chunks
import WeighingSync.Common.Window
import WeighingSync.Engine.Upload

/-!
# The SQL Server source

`tbl_weightInfo` as `src/source/sqlserver.rs` reads and marks it. How the database orders the pending
rows and which texts it takes as one serial number is up to its columns and its collation, so both
are parameters.
-/

namespace WeighingSync.Engine

open Go

/-! ## Column values -/

/-- `ColumnData`, with one NULL for all types and one integer for all widths. A time is given by what
`format_datetime` makes of it, which is an error where the driver converts no such type. -/
inductive ColumnData
  | null
  | int (value : ℤ)
  | float (bits : UInt64)
  | bit (value : Bool)
  | text (value : Str)
  | numeric (value : ℤ) (scale : ℕ)
  | binary (length : ℕ)
  | time (formatted : Except Str Str)
  deriving DecidableEq

/-- How numbers of 64 bits are printed, in JSON and in errors. -/
structure FloatLib where
  floatJson : UInt64 → Json
  floatText : UInt64 → Str

/-- Neither an infinity nor a NaN: the exponent is not all ones. -/
def isFinite (bits : UInt64) : Bool := bits.toNat / 2 ^ 52 % 2 ^ 11 ≠ 2 ^ 11 - 1

/-- `json_number`. -/
def jsonNumber (lib : FloatLib) (bits : UInt64) : Except Str Json :=
  if isFinite bits then .ok (lib.floatJson bits)
  else .error (Str.lit "invalid floating point value " ++ lib.floatText bits)

/-- `format_numeric`. -/
def formatNumeric (raw : ℤ) (scale : ℕ) : Str :=
  if scale = 0 then itoa raw
  else
    let factor := 10 ^ scale
    let integer := raw.natAbs / factor
    let fraction := raw.natAbs % factor
    let sign := if raw < 0 then Str.lit "-" else []
    sign ++ natText integer ++ Str.lit "." ++ (natText fraction).leftpad scale (.char '0')

example : formatNumeric (-123) 2 = Str.lit "-1.23" ∧ formatNumeric 5 3 = Str.lit "0.005" := by decide

/-- `column_value_to_json`. -/
def columnValueToJson (lib : FloatLib) : ColumnData → Except Str Json
  | .null => .ok .null
  | .int value => .ok (.num (itoa value))
  | .float bits => jsonNumber lib bits
  | .bit value => .ok (.bool value)
  | .text value => .ok (.str value)
  | .numeric value scale => .ok (.str (formatNumeric value scale))
  | .binary length => .ok (.str (Str.lit "<" ++ natText length ++ Str.lit " bytes>"))
  | .time formatted => formatted.map .str

/-! ## Rows -/

/-- The names in `WEIGHT_INFO_COLUMNS`, without the three columns that the source itself reads. -/
def otherColumns : List String :=
  ["sysNo", "setId", "cardNo", "plateNo", "weightType", "transportUnit", "forwardingUnit",
    "consigneeUnit", "goodsName", "goodsSpec", "grossWeight", "tareWeight", "netWeight",
    "buckleWeight", "actualWeight", "weightUnit", "unitPrice", "sumAmt", "scaleNum", "squareNum",
    "weighingFee", "grossStation", "tareStation", "grossMan", "tareMan", "grossTime", "tareTime",
    "firstTime", "secondTime", "updateTime", "printNum", "isCancle", "isUploadLocal", "strBackup1",
    "strBackup2", "strBackup3", "strBackup4", "strBackup5", "strBackup6", "strBackup7", "strBackup8",
    "strBackup9", "numBackup1", "numBackup2", "numBackup3", "numBackup4", "numBackup5", "numBackup6",
    "numBackup7", "numBackup8", "numBackup9", "timeBackup1", "timeBackup2", "timeBackup3", "fGuid",
    "fID", "relNo", "relSer", "regNo", "dataType", "dataLog", "isFinish", "remark"]

/-- A row of `tbl_weightInfo`: the columns that the source reads, and the others in order of their
names above. -/
structure WeightRow where
  serialNo : Option Str
  isUploadCloud : Option ℤ
  delFlag : Option ℤ
  others : Vector ColumnData otherColumns.length
  deriving DecidableEq

/-- A column as `ColumnData`. -/
def ColumnData.ofOption {α : Type} (data : α → ColumnData) : Option α → ColumnData
  | none => .null
  | some value => data value

/-- The cells of a row. They become a map, so that their order is left open. -/
def WeightRow.cells (row : WeightRow) : List (String × ColumnData) :=
  ("serialNo", .ofOption .text row.serialNo) :: ("isUploadCloud", .ofOption .int row.isUploadCloud) ::
    ("del_flag", .ofOption .int row.delFlag) :: otherColumns.zip row.others.toList

/-- `SqlServerWeightRecord`. -/
structure SqlServerWeightRecord where
  serialNo : Str
  data : List (Str × Json)

/-- `row_to_record`. -/
def rowToRecord (lib : FloatLib) (row : WeightRow) : Except Str SqlServerWeightRecord := do
  let serialNo ← match row.serialNo.filter fun value => value.trimSpace ≠ [] with
    | some serialNo => .ok serialNo
    | none => .error (Str.lit "tbl_weightInfo row missing serialNo")
  let data ← row.cells.mapM fun cell => do
    let json ← columnValueToJson lib cell.2
    return (Str.lit cell.1, json)
  return ⟨serialNo, data⟩

/-- The record of a row bears its serial number. -/
theorem serialNo_of_rowToRecord {lib : FloatLib} {row : WeightRow} {record : SqlServerWeightRecord}
    (h : rowToRecord lib row = .ok record) : row.serialNo = some record.serialNo := by
  unfold rowToRecord at h
  rcases hserial : row.serialNo.filter fun value => value.trimSpace ≠ [] with _ | serialNo
  · rw [hserial] at h
    cases h
  · rw [hserial] at h
    rcases hdata : row.cells.mapM fun cell => (do
      let json ← columnValueToJson lib cell.2
      return (Str.lit cell.1, json) : Except Str (Str × Json)) with e | data
    · simp only [hdata] at h
      cases h
    · simp only [hdata] at h
      cases h
      exact (Option.filter_eq_some_iff.mp hserial).1

/-- Where all rows are read, each has its record. -/
theorem exists_record_of_mapM {lib : FloatLib} {rows : List WeightRow}
    {records : List SqlServerWeightRecord} (h : rows.mapM (rowToRecord lib) = .ok records)
    {row : WeightRow} (hrow : row ∈ rows) : ∃ record ∈ records, rowToRecord lib row = .ok record := by
  induction rows generalizing records with
  | nil => cases hrow
  | cons first rows ih =>
      rw [List.mapM_cons] at h
      rcases hfirst : rowToRecord lib first with e | record
      · rw [hfirst] at h
        cases h
      · rcases hrest : rows.mapM (rowToRecord lib) with e | rest
        · rw [hfirst, hrest] at h
          cases h
        · rw [hfirst, hrest] at h
          cases h
          rcases List.mem_cons.mp hrow with rfl | hmem
          · exact ⟨record, List.mem_cons_self, hfirst⟩
          · obtain ⟨record', hrecord', hread⟩ := ih hrest hmem
            exact ⟨record', List.mem_cons_of_mem _ hrecord', hread⟩

/-! ## The table -/

/-- How the database orders the pending rows, by the first of their four times that is set, and which
texts it takes as equal. -/
structure Server where
  le : WeightRow → WeightRow → Bool
  sameSerial : Str → Str → Bool

/-- `SqlServerConfig`, as far as a cycle reads it. -/
structure SqlServerConfig where
  database : Str
  table : Str
  markUploaded : Bool
  deriving DecidableEq, Repr

/-- `MARK_UPLOAD_CHUNK_SIZE`. -/
def markUploadChunkSize : ℕ := 1000

/-- Neither uploaded nor deleted. -/
def WeightRow.pending (row : WeightRow) : Bool :=
  row.isUploadCloud.getD 0 = 0 && row.delFlag.getD 0 = 0

namespace Server

variable (server : Server)

/-- The rows that `fetch_pending` reads. -/
def pendingRows (limit : ℕ) (rows : List WeightRow) : List WeightRow :=
  window (fun a b => server.le a b = true) limit (rows.filter WeightRow.pending)

/-- `fetch_pending`: an error as soon as one row cannot be read. -/
def fetchPending (lib : FloatLib) (limit : ℕ) (rows : List WeightRow) :
    Except Str (List SqlServerWeightRecord) :=
  (server.pendingRows limit rows).mapM (rowToRecord lib)

/-- `[serialNo] IN (serialNos)`. -/
def named (serialNos : List Str) (row : WeightRow) : Bool :=
  row.serialNo.any fun serialNo => serialNos.any (server.sameSerial serialNo)

/-- One `UPDATE` of `mark_uploaded`. -/
def markChunk (chunk : List Str) (rows : List WeightRow) : List WeightRow :=
  rows.map fun row => if server.named chunk row then { row with isUploadCloud := some 1 } else row

/-- The loop of `mark_uploaded`; the statement with the given number fails, if there is one. -/
def markChunks : Option ℕ → List (List Str) → List WeightRow → List WeightRow × Except Str Unit
  | _, [], rows => (rows, .ok ())
  | some 0, chunk :: _, rows =>
      (rows, .error (Str.lit "failed to mark " ++ natText chunk.length ++
        Str.lit " SQL Server rows as uploaded"))
  | failsAt, chunk :: chunks, rows =>
      markChunks (failsAt.map Nat.pred) chunks (server.markChunk chunk rows)

/-- `mark_uploaded`. -/
def markUploaded (cfg : SqlServerConfig) (failsAt : Option ℕ) (serialNos : List Str)
    (rows : List WeightRow) : List WeightRow × Except Str Unit :=
  if serialNos = [] ∨ cfg.markUploaded = false then (rows, .ok ())
  else server.markChunks failsAt (chunks markUploadChunkSize serialNos) rows

/-- The serial numbers of the chunks before the statement that fails. -/
def marked (cfg : SqlServerConfig) (failsAt : Option ℕ) (serialNos : List Str) : List Str :=
  if cfg.markUploaded = false then []
  else
    match failsAt with
    | none => serialNos
    | some k => ((chunks markUploadChunkSize serialNos).take k).flatten

variable {server}

@[simp] theorem named_nil (row : WeightRow) : server.named [] row = false := by
  rcases hserial : row.serialNo with _ | serialNo <;> simp [named, hserial]

theorem named_append {xs ys : List Str} {row : WeightRow} :
    server.named (xs ++ ys) row = (server.named xs row || server.named ys row) := by
  rcases hserial : row.serialNo with _ | serialNo <;> simp [named, hserial]

theorem markChunk_nil (rows : List WeightRow) : server.markChunk [] rows = rows := by
  simp [markChunk]

/-- Two updates in turn mark what one update with both lists marks. -/
theorem markChunk_markChunk (xs ys : List Str) (rows : List WeightRow) :
    server.markChunk ys (server.markChunk xs rows) = server.markChunk (xs ++ ys) rows := by
  rw [markChunk, markChunk, markChunk, List.map_map]
  congr 1
  funext row
  rw [Function.comp_apply, named_append]
  by_cases hx : server.named xs row
  · have hsame : server.named ys { row with isUploadCloud := some 1 } = server.named ys row := rfl
    rw [if_pos hx, hsame, hx, Bool.true_or, if_pos rfl]
    split_ifs <;> rfl
  · rw [if_neg hx, Bool.eq_false_iff.mpr hx, Bool.false_or]

/-- The loop marks the chunks before the statement that fails. -/
theorem markChunks_fst (failsAt : Option ℕ) (parts : List (List Str)) (rows : List WeightRow) :
    (server.markChunks failsAt parts rows).1 =
      server.markChunk (failsAt.elim parts parts.take).flatten rows := by
  induction parts generalizing failsAt rows with
  | nil =>
      cases failsAt <;> simp [markChunks, markChunk_nil]
  | cons chunk parts ih =>
      rcases failsAt with _ | _ | k
      · rw [markChunks, ih, markChunk_markChunk]
        · rfl
        · intro h
          cases h
      · exact (markChunk_nil rows).symm
      · rw [markChunks, ih, markChunk_markChunk]
        · rfl
        · intro h
          cases h

/-- `mark_uploaded` marks the rows that bear a serial number of its executed statements. -/
theorem markUploaded_fst (cfg : SqlServerConfig) (failsAt : Option ℕ) (serialNos : List Str)
    (rows : List WeightRow) : (server.markUploaded cfg failsAt serialNos rows).1 =
      server.markChunk (marked cfg failsAt serialNos) rows := by
  unfold markUploaded marked
  by_cases hmark : cfg.markUploaded = false
  · rw [if_pos (Or.inr hmark), if_pos hmark]
    exact (markChunk_nil rows).symm
  · have hchunks : (chunks markUploadChunkSize serialNos).flatten = serialNos :=
      flatten_chunks (by decide) serialNos
    rw [if_neg hmark]
    by_cases hnil : serialNos = []
    · rw [if_pos (Or.inl hnil), hnil]
      have hempty : chunks markUploadChunkSize ([] : List Str) = [] := rfl
      cases failsAt <;> simp [hempty, markChunk_nil]
    · rw [if_neg (not_or.mpr ⟨hnil, hmark⟩), markChunks_fst]
      cases failsAt with
      | none => rw [Option.elim_none, hchunks]
      | some k => rfl

end Server

end WeighingSync.Engine
