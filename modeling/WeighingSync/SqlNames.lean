import WeighingSync.Common.Quoted
import WeighingSync.Go.Strings

/-!
# Names in SQL statements

How `src/source/sqlserver.rs` and `cmd/uploader/main.go` write the names of tables and columns into
their statements, and how T-SQL reads them: a bracketed identifier, a list of columns, and a name of
several parts. Whatever is quoted is read back (`lexesBack`). The synchronizer quotes the name of its
table as one identifier, so a name with a schema denotes no such table (`denotesTable_iff`).
-/

namespace WeighingSync

open Go

/-! ## What T-SQL reads -/

/-- White space between the parts of a statement. -/
def sqlBlank : Rune → Bool
  | .char c => c ∈ [' ', '\t', '\n', '\r']
  | .byte _ => false

/-- A bracketed identifier, and the text after it. -/
def bracketedIdentifier (text : Str) : Option (Str × Str) := lexQuoted (.char '[') (.char ']') text

/-- A list of columns. -/
def columnList (text : Str) : Option (List Str × Str) :=
  lexNames (.char '[') (.char ']') (.char ',') sqlBlank text.length text

/-- The parts of the name of an object. -/
def objectName (text : Str) : Option (List Str × Str) :=
  lexNames (.char '[') (.char ']') (.char '.') sqlBlank text.length text

namespace Engine

/-! ## The synchronizer -/

/-- `WEIGHT_INFO_COLUMNS`. -/
def weightInfoColumns : List String :=
  ["serialNo", "sysNo", "setId", "cardNo", "plateNo", "weightType", "transportUnit", "forwardingUnit",
    "consigneeUnit", "goodsName", "goodsSpec", "grossWeight", "tareWeight", "netWeight",
    "buckleWeight", "actualWeight", "weightUnit", "unitPrice", "sumAmt", "scaleNum", "squareNum",
    "weighingFee", "grossStation", "tareStation", "grossMan", "tareMan", "grossTime", "tareTime",
    "firstTime", "secondTime", "updateTime", "printNum", "isCancle", "isUploadLocal", "isUploadCloud",
    "strBackup1", "strBackup2", "strBackup3", "strBackup4", "strBackup5", "strBackup6", "strBackup7",
    "strBackup8", "strBackup9", "numBackup1", "numBackup2", "numBackup3", "numBackup4", "numBackup5",
    "numBackup6", "numBackup7", "numBackup8", "numBackup9", "timeBackup1", "timeBackup2",
    "timeBackup3", "fGuid", "fID", "relNo", "relSer", "regNo", "dataType", "dataLog", "isFinish",
    "remark", "del_flag"]

/-- `quoted_identifier`. -/
def quotedIdentifier (identifier : Str) : Str :=
  Str.lit "[" ++ doubled (.char ']') identifier ++ Str.lit "]"

/-- `select_columns`. -/
def selectColumns : Str :=
  (Str.lit ", ").intercalate (weightInfoColumns.map fun column => quotedIdentifier (Str.lit column))

/-- `validate_identifier`. -/
def validateIdentifier (identifier : Str) : Bool :=
  identifier ≠ [] && identifier.all fun
    | .char ch => ch.isAlphanum || ch == '_' || ch == '.'
    | .byte _ => false

/-- The table of a `SqlServerSource`, as `SqlServerSource::new` accepts it. -/
structure TableName where
  table : Str
  valid : validateIdentifier table = true

/-- A statement: what stands before the name of the table, the name, and what stands after it. -/
structure Statement where
  before : Str
  object : Str
  after : Str
  deriving DecidableEq, Repr

namespace TableName

/-- The statement of `fetch_pending`. -/
def fetchPending (name : TableName) (limit : ℕ) : Statement where
  before := Str.lit "\n            SELECT TOP (" ++ natText limit ++ Str.lit ") " ++ selectColumns ++
    Str.lit "\n            FROM "
  object := quotedIdentifier name.table
  after := Str.lit "\n            WHERE ISNULL([isUploadCloud], 0) = 0" ++
    Str.lit "\n              AND ISNULL([del_flag], 0) = 0" ++
    Str.lit "\n            ORDER BY ISNULL([updateTime], ISNULL([secondTime], " ++
    Str.lit "ISNULL([firstTime], [grossTime]))) ASC\n            "

/-- The statement of `mark_uploaded` for a chunk. -/
def markUploaded (name : TableName) (chunkLength : ℕ) : Statement where
  before := Str.lit "UPDATE "
  object := quotedIdentifier name.table
  after := Str.lit " SET [isUploadCloud] = 1 WHERE [serialNo] IN (" ++
    (Str.lit ", ").intercalate
      ((List.range' 1 chunkLength).map fun i => Str.lit "@P" ++ natText i) ++ Str.lit ")"

end TableName

end Engine

namespace Uploader

/-! ## The uploader -/

/-- `quote`. -/
def quote (value : Str) : Str := Str.lit "[" ++ doubled (.char ']') value ++ Str.lit "]"

/-- `qualified`. -/
def qualified (schema table : Str) : Str := quote schema ++ Str.lit "." ++ quote table

end Uploader

/-! ## Reading names back -/

/-- A way to quote names is read back: a name in front of every text that does not begin with a closing
bracket, and a list of columns with commas and blanks between them, in front of every text that goes on
with neither. -/
structure LexesBack (quote : Str → Str) : Prop where
  identifier : ∀ s t, ¬ [.char ']'] <+: t → bracketedIdentifier (quote s ++ t) = some (s, t)
  columns : ∀ blanks : Str, (∀ r ∈ blanks, sqlBlank r = true) → ∀ columns ≠ [], ∀ t,
    EndsNames (.char ']') (.char ',') sqlBlank t →
      columnList ((.char ',' :: blanks).intercalate (columns.map quote) ++ t) = some (columns, t)

theorem length_le_intercalate_quoted (between : Str) (names : List Str) (t : Str) :
    names.length ≤ (between.intercalate (names.map (quoted (.char '[') (.char ']'))) ++ t).length := by
  induction names with
  | nil => exact Nat.zero_le _
  | cons name names ih =>
      cases names with
      | nil => simp [quoted]
      | cons name' names =>
          rw [List.map_cons, List.map_cons, List.intercalate_cons_cons, ← List.map_cons,
            List.length_append, List.length_append, List.length_append, List.length_cons]
          rw [List.length_append] at ih
          have hpos : 0 < (quoted (.char '[') (.char ']') name).length := Nat.succ_pos _
          omega

theorem lexesBack_quoted : LexesBack (quoted (.char '[') (.char ']')) where
  identifier := fun s _ ht => lexQuoted_quoted s ht
  columns := fun blanks hblanks columns hcolumns t ht =>
    lexNames_append blanks hblanks rfl rfl (by decide) columns hcolumns
      (length_le_intercalate_quoted _ columns t) ht

/-- Both programs quote so that what they quote is read back. -/
theorem lexesBack : LexesBack Engine.quotedIdentifier ∧ LexesBack Uploader.quote :=
  ⟨lexesBack_quoted, lexesBack_quoted⟩

/-- The columns that the synchronizer selects. -/
example : columnList (Engine.selectColumns ++ Str.lit "\n            FROM ") =
    some (Engine.weightInfoColumns.map Str.lit, Str.lit "\n            FROM ") := by
  decide +kernel

/-- Quoted parts with dots between them are read as a name of these parts. -/
theorem objectName_joined (parts : List Str) (hparts : parts ≠ []) {t : Str}
    (h : EndsNames (.char ']') (.char '.') sqlBlank t) :
    objectName ([.char '.'].intercalate (parts.map Uploader.quote) ++ t) = some (parts, t) := by
  have hread : lexNames (.char '[') (.char ']') (.char '.') sqlBlank _
      ([.char '.'].intercalate (parts.map Uploader.quote) ++ t) = some (parts, t) :=
    lexNames_append [] (by simp) rfl rfl (by decide) parts hparts
      (length_le_intercalate_quoted [.char '.'] parts t) h
  exact hread

/-- So the uploader names its table in its schema. -/
theorem objectName_qualified (schema table : Str) {t : Str}
    (h : EndsNames (.char ']') (.char '.') sqlBlank t) :
    objectName (Uploader.qualified schema table ++ t) = some ([schema, table], t) := by
  have hjoined : Uploader.qualified schema table =
      [.char '.'].intercalate ([schema, table].map Uploader.quote) := by
    rw [Uploader.qualified, List.map_cons, List.map_singleton, List.intercalate_cons_cons,
      List.intercalate_singleton]
    rfl
  rw [hjoined]
  exact objectName_joined _ (List.cons_ne_nil _ _) h

namespace Engine

/-! ## The table that is named -/

/-- The statements of a source name the table whose parts stand between the dots of its name. -/
structure DenotesTable (name : TableName) : Prop where
  fetchPending : ∀ limit, (objectName ((name.fetchPending limit).object ++
    (name.fetchPending limit).after)).map Prod.fst = some (name.table.splitOn (.char '.'))
  markUploaded : ∀ chunkLength, (objectName ((name.markUploaded chunkLength).object ++
    (name.markUploaded chunkLength).after)).map Prod.fst = some (name.table.splitOn (.char '.'))

/-- A quoted name is read as a name of one part. -/
theorem objectName_quotedIdentifier (table : Str) {t : Str}
    (h : EndsNames (.char ']') (.char '.') sqlBlank t) :
    (objectName (quotedIdentifier table ++ t)).map Prod.fst = some [table] := by
  have hread := objectName_joined [table] (List.cons_ne_nil _ _) h
  rw [List.map_singleton, List.intercalate_singleton] at hread
  exact congrArg (Option.map Prod.fst) hread

theorem objectName_fetchPending (name : TableName) (limit : ℕ) :
    (objectName ((name.fetchPending limit).object ++ (name.fetchPending limit).after)).map Prod.fst =
      some [name.table] := by
  apply objectName_quotedIdentifier
  constructor
  · rintro ⟨t, ht⟩
    cases ht
  · rintro ⟨t, ht⟩
    cases ht

theorem objectName_markUploaded (name : TableName) (chunkLength : ℕ) :
    (objectName ((name.markUploaded chunkLength).object ++
      (name.markUploaded chunkLength).after)).map Prod.fst = some [name.table] := by
  apply objectName_quotedIdentifier
  constructor
  · rintro ⟨t, ht⟩
    cases ht
  · rintro ⟨t, ht⟩
    cases ht

/-- The statements name the configured table exactly when its name has no dot. -/
theorem denotesTable_iff (name : TableName) : DenotesTable name ↔ .char '.' ∉ name.table := by
  have hparts : some [name.table] = some (name.table.splitOn (.char '.')) ↔ .char '.' ∉ name.table := by
    rw [Option.some_inj]
    constructor
    · intro h hdot
      obtain ⟨part, rest, hsplit⟩ := List.append_of_mem hdot
      have hlength := congrArg List.length h
      rw [hsplit, List.splitOn_append_cons_self, List.length_append] at hlength
      have hpart := List.length_pos_iff.mpr (List.splitOn_ne_nil (.char '.') part)
      have hrest := List.length_pos_iff.mpr (List.splitOn_ne_nil (.char '.') rest)
      rw [List.length_singleton] at hlength
      omega
    · exact fun h => (List.splitOn_eq_singleton h).symm
  rw [← hparts]
  constructor
  · intro h
    rw [← objectName_fetchPending name 0]
    exact h.fetchPending 0
  · intro h
    exact ⟨fun limit => (objectName_fetchPending name limit).trans h,
      fun chunkLength => (objectName_markUploaded name chunkLength).trans h⟩

/-- A table in a schema. -/
def schemaTable : TableName where
  table := Str.lit "dbo.tbl_weightInfo"
  valid := by decide

/-- It is accepted, and the statements name a table that has the dot in its name. -/
theorem not_denotesTable_schemaTable : ¬ DenotesTable schemaTable ∧
    (objectName ((schemaTable.fetchPending 1).object ++ (schemaTable.fetchPending 1).after)).map
      Prod.fst = some [Str.lit "dbo.tbl_weightInfo"] := by
  refine ⟨fun h => ?_, objectName_fetchPending schemaTable 1⟩
  have hparts := (objectName_fetchPending schemaTable 1).symm.trans (h.fetchPending 1)
  exact absurd hparts (by decide)

end Engine

end WeighingSync
