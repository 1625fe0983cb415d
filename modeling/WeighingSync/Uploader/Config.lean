import WeighingSync.Go.Strings

/-!
# Configuration of the uploader

`loadConfig` of `cmd/uploader/main.go`. The environment is a function from names to texts, and
`url.Parse` a parameter. A `Config` carries what `loadConfig` has checked.
-/

namespace WeighingSync.Uploader

open Go

/-- `defaultPendingWhere`. -/
def defaultPendingWhere : Str :=
  Str.lit "ISNULL([isUploadCloud], 0) = 0 AND ISNULL([del_flag], 0) = 0"

/-- `defaultPhotoPendingWhere`. -/
def defaultPhotoPendingWhere : Str :=
  Str.lit "ISNULL([isUploadCloud], 0) = 0 AND ISNULL([delFlag], 0) = 0"

/-- What `url.Parse` gives of an absolute URL. -/
structure Endpoint where
  scheme : Str
  host : Str
  path : Str
  rawQuery : Str
  deriving DecidableEq, Repr

/-- A name that `identifier` accepts: letters, digits and underscores of ASCII. -/
def identifier (value : Str) : Bool :=
  value ≠ [] && value.all fun
    | .char c => c = '_' || ('a' ≤ c && c ≤ 'z') || ('A' ≤ c && c ≤ 'Z') || ('0' ≤ c && c ≤ '9')
    | .byte _ => false

/-- A predicate text that `loadConfig` refuses. -/
def invalidWhere (value : Str) : Bool := value.trimSpace = [] || value.contains (Str.lit ";")

/-- `time.Second`, in nanoseconds. -/
def second : ℤ := 1000000000

/-- The settings of the uploader, with what `loadConfig` checks of them. -/
structure Config where
  endpoint : Endpoint
  token : Str
  secret : Str
  database : Str
  schema : Str
  infoTable : Str
  photoTable : Str
  infoPrimaryKey : Str
  photoPrimaryKey : Str
  infoSerialColumn : Str
  photoSerialColumn : Str
  infoPendingWhere : Str
  photoPendingWhere : Str
  stateFile : Str
  source : Str
  batchSize : ℤ
  poll : ℤ
  timeout : ℤ
  runOnce : Bool
  endpoint_absolute : endpoint.scheme ≠ [] ∧ endpoint.host ≠ []
  credentials : token.trimSpace ≠ [] ∧ secret.trimSpace ≠ []
  database_ne : database ≠ []
  identifiers : ∀ name ∈ [schema, infoTable, photoTable, infoPrimaryKey, photoPrimaryKey,
    infoSerialColumn, photoSerialColumn], identifier name = true
  bounds : 1 ≤ batchSize ∧ second ≤ poll ∧ second ≤ timeout
  info_where : invalidWhere infoPendingWhere = false
  photo_where : invalidWhere photoPendingWhere = false
  deriving DecidableEq

/-- Why `loadConfig` refuses an environment. -/
inductive ConfigError
  | endpoint
  | credentials
  | database
  | identifier (name : Str)
  | bounds
  | infoWhere
  | photoWhere
  deriving DecidableEq, Repr

/-- The text of a configuration error, up to the quotes that `%q` puts around a name. -/
def ConfigError.text : ConfigError → Str
  | .endpoint => Str.lit "C_ENDPOINT must be an absolute URL"
  | .credentials => Str.lit "INGEST_API_TOKEN and INGEST_SIGN_SECRET are required"
  | .database => Str.lit "SQLSERVER_DATABASE is required"
  | .identifier name => Str.lit "invalid SQL Server identifier: " ++ name
  | .bounds => Str.lit "batch size and timeout settings must be positive"
  | .infoWhere => Str.lit "SQLSERVER_INFO_PENDING_WHERE must be a non-empty single SQL expression"
  | .photoWhere => Str.lit "SQLSERVER_PHOTO_PENDING_WHERE must be a non-empty single SQL expression"

section

variable (getenv : Str → Str)

/-- An environment variable, or a fallback where it is blank. -/
def env (key : String) (fallback : Str) : Str :=
  let value := (getenv (Str.lit key)).trimSpace
  if value ≠ [] then value else fallback

/-- An integer variable, or a fallback where it is none. -/
def envInt (key : String) (fallback : ℤ) : ℤ := (atoi (env getenv key [])).getD fallback

/-- `strconv.ParseBool`. -/
def parseBool (s : Str) : Option Bool :=
  if s ∈ ["1", "t", "T", "TRUE", "true", "True"].map Str.lit then some true
  else if s ∈ ["0", "f", "F", "FALSE", "false", "False"].map Str.lit then some false
  else none

/-- A boolean variable, or a fallback where it is none. -/
def envBool (key : String) (fallback : Bool) : Bool := (parseBool (env getenv key [])).getD fallback

/-- A duration in seconds; the product wraps as 64-bit integers do. -/
def seconds (key : String) (fallback : ℤ) : ℤ :=
  Int.bmod (envInt getenv key fallback * second) (2 ^ 64)

/-- `loadConfig`. -/
def loadConfig (parseURL : Str → Option Endpoint) : Except ConfigError Config :=
  let env := env getenv
  match parseURL (env "C_ENDPOINT" (Str.lit "http://127.0.0.1:18081/weighing-data-sync/put")) with
  | none => .error .endpoint
  | some endpoint =>
    if he : endpoint.scheme ≠ [] ∧ endpoint.host ≠ [] then
      let token := getenv (Str.lit "INGEST_API_TOKEN")
      let secret := getenv (Str.lit "INGEST_SIGN_SECRET")
      let database := env "SQLSERVER_DATABASE" []
      if hc : token.trimSpace ≠ [] ∧ secret.trimSpace ≠ [] then
        if hd : database ≠ [] then
          let schema := env "SQLSERVER_SCHEMA" (Str.lit "dbo")
          let infoTable :=
            env "SQLSERVER_INFO_TABLE" (env "SQLSERVER_TABLE" (Str.lit "tbl_weightInfo"))
          let photoTable := env "SQLSERVER_PHOTO_TABLE" (Str.lit "tbl_weightPhoto")
          let infoPrimaryKey :=
            env "SQLSERVER_INFO_PRIMARY_KEY" (env "SQLSERVER_PRIMARY_KEY" (Str.lit "serialNo"))
          let photoPrimaryKey := env "SQLSERVER_PHOTO_PRIMARY_KEY" (Str.lit "id")
          let infoSerialColumn :=
            env "SQLSERVER_INFO_SERIAL_COLUMN" (env "SQLSERVER_SERIAL_COLUMN" (Str.lit "serialNo"))
          let photoSerialColumn := env "SQLSERVER_PHOTO_SERIAL_COLUMN" (Str.lit "serialNo")
          let infoPendingWhere :=
            env "SQLSERVER_INFO_PENDING_WHERE" (env "SQLSERVER_PENDING_WHERE" defaultPendingWhere)
          let photoPendingWhere := env "SQLSERVER_PHOTO_PENDING_WHERE" defaultPhotoPendingWhere
          let batchSize := envInt getenv "BATCH_SIZE" 100
          let poll := seconds getenv "POLL_INTERVAL_SECONDS" 30
          let timeout := seconds getenv "HTTP_TIMEOUT_SECONDS" 30
          let names := [schema, infoTable, photoTable, infoPrimaryKey, photoPrimaryKey,
            infoSerialColumn, photoSerialColumn]
          if hi : ∀ name ∈ names, identifier name = true then
            if hb : 1 ≤ batchSize ∧ second ≤ poll ∧ second ≤ timeout then
              if hiw : invalidWhere infoPendingWhere = false then
                if hpw : invalidWhere photoPendingWhere = false then
                  .ok {
                    endpoint, token, secret, database, schema, infoTable, photoTable
                    infoPrimaryKey, photoPrimaryKey, infoSerialColumn, photoSerialColumn
                    infoPendingWhere, photoPendingWhere
                    stateFile := env "STATE_FILE" (Str.lit "data/a-uploader-state.jsonl")
                    source := env "SOURCE_NAME" (Str.lit "sqlserver-" ++ database)
                    batchSize, poll, timeout
                    runOnce := envBool getenv "RUN_ONCE" false
                    endpoint_absolute := he
                    credentials := hc
                    database_ne := hd
                    identifiers := hi
                    bounds := hb
                    info_where := hiw
                    photo_where := hpw }
                else .error .photoWhere
              else .error .infoWhere
            else .error .bounds
          else .error (.identifier ((names.find? fun name => !identifier name).getD []))
        else .error .database
      else .error .credentials
    else .error .endpoint

end

end WeighingSync.Uploader
