import WeighingSync.Receiver.Server

/-!
# Configuration of the receiver

`loadConfig` and `roleAuth` of `cmd/receiver/main.go`. The environment is a function from names to
texts; the file system, in which `loadSQLiteDSN` makes a directory, and the patterns of the router are
not followed. A `LoadedConfig` carries what `loadConfig` has checked.
-/

namespace WeighingSync.Receiver

open Go

/-- Why `loadConfig` refuses an environment. -/
inductive ConfigError
  | sqliteDirectory
  | mysqlDSN
  | driver (name : Str)
  | limits
  | minDeleteAge
  | token (role : String)
  | secret (role : String)
  deriving DecidableEq, Repr

/-- The text of a configuration error, up to the quotes that `%q` puts around a name and the cause
that `%w` adds. -/
def ConfigError.text : ConfigError → Str
  | .sqliteDirectory => Str.lit "create sqlite directory"
  | .mysqlDSN => Str.lit "MYSQL_DSN or DATABASE_DSN is required when DB_DRIVER=mysql"
  | .driver name => Str.lit "unsupported DB_DRIVER " ++ name
  | .limits => Str.lit "invalid query limit settings"
  | .minDeleteAge => Str.lit "MIN_DELETE_AGE_HOURS must be at least 168"
  | .token role => Str.lit role ++ Str.lit "_API_TOKEN is required when REQUIRE_AUTH=true"
  | .secret role => Str.lit role ++ Str.lit "_SIGN_SECRET is required when REQUIRE_AUTH=true"

section

variable (getenv : Str → Str)

/-! ## Variables -/

/-- `envString`. -/
def envString (key : String) (fallbackValue : Str) : Str :=
  let value := (getenv (Str.lit key)).trimSpace
  if value ≠ [] then value else fallbackValue

/-- `envFirst`. -/
def envFirst : List Str → Str
  | [] => []
  | key :: keys =>
      let value := (getenv key).trimSpace
      if value ≠ [] then value else envFirst keys

/-- `envInt`. -/
def envInt (key : String) (fallbackValue : ℤ) : ℤ :=
  let value := (getenv (Str.lit key)).trimSpace
  if value = [] then fallbackValue else (atoi value).getD fallbackValue

/-- `envBool`. -/
def envBool (key : String) (fallbackValue : Bool) : Bool :=
  let value := (getenv (Str.lit key)).trimSpace
  if value = [] then fallbackValue else trueText value

theorem trimSpace_envFirst (keys : List Str) :
    (envFirst getenv keys).trimSpace = envFirst getenv keys := by
  induction keys with
  | nil => rfl
  | cons key keys ih =>
      simp only [envFirst]
      split_ifs
      · exact Str.trimSpace_trimSpace _
      · exact ih

/-! ## Credentials -/

/-- The variables of a credential of a role, in the order in which they are looked up. -/
def credentialKeys (name role : String) (aliases : List String) : List Str :=
  (role :: aliases).map (fun r => Str.lit r ++ Str.lit "_" ++ Str.lit name) ++ [Str.lit name]

/-- `roleAuth`. -/
def roleAuth (role : String) (aliases : List String) : AuthConfig where
  apiToken := envFirst getenv (credentialKeys "API_TOKEN" role aliases)
  signSecret := envFirst getenv (credentialKeys "SIGN_SECRET" role aliases)
  token_trimmed := trimSpace_envFirst getenv _
  secret_trimmed := trimSpace_envFirst getenv _

end

/-- The role has both its credentials. -/
def AuthConfig.Complete (a : AuthConfig) : Prop := a.apiToken ≠ [] ∧ a.signSecret ≠ []

/-- `validate`. -/
def AuthConfig.validate (a : AuthConfig) (role : String) : Option ConfigError :=
  if a.apiToken = [] then some (.token role)
  else if a.signSecret = [] then some (.secret role)
  else none

/-- The checks that `loadConfig` makes under `REQUIRE_AUTH`. -/
def validateRoles (requireAuth : Bool) (writeAuth readAuth deleteAuth : AuthConfig) :
    Option ConfigError :=
  if requireAuth then
    (writeAuth.validate "INGEST").or
      ((readAuth.validate "QUERY").or (deleteAuth.validate "CLEANUP"))
  else none

theorem AuthConfig.complete_of_validate {a : AuthConfig} {role : String}
    (h : a.validate role = none) : a.Complete := by
  unfold AuthConfig.validate at h
  split_ifs at h with htoken hsecret
  exact ⟨htoken, hsecret⟩

theorem complete_of_validateRoles {requireAuth : Bool} {writeAuth readAuth deleteAuth : AuthConfig}
    (h : validateRoles requireAuth writeAuth readAuth deleteAuth = none) (hrequire : requireAuth = true) :
    writeAuth.Complete ∧ readAuth.Complete ∧ deleteAuth.Complete := by
  rw [validateRoles, if_pos hrequire, Option.or_eq_none_iff, Option.or_eq_none_iff] at h
  exact ⟨AuthConfig.complete_of_validate h.1, AuthConfig.complete_of_validate h.2.1,
    AuthConfig.complete_of_validate h.2.2⟩

/-! ## The configuration -/

/-- `config`, with what `loadConfig` checks of it. -/
structure LoadedConfig where
  addr : Str
  dbDriver : Str
  dbDSN : Str
  writeAuth : AuthConfig
  readAuth : AuthConfig
  deleteAuth : AuthConfig
  route : Str
  queryRoute : Str
  maxBodyBytes : ℤ
  defaultLimit : ℤ
  maxLimit : ℤ
  signSkew : ℤ
  autoMigrate : Bool
  storeRawRecords : Bool
  storeRawPayload : Bool
  returnRawRecords : Bool
  minDeleteAge : ℤ
  requireAuth : Bool
  limits : 0 < defaultLimit ∧ 0 < maxLimit ∧ defaultLimit ≤ maxLimit
  min_age : defaultMinDeleteAge ≤ minDeleteAge
  credentials : requireAuth = true → writeAuth.Complete ∧ readAuth.Complete ∧ deleteAuth.Complete

section

variable (getenv : Str → Str)

/-- A duration, given in units of so many nanoseconds; the product wraps as 64-bit integers do. -/
def envDuration (key : String) (fallbackValue unit : ℤ) : ℤ :=
  Int.bmod (envInt getenv key fallbackValue * unit) (2 ^ 64)

/-- `loadDatabase`, with what `loadSQLiteDSN` returns. -/
def loadDatabase (sqliteDSN : Option Str) : Except ConfigError (Str × Str) :=
  let driver := (envString getenv "DB_DRIVER"
    (envString getenv "DATABASE_DRIVER" (Str.lit "sqlite"))).toLower
  if driver ∈ [Str.lit "sqlite", Str.lit "sqlite3"] then
    match sqliteDSN with
    | some dsn => .ok (Str.lit "sqlite", dsn)
    | none => .error .sqliteDirectory
  else if driver ∈ [Str.lit "mysql", Str.lit "mariadb"] then
    let dsn := envFirst getenv [Str.lit "MYSQL_DSN", Str.lit "DATABASE_DSN"]
    if dsn = [] then .error .mysqlDSN else .ok (Str.lit "mysql", dsn)
  else .error (.driver driver)

/-- `loadConfig`. -/
def loadConfig (sqliteDSN : Option Str) : Except ConfigError LoadedConfig :=
  match loadDatabase getenv sqliteDSN with
  | .error e => .error e
  | .ok (dbDriver, dbDSN) =>
      let defaultLimit := envInt getenv "QUERY_DEFAULT_LIMIT" 100
      let maxLimit := envInt getenv "QUERY_MAX_LIMIT" 1000
      let minDeleteAge := envDuration getenv "MIN_DELETE_AGE_HOURS" 168 (3600 * 10 ^ 9)
      let requireAuth := envBool getenv "REQUIRE_AUTH" true
      let writeAuth := roleAuth getenv "INGEST" ["WRITE"]
      let readAuth := roleAuth getenv "QUERY" ["READ"]
      let deleteAuth := roleAuth getenv "CLEANUP" ["DELETE"]
      if hlimits : 0 < defaultLimit ∧ 0 < maxLimit ∧ defaultLimit ≤ maxLimit then
        if hage : defaultMinDeleteAge ≤ minDeleteAge then
          match hroles : validateRoles requireAuth writeAuth readAuth deleteAuth with
          | some e => .error e
          | none => .ok {
              addr := envString getenv "SERVER_ADDR" (Str.lit ":18081")
              dbDriver, dbDSN, writeAuth, readAuth, deleteAuth
              route := envString getenv "POST_ROUTE" (Str.lit "/weighing-data-sync/put")
              queryRoute := envString getenv "QUERY_ROUTE" (Str.lit "/weighing-data-sync/records")
              maxBodyBytes := envInt getenv "MAX_BODY_BYTES" (2 ^ 24)
              defaultLimit, maxLimit
              signSkew := envDuration getenv "SIGN_SKEW_SECONDS" 300 (10 ^ 9)
              autoMigrate := envBool getenv "AUTO_MIGRATE" true
              storeRawRecords := envBool getenv "STORE_RAW_RECORDS" false
              storeRawPayload := envBool getenv "STORE_RAW_PAYLOAD" false
              returnRawRecords := envBool getenv "RETURN_RAW_RECORDS" false
              minDeleteAge, requireAuth
              limits := hlimits
              min_age := hage
              credentials := complete_of_validateRoles hroles }
        else .error .minDeleteAge
      else .error .limits

/-- The credentials of a configuration are those of the environment. -/
theorem auth_of_loadConfig {sqliteDSN : Option Str} {loaded : LoadedConfig}
    (h : loadConfig getenv sqliteDSN = .ok loaded) :
    loaded.writeAuth = roleAuth getenv "INGEST" ["WRITE"] ∧
      loaded.readAuth = roleAuth getenv "QUERY" ["READ"] ∧
      loaded.deleteAuth = roleAuth getenv "CLEANUP" ["DELETE"] := by
  unfold loadConfig at h
  split at h
  · cases h
  · simp only at h
    split_ifs at h
    split at h
    · cases h
    · cases h
      exact ⟨rfl, rfl, rfl⟩

end

/-- The server of a configuration. The segments of its routes are what the router makes of `route` and
`queryRoute`; the hours are what `minDeleteAge.Hours()` rounds to. -/
def LoadedConfig.server (loaded : LoadedConfig) (routes : Routes) (hours : ℤ) (hhours : 168 ≤ hours) :
    ServerConfig where
  cfg := {
    maxBodyBytes := loaded.maxBodyBytes
    defaultLimit := loaded.defaultLimit
    maxLimit := loaded.maxLimit
    storeRawRecords := loaded.storeRawRecords
    storeRawPayload := loaded.storeRawPayload
    returnRawRecords := loaded.returnRawRecords
    minDeleteAgeHours := hours
    limits := loaded.limits
    min_age := hhours }
  routes := routes
  writeAuth := loaded.writeAuth
  readAuth := loaded.readAuth
  deleteAuth := loaded.deleteAuth
  signSkew := loaded.signSkew
  minDeleteAge := loaded.minDeleteAge
  min_age := loaded.min_age

end WeighingSync.Receiver
