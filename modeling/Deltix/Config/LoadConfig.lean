import Deltix.Bootstrap.SigningKeys
import Deltix.Config.ConfigExport
import Deltix.Config.EnvFile
import Mathlib.Algebra.Group.Nat.Defs

/-
  The loading of the configuration: the defaults, what the
  environment says in their place, and the schema.

  What the language makes of a text that is not a plain
  decimal is left open, as no export writes one.

  Key definitions include:
    * `extractEnvConfig`
    * `deepMerge`
    * `safeParse`
    * `loadConfig`

  Key theorems include:
    * `parseAuth_eq_some_iff`
    * `safeParse_eq_some_iff`
-/

------------------------------------------------------------
-- The Environment
------------------------------------------------------------

namespace Config

open Text

/- What `loadConfig` throws: an assignment to a member of a
   string, or that the schema is not met. -/
inductive LoadError where
  | typeError
  | validationFailed
  deriving DecidableEq, Repr

/- The member of a name; there is none of `__proto__`. -/
def named (name : String) : ConfigKey :=
  if plain : js name ≠ js "__proto__" then ⟨js name, plain⟩
  else key ""

/- The first of the variables that is set. -/
def firstOf (env : Env) (names : List String) :
    Option JsString :=
  (names.findSome? fun name => env.lookup name.toList).map units

/- An object as a member, unless it is empty. -/
def unlessEmpty
    (name : ConfigKey)
    (members : Members Int) : Members Int :=
  if members.isEmpty then [] else [(name, .object none members)]

def extractTlsEnv (env : Env) : Members Int :=
  optional (named "enabled")
      (firstOf env
        ["APP_TLS_ENABLED", "APP_SERVER_TLS_ENABLED"]) ++
    optional (named "certPath")
      (firstOf env
        ["APP_TLS_CERT_PATH", "APP_SERVER_TLS_CERT_PATH",
          "DELTIX_HTTP_TLS_CERT_PATH"]) ++
    optional (named "keyPath")
      (firstOf env
        ["APP_TLS_KEY_PATH", "APP_SERVER_TLS_KEY_PATH",
          "DELTIX_HTTP_TLS_KEY_PATH"]) ++
    optional (named "autoGenerate")
      (firstOf env ["APP_TLS_AUTO_GENERATE"])

def extractServerEnv (env : Env) : Members Int :=
  optional (named "host")
      (firstOf env
        ["APP_HOST", "APP_SERVER_HOST", "DELTIX_HTTP_HOST"]) ++
    optional (named "port")
      (firstOf env
        ["APP_PORT", "APP_SERVER_PORT", "DELTIX_HTTP_PORT"]) ++
    optional (named "grpcPort")
      (firstOf env
        ["APP_GRPC_PORT", "APP_SERVER_GRPC_PORT",
          "DELTIX_GRPC_PORT"]) ++
    optional (named "dynamicPort")
      (firstOf env
        ["APP_DYNAMIC_PORT", "APP_SERVER_DYNAMIC_PORT"]) ++
    unlessEmpty (named "tls") (extractTlsEnv env)

def extractStorageEnv (env : Env) : Members Int :=
  optional (named "dataDir")
      (firstOf env ["APP_DATA_DIR", "APP_STORAGE_DATA_DIR"]) ++
    optional (named "stagingRootPath")
      (firstOf env
        ["APP_STAGING_PATH", "DELTIX_STAGING_ROOT_PATH"]) ++
    optional (named "doltReposRootPath")
      (firstOf env
        ["APP_REPOS_PATH", "DELTIX_DOLT_REPOS_ROOT_PATH"]) ++
    optional (named "nasSimPath")
      (firstOf env ["APP_NAS_PATH", "DELTIX_NAS_SIM_PATH"])

def extractDatabaseEnv (env : Env) : Members Int :=
  optional (named "userDbPath")
      (firstOf env
        ["APP_USER_DB_PATH", "DELTIX_USER_DB_PATH"]) ++
    optional (named "repoDbPath")
      (firstOf env
        ["APP_REPO_DB_PATH", "DELTIX_REPO_DB_PATH"]) ++
    optional (named "ticketDbPath")
      (firstOf env
        ["APP_TICKET_DB_PATH", "DELTIX_TICKET_DB_PATH"]) ++
    optional (named "transferJobDbPath")
      (firstOf env
        ["APP_TRANSFER_JOB_DB_PATH",
          "DELTIX_TRANSFER_JOB_DB_PATH"]) ++
    optional (named "addonTrustDbPath")
      (firstOf env
        ["APP_ADDON_TRUST_DB_PATH",
          "DELTIX_ADDON_TRUST_DB_PATH"]) ++
    optional (named "sessionDbPath")
      (firstOf env
        ["APP_SESSION_DB_PATH", "DELTIX_SESSION_DB_PATH"])

def extractAuthEnv (env : Env) : Members Int :=
  optional (named "jwtPrivateKey")
      (firstOf env
        ["APP_JWT_PRIVATE_KEY", "DELTIX_JWT_PRIVATE_KEY"]) ++
    optional (named "jwtPublicKey")
      (firstOf env
        ["APP_JWT_PUBLIC_KEY", "DELTIX_JWT_PUBLIC_KEY"]) ++
    optional (named "jwtPrivateKeyPath")
      (firstOf env ["APP_JWT_PRIVATE_KEY_PATH"]) ++
    optional (named "jwtPublicKeyPath")
      (firstOf env ["APP_JWT_PUBLIC_KEY_PATH"]) ++
    optional (named "sessionTtlSeconds")
      (firstOf env
        ["APP_SESSION_TTL_SECONDS",
          "DELTIX_SESSION_TTL_SECONDS"]) ++
    optional (named "accessTokenTtlSeconds")
      (firstOf env
        ["APP_ACCESS_TOKEN_TTL_SECONDS",
          "DELTIX_ACCESS_TOKEN_TTL_SECONDS"]) ++
    optional (named "corsAllowedOrigins")
      (firstOf env
        ["APP_CORS_ALLOWED_ORIGINS",
          "DELTIX_CORS_ALLOWED_ORIGINS"]) ++
    optional (named "adminUiEnabled")
      (firstOf env
        ["APP_ADMIN_UI_ENABLED", "DELTIX_ADMIN_UI_ENABLED"]) ++
    optional (named "bootstrapAdminUsername")
      (firstOf env
        ["APP_BOOTSTRAP_ADMIN_USERNAME",
          "DELTIX_BOOTSTRAP_ADMIN_USERNAME"]) ++
    optional (named "bootstrapAdminPassword")
      (firstOf env
        ["APP_BOOTSTRAP_ADMIN_PASSWORD",
          "DELTIX_BOOTSTRAP_ADMIN_PASSWORD"])

def extractLoggingEnv (env : Env) : Members Int :=
  optional (named "level")
      (firstOf env ["APP_LOG_LEVEL", "LOG_LEVEL"]) ++
    optional (named "pretty")
      (firstOf env ["APP_LOG_PRETTY", "LOG_PRETTY"])

/- `object[name] = value` -/
def setMember
    (name : ConfigKey)
    (value : ConfigValue Int) : Members Int → Members Int
  | [] => [(name, value)]
  | (other, before) :: rest =>
      if name = other then (other, value) :: rest
      else (other, before) :: setMember name value rest

/- `text.split('__')` -/
def splitUnderscores : List Char → List (List Char)
  | [] => [[]]
  | '_' :: '_' :: rest => [] :: splitUnderscores rest
  | c :: rest =>
      match splitUnderscores rest with
      | [] => [[c]]
      | part :: parts => (c :: part) :: parts

/- A letter of ASCII without its case: no other letter has a
   part in what names and words are compared with. -/
def lowerChar (c : Char) : Char :=
  if c.isUpper then Char.ofNat (c.toNat + 32) else c

/- `result[section][prop] = value` for the parts of a name. -/
def assignWithin
    (sectionName prop : List Char)
    (value : List Char)
    (result : Members Int) :
    Except LoadError (Members Int) :=
  -- `result.constructor` is `Object`, whose `keys` is needed.
  if sectionName = "constructor".toList then
    if prop = "keys".toList then .error .typeError
    else .ok result
  else if hSection : units sectionName = js "__proto__" then
    .ok result
  else if hProp : units prop = js "__proto__" then .ok result
  else
    let name : ConfigKey := ⟨units sectionName, hSection⟩
    let member : ConfigKey := ⟨units prop, hProp⟩
    match result.lookup name with
    | none =>
        .ok
          (setMember name
            (.object none [(member, .string (units value))])
            result)
    | some (.object proto members) =>
        .ok
          (setMember name
            (.object proto
              (setMember member (.string (units value))
                members))
            result)
    | some _ => .error .typeError

/- A variable whose name has a section and a member. -/
def extractUnderscored
    (result : Members Int)
    (entry : List Char × List Char) :
    Except LoadError (Members Int) :=
  if "APP__".toList.isPrefixOf entry.1 then
    match splitUnderscores ((entry.1.drop 5).map lowerChar) with
    | [sectionName, prop] =>
        if sectionName = [] ∨ prop = [] then .ok result
        else assignWithin sectionName prop entry.2 result
    | _ => .ok result
  else .ok result

def extractDoubleUnderscoreEnv
    (env : Env)
    (result : Members Int) :
    Except LoadError (Members Int) :=
  env.foldlM extractUnderscored result

def extractEnvConfig (env : Env) :
    Except LoadError (Members Int) :=
  extractDoubleUnderscoreEnv env
    (optional (named "environment")
        (firstOf env ["APP_ENV", "NODE_ENV"]) ++
      unlessEmpty (named "server") (extractServerEnv env) ++
      unlessEmpty (named "storage") (extractStorageEnv env) ++
      unlessEmpty (named "database") (extractDatabaseEnv env) ++
      unlessEmpty (named "auth") (extractAuthEnv env) ++
      unlessEmpty (named "logging") (extractLoggingEnv env))

mutual

/- A value in the place of another one, if there is one. -/
def mergeValue (target : Option (ConfigValue Int)) :
    ConfigValue Int → ConfigValue Int
  | .object proto members =>
      match target with
      | some (.object targetProto targetMembers) =>
          .object targetProto (mergeMembers targetMembers members)
      | _ => .object proto members
  | value => value

def mergeMembers (target : Members Int) :
    Members Int → Members Int
  | [] => target
  | (_, .undefined) :: rest => mergeMembers target rest
  | (name, value) :: rest =>
      mergeMembers
        (setMember name (mergeValue (target.lookup name) value)
          target)
        rest

end

/- The members of `deepMerge(target, source)`. -/
def deepMerge (target source : Members Int) : Members Int :=
  mergeMembers target source

------------------------------------------------------------
-- The Schema
------------------------------------------------------------

/- What the language makes of the values that an environment
   seldom has. -/
structure Coercions where
  ofText : JsString → Option Int
  ofObject : ConfigValue Int → Option Int
  textOf : Decimal → JsString

/- A member that may be missing. -/
abbrev Found : Type :=
  Option (ConfigValue Int)

/- `z.string().min(1).default(fallback)` -/
def textOr (fallback : JsString) : Found → Option JsString
  | none => some fallback
  | some .undefined => some fallback
  | some (.string text) => if text = [] then none else some text
  | some _ => none

/- `z.string().min(1).optional()` -/
def optionalText : Found → Option (Option JsString)
  | none => some none
  | some .undefined => some none
  | some (.string text) =>
      if text = [] then none else some (some text)
  | some _ => none

/- The largest integer that is safe. -/
def maxSafeInteger : Nat := 2 ^ 53 - 1

/- The number of a text of digits. -/
def digitsNumber? (text : JsString) : Option Nat :=
  match charsOf? text with
  | none => none
  | some chars =>
      if !chars.isEmpty && chars.all Char.isDigit then
        some (Nat.ofDigitChars 10 chars 0)
      else none

/- The integer that `Number(text)` is, if it is one. -/
def numberOfText
    (rules : Coercions)
    (text : JsString) : Option Int :=
  match digitsNumber? text with
  | none => rules.ofText text
  | some n => some n

def coerceNumber (rules : Coercions) :
    ConfigValue Int → Option Int
  | .undefined => none
  | .null => some 0
  | .bool value => some (if value then 1 else 0)
  | .number value => some value
  | .string text => numberOfText rules text
  | value => rules.ofObject value

/- `z.coerce.number().int()`, which takes safe integers only,
   from a bound on, with a default value. -/
def integerOr
    (rules : Coercions)
    (fallback low : Int)
    (high : Option Int) : Found → Option Int
  | none => some fallback
  | some .undefined => some fallback
  | some value =>
      (coerceNumber rules value).filter fun n =>
        n.natAbs ≤ maxSafeInteger && low ≤ n &&
          high.all (n ≤ ·)

def portOr (rules : Coercions) (fallback : Int) :
    Found → Option Int :=
  integerOr rules fallback 1 (some 65535)

/- `z.coerce.number().int().positive()` -/
def positiveOr (rules : Coercions) (fallback : Int) :
    Found → Option Int :=
  integerOr rules fallback 1 none

def trueWords : List (List Char) :=
  ["true".toList, "1".toList, "yes".toList, "on".toList]

def falseWords : List (List Char) :=
  ["false".toList, "0".toList, "no".toList, "off".toList]

/- `booleanCoerce.default(false)` -/
def booleanCoerce : Found → Option Bool
  | none => some false
  | some .undefined => some false
  | some (.bool value) => some value
  | some (.string text) =>
      match charsOf? text with
      | none => none
      | some chars =>
          let lower := (trimChars chars).map lowerChar
          if lower ∈ trueWords then some true
          else if lower ∈ falseWords then some false
          else none
  | some _ => none

/- `text.trim()`, on the units of a string. -/
def trimUnits (text : JsString) : JsString :=
  trimBy (fun unit => isSpaceCode unit.toNat) text

mutual

/- `String(item)` -/
def itemText (rules : Coercions) : Json → JsString
  | .null => js "null"
  | .bool value => boolText value
  | .number value => rules.textOf value
  | .string value => value
  | .array elements => joinedItems rules elements
  | .object _ => js "[object Object]"

/- What `join` makes of an array: nothing of a `null`. -/
def joinedItems (rules : Coercions) : List Json → JsString
  | [] => []
  | [.null] => []
  | [item] => itemText rules item
  | .null :: rest => js "," ++ joinedItems rules rest
  | item :: rest =>
      itemText rules item ++ js "," ++ joinedItems rules rest

end

def commaSeparated (trimmed : JsString) : List JsString :=
  ((split 0x2C trimmed).map trimUnits).filter
    fun item => 0 < item.length

/- The list that a text stands for. -/
def originsOf
    (rules : Coercions)
    (text : JsString) : List JsString :=
  let trimmed := trimUnits text
  if trimmed = [] then []
  else if trimmed.head? = some 0x5B ∧
      trimmed.getLast? = some 0x5D then
    match (charsOf? trimmed).bind Json.parse with
    | some (.array elements) =>
        elements.map fun item =>
          trimUnits (itemText rules item)
    | _ => commaSeparated trimmed
  else commaSeparated trimmed

def stringOf? : ConfigValue Int → Option JsString
  | .string text => some text
  | _ => none

/- `stringArrayCoerce.default([])` -/
def stringArrayCoerce (rules : Coercions) :
    Found → Option (List JsString)
  | none => some []
  | some .undefined => some []
  | some (.array elements) => elements.mapM stringOf?
  | some (.string text) => some (originsOf rules text)
  | some _ => none

/- The members of an object, which the defaults see to. -/
def membersOf : Found → Option (Members Int)
  | some (.object _ members) => some members
  | _ => none

def environmentOf : Found → Option Environment
  | none => some .development
  | some .undefined => some .development
  | some (.string text) =>
      [.development, .production, .test].find? fun value =>
        value.text = text
  | some _ => none

def levelOf : Found → Option LogLevel
  | none => some .info
  | some .undefined => some .info
  | some (.string text) =>
      [.trace, .debug, .info, .warn, .error, .fatal,
        .silent].find? fun value => value.text = text
  | some _ => none

def parseTls (tls : Members Int) : Option TlsConfig := do
  let enabled ← booleanCoerce (tls.lookup (named "enabled"))
  let certPath ← optionalText (tls.lookup (named "certPath"))
  let keyPath ← optionalText (tls.lookup (named "keyPath"))
  let autoGenerate ←
    booleanCoerce (tls.lookup (named "autoGenerate"))
  return {
    enabled := enabled
    certPath := certPath
    keyPath := keyPath
    autoGenerate := autoGenerate }

def parseServer
    (rules : Coercions)
    (server : Members Int) : Option (ServerConfig Int) := do
  let host ←
    textOr (js "0.0.0.0") (server.lookup (named "host"))
  let port ← portOr rules 9090 (server.lookup (named "port"))
  let grpcPort ←
    portOr rules 50051 (server.lookup (named "grpcPort"))
  let dynamicPort ←
    booleanCoerce (server.lookup (named "dynamicPort"))
  let tlsMembers ← membersOf (server.lookup (named "tls"))
  let tls ← parseTls tlsMembers
  return {
    host := host
    port := port
    grpcPort := grpcPort
    dynamicPort := dynamicPort
    tls := tls }

def parseStorage
    (storage : Members Int) : Option StorageConfig := do
  let dataDir ←
    textOr (js "./data") (storage.lookup (named "dataDir"))
  let stagingRootPath ←
    textOr (js "./data/staging")
      (storage.lookup (named "stagingRootPath"))
  let doltReposRootPath ←
    textOr (js "./data/dolt-repos")
      (storage.lookup (named "doltReposRootPath"))
  let nasSimPath ←
    textOr (js "./data/nas-sim")
      (storage.lookup (named "nasSimPath"))
  return {
    dataDir := dataDir
    stagingRootPath := stagingRootPath
    doltReposRootPath := doltReposRootPath
    nasSimPath := nasSimPath }

def parseDatabase
    (database : Members Int) : Option DatabaseConfig := do
  let userDbPath ←
    textOr (js "./data/users.db")
      (database.lookup (named "userDbPath"))
  let repoDbPath ←
    textOr (js "./data/repos.db")
      (database.lookup (named "repoDbPath"))
  let ticketDbPath ←
    textOr (js "./data/transfer-tickets.db")
      (database.lookup (named "ticketDbPath"))
  let transferJobDbPath ←
    textOr (js "./data/transfer-jobs.db")
      (database.lookup (named "transferJobDbPath"))
  let addonTrustDbPath ←
    textOr (js "./data/addon-trust.db")
      (database.lookup (named "addonTrustDbPath"))
  let sessionDbPath ←
    textOr (js "./data/sessions.db")
      (database.lookup (named "sessionDbPath"))
  return {
    userDbPath := userDbPath
    repoDbPath := repoDbPath
    ticketDbPath := ticketDbPath
    transferJobDbPath := transferJobDbPath
    addonTrustDbPath := addonTrustDbPath
    sessionDbPath := sessionDbPath }

def parseAuth
    (rules : Coercions)
    (auth : Members Int) : Option (AuthConfig Int) := do
  let jwtPrivateKey ←
    optionalText (auth.lookup (named "jwtPrivateKey"))
  let jwtPublicKey ←
    optionalText (auth.lookup (named "jwtPublicKey"))
  let jwtPrivateKeyPath ←
    optionalText (auth.lookup (named "jwtPrivateKeyPath"))
  let jwtPublicKeyPath ←
    optionalText (auth.lookup (named "jwtPublicKeyPath"))
  let sessionTtlSeconds ←
    positiveOr rules 120
      (auth.lookup (named "sessionTtlSeconds"))
  let accessTokenTtlSeconds ←
    positiveOr rules 900
      (auth.lookup (named "accessTokenTtlSeconds"))
  let corsAllowedOrigins ←
    stringArrayCoerce rules
      (auth.lookup (named "corsAllowedOrigins"))
  let adminUiEnabled ←
    booleanCoerce (auth.lookup (named "adminUiEnabled"))
  let bootstrapAdminUsername ←
    optionalText (auth.lookup (named "bootstrapAdminUsername"))
  let bootstrapAdminPassword ←
    optionalText (auth.lookup (named "bootstrapAdminPassword"))
  let data : AuthConfig Int := {
    jwtPrivateKey := jwtPrivateKey
    jwtPublicKey := jwtPublicKey
    jwtPrivateKeyPath := jwtPrivateKeyPath
    jwtPublicKeyPath := jwtPublicKeyPath
    sessionTtlSeconds := sessionTtlSeconds
    accessTokenTtlSeconds := accessTokenTtlSeconds
    corsAllowedOrigins := corsAllowedOrigins
    adminUiEnabled := adminUiEnabled
    bootstrapAdminUsername := bootstrapAdminUsername
    bootstrapAdminPassword := bootstrapAdminPassword }
  match Bootstrap.superRefine data with
  | none => return data
  | some _ => none

def parseLogging
    (logging : Members Int) : Option LoggingConfig := do
  let level ← levelOf (logging.lookup (named "level"))
  let pretty ← booleanCoerce (logging.lookup (named "pretty"))
  return {
    level := level
    pretty := pretty }

/- `appConfigSchema.safeParse` of an object's members. -/
def safeParse
    (rules : Coercions)
    (merged : Members Int) : Option (AppConfig Int) := do
  let environment ←
    environmentOf (merged.lookup (named "environment"))
  let serverMembers ← membersOf (merged.lookup (named "server"))
  let server ← parseServer rules serverMembers
  let storageMembers ←
    membersOf (merged.lookup (named "storage"))
  let storage ← parseStorage storageMembers
  let databaseMembers ←
    membersOf (merged.lookup (named "database"))
  let database ← parseDatabase databaseMembers
  let authMembers ← membersOf (merged.lookup (named "auth"))
  let auth ← parseAuth rules authMembers
  let loggingMembers ←
    membersOf (merged.lookup (named "logging"))
  let logging ← parseLogging loggingMembers
  return {
    environment := environment
    server := server
    storage := storage
    database := database
    auth := auth
    logging := logging }

/- The members of an object give a part of a configuration. -/
def ParsedFrom
    {Part : Type}
    (found : Found)
    (parse : Members Int → Option Part)
    (part : Part) : Prop :=
  ∃ members, membersOf found = some members ∧
    parse members = some part

/- Which members give which configuration. -/
theorem parseTls_eq_some_iff
    {members : Members Int}
    {tls : TlsConfig} :
    parseTls members = some tls ↔
      booleanCoerce (members.lookup (named "enabled")) =
          some tls.enabled ∧
        optionalText (members.lookup (named "certPath")) =
          some tls.certPath ∧
        optionalText (members.lookup (named "keyPath")) =
          some tls.keyPath ∧
        booleanCoerce (members.lookup (named "autoGenerate")) =
          some tls.autoGenerate := by
  unfold parseTls
  simp only [Option.bind_eq_bind, Option.bind_eq_some_iff,
    Option.pure_def, Option.some.injEq]
  constructor
  · rintro ⟨_, hEnabled, _, hCert, _, hKey, _, hGenerate, rfl⟩
    exact ⟨hEnabled, hCert, hKey, hGenerate⟩
  · rintro ⟨hEnabled, hCert, hKey, hGenerate⟩
    exact
      ⟨_, hEnabled, _, hCert, _, hKey, _, hGenerate, rfl⟩

theorem parseServer_eq_some_iff
    {rules : Coercions}
    {members : Members Int}
    {server : ServerConfig Int} :
    parseServer rules members = some server ↔
      textOr (js "0.0.0.0") (members.lookup (named "host")) =
          some server.host ∧
        portOr rules 9090 (members.lookup (named "port")) =
          some server.port ∧
        portOr rules 50051 (members.lookup (named "grpcPort")) =
          some server.grpcPort ∧
        booleanCoerce (members.lookup (named "dynamicPort")) =
          some server.dynamicPort ∧
        ParsedFrom (members.lookup (named "tls")) parseTls
          server.tls := by
  unfold parseServer ParsedFrom
  simp only [Option.bind_eq_bind, Option.bind_eq_some_iff,
    Option.pure_def, Option.some.injEq]
  constructor
  · rintro
      ⟨_, hHost, _, hPort, _, hGrpc, _, hDynamic, tlsMembers,
        hMembers, _, hTls, rfl⟩
    exact
      ⟨hHost, hPort, hGrpc, hDynamic, tlsMembers, hMembers,
        hTls⟩
  · rintro
      ⟨hHost, hPort, hGrpc, hDynamic, tlsMembers, hMembers,
        hTls⟩
    exact
      ⟨_, hHost, _, hPort, _, hGrpc, _, hDynamic, tlsMembers,
        hMembers, _, hTls, rfl⟩

theorem parseStorage_eq_some_iff
    {members : Members Int}
    {storage : StorageConfig} :
    parseStorage members = some storage ↔
      textOr (js "./data") (members.lookup (named "dataDir")) =
          some storage.dataDir ∧
        textOr (js "./data/staging")
            (members.lookup (named "stagingRootPath")) =
          some storage.stagingRootPath ∧
        textOr (js "./data/dolt-repos")
            (members.lookup (named "doltReposRootPath")) =
          some storage.doltReposRootPath ∧
        textOr (js "./data/nas-sim")
            (members.lookup (named "nasSimPath")) =
          some storage.nasSimPath := by
  unfold parseStorage
  simp only [Option.bind_eq_bind, Option.bind_eq_some_iff,
    Option.pure_def, Option.some.injEq]
  constructor
  · rintro ⟨_, hData, _, hStaging, _, hRepos, _, hNas, rfl⟩
    exact ⟨hData, hStaging, hRepos, hNas⟩
  · rintro ⟨hData, hStaging, hRepos, hNas⟩
    exact
      ⟨_, hData, _, hStaging, _, hRepos, _, hNas, rfl⟩

theorem parseDatabase_eq_some_iff
    {members : Members Int}
    {database : DatabaseConfig} :
    parseDatabase members = some database ↔
      textOr (js "./data/users.db")
            (members.lookup (named "userDbPath")) =
          some database.userDbPath ∧
        textOr (js "./data/repos.db")
            (members.lookup (named "repoDbPath")) =
          some database.repoDbPath ∧
        textOr (js "./data/transfer-tickets.db")
            (members.lookup (named "ticketDbPath")) =
          some database.ticketDbPath ∧
        textOr (js "./data/transfer-jobs.db")
            (members.lookup (named "transferJobDbPath")) =
          some database.transferJobDbPath ∧
        textOr (js "./data/addon-trust.db")
            (members.lookup (named "addonTrustDbPath")) =
          some database.addonTrustDbPath ∧
        textOr (js "./data/sessions.db")
            (members.lookup (named "sessionDbPath")) =
          some database.sessionDbPath := by
  unfold parseDatabase
  simp only [Option.bind_eq_bind, Option.bind_eq_some_iff,
    Option.pure_def, Option.some.injEq]
  constructor
  · rintro
      ⟨_, hUser, _, hRepo, _, hTicket, _, hJob, _, hTrust, _,
        hSession, rfl⟩
    exact ⟨hUser, hRepo, hTicket, hJob, hTrust, hSession⟩
  · rintro ⟨hUser, hRepo, hTicket, hJob, hTrust, hSession⟩
    exact
      ⟨_, hUser, _, hRepo, _, hTicket, _, hJob, _, hTrust, _,
        hSession, rfl⟩

theorem parseAuth_eq_some_iff
    {rules : Coercions}
    {members : Members Int}
    {auth : AuthConfig Int} :
    parseAuth rules members = some auth ↔
      optionalText (members.lookup (named "jwtPrivateKey")) =
          some auth.jwtPrivateKey ∧
        optionalText (members.lookup (named "jwtPublicKey")) =
          some auth.jwtPublicKey ∧
        optionalText
            (members.lookup (named "jwtPrivateKeyPath")) =
          some auth.jwtPrivateKeyPath ∧
        optionalText
            (members.lookup (named "jwtPublicKeyPath")) =
          some auth.jwtPublicKeyPath ∧
        positiveOr rules 120
            (members.lookup (named "sessionTtlSeconds")) =
          some auth.sessionTtlSeconds ∧
        positiveOr rules 900
            (members.lookup (named "accessTokenTtlSeconds")) =
          some auth.accessTokenTtlSeconds ∧
        stringArrayCoerce rules
            (members.lookup (named "corsAllowedOrigins")) =
          some auth.corsAllowedOrigins ∧
        booleanCoerce (members.lookup (named "adminUiEnabled")) =
          some auth.adminUiEnabled ∧
        optionalText
            (members.lookup (named "bootstrapAdminUsername")) =
          some auth.bootstrapAdminUsername ∧
        optionalText
            (members.lookup (named "bootstrapAdminPassword")) =
          some auth.bootstrapAdminPassword ∧
        Bootstrap.superRefine auth = none := by
  unfold parseAuth
  simp only [Option.bind_eq_bind, Option.bind_eq_some_iff,
    Option.pure_def]
  constructor
  · rintro
      ⟨_, hPrivate, _, hPublic, _, hPrivatePath, _,
        hPublicPath, _, hSession, _, hAccess, _, hCors, _,
        hAdminUi, _, hUsername, _, hPassword, hRefined⟩
    split at hRefined
    · rename_i hNone
      cases hRefined
      exact
        ⟨hPrivate, hPublic, hPrivatePath, hPublicPath,
          hSession, hAccess, hCors, hAdminUi, hUsername,
          hPassword, hNone⟩
    · cases hRefined
  · rintro
      ⟨hPrivate, hPublic, hPrivatePath, hPublicPath, hSession,
        hAccess, hCors, hAdminUi, hUsername, hPassword,
        hNone⟩
    refine
      ⟨_, hPrivate, _, hPublic, _, hPrivatePath, _,
        hPublicPath, _, hSession, _, hAccess, _, hCors, _,
        hAdminUi, _, hUsername, _, hPassword, ?_⟩
    rw [hNone]

theorem parseLogging_eq_some_iff
    {members : Members Int}
    {logging : LoggingConfig} :
    parseLogging members = some logging ↔
      levelOf (members.lookup (named "level")) =
          some logging.level ∧
        booleanCoerce (members.lookup (named "pretty")) =
          some logging.pretty := by
  unfold parseLogging
  simp only [Option.bind_eq_bind, Option.bind_eq_some_iff,
    Option.pure_def, Option.some.injEq]
  constructor
  · rintro ⟨_, hLevel, _, hPretty, rfl⟩
    exact ⟨hLevel, hPretty⟩
  · rintro ⟨hLevel, hPretty⟩
    exact ⟨_, hLevel, _, hPretty, rfl⟩

theorem safeParse_eq_some_iff
    {rules : Coercions}
    {merged : Members Int}
    {config : AppConfig Int} :
    safeParse rules merged = some config ↔
      environmentOf (merged.lookup (named "environment")) =
          some config.environment ∧
        ParsedFrom (merged.lookup (named "server"))
          (parseServer rules) config.server ∧
        ParsedFrom (merged.lookup (named "storage"))
          parseStorage config.storage ∧
        ParsedFrom (merged.lookup (named "database"))
          parseDatabase config.database ∧
        ParsedFrom (merged.lookup (named "auth"))
          (parseAuth rules) config.auth ∧
        ParsedFrom (merged.lookup (named "logging"))
          parseLogging config.logging := by
  unfold safeParse ParsedFrom
  simp only [Option.bind_eq_bind, Option.bind_eq_some_iff,
    Option.pure_def, Option.some.injEq]
  constructor
  · rintro
      ⟨_, hEnvironment, s, hS, _, hServer, t, hT, _, hStorage,
        d, hD, _, hDatabase, a, hA, _, hAuth, l, hL, _,
        hLogging, rfl⟩
    exact
      ⟨hEnvironment, ⟨s, hS, hServer⟩, ⟨t, hT, hStorage⟩,
        ⟨d, hD, hDatabase⟩, ⟨a, hA, hAuth⟩, l, hL, hLogging⟩
  · rintro
      ⟨hEnvironment, ⟨s, hS, hServer⟩, ⟨t, hT, hStorage⟩,
        ⟨d, hD, hDatabase⟩, ⟨a, hA, hAuth⟩, l, hL, hLogging⟩
    exact
      ⟨_, hEnvironment, s, hS, _, hServer, t, hT, _, hStorage,
        d, hD, _, hDatabase, a, hA, _, hAuth, l, hL, _,
        hLogging, rfl⟩

def DEFAULT_CONFIG : AppConfig Int where
  environment := .development
  server :=
    { host := js "0.0.0.0"
      port := 9090
      grpcPort := 50051
      dynamicPort := false
      tls :=
        { enabled := false
          certPath := none
          keyPath := none
          autoGenerate := false } }
  storage :=
    { dataDir := js "./data"
      stagingRootPath := js "./data/staging"
      doltReposRootPath := js "./data/dolt-repos"
      nasSimPath := js "./data/nas-sim" }
  database :=
    { userDbPath := js "./data/users.db"
      repoDbPath := js "./data/repos.db"
      ticketDbPath := js "./data/transfer-tickets.db"
      transferJobDbPath := js "./data/transfer-jobs.db"
      addonTrustDbPath := js "./data/addon-trust.db"
      sessionDbPath := js "./data/sessions.db" }
  auth :=
    { jwtPrivateKey := none
      jwtPublicKey := none
      jwtPrivateKeyPath := none
      jwtPublicKeyPath := none
      sessionTtlSeconds := 120
      accessTokenTtlSeconds := 900
      corsAllowedOrigins := []
      adminUiEnabled := false
      bootstrapAdminUsername := none
      bootstrapAdminPassword := none }
  logging :=
    { level := .info
      pretty := false }

/- The members of a configuration as an object. -/
def AppConfig.members (config : AppConfig Int) : Members Int :=
  [(named "environment", .string config.environment.text),
    (named "server", .object none config.server.members),
    (named "storage", .object none config.storage.members),
    (named "database", .object none config.database.members),
    (named "auth", .object none config.auth.members),
    (named "logging", .object none config.logging.members)]

/- `loadConfig` where there is no configuration file, and
   nothing is overridden. -/
def loadConfig
    (rules : Coercions)
    (env : Env) : Except LoadError (AppConfig Int) := do
  let envConfig ← extractEnvConfig env
  let merged := deepMerge DEFAULT_CONFIG.members envConfig
  match safeParse rules merged with
  | some config => return config
  | none => throw .validationFailed

end Config
