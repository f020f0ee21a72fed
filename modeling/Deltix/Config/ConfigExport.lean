import Deltix.Config.AppConfig
import Deltix.Text.JsonWrite

/-
  The export of the configuration, as JSON and as variables
  of an environment.

  Key definitions include:
    * `stringifyWithin`
    * `buildEnvExportLines`
    * `exportConfig`

  Key theorems include:
    * `buildEnvExportLines_of_sanitized`
    * `export_eq_iff`
-/

namespace Config

open Text

variable {Number : Type}

/- A new line, indented. -/
def indent (depth : Nat) : List Char :=
  '\n' :: List.replicate (2 * depth) ' '

def partsWithin
    (depth : Nat) :
    List (List Char) → List Char
  | [] => []
  | [part] => indent depth ++ part
  | part :: rest =>
      indent depth ++ part ++ ',' :: partsWithin depth rest

def bracketed
    (opening closing : Char)
    (depth : Nat)
    (parts : List (List Char)) : List Char :=
  if parts = [] then [opening, closing]
  else
    opening :: partsWithin (depth + 1) parts ++
      indent depth ++ [closing]

mutual

/- `JSON.stringify(value, null, 2)`, within as many arrays and
   objects; a prototype is not written. -/
def stringifyWithin
    (numberText : Number → List Char)
    (depth : Nat) : ConfigValue Number → List Char
  | .undefined => "null".toList
  | .null => "null".toList
  | .bool true => "true".toList
  | .bool false => "false".toList
  | .number value => numberText value
  | .string value => Json.quoteUnits value
  | .array elements =>
      bracketed '[' ']' depth
        (elementTexts numberText (depth + 1) elements)
  | .object _ members =>
      bracketed '\x7b' '\x7d' depth
        (memberTexts numberText (depth + 1) members)

def elementTexts
    (numberText : Number → List Char)
    (depth : Nat) :
    List (ConfigValue Number) → List (List Char)
  | [] => []
  | element :: rest =>
      stringifyWithin numberText depth element ::
        elementTexts numberText depth rest

/- A member that is undefined is left out. -/
def memberTexts
    (numberText : Number → List Char)
    (depth : Nat) : Members Number → List (List Char)
  | [] => []
  | (_, .undefined) :: rest =>
      memberTexts numberText depth rest
  | (key, value) :: rest =>
      (Json.quoteUnits key.name ++
          ':' :: ' ' :: stringifyWithin numberText depth value) ::
        memberTexts numberText depth rest

end

inductive ExportFormat where
  | json
  | env
  deriving DecidableEq, Repr

structure ConfigExportOptions where
  unredacted : Bool
  format : Option ExportFormat
  deriving DecidableEq, Repr

def boolText (value : Bool) : JsString :=
  if value then js "true" else js "false"

/- The lines of an administrator who is set. -/
def adminLines
    (auth : AuthConfig Number)
    (options : ConfigExportOptions) : List JsString :=
  match auth.bootstrapAdminUsername with
  | none => []
  | some [] => []
  | some username =>
      [js "APP_BOOTSTRAP_ADMIN_USERNAME=" ++ username,
        js "APP_BOOTSTRAP_ADMIN_PASSWORD=" ++
          (if options.unredacted then
            auth.bootstrapAdminPassword.getD []
          else REDACTED)]

/- A line for a path that is set and not empty. -/
def pathLine
    (name : String)
    (path : Option JsString) : List JsString :=
  match path with
  | none => []
  | some [] => []
  | some path => [js name ++ path]

def tlsLines (tls : TlsConfig) : List JsString :=
  if tls.enabled then
    js "APP_TLS_ENABLED=true" ::
      pathLine "APP_TLS_CERT_PATH=" tls.certPath ++
      pathLine "APP_TLS_KEY_PATH=" tls.keyPath
  else []

def buildEnvExportLines
    (numberText : Number → List Char)
    (exportedAt : JsString)
    (config : AppConfig Number)
    (options : ConfigExportOptions) : List JsString :=
  [js "# Deltix Exported Configuration",
    js "# Exported at: " ++ exportedAt,
    js "# Unredacted: " ++ boolText options.unredacted,
    [],
    js "APP_ENV=" ++ config.environment.text,
    js "APP_HOST=" ++ config.server.host,
    js "APP_PORT=" ++ units (numberText config.server.port),
    js "APP_GRPC_PORT=" ++
      units (numberText config.server.grpcPort),
    js "APP_DYNAMIC_PORT=" ++
      boolText config.server.dynamicPort,
    js "APP_DATA_DIR=" ++ config.storage.dataDir,
    js "APP_STAGING_PATH=" ++ config.storage.stagingRootPath,
    js "APP_REPOS_PATH=" ++ config.storage.doltReposRootPath,
    js "APP_NAS_PATH=" ++ config.storage.nasSimPath,
    js "APP_USER_DB_PATH=" ++ config.database.userDbPath,
    js "APP_REPO_DB_PATH=" ++ config.database.repoDbPath,
    js "APP_TICKET_DB_PATH=" ++ config.database.ticketDbPath,
    js "APP_TRANSFER_JOB_DB_PATH=" ++
      config.database.transferJobDbPath,
    js "APP_ADDON_TRUST_DB_PATH=" ++
      config.database.addonTrustDbPath,
    js "APP_SESSION_DB_PATH=" ++ config.database.sessionDbPath,
    js "APP_ADMIN_UI_ENABLED=" ++
      boolText config.auth.adminUiEnabled,
    js "APP_SESSION_TTL_SECONDS=" ++
      units (numberText config.auth.sessionTtlSeconds),
    js "APP_ACCESS_TOKEN_TTL_SECONDS=" ++
      units (numberText config.auth.accessTokenTtlSeconds),
    js "APP_LOG_LEVEL=" ++ config.logging.level.text,
    js "APP_LOG_PRETTY=" ++ boolText config.logging.pretty] ++
    adminLines config.auth options ++
    tlsLines config.server.tls

/- `lines.join('\n')` -/
def joinLines : List JsString → JsString
  | [] => []
  | [line] => line
  | line :: rest => line ++ js "\n" ++ joinLines rest

/- The export of a configuration that was loaded. -/
def exportConfig
    (numberText : Number → List Char)
    (exportedAt : JsString)
    (config : AppConfig Number)
    (options : ConfigExportOptions) : JsString :=
  let data :=
    if options.unredacted then config.value
    else exportSanitizedConfig config.value
  if options.format = some .env then
    joinLines
      (buildEnvExportLines numberText exportedAt config options)
  else units (stringifyWithin numberText 0 data)

------------------------------------------------------------
-- What The Variables Tell
------------------------------------------------------------

variable {config other : AppConfig Number}

theorem redact_of_plain
    {key : JsString}
    {value sanitized : ConfigValue Number}
    (hPlain : isSensitiveKey key = false) :
    redact key value sanitized = sanitized := by
  unfold redact
  split
  · rw [hPlain, if_neg (by simp)]
  · rfl

theorem storage_of_sanitized
    {storage other : StorageConfig}
    (hSame :
      (sanitizeMembers storage.members : Members Number) =
        sanitizeMembers other.members) :
    storage = other := by
  unfold StorageConfig.members at hSame
  simp (disch := decide) only [sanitizeMembers, sanitizeValue,
    redact_of_plain, List.cons.injEq, Prod.mk.injEq,
    ConfigValue.string.injEq, true_and, and_true] at hSame
  cases storage
  cases other
  simp only [StorageConfig.mk.injEq]
  exact hSame

theorem database_of_sanitized
    {database other : DatabaseConfig}
    (hSame :
      (sanitizeMembers database.members : Members Number) =
        sanitizeMembers other.members) :
    database = other := by
  unfold DatabaseConfig.members at hSame
  simp (disch := decide) only [sanitizeMembers, sanitizeValue,
    redact_of_plain, List.cons.injEq, Prod.mk.injEq,
    ConfigValue.string.injEq, true_and, and_true] at hSame
  cases database
  cases other
  simp only [DatabaseConfig.mk.injEq]
  exact hSame

theorem logLevel_text_injective
    {level other : LogLevel}
    (hSame : level.text = other.text) :
    level = other := by
  cases level
  all_goals
    cases other
    all_goals
      first
        | rfl
        | exact absurd hSame (by decide)

theorem logging_of_sanitized
    {logging other : LoggingConfig}
    (hSame :
      (sanitizeMembers logging.members : Members Number) =
        sanitizeMembers other.members) :
    logging = other := by
  unfold LoggingConfig.members at hSame
  simp (disch := decide) only [sanitizeMembers, sanitizeValue,
    redact_of_plain, List.cons.injEq, Prod.mk.injEq,
    ConfigValue.string.injEq, ConfigValue.bool.injEq, true_and,
    and_true] at hSame
  cases logging
  cases other
  simp only [LoggingConfig.mk.injEq]
  exact ⟨logLevel_text_injective hSame.1, hSame.2⟩

/- What an export has under a key. -/
theorem lookup_sanitizeMembers
    (name : ConfigKey)
    (members : Members Number) :
    (sanitizeMembers members).lookup name =
      (members.lookup name).map fun value =>
        redact name.name value (sanitizeValue value) := by
  induction members with
  | nil =>
      unfold sanitizeMembers
      rfl
  | cons member rest ih =>
      rcases member with ⟨key, value⟩
      unfold sanitizeMembers
      by_cases hKey : name = key
      · subst hKey
        simp
      · have hOther : (name == key) = false := by
          simpa using hKey
        simp only [List.lookup_cons, hOther]
        exact ih

theorem lookup_optional_self
    (name : ConfigKey)
    (text : Option JsString) :
    (optional name text : Members Number).lookup name =
      text.map .string := by
  cases text with
  | none => rfl
  | some text => simp [optional]

theorem lookup_optional_of_ne
    {name key : ConfigKey}
    (hKey : name ≠ key)
    (text : Option JsString) :
    (optional key text : Members Number).lookup name = none := by
  have hOther : (name == key) = false := by
    simpa using hKey
  cases text with
  | none => rfl
  | some text =>
      unfold optional
      rw [List.lookup_cons, hOther]
      rfl

theorem lookup_cons_of_ne
    {name key : ConfigKey}
    (hKey : name ≠ key)
    (value : ConfigValue Number)
    (rest : Members Number) :
    List.lookup name ((key, value) :: rest) =
      rest.lookup name := by
  have hOther : (name == key) = false := by
    simpa using hKey
  rw [List.lookup_cons, hOther]

/- A text that is not redacted is told. -/
theorem text_of_sanitized
    (Number : Type)
    (name : ConfigKey)
    {text other : Option JsString}
    (hPlain : isSensitiveKey name.name = false)
    (hSame :
      (text.map (@ConfigValue.string Number)).map
          (fun value =>
            redact name.name value (sanitizeValue value)) =
        (other.map .string).map fun value =>
          redact name.name value (sanitizeValue value)) :
    text = other := by
  simp only [redact_of_plain hPlain, Option.map_map] at hSame
  have hInjective :
      Function.Injective
        ((fun value : ConfigValue Number =>
            sanitizeValue value) ∘ .string) := by
    intro first second hTexts
    simpa [sanitizeValue] using hTexts
  exact Option.map_injective hInjective hSame

theorem auth_of_sanitized
    {auth other : AuthConfig Number}
    (hSame :
      sanitizeMembers auth.members =
        sanitizeMembers other.members) :
    auth.sessionTtlSeconds = other.sessionTtlSeconds ∧
      auth.accessTokenTtlSeconds =
        other.accessTokenTtlSeconds ∧
      auth.adminUiEnabled = other.adminUiEnabled ∧
      auth.bootstrapAdminUsername =
        other.bootstrapAdminUsername := by
  have hAt (name : ConfigKey) :=
    congrArg (List.lookup name) hSame
  simp only [lookup_sanitizeMembers, AuthConfig.members] at hAt
  have hSession := hAt (key "sessionTtlSeconds")
  have hAccess := hAt (key "accessTokenTtlSeconds")
  have hAdmin := hAt (key "adminUiEnabled")
  have hUsername := hAt (key "bootstrapAdminUsername")
  refine ⟨?_, ?_, ?_, ?_⟩
  · simpa (disch := decide) [lookup_optional_of_ne,
      lookup_cons_of_ne, List.lookup_append, redact,
      sanitizeValue] using hSession
  · simpa (disch := decide) [lookup_optional_of_ne,
      lookup_cons_of_ne, List.lookup_append, redact,
      sanitizeValue] using hAccess
  · simpa (disch := decide) [lookup_optional_of_ne,
      lookup_cons_of_ne, List.lookup_append, redact,
      sanitizeValue] using hAdmin
  · apply text_of_sanitized Number
      (key "bootstrapAdminUsername") (by decide)
    simpa (disch := decide) only [lookup_optional_of_ne,
      lookup_cons_of_ne, lookup_optional_self,
      List.lookup_append, List.lookup_nil, Option.none_or,
      Option.or_none] using hUsername

theorem tls_of_sanitized
    {tls other : TlsConfig}
    (hSame :
      (sanitizeMembers tls.members : Members Number) =
        sanitizeMembers other.members) :
    tls = other := by
  have hAt (name : ConfigKey) :=
    congrArg (List.lookup name) hSame
  simp only [lookup_sanitizeMembers, TlsConfig.members] at hAt
  have hEnabled := hAt (key "enabled")
  have hCert := hAt (key "certPath")
  have hKeyPath := hAt (key "keyPath")
  have hGenerate := hAt (key "autoGenerate")
  have hEnabledSame : tls.enabled = other.enabled := by
    simpa (disch := decide) [lookup_optional_of_ne,
      lookup_cons_of_ne, List.lookup_append, redact,
      sanitizeValue] using hEnabled
  have hCertSame : tls.certPath = other.certPath := by
    apply text_of_sanitized Number
      (key "certPath") (by decide)
    simpa (disch := decide) only [lookup_optional_of_ne,
      lookup_cons_of_ne, lookup_optional_self,
      List.lookup_append, List.lookup_nil, Option.none_or,
      Option.or_none] using hCert
  have hKeySame : tls.keyPath = other.keyPath := by
    apply text_of_sanitized Number
      (key "keyPath") (by decide)
    simpa (disch := decide) only [lookup_optional_of_ne,
      lookup_cons_of_ne, lookup_optional_self,
      List.lookup_append, List.lookup_nil, Option.none_or,
      Option.or_none] using hKeyPath
  have hGenerateSame : tls.autoGenerate = other.autoGenerate := by
    simpa (disch := decide) [lookup_optional_of_ne,
      lookup_cons_of_ne, List.lookup_append, redact,
      sanitizeValue] using hGenerate
  cases tls
  cases other
  simp only [TlsConfig.mk.injEq]
  exact
    ⟨hEnabledSame, hCertSame, hKeySame, hGenerateSame⟩

theorem server_of_sanitized
    {server other : ServerConfig Number}
    (hSame :
      sanitizeMembers server.members =
        sanitizeMembers other.members) :
    server = other := by
  unfold ServerConfig.members at hSame
  simp (disch := decide) only [sanitizeMembers, sanitizeValue,
    sanitizeProto, redact_of_plain, List.cons.injEq,
    Prod.mk.injEq, ConfigValue.string.injEq,
    ConfigValue.number.injEq, ConfigValue.bool.injEq,
    ConfigValue.object.injEq, true_and, and_true] at hSame
  rcases hSame with ⟨hHost, hPort, hGrpc, hDynamic, hTls⟩
  cases server
  cases other
  simp only [ServerConfig.mk.injEq]
  exact
    ⟨hHost, hPort, hGrpc, hDynamic, tls_of_sanitized hTls⟩

theorem environment_text_injective
    {environment other : Environment}
    (hSame : environment.text = other.text) :
    environment = other := by
  cases environment
  all_goals
    cases other
    all_goals
      first
        | rfl
        | exact absurd hSame (by decide)

/- The lines of a redacted export tell nothing that its JSON
   does not. -/
theorem buildEnvExportLines_of_sanitized
    (numberText : Number → List Char)
    (exportedAt : JsString)
    {options : ConfigExportOptions}
    (hRedacted : options.unredacted = false)
    (hSame :
      exportSanitizedConfig config.value =
        exportSanitizedConfig other.value) :
    buildEnvExportLines numberText exportedAt config options =
      buildEnvExportLines numberText exportedAt other
        options := by
  unfold exportSanitizedConfig AppConfig.value at hSame
  simp (disch := decide) only [sanitizeMembers, sanitizeValue,
    sanitizeProto, redact_of_plain, List.cons.injEq,
    Prod.mk.injEq, ConfigValue.string.injEq,
    ConfigValue.object.injEq, true_and, and_true] at hSame
  rcases hSame with
    ⟨hEnvironment, hServer, hStorage, hDatabase, hAuth,
      hLogging⟩
  have hServerSame := server_of_sanitized hServer
  have hStorageSame := storage_of_sanitized hStorage
  have hDatabaseSame := database_of_sanitized hDatabase
  have hLoggingSame := logging_of_sanitized hLogging
  rcases auth_of_sanitized hAuth with
    ⟨hSession, hAccess, hAdmin, hUsername⟩
  have hAdminLines :
      adminLines config.auth options =
        adminLines other.auth options := by
    unfold adminLines
    rw [hUsername, hRedacted]
    rfl
  unfold buildEnvExportLines
  rw [environment_text_injective hEnvironment, hServerSame,
    hStorageSame, hDatabaseSame, hLoggingSame, hSession,
    hAccess, hAdmin, hAdminLines]

/- The command tells nothing of the secrets of a
   configuration. -/
theorem exportConfig_of_differsInSecrets
    (numberText : Number → List Char)
    (exportedAt : JsString)
    {options : ConfigExportOptions}
    (hRedacted : options.unredacted = false)
    (hDiffer : DiffersInSecrets false config.value other.value) :
    exportConfig numberText exportedAt config options =
      exportConfig numberText exportedAt other options := by
  have hDirect :=
    secretsAreDirect_of_nothingNested _ _
      (nothingNested_value config) hDiffer
  have hSame :
      exportSanitizedConfig config.value =
        exportSanitizedConfig other.value :=
    (sanitizeValue_eq_iff false _ _ hDiffer).mpr hDirect
  unfold exportConfig
  rw [hRedacted, hSame,
    buildEnvExportLines_of_sanitized numberText exportedAt
      hRedacted hSame]
  rfl

/- What an array or object under a sensitive key holds shows
   in an export, unless a key within it is sensitive too. -/
theorem export_eq_iff
    (value otherValue : ConfigValue Number)
    (hDiffer : DiffersInSecrets false value otherValue)
    (numberText : Number → List Char)
    (exportedAt : JsString)
    (config other : AppConfig Number)
    (hConfigs :
      DiffersInSecrets false config.value other.value)
    (options : ConfigExportOptions)
    (hRedacted : options.unredacted = false) :
    (exportSanitizedConfig value =
          exportSanitizedConfig otherValue ↔
        SecretsAreDirect false value otherValue) ∧
      exportConfig numberText exportedAt config options =
        exportConfig numberText exportedAt other options := by
  constructor
  · exact sanitizeValue_eq_iff false value otherValue hDiffer
  · exact
      exportConfig_of_differsInSecrets numberText exportedAt
        hRedacted hConfigs

/- The defaults, with an administrator. -/
def adminConfig (password : JsString) : AppConfig Nat where
  environment := .development
  server :=
    { host := js "0.0.0.0"
      port := 9090
      grpcPort := 50051
      dynamicPort := false
      tls :=
        { enabled := false
          certPath := none
          keyPath := none
          autoGenerate := false } }
  storage :=
    { dataDir := js "./data"
      stagingRootPath := js "./data/staging"
      doltReposRootPath := js "./data/dolt-repos"
      nasSimPath := js "./data/nas-sim" }
  database :=
    { userDbPath := js "./data/users.db"
      repoDbPath := js "./data/repos.db"
      ticketDbPath := js "./data/transfer-tickets.db"
      transferJobDbPath := js "./data/transfer-jobs.db"
      addonTrustDbPath := js "./data/addon-trust.db"
      sessionDbPath := js "./data/sessions.db" }
  auth :=
    { jwtPrivateKey := none
      jwtPublicKey := none
      jwtPrivateKeyPath := none
      jwtPublicKeyPath := none
      sessionTtlSeconds := 120
      accessTokenTtlSeconds := 900
      corsAllowedOrigins := []
      adminUiEnabled := false
      bootstrapAdminUsername := some (js "root")
      bootstrapAdminPassword := some password }
  logging :=
    { level := .info
      pretty := false }

theorem adminConfig_differs
    {password other : JsString}
    (hPassword : password ≠ [])
    (hOther : other ≠ []) :
    DiffersInSecrets false (adminConfig password).value
      (adminConfig other).value := by
  have hKey :
      isSensitiveKey (key "bootstrapAdminPassword").name =
        true := by
    decide
  simp [adminConfig, AppConfig.value, ServerConfig.members,
    TlsConfig.members, StorageConfig.members,
    DatabaseConfig.members, AuthConfig.members,
    LoggingConfig.members, optional, DiffersInSecrets,
    ProtoDiffers, MembersDiffer, ElementsDiffer, hKey,
    hPassword, hOther]

/- Two passwords of an administrator. -/
theorem export_eq_iff_password :
    (exportSanitizedConfig (adminConfig (js "a")).value =
          exportSanitizedConfig (adminConfig (js "b")).value ↔
        SecretsAreDirect false (adminConfig (js "a")).value
          (adminConfig (js "b")).value) ∧
      exportConfig (fun n => (toString n).toList) []
          (adminConfig (js "a")) ⟨false, some .env⟩ =
        exportConfig (fun n => (toString n).toList) []
          (adminConfig (js "b")) ⟨false, some .env⟩ :=
  export_eq_iff _ _
    (adminConfig_differs (by decide) (by decide)) _ _ _ _
    (adminConfig_differs (by decide) (by decide)) _ rfl

/- A list of secrets is shown. -/
theorem secrets_shown :
    let secrets (text : String) : ConfigValue Nat :=
      .object none
        [(key "secrets", .array [.string (js text)])]
    DiffersInSecrets false (secrets "a") (secrets "b") ∧
      exportSanitizedConfig (secrets "a") = secrets "a" ∧
      exportSanitizedConfig (secrets "b") = secrets "b" ∧
      exportSanitizedConfig (secrets "a") ≠
        exportSanitizedConfig (secrets "b") := by
  have hKey : isSensitiveKey (key "secrets").name = true := by
    decide
  have hTexts : js "a" ≠ js "b" := by
    decide
  have hFirst : js "a" ≠ [] := by
    decide
  have hSecond : js "b" ≠ [] := by
    decide
  simp [DiffersInSecrets, ProtoDiffers, MembersDiffer,
    ElementsDiffer, exportSanitizedConfig, sanitizeValue,
    sanitizeProto, sanitizeMembers, sanitizeElements, redact,
    hKey, hTexts, hFirst, hSecond]

end Config
