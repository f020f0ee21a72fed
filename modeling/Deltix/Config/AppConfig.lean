import Deltix.Config.Redaction

/-
  The configuration of the server, as the schema leaves it,
  and the object that it is.

  Key definitions include:
    * `AppConfig`
    * `AppConfig.value`
    * `NothingNested`

  Key theorems include:
    * `secretsAreDirect_of_nothingNested`
    * `nothingNested_value`
-/

namespace Config

open Text

inductive Environment where
  | development
  | production
  | test
  deriving DecidableEq, Repr

def Environment.text : Environment → JsString
  | .development => js "development"
  | .production => js "production"
  | .test => js "test"

inductive LogLevel where
  | trace
  | debug
  | info
  | warn
  | error
  | fatal
  | silent
  deriving DecidableEq, Repr

def LogLevel.text : LogLevel → JsString
  | .trace => js "trace"
  | .debug => js "debug"
  | .info => js "info"
  | .warn => js "warn"
  | .error => js "error"
  | .fatal => js "fatal"
  | .silent => js "silent"

structure TlsConfig where
  enabled : Bool
  certPath : Option JsString
  keyPath : Option JsString
  autoGenerate : Bool

structure ServerConfig (Number : Type) where
  host : JsString
  port : Number
  grpcPort : Number
  dynamicPort : Bool
  tls : TlsConfig

structure StorageConfig where
  dataDir : JsString
  stagingRootPath : JsString
  doltReposRootPath : JsString
  nasSimPath : JsString

structure DatabaseConfig where
  userDbPath : JsString
  repoDbPath : JsString
  ticketDbPath : JsString
  transferJobDbPath : JsString
  addonTrustDbPath : JsString
  sessionDbPath : JsString

structure AuthConfig (Number : Type) where
  jwtPrivateKey : Option JsString
  jwtPublicKey : Option JsString
  jwtPrivateKeyPath : Option JsString
  jwtPublicKeyPath : Option JsString
  sessionTtlSeconds : Number
  accessTokenTtlSeconds : Number
  corsAllowedOrigins : List JsString
  adminUiEnabled : Bool
  bootstrapAdminUsername : Option JsString
  bootstrapAdminPassword : Option JsString

structure LoggingConfig where
  level : LogLevel
  pretty : Bool

structure AppConfig (Number : Type) where
  environment : Environment
  server : ServerConfig Number
  storage : StorageConfig
  database : DatabaseConfig
  auth : AuthConfig Number
  logging : LoggingConfig

variable {Number : Type}

abbrev Members (Number : Type) : Type :=
  List (ConfigKey × ConfigValue Number)

/- A member that is absent if it is not set. -/
def optional
    (key : ConfigKey)
    (text : Option JsString) : Members Number :=
  match text with
  | none => []
  | some text => [(key, .string text)]

def TlsConfig.members (tls : TlsConfig) : Members Number :=
  (key "enabled", .bool tls.enabled) ::
    optional (key "certPath") tls.certPath ++
    optional (key "keyPath") tls.keyPath ++
    [(key "autoGenerate", .bool tls.autoGenerate)]

def ServerConfig.members
    (server : ServerConfig Number) : Members Number :=
  [(key "host", .string server.host),
    (key "port", .number server.port),
    (key "grpcPort", .number server.grpcPort),
    (key "dynamicPort", .bool server.dynamicPort),
    (key "tls", .object none server.tls.members)]

def StorageConfig.members
    (storage : StorageConfig) : Members Number :=
  [(key "dataDir", .string storage.dataDir),
    (key "stagingRootPath", .string storage.stagingRootPath),
    (key "doltReposRootPath",
      .string storage.doltReposRootPath),
    (key "nasSimPath", .string storage.nasSimPath)]

def DatabaseConfig.members
    (database : DatabaseConfig) : Members Number :=
  [(key "userDbPath", .string database.userDbPath),
    (key "repoDbPath", .string database.repoDbPath),
    (key "ticketDbPath", .string database.ticketDbPath),
    (key "transferJobDbPath",
      .string database.transferJobDbPath),
    (key "addonTrustDbPath",
      .string database.addonTrustDbPath),
    (key "sessionDbPath", .string database.sessionDbPath)]

def AuthConfig.members
    (auth : AuthConfig Number) : Members Number :=
  optional (key "jwtPrivateKey") auth.jwtPrivateKey ++
    optional (key "jwtPublicKey") auth.jwtPublicKey ++
    optional (key "jwtPrivateKeyPath") auth.jwtPrivateKeyPath ++
    optional (key "jwtPublicKeyPath") auth.jwtPublicKeyPath ++
    [(key "sessionTtlSeconds", .number auth.sessionTtlSeconds),
      (key "accessTokenTtlSeconds",
        .number auth.accessTokenTtlSeconds),
      (key "corsAllowedOrigins",
        .array (auth.corsAllowedOrigins.map .string)),
      (key "adminUiEnabled", .bool auth.adminUiEnabled)] ++
    optional (key "bootstrapAdminUsername")
      auth.bootstrapAdminUsername ++
    optional (key "bootstrapAdminPassword")
      auth.bootstrapAdminPassword

def LoggingConfig.members
    (logging : LoggingConfig) : Members Number :=
  [(key "level", .string logging.level.text),
    (key "pretty", .bool logging.pretty)]

def AppConfig.value
    (config : AppConfig Number) : ConfigValue Number :=
  .object none
    [(key "environment", .string config.environment.text),
      (key "server", .object none config.server.members),
      (key "storage", .object none config.storage.members),
      (key "database", .object none config.database.members),
      (key "auth", .object none config.auth.members),
      (key "logging", .object none config.logging.members)]

------------------------------------------------------------
-- Nothing Within A Secret
------------------------------------------------------------

def isScalar : ConfigValue Number → Bool
  | .array _ => false
  | .object _ _ => false
  | _ => true

mutual

/- A sensitive key holds no array and no object. -/
def NothingNested : ConfigValue Number → Prop
  | .array elements => NothingNestedElements elements
  | .object proto members =>
      NothingNestedProto proto ∧ NothingNestedMembers members
  | _ => True

def NothingNestedElements :
    List (ConfigValue Number) → Prop
  | [] => True
  | element :: rest =>
      NothingNested element ∧ NothingNestedElements rest

def NothingNestedProto :
    Option (ConfigValue Number) → Prop
  | none => True
  | some value => NothingNested value

def NothingNestedMembers : Members Number → Prop
  | [] => True
  | (key, value) :: rest =>
      (isSensitiveKey key.name = true → isScalar value = true) ∧
        NothingNested value ∧ NothingNestedMembers rest

end

variable {value other : ConfigValue Number}

/- A scalar differs at most as a string that is stored
   directly. -/
theorem secretsAreDirect_of_isScalar
    (hScalar : isScalar value = true) :
    SecretsAreDirect true value other := by
  cases value with
  | array elements => cases hScalar
  | object proto members => cases hScalar
  | string text =>
      cases other with
      | string otherText =>
          unfold SecretsAreDirect
          exact Or.inr rfl
      | _ =>
          unfold SecretsAreDirect
          trivial
  | _ =>
      unfold SecretsAreDirect
      trivial

/- What does not differ under a sensitive key is the same. -/
theorem secretsAreDirect_weaken
    (hDirect : SecretsAreDirect false value other) :
    SecretsAreDirect true value other := by
  cases hScalar : isScalar value with
  | true => exact secretsAreDirect_of_isScalar hScalar
  | false =>
      apply (secretsAreDirect_of_not_string true _).mpr hDirect
      intro text hText
      rw [hText] at hScalar
      cases hScalar

mutual

theorem secretsAreDirect_of_nothingNested :
    ∀ value other : ConfigValue Number,
      NothingNested value →
      DiffersInSecrets false value other →
      SecretsAreDirect false value other
  | .array elements, other, hNested, hDiffer => by
      cases other with
      | array others =>
          unfold NothingNested at hNested
          unfold DiffersInSecrets at hDiffer
          unfold SecretsAreDirect
          exact
            elementsAreDirect_of_nothingNested elements others
              hNested hDiffer
      | _ =>
          unfold DiffersInSecrets at hDiffer
          cases hDiffer
  | .object proto members, other, hNested, hDiffer => by
      cases other with
      | object otherProto others =>
          unfold NothingNested at hNested
          unfold DiffersInSecrets at hDiffer
          unfold SecretsAreDirect
          constructor
          · exact
              protoIsDirect_of_nothingNested proto otherProto
                hNested.1 hDiffer.1
          · exact
              membersAreDirect_of_nothingNested members others
                hNested.2 hDiffer.2
      | _ =>
          unfold DiffersInSecrets at hDiffer
          cases hDiffer
  | .string text, other, _, hDiffer => by
      cases other with
      | string otherText =>
          unfold DiffersInSecrets at hDiffer
          unfold SecretsAreDirect
          rcases hDiffer with hSame | ⟨hUnder, _⟩
          · exact Or.inl hSame
          · cases hUnder
      | _ =>
          unfold DiffersInSecrets at hDiffer
          cases hDiffer
  | .undefined, other, _, _ => by simp [SecretsAreDirect]
  | .null, other, _, _ => by simp [SecretsAreDirect]
  | .bool value, other, _, _ => by simp [SecretsAreDirect]
  | .number value, other, _, _ => by simp [SecretsAreDirect]

theorem elementsAreDirect_of_nothingNested :
    ∀ elements others : List (ConfigValue Number),
      NothingNestedElements elements →
      ElementsDiffer false elements others →
      ElementsAreDirect elements others
  | [], others, _, _ => by simp [ElementsAreDirect]
  | element :: rest, [], _, _ => by simp [ElementsAreDirect]
  | element :: rest, other :: others, hNested, hDiffer => by
      unfold NothingNestedElements at hNested
      unfold ElementsDiffer at hDiffer
      unfold ElementsAreDirect
      constructor
      · exact
          secretsAreDirect_of_nothingNested element other
            hNested.1 hDiffer.1
      · exact
          elementsAreDirect_of_nothingNested rest others
            hNested.2 hDiffer.2

theorem protoIsDirect_of_nothingNested :
    ∀ proto other : Option (ConfigValue Number),
      NothingNestedProto proto →
      ProtoDiffers false proto other →
      ProtoIsDirect proto other
  | none, other, _, _ => by simp [ProtoIsDirect]
  | some value, none, _, _ => by simp [ProtoIsDirect]
  | some value, some other, hNested, hDiffer => by
      unfold NothingNestedProto at hNested
      unfold ProtoDiffers at hDiffer
      unfold ProtoIsDirect
      exact
        secretsAreDirect_weaken
          (secretsAreDirect_of_nothingNested value other
            hNested hDiffer)

theorem membersAreDirect_of_nothingNested :
    ∀ members others : Members Number,
      NothingNestedMembers members →
      MembersDiffer false members others →
      MembersAreDirect members others
  | [], others, _, _ => by simp [MembersAreDirect]
  | member :: rest, [], _, _ => by simp [MembersAreDirect]
  | (key, value) :: rest, (otherKey, other) :: others,
      hNested, hDiffer => by
      unfold NothingNestedMembers at hNested
      unfold MembersDiffer at hDiffer
      unfold MembersAreDirect
      rcases hNested with ⟨hScalar, hValue, hRest⟩
      rcases hDiffer with ⟨_, hDiffers, hOthers⟩
      constructor
      · cases hKey : isSensitiveKey key.name with
        | true =>
            exact secretsAreDirect_of_isScalar (hScalar hKey)
        | false =>
            rw [hKey] at hDiffers
            exact
              secretsAreDirect_of_nothingNested value other
                hValue hDiffers
      · exact
          membersAreDirect_of_nothingNested rest others hRest
            hOthers

end

variable {members rest : Members Number} {key : ConfigKey}

------------------------------------------------------------
-- The Configuration Nests Nothing
------------------------------------------------------------

theorem nothingNestedMembers_append
    {others : Members Number}
    (hMembers : NothingNestedMembers members)
    (hOthers : NothingNestedMembers others) :
    NothingNestedMembers (members ++ others) := by
  induction members with
  | nil => exact hOthers
  | cons member rest ih =>
      rcases member with ⟨key, value⟩
      unfold NothingNestedMembers at hMembers
      rw [List.cons_append]
      unfold NothingNestedMembers
      exact ⟨hMembers.1, hMembers.2.1, ih hMembers.2.2⟩

theorem nothingNested_scalar
    {value : ConfigValue Number}
    (hScalar : isScalar value = true)
    (hRest : NothingNestedMembers rest) :
    NothingNestedMembers ((key, value) :: rest) := by
  unfold NothingNestedMembers
  refine ⟨fun _ => hScalar, ?_, hRest⟩
  cases value with
  | array elements => cases hScalar
  | object proto members => cases hScalar
  | _ => exact trivial

/- A section under a key that is not sensitive. -/
theorem nothingNested_section
    (hKey : isSensitiveKey key.name = false)
    (hMembers : NothingNestedMembers members)
    (hRest : NothingNestedMembers rest) :
    NothingNestedMembers ((key, .object none members) :: rest) := by
  unfold NothingNestedMembers
  refine ⟨?_, ⟨trivial, hMembers⟩, hRest⟩
  intro hSensitive
  rw [hKey] at hSensitive
  cases hSensitive

theorem nothingNested_optional
    (key : ConfigKey)
    (text : Option JsString) :
    NothingNestedMembers
      (optional key text : Members Number) := by
  cases text with
  | none => exact trivial
  | some text => exact ⟨fun _ => rfl, trivial, trivial⟩

theorem nothingNested_texts (texts : List JsString) :
    NothingNestedElements
      (texts.map .string : List (ConfigValue Number)) := by
  induction texts with
  | nil => exact trivial
  | cons text rest ih => exact ⟨trivial, ih⟩

theorem nothingNested_tls (tls : TlsConfig) :
    NothingNestedMembers (tls.members : Members Number) := by
  unfold TlsConfig.members
  apply nothingNestedMembers_append
  · apply nothingNestedMembers_append
    · apply nothingNested_scalar rfl
      exact nothingNested_optional _ _
    · exact nothingNested_optional _ _
  · exact nothingNested_scalar rfl trivial

theorem nothingNested_server (server : ServerConfig Number) :
    NothingNestedMembers server.members := by
  unfold ServerConfig.members
  repeat apply nothingNested_scalar rfl
  apply nothingNested_section (by decide)
  · exact nothingNested_tls server.tls
  · exact trivial

theorem nothingNested_storage (storage : StorageConfig) :
    NothingNestedMembers
      (storage.members : Members Number) := by
  unfold StorageConfig.members
  repeat apply nothingNested_scalar rfl
  exact trivial

theorem nothingNested_database (database : DatabaseConfig) :
    NothingNestedMembers
      (database.members : Members Number) := by
  unfold DatabaseConfig.members
  repeat apply nothingNested_scalar rfl
  exact trivial

/- The list of origins is under no sensitive key. -/
theorem nothingNested_auth (auth : AuthConfig Number) :
    NothingNestedMembers auth.members := by
  have hOrigins :
      isSensitiveKey (key "corsAllowedOrigins").name =
        false := by
    decide
  have hMiddle :
      NothingNestedMembers
        [(key "sessionTtlSeconds",
            .number auth.sessionTtlSeconds),
          (key "accessTokenTtlSeconds",
            .number auth.accessTokenTtlSeconds),
          (key "corsAllowedOrigins",
            .array (auth.corsAllowedOrigins.map .string)),
          (key "adminUiEnabled", .bool auth.adminUiEnabled)] := by
    apply nothingNested_scalar rfl
    apply nothingNested_scalar rfl
    refine ⟨?_, nothingNested_texts _, ?_⟩
    · intro hSensitive
      rw [hOrigins] at hSensitive
      cases hSensitive
    · exact nothingNested_scalar rfl trivial
  unfold AuthConfig.members
  repeat' apply nothingNestedMembers_append
  · exact nothingNested_optional _ _
  · exact nothingNested_optional _ _
  · exact nothingNested_optional _ _
  · exact nothingNested_optional _ _
  · exact hMiddle
  · exact nothingNested_optional _ _
  · exact nothingNested_optional _ _

theorem nothingNested_logging (logging : LoggingConfig) :
    NothingNestedMembers
      (logging.members : Members Number) := by
  unfold LoggingConfig.members
  repeat apply nothingNested_scalar rfl
  exact trivial

/- No section is held by a sensitive key. -/
theorem nothingNested_value (config : AppConfig Number) :
    NothingNested config.value := by
  unfold AppConfig.value NothingNested
  refine ⟨trivial, ?_⟩
  apply nothingNested_scalar rfl
  apply nothingNested_section (by decide)
    (nothingNested_server config.server)
  apply nothingNested_section (by decide)
    (nothingNested_storage config.storage)
  apply nothingNested_section (by decide)
    (nothingNested_database config.database)
  apply nothingNested_section (by decide)
    (nothingNested_auth config.auth)
  exact
    nothingNested_section (by decide)
      (nothingNested_logging config.logging) trivial

end Config
