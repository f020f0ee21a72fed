import Deltix.Config.ExportEntries

/-
  The members that are extracted from the environment of an
  export.

  Key definitions include:
    * `member`
    * `tlsMembers`
    * `exportedMembers`

  Key theorems include:
    * `extractTlsEnv_exported`
    * `extractAuthEnv_exported`
    * `extractEnvConfig_exported`
-/

------------------------------------------------------------
-- Members That Are Extracted
------------------------------------------------------------

namespace Config

open Text

variable (config : AppConfig Int) (path : List Char)
variable {name : List Char} {auth : AuthConfig Int}

/- A member with what is read of a text. -/
def member (name : ConfigKey) (text : JsString) :
    ConfigKey × ConfigValue Int :=
  (name, .string (readBack text))

def storageMembers (storage : StorageConfig) : Members Int :=
  [member (named "dataDir") storage.dataDir,
    member (named "stagingRootPath") storage.stagingRootPath,
    member (named "doltReposRootPath") storage.doltReposRootPath,
    member (named "nasSimPath") storage.nasSimPath]

def databaseMembers (database : DatabaseConfig) : Members Int :=
  [member (named "userDbPath") database.userDbPath,
    member (named "repoDbPath") database.repoDbPath,
    member (named "ticketDbPath") database.ticketDbPath,
    member (named "transferJobDbPath") database.transferJobDbPath,
    member (named "addonTrustDbPath") database.addonTrustDbPath,
    member (named "sessionDbPath") database.sessionDbPath]

def loggingMembers (logging : LoggingConfig) : Members Int :=
  [member (named "level") logging.level.text,
    member (named "pretty") (boolText logging.pretty)]

def tlsMembers (tls : TlsConfig) : Members Int :=
  if tls.enabled then
    (named "enabled", .string (js "true")) ::
      optional (named "certPath") (tls.certPath.map readBack) ++
      optional (named "keyPath") (tls.keyPath.map readBack)
  else []

def serverMembers (server : ServerConfig Int) : Members Int :=
  [member (named "host") server.host,
    member (named "port") (units (numberText server.port)),
    member (named "grpcPort")
      (units (numberText server.grpcPort)),
    member (named "dynamicPort") (boolText server.dynamicPort)] ++
    unlessEmpty (named "tls") (tlsMembers server.tls)

def authMembers (auth : AuthConfig Int) : Members Int :=
  [member (named "sessionTtlSeconds")
      (units (numberText auth.sessionTtlSeconds)),
    member (named "accessTokenTtlSeconds")
      (units (numberText auth.accessTokenTtlSeconds)),
    member (named "adminUiEnabled")
      (boolText auth.adminUiEnabled)] ++
    optional (named "bootstrapAdminUsername")
      (auth.bootstrapAdminUsername.map readBack) ++
    optional (named "bootstrapAdminPassword")
      (auth.bootstrapAdminPassword.map readBack)

def exportedMembers (config : AppConfig Int) : Members Int :=
  [member (named "environment") config.environment.text,
    (named "server", .object none (serverMembers config.server)),
    (named "storage",
      .object none (storageMembers config.storage)),
    (named "database",
      .object none (databaseMembers config.database)),
    (named "auth", .object none (authMembers config.auth)),
    (named "logging",
      .object none (loggingMembers config.logging))]

theorem optional_exported
    (name : ConfigKey)
    (names : List String)
    (text : JsString)
    (hNames : "DELTIX_ENV_FILE" ∉ names)
    (hText : exported config names = some text) :
    (optional name (firstOf (exportedEnv config path) names) :
        Members Int) =
      [member name text] := by
  rw [firstOf_exported config path names hNames, hText]
  rfl

theorem optional_not_exported
    (name : ConfigKey)
    (names : List String)
    (hNames : "DELTIX_ENV_FILE" ∉ names)
    (hNone : exported config names = none) :
    (optional name (firstOf (exportedEnv config path) names) :
        Members Int) =
      [] := by
  rw [firstOf_exported config path names hNames, hNone]
  rfl

theorem extractStorageEnv_exported :
    extractStorageEnv (exportedEnv config path) =
      storageMembers config.storage := by
  have hMember := optional_exported config path
  unfold extractStorageEnv
  rw [hMember _ _ config.storage.dataDir (by decide) rfl,
    hMember _ _ config.storage.stagingRootPath (by decide) rfl,
    hMember _ _ config.storage.doltReposRootPath (by decide)
      rfl,
    hMember _ _ config.storage.nasSimPath (by decide) rfl]
  rfl

theorem extractDatabaseEnv_exported :
    extractDatabaseEnv (exportedEnv config path) =
      databaseMembers config.database := by
  have hMember := optional_exported config path
  unfold extractDatabaseEnv
  rw [hMember _ _ config.database.userDbPath (by decide) rfl,
    hMember _ _ config.database.repoDbPath (by decide) rfl,
    hMember _ _ config.database.ticketDbPath (by decide) rfl,
    hMember _ _ config.database.transferJobDbPath (by decide)
      rfl,
    hMember _ _ config.database.addonTrustDbPath (by decide)
      rfl,
    hMember _ _ config.database.sessionDbPath (by decide) rfl]
  rfl

theorem extractLoggingEnv_exported :
    extractLoggingEnv (exportedEnv config path) =
      loggingMembers config.logging := by
  have hMember := optional_exported config path
  unfold extractLoggingEnv
  rw [hMember _ _ config.logging.level.text (by decide) rfl,
    hMember _ _ (boolText config.logging.pretty) (by decide)
      rfl]
  rfl

/- A name that no export sets. -/
theorem exported_eq_none
    {names : List String}
    (hNames : ∀ name ∈ names, name.toList ∉ exportNames) :
    exported config names = none := by
  unfold exported
  rw [List.findSome?_eq_none_iff]
  intro name hName
  rw [List.lookup_eq_none_iff]
  intro entry hEntry
  rw [bne_iff_ne]
  intro hSame
  apply hNames name hName
  rw [hSame]
  exact name_of_entry config hEntry

theorem exported_cons
    {first : String}
    {rest : List String}
    (hRest : ∀ name ∈ rest, name.toList ∉ exportNames) :
    exported config (first :: rest) =
      (exportEntries config).lookup first.toList := by
  have hNone := exported_eq_none config hRest
  unfold exported at hNone ⊢
  rw [List.findSome?_cons]
  split
  · rename_i text hText
    exact hText.symm
  · rename_i hText
    rw [hNone, hText]

theorem lookup_eq_none_of_names
    {entries : Entries}
    {names : List (List Char)}
    (hNames : (entries.map Prod.fst).Sublist names)
    (hName : name ∉ names) :
    entries.lookup name = none := by
  rw [List.lookup_eq_none_iff]
  intro entry hEntry
  rw [bne_iff_ne]
  intro hSame
  apply hName
  rw [hSame]
  exact hNames.subset (List.mem_map_of_mem hEntry)

theorem lookup_exportEntries_tls
    (hBase : name ∉ exportNames.take 20)
    (hAdmin :
      name ∉
        ["APP_BOOTSTRAP_ADMIN_USERNAME".toList,
          "APP_BOOTSTRAP_ADMIN_PASSWORD".toList]) :
    (exportEntries config).lookup name =
      (tlsEntries config.server.tls).lookup name := by
  have hBaseNone : (baseEntries config).lookup name = none :=
    lookup_eq_none_of_names (List.Sublist.refl _) hBase
  have hAdminNone :
      (adminEntries config.auth).lookup name = none :=
    lookup_eq_none_of_names (names_adminEntries _) hAdmin
  unfold exportEntries
  rw [List.lookup_append, List.lookup_append, hBaseNone,
    hAdminNone]
  rfl

theorem lookup_exportEntries_admin
    (hBase : name ∉ exportNames.take 20)
    (hTls :
      name ∉
        ["APP_TLS_ENABLED".toList, "APP_TLS_CERT_PATH".toList,
          "APP_TLS_KEY_PATH".toList]) :
    (exportEntries config).lookup name =
      (adminEntries config.auth).lookup name := by
  have hBaseNone : (baseEntries config).lookup name = none :=
    lookup_eq_none_of_names (List.Sublist.refl _) hBase
  have hTlsNone :
      (tlsEntries config.server.tls).lookup name = none :=
    lookup_eq_none_of_names (names_tlsEntries _) hTls
  unfold exportEntries
  rw [List.lookup_append, List.lookup_append, hBaseNone,
    hTlsNone, Option.or_none]
  rfl

theorem lookup_pathEntry_self
    (name : String)
    {text : Option JsString}
    (hText : text ≠ some []) :
    (pathEntry name text).lookup name.toList = text := by
  cases text with
  | none => rfl
  | some text =>
      cases text with
      | nil => exact absurd rfl hText
      | cons first rest =>
          unfold pathEntry
          rw [List.lookup_cons_self]

theorem lookup_pathEntry_of_ne
    {name other : String}
    (hOther : other.toList ∉ [name.toList])
    (text : Option JsString) :
    (pathEntry name text).lookup other.toList = none :=
  lookup_eq_none_of_names (names_pathEntry name text) hOther

/- What the variables of a TLS configuration are. -/
theorem lookup_tlsEntries
    {tls : TlsConfig}
    (hEnabled : tls.enabled = true)
    (hCert : tls.certPath ≠ some [])
    (hKey : tls.keyPath ≠ some []) :
    (tlsEntries tls).lookup "APP_TLS_ENABLED".toList =
        some (js "true") ∧
      (tlsEntries tls).lookup "APP_TLS_CERT_PATH".toList =
        tls.certPath ∧
      (tlsEntries tls).lookup "APP_TLS_KEY_PATH".toList =
        tls.keyPath := by
  unfold tlsEntries
  rw [if_pos hEnabled]
  refine ⟨rfl, ?_, ?_⟩
  · have hOther :
        ("APP_TLS_CERT_PATH".toList ==
          "APP_TLS_ENABLED".toList) = false := rfl
    rw [List.lookup_append, List.lookup_cons, hOther]
    simp only
    rw [lookup_pathEntry_self _ hCert,
      lookup_pathEntry_of_ne (by decide +kernel),
      Option.or_none]
  · have hOther :
        ("APP_TLS_KEY_PATH".toList ==
          "APP_TLS_ENABLED".toList) = false := rfl
    rw [List.lookup_append, List.lookup_cons, hOther]
    simp only
    rw [lookup_pathEntry_self _ hKey,
      lookup_pathEntry_of_ne (by decide +kernel),
      Option.none_or]

theorem extractTlsEnv_exported
    (hCert : config.server.tls.certPath ≠ some [])
    (hKey : config.server.tls.keyPath ≠ some []) :
    extractTlsEnv (exportedEnv config path) =
      tlsMembers config.server.tls := by
  unfold extractTlsEnv
  rw [firstOf_exported config path _ (by decide),
    firstOf_exported config path _ (by decide),
    firstOf_exported config path _ (by decide),
    firstOf_exported config path _ (by decide),
    exported_cons config (by decide +kernel),
    exported_cons config (by decide +kernel),
    exported_cons config (by decide +kernel),
    exported_eq_none config (by decide +kernel),
    lookup_exportEntries_tls config (by decide +kernel)
      (by decide +kernel),
    lookup_exportEntries_tls config (by decide +kernel)
      (by decide +kernel),
    lookup_exportEntries_tls config (by decide +kernel)
      (by decide +kernel)]
  unfold tlsMembers
  cases hEnabled : config.server.tls.enabled with
  | false =>
      unfold tlsEntries
      rw [hEnabled]
      rfl
  | true =>
      rcases lookup_tlsEntries hEnabled hCert hKey with
        ⟨hTrue, hCertText, hKeyText⟩
      rw [hTrue, hCertText, hKeyText, if_pos rfl]
      exact List.append_nil _

theorem extractServerEnv_exported
    (hCert : config.server.tls.certPath ≠ some [])
    (hKey : config.server.tls.keyPath ≠ some []) :
    extractServerEnv (exportedEnv config path) =
      serverMembers config.server := by
  have hMember := optional_exported config path
  unfold extractServerEnv
  rw [hMember _ _ config.server.host (by decide) rfl,
    hMember _ _ (units (numberText config.server.port))
      (by decide) rfl,
    hMember _ _ (units (numberText config.server.grpcPort))
      (by decide) rfl,
    hMember _ _ (boolText config.server.dynamicPort)
      (by decide) rfl,
    extractTlsEnv_exported config path hCert hKey]
  rfl

/- The administrator of a configuration, if one is set, has a
   name and a password. -/
theorem admin_cases
    (hUsername : auth.bootstrapAdminUsername ≠ some [])
    (hPassword : auth.bootstrapAdminPassword ≠ some [])
    (hRefined : Bootstrap.superRefine auth = none) :
    (auth.bootstrapAdminUsername = none ∧
        auth.bootstrapAdminPassword = none) ∨
      ∃ username password,
        auth.bootstrapAdminUsername = some username ∧
          auth.bootstrapAdminPassword = some password ∧
          username ≠ [] ∧ password ≠ [] := by
  unfold Bootstrap.superRefine at hRefined
  split at hRefined
  · cases hRefined
  · rename_i hBoth
    cases hUser : auth.bootstrapAdminUsername with
    | none =>
        cases hPass : auth.bootstrapAdminPassword with
        | none =>
            left
            exact ⟨rfl, rfl⟩
        | some password =>
            rw [hUser, hPass] at hBoth
            cases password with
            | nil => exact absurd hPass hPassword
            | cons first rest => exact absurd rfl hBoth
    | some username =>
        cases username with
        | nil => exact absurd hUser hUsername
        | cons first rest =>
            cases hPass : auth.bootstrapAdminPassword with
            | none =>
                rw [hUser, hPass] at hBoth
                exact absurd rfl hBoth
            | some password =>
                right
                refine
                  ⟨_, _, rfl, rfl, List.cons_ne_nil _ _, ?_⟩
                intro hNil
                rw [hNil] at hPass
                exact hPassword hPass

theorem lookup_adminEntries
    (hUsername : auth.bootstrapAdminUsername ≠ some [])
    (hPassword : auth.bootstrapAdminPassword ≠ some [])
    (hRefined : Bootstrap.superRefine auth = none) :
    (adminEntries auth).lookup
          "APP_BOOTSTRAP_ADMIN_USERNAME".toList =
        auth.bootstrapAdminUsername ∧
      (adminEntries auth).lookup
          "APP_BOOTSTRAP_ADMIN_PASSWORD".toList =
        auth.bootstrapAdminPassword := by
  unfold adminEntries
  rcases admin_cases hUsername hPassword hRefined with
    ⟨hUser, hPass⟩ |
    ⟨username, password, hUser, hPass, hName, _⟩
  · rw [hUser, hPass]
    exact ⟨rfl, rfl⟩
  · rw [hUser, hPass]
    cases username with
    | nil => exact absurd rfl hName
    | cons first rest => exact ⟨rfl, rfl⟩

theorem extractAuthEnv_exported
    (hUsername : config.auth.bootstrapAdminUsername ≠ some [])
    (hPassword : config.auth.bootstrapAdminPassword ≠ some [])
    (hRefined : Bootstrap.superRefine config.auth = none) :
    extractAuthEnv (exportedEnv config path) =
      authMembers config.auth := by
  have hMember := optional_exported config path
  have hNone (name : ConfigKey) (names : List String)
      (hFile : "DELTIX_ENV_FILE" ∉ names)
      (hNames : ∀ name ∈ names, name.toList ∉ exportNames) :=
    optional_not_exported config path name names hFile
      (exported_eq_none config hNames)
  rcases lookup_adminEntries hUsername hPassword hRefined with
    ⟨hUser, hPass⟩
  unfold extractAuthEnv
  rw [hNone _ _ (by decide) (by decide +kernel),
    hNone _ _ (by decide) (by decide +kernel),
    hNone _ _ (by decide) (by decide +kernel),
    hNone _ _ (by decide) (by decide +kernel),
    hMember _ _
      (units (numberText config.auth.sessionTtlSeconds))
      (by decide) rfl,
    hMember _ _
      (units (numberText config.auth.accessTokenTtlSeconds))
      (by decide) rfl,
    hNone _ _ (by decide) (by decide +kernel),
    hMember _ _ (boolText config.auth.adminUiEnabled)
      (by decide) rfl,
    firstOf_exported config path _ (by decide),
    firstOf_exported config path _ (by decide),
    exported_cons config (by decide +kernel),
    exported_cons config (by decide +kernel),
    lookup_exportEntries_admin config (by decide +kernel)
      (by decide +kernel),
    lookup_exportEntries_admin config (by decide +kernel)
      (by decide +kernel), hUser, hPass]
  rfl

/- Variables whose names have no section change nothing. -/
theorem extractDoubleUnderscoreEnv_of_plain
    {env : Env}
    (hPlain :
      ∀ entry ∈ env, "APP__".toList.isPrefixOf entry.1 = false)
    (result : Members Int) :
    extractDoubleUnderscoreEnv env result = .ok result := by
  unfold extractDoubleUnderscoreEnv
  induction env with
  | nil => rfl
  | cons entry rest ih =>
      have hHere : extractUnderscored result entry = .ok result := by
        unfold extractUnderscored
        rw [hPlain entry List.mem_cons_self]
        rfl
      rw [List.foldlM_cons, hHere]
      apply ih
      intro other hOther
      exact hPlain other (List.mem_cons_of_mem _ hOther)

theorem plain_exportedEnv :
    ∀ entry ∈ exportedEnv config path,
      "APP__".toList.isPrefixOf entry.1 = false := by
  have hNames :
      ∀ name ∈ exportNames,
        "APP__".toList.isPrefixOf name = false := by
    decide +kernel
  intro entry hEntry
  rcases List.mem_append.mp hEntry with hFile | hExported
  · rw [List.mem_singleton.mp hFile]
    rfl
  · rcases List.mem_map.mp hExported with
      ⟨other, hOther, hSame⟩
    rw [← hSame]
    exact hNames _ (name_of_entry config hOther)

/- The texts of a configuration that may be left out are not
   empty, and an administrator is given whole. -/
structure WellGiven (config : AppConfig Int) : Prop where
  cert : config.server.tls.certPath ≠ some []
  keyPath : config.server.tls.keyPath ≠ some []
  username : config.auth.bootstrapAdminUsername ≠ some []
  password : config.auth.bootstrapAdminPassword ≠ some []
  refined : Bootstrap.superRefine config.auth = none

theorem extractEnvConfig_exported (hGiven : WellGiven config) :
    extractEnvConfig (exportedEnv config path) =
      .ok (exportedMembers config) := by
  have hMember := optional_exported config path
  unfold extractEnvConfig
  rw [extractDoubleUnderscoreEnv_of_plain
      (plain_exportedEnv config path),
    hMember _ _ config.environment.text (by decide) rfl,
    extractServerEnv_exported config path hGiven.cert
      hGiven.keyPath,
    extractStorageEnv_exported, extractDatabaseEnv_exported,
    extractAuthEnv_exported config path hGiven.username
      hGiven.password hGiven.refined,
    extractLoggingEnv_exported]
  rfl

end Config
