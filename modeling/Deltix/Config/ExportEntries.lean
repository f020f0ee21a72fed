import Deltix.Config.LoadedTexts

/-
  The variables of an export, and the environment that is
  read from a file with its lines.

  Key definitions include:
    * `exportEntries`
    * `exportFiles`
    * `exportedEnv`
    * `readBack`

  Key theorems include:
    * `buildEnvExportLines_eq`
    * `split_textOf_joinLines`
    * `env_of_export`
    * `firstOf_exported`
-/

------------------------------------------------------------
-- The Variables Of An Export
------------------------------------------------------------

namespace Config

open Text

/- A number, as it is written. -/
def numberText (n : Int) : List Char :=
  (toString n).toList

abbrev Entries : Type :=
  List (List Char × JsString)

/- The variables that every export sets. -/
def baseEntries (config : AppConfig Int) : Entries :=
  [("APP_ENV".toList, config.environment.text),
    ("APP_HOST".toList, config.server.host),
    ("APP_PORT".toList,
      units (numberText config.server.port)),
    ("APP_GRPC_PORT".toList,
      units (numberText config.server.grpcPort)),
    ("APP_DYNAMIC_PORT".toList,
      boolText config.server.dynamicPort),
    ("APP_DATA_DIR".toList, config.storage.dataDir),
    ("APP_STAGING_PATH".toList, config.storage.stagingRootPath),
    ("APP_REPOS_PATH".toList, config.storage.doltReposRootPath),
    ("APP_NAS_PATH".toList, config.storage.nasSimPath),
    ("APP_USER_DB_PATH".toList, config.database.userDbPath),
    ("APP_REPO_DB_PATH".toList, config.database.repoDbPath),
    ("APP_TICKET_DB_PATH".toList,
      config.database.ticketDbPath),
    ("APP_TRANSFER_JOB_DB_PATH".toList,
      config.database.transferJobDbPath),
    ("APP_ADDON_TRUST_DB_PATH".toList,
      config.database.addonTrustDbPath),
    ("APP_SESSION_DB_PATH".toList,
      config.database.sessionDbPath),
    ("APP_ADMIN_UI_ENABLED".toList,
      boolText config.auth.adminUiEnabled),
    ("APP_SESSION_TTL_SECONDS".toList,
      units (numberText config.auth.sessionTtlSeconds)),
    ("APP_ACCESS_TOKEN_TTL_SECONDS".toList,
      units (numberText config.auth.accessTokenTtlSeconds)),
    ("APP_LOG_LEVEL".toList, config.logging.level.text),
    ("APP_LOG_PRETTY".toList, boolText config.logging.pretty)]

/- The variables of an administrator who is set. -/
def adminEntries (auth : AuthConfig Int) : Entries :=
  match auth.bootstrapAdminUsername with
  | none => []
  | some [] => []
  | some username =>
      [("APP_BOOTSTRAP_ADMIN_USERNAME".toList, username),
        ("APP_BOOTSTRAP_ADMIN_PASSWORD".toList,
          auth.bootstrapAdminPassword.getD [])]

def pathEntry
    (name : String)
    (path : Option JsString) : Entries :=
  match path with
  | none => []
  | some [] => []
  | some path => [(name.toList, path)]

def tlsEntries (tls : TlsConfig) : Entries :=
  if tls.enabled then
    ("APP_TLS_ENABLED".toList, js "true") ::
      pathEntry "APP_TLS_CERT_PATH" tls.certPath ++
      pathEntry "APP_TLS_KEY_PATH" tls.keyPath
  else []

def exportEntries (config : AppConfig Int) : Entries :=
  baseEntries config ++ adminEntries config.auth ++
    tlsEntries config.server.tls

/- The options of an export that hides nothing. -/
def unredactedEnv : ConfigExportOptions where
  unredacted := true
  format := some .env

def lineOf (entry : List Char × JsString) : JsString :=
  units entry.1 ++ js "=" ++ entry.2

def headerLines (exportedAt : JsString) : List JsString :=
  [js "# Deltix Exported Configuration",
    js "# Exported at: " ++ exportedAt,
    js "# Unredacted: " ++ boolText true,
    []]

variable (config : AppConfig Int)

theorem adminLines_eq (auth : AuthConfig Int) :
    adminLines auth unredactedEnv =
      (adminEntries auth).map lineOf := by
  unfold adminLines adminEntries
  cases auth.bootstrapAdminUsername with
  | none => rfl
  | some username =>
      cases username with
      | nil => rfl
      | cons first rest => rfl

theorem pathLine_eq
    (name line : String)
    (hLine : js line = units name.toList ++ js "=")
    (path : Option JsString) :
    pathLine line path = (pathEntry name path).map lineOf := by
  cases path with
  | none => rfl
  | some path =>
      cases path with
      | nil => rfl
      | cons first rest =>
          unfold pathLine pathEntry
          rw [hLine]
          rfl

theorem tlsLines_eq (tls : TlsConfig) :
    tlsLines tls = (tlsEntries tls).map lineOf := by
  unfold tlsLines tlsEntries
  rw [pathLine_eq "APP_TLS_CERT_PATH" _ rfl,
    pathLine_eq "APP_TLS_KEY_PATH" _ rfl]
  split
  · rw [List.map_append, List.map_cons]
    rfl
  · rfl

theorem buildEnvExportLines_eq (exportedAt : JsString) :
    buildEnvExportLines numberText exportedAt config
        unredactedEnv =
      headerLines exportedAt ++
        (exportEntries config).map lineOf := by
  have hBase :
      buildEnvExportLines numberText exportedAt config
          unredactedEnv =
        headerLines exportedAt ++
            (baseEntries config).map lineOf ++
          adminLines config.auth unredactedEnv ++
          tlsLines config.server.tls := rfl
  rw [hBase, adminLines_eq, tlsLines_eq]
  unfold exportEntries
  rw [List.map_append, List.map_append, List.append_assoc,
    List.append_assoc, List.append_assoc]

------------------------------------------------------------
-- Through The File
------------------------------------------------------------

/- A text without a line break. -/
abbrev OneLine (text : JsString) : Prop :=
  breakUnit ∉ text

theorem split_textOf_joinLines
    (lines : List JsString)
    (hLines : ∀ line ∈ lines, OneLine line)
    (hSome : lines ≠ []) :
    split '\n' (textOf (joinLines lines)) =
      lines.map textOf := by
  induction lines with
  | nil => exact absurd rfl hSome
  | cons line rest ih =>
      have hPlain : '\n' ∉ textOf line := by
        intro hBreak
        exact
          hLines line List.mem_cons_self
            (break_mem_of_mem_textOf hBreak)
      cases rest with
      | nil => exact split_of_not_mem hPlain
      | cons next rest =>
          have hJoin :
              joinLines (line :: next :: rest) =
                line ++ breakUnit :: joinLines (next :: rest) := by
            have hBreak : js "\n" = [breakUnit] := rfl
            rw [joinLines, hBreak, List.append_assoc]
            · rfl
            · exact List.cons_ne_nil _ _
          rw [hJoin, textOf_append_of_break, split_append,
            split_of_not_mem hPlain, ih]
          · rfl
          · intro other hOther
            exact hLines other (List.mem_cons_of_mem _ hOther)
          · exact List.cons_ne_nil _ _

theorem textOf_lineOf (entry : List Char × JsString) :
    textOf (lineOf entry) =
      assignment (entry.1, textOf entry.2) := by
  unfold lineOf assignment
  rw [List.append_assoc, textOf_units_append]
  have hMark := textOf_units_append ['='] entry.2
  have hSame : js "=" = units ['='] := rfl
  rw [hSame, hMark]
  rfl

/- The lines that are no assignments change nothing. -/
theorem foldl_headerLines
    (env : Env)
    (exportedAt : JsString) :
    ((headerLines exportedAt).map textOf).foldl loadLine env =
      env := by
  have hComment (title : List Char) (text : JsString) :
      loadLine env (textOf (units ('#' :: title) ++ text)) =
        env := by
    rw [textOf_units_append]
    exact loadLine_comment env _
  have hTitle :
      loadLine env
          (textOf (js "# Deltix Exported Configuration")) =
        env := by
    have hWhole :=
      hComment " Deltix Exported Configuration".toList []
    rw [List.append_nil] at hWhole
    exact hWhole
  have hDate :
      loadLine env (textOf (js "# Exported at: " ++ exportedAt)) =
        env :=
    hComment " Exported at: ".toList exportedAt
  have hUnredacted :
      loadLine env
          (textOf (js "# Unredacted: " ++ boolText true)) =
        env :=
    hComment " Unredacted: ".toList (boolText true)
  have hEmpty : loadLine env (textOf []) = env :=
    loadLine_nil env
  simp only [headerLines, List.map_cons, List.map_nil,
    List.foldl_cons, List.foldl_nil, hTitle, hDate,
    hUnredacted, hEmpty]

/- The names that an export may set. -/
def exportNames : List (List Char) :=
  ["APP_ENV".toList, "APP_HOST".toList, "APP_PORT".toList,
    "APP_GRPC_PORT".toList, "APP_DYNAMIC_PORT".toList,
    "APP_DATA_DIR".toList, "APP_STAGING_PATH".toList,
    "APP_REPOS_PATH".toList, "APP_NAS_PATH".toList,
    "APP_USER_DB_PATH".toList, "APP_REPO_DB_PATH".toList,
    "APP_TICKET_DB_PATH".toList,
    "APP_TRANSFER_JOB_DB_PATH".toList,
    "APP_ADDON_TRUST_DB_PATH".toList,
    "APP_SESSION_DB_PATH".toList,
    "APP_ADMIN_UI_ENABLED".toList,
    "APP_SESSION_TTL_SECONDS".toList,
    "APP_ACCESS_TOKEN_TTL_SECONDS".toList,
    "APP_LOG_LEVEL".toList, "APP_LOG_PRETTY".toList,
    "APP_BOOTSTRAP_ADMIN_USERNAME".toList,
    "APP_BOOTSTRAP_ADMIN_PASSWORD".toList,
    "APP_TLS_ENABLED".toList, "APP_TLS_CERT_PATH".toList,
    "APP_TLS_KEY_PATH".toList]

theorem nodup_exportNames : exportNames.Nodup := by
  simp [exportNames]

theorem names_pathEntry
    (name : String)
    (path : Option JsString) :
    ((pathEntry name path).map Prod.fst).Sublist
      [name.toList] := by
  cases path with
  | none => exact List.nil_sublist _
  | some path =>
      cases path with
      | nil => exact List.nil_sublist _
      | cons first rest => exact List.Sublist.refl _

theorem names_adminEntries (auth : AuthConfig Int) :
    ((adminEntries auth).map Prod.fst).Sublist
      ["APP_BOOTSTRAP_ADMIN_USERNAME".toList,
        "APP_BOOTSTRAP_ADMIN_PASSWORD".toList] := by
  unfold adminEntries
  cases auth.bootstrapAdminUsername with
  | none => exact List.nil_sublist _
  | some username =>
      cases username with
      | nil => exact List.nil_sublist _
      | cons first rest => exact List.Sublist.refl _

theorem names_tlsEntries (tls : TlsConfig) :
    ((tlsEntries tls).map Prod.fst).Sublist
      ["APP_TLS_ENABLED".toList, "APP_TLS_CERT_PATH".toList,
        "APP_TLS_KEY_PATH".toList] := by
  unfold tlsEntries
  split
  · rw [List.map_append, List.map_cons, List.cons_append]
    apply List.Sublist.cons_cons
    exact
      (names_pathEntry "APP_TLS_CERT_PATH" tls.certPath).append
        (names_pathEntry "APP_TLS_KEY_PATH" tls.keyPath)
  · exact List.nil_sublist _

theorem names_exportEntries (config : AppConfig Int) :
    ((exportEntries config).map Prod.fst).Sublist
      exportNames := by
  have hBase :
      (baseEntries config).map Prod.fst = exportNames.take 20 :=
    rfl
  have hWhole :
      exportNames =
        exportNames.take 20 ++
            ["APP_BOOTSTRAP_ADMIN_USERNAME".toList,
              "APP_BOOTSTRAP_ADMIN_PASSWORD".toList] ++
          ["APP_TLS_ENABLED".toList,
            "APP_TLS_CERT_PATH".toList,
            "APP_TLS_KEY_PATH".toList] := rfl
  unfold exportEntries
  rw [List.map_append, List.map_append, hBase, hWhole]
  apply List.Sublist.append
  · apply List.Sublist.append
    · exact List.Sublist.refl _
    · exact names_adminEntries config.auth
  · exact names_tlsEntries config.server.tls

------------------------------------------------------------
-- The Environment Of An Export
------------------------------------------------------------

variable (path : List Char)

/- The environment that names the file, and no more. -/
def namedEnv : Env :=
  [("DELTIX_ENV_FILE".toList, path)]

/- What is read of a text that is written. -/
def readBack (text : JsString) : JsString :=
  units (bare (textOf text))

/- The environment with the variables of an export. -/
def exportedEnv : Env :=
  namedEnv path ++
    (exportEntries config).map fun entry =>
      (entry.1, bare (textOf entry.2))

/- There is the text of an export at the path, and nothing
   else anywhere. -/
def exportFiles (exportedAt : JsString) : Files :=
  fun other =>
    if other = path then
      some
        (some
          (textOf
            (exportConfig numberText exportedAt config
              unredactedEnv)))
    else none

theorem isIn_namedEnv
    {name : List Char}
    (hName : name ∈ exportNames) :
    isIn name (namedEnv path) = false := by
  have hAll :
      ∀ name ∈ exportNames,
        (name == "DELTIX_ENV_FILE".toList) = false ∧
          prototypeNames.contains name = false := by
    decide +kernel
  rcases hAll name hName with ⟨hOther, hOwn⟩
  unfold isIn namedEnv
  rw [List.lookup_cons, hOther, hOwn]
  rfl

theorem name_of_entry
    {entry : List Char × JsString}
    (hEntry : entry ∈ exportEntries config) :
    entry.1 ∈ exportNames :=
  (names_exportEntries config).subset
    (List.mem_map_of_mem hEntry)

/- The lines of an export have no line breaks but those of
   its texts. -/
theorem oneLine_of_export
    (exportedAt : JsString)
    (hDate : OneLine exportedAt)
    (hTexts :
      ∀ entry ∈ exportEntries config, OneLine entry.2) :
    ∀ line ∈
        headerLines exportedAt ++
          (exportEntries config).map lineOf,
      OneLine line := by
  have hNames :
      ∀ name ∈ exportNames, OneLine (units name ++ js "=") := by
    decide +kernel
  intro line hLine
  rcases List.mem_append.mp hLine with hHeader | hEntry
  · simp only [headerLines, List.mem_cons, List.not_mem_nil,
      or_false] at hHeader
    rcases hHeader with hTitle | hAt | hRedacted | hEmpty
    · rw [hTitle]
      decide
    · rw [hAt]
      intro hBreak
      rcases List.mem_append.mp hBreak with hWord | hThere
      · exact absurd hWord (by decide)
      · exact hDate hThere
    · rw [hRedacted]
      decide
    · rw [hEmpty]
      exact List.not_mem_nil
  · rcases List.mem_map.mp hEntry with ⟨entry, hMember, hSame⟩
    rw [← hSame]
    intro hBreak
    rcases List.mem_append.mp hBreak with hName | hThere
    · exact hNames _ (name_of_entry config hMember) hName
    · exact hTexts entry hMember hThere

/- Where the texts have no line breaks, the file sets the
   variables of the export. -/
theorem env_of_export
    (exportedAt : JsString)
    (hDate : OneLine exportedAt)
    (hTexts :
      ∀ entry ∈ exportEntries config, OneLine entry.2) :
    loadProductionEnvFileInto
        (exportFiles config path exportedAt) (namedEnv path) =
      exportedEnv config path := by
  have hLoad :
      loadProductionEnvFileInto
          (exportFiles config path exportedAt)
          (namedEnv path) =
        (split '\n'
            (textOf
              (joinLines
                (buildEnvExportLines numberText exportedAt
                  config unredactedEnv)))).foldl loadLine
          (namedEnv path) := by
    have hPath :
        ((namedEnv path).lookup
            "DELTIX_ENV_FILE".toList).getD
              DEFAULT_PROD_ENV_FILE = path := rfl
    unfold loadProductionEnvFileInto
    simp only [hPath, exportFiles, if_pos]
    rfl
  have hEntries :
      ((exportEntries config).map lineOf).map textOf =
        ((exportEntries config).map fun entry =>
            (entry.1, textOf entry.2)).map assignment := by
    rw [List.map_map, List.map_map]
    apply List.map_congr_left
    intro entry _
    exact textOf_lineOf entry
  have hWritten :
      ((exportEntries config).map fun entry =>
            (entry.1, textOf entry.2)).map Prod.fst =
        (exportEntries config).map Prod.fst := by
    rw [List.map_map]
    rfl
  rw [hLoad, buildEnvExportLines_eq,
    split_textOf_joinLines _
      (oneLine_of_export config exportedAt hDate hTexts)
      (List.cons_ne_nil _ _),
    List.map_append, List.foldl_append, foldl_headerLines,
    hEntries, foldl_loadLine]
  · unfold exportedEnv
    rw [List.map_map]
    rfl
  · intro entry hEntry
    rcases List.mem_map.mp hEntry with ⟨other, hOther, hSame⟩
    rw [← hSame]
    have hNames : ∀ name ∈ exportNames, IsName name := by
      decide +kernel
    exact hNames _ (name_of_entry config hOther)
  · rw [hWritten]
    exact (names_exportEntries config).nodup nodup_exportNames
  · intro entry hEntry
    rcases List.mem_map.mp hEntry with ⟨other, hOther, hSame⟩
    rw [← hSame]
    exact isIn_namedEnv path (name_of_entry config hOther)

theorem lookup_map_value
    {Name Text Other : Type}
    [BEq Name]
    (read : Text → Other)
    (entries : List (Name × Text))
    (name : Name) :
    (entries.map fun entry =>
        (entry.1, read entry.2)).lookup name =
      (entries.lookup name).map read := by
  induction entries with
  | nil => rfl
  | cons entry rest ih =>
      rw [List.map_cons, List.lookup_cons, List.lookup_cons]
      split
      · rfl
      · exact ih

/- The first of the variables that the export sets. -/
def exported (names : List String) : Option JsString :=
  names.findSome? fun name =>
    (exportEntries config).lookup name.toList

theorem firstOf_exported
    (names : List String)
    (hNames : "DELTIX_ENV_FILE" ∉ names) :
    firstOf (exportedEnv config path) names =
      (exported config names).map readBack := by
  have hLookup :
      ∀ name ∈ names,
        (exportedEnv config path).lookup name.toList =
          ((exportEntries config).lookup name.toList).map
            fun text => bare (textOf text) := by
    intro name hName
    have hOther :
        (name.toList == "DELTIX_ENV_FILE".toList) = false := by
      rw [beq_eq_false_iff_ne]
      intro hSame
      rw [String.toList_inj.mp hSame] at hName
      exact hNames hName
    unfold exportedEnv namedEnv
    rw [List.singleton_append, List.lookup_cons, hOther]
    exact lookup_map_value (fun text => bare (textOf text)) _ _
  unfold firstOf exported
  induction names with
  | nil => rfl
  | cons name rest ih =>
      rw [List.findSome?_cons, List.findSome?_cons,
        hLookup name List.mem_cons_self]
      cases (exportEntries config).lookup name.toList with
      | some text => rfl
      | none =>
          apply ih
          · intro hMember
            exact hNames (List.mem_cons_of_mem _ hMember)
          · intro other hOther
            exact hLookup other (List.mem_cons_of_mem _ hOther)

end Config
