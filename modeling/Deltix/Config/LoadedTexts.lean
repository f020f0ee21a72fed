import Deltix.Config.LoadConfig

/-
  The texts of a configuration that is loaded from variables
  without line breaks: they have none either.

  Key definitions include:
    * `Unbroken`
    * `EnvUnbroken`
    * `loadedTexts`

  Key theorems include:
    * `membersUnbroken_mergeMembers`
    * `membersUnbroken_extractEnvConfig`
    * `loadedTexts_unbroken`
    * `envUnbroken_load`
-/

------------------------------------------------------------
-- Values Without Line Breaks
------------------------------------------------------------

namespace Config

open Text

mutual

/- No text in a value has a line break. -/
def Unbroken : ConfigValue Int → Prop
  | .string text => breakUnit ∉ text
  | .object _ members => MembersUnbroken members
  | _ => True

def MembersUnbroken : Members Int → Prop
  | [] => True
  | (_, value) :: rest => Unbroken value ∧ MembersUnbroken rest

end

/- What is found, if anything, has no line break. -/
def FoundUnbroken (found : Found) : Prop :=
  ∀ value, found = some value → Unbroken value

variable {members target source : Members Int}
variable {name : ConfigKey} {value : ConfigValue Int}

theorem foundUnbroken_lookup
    (hMembers : MembersUnbroken members)
    (name : ConfigKey) :
    FoundUnbroken (members.lookup name) := by
  induction members with
  | nil =>
      intro value hFound
      cases hFound
  | cons member rest ih =>
      rcases member with ⟨other, before⟩
      rcases hMembers with ⟨hBefore, hRest⟩
      intro value hFound
      rw [List.lookup_cons] at hFound
      split at hFound
      · rw [← Option.some.inj hFound]
        exact hBefore
      · exact ih hRest value hFound

theorem membersUnbroken_setMember
    (hMembers : MembersUnbroken members)
    (hValue : Unbroken value) :
    MembersUnbroken (setMember name value members) := by
  induction members with
  | nil => exact ⟨hValue, trivial⟩
  | cons member rest ih =>
      rcases member with ⟨other, before⟩
      rcases hMembers with ⟨hBefore, hRest⟩
      unfold setMember
      split
      · exact ⟨hValue, hRest⟩
      · exact ⟨hBefore, ih hRest⟩

theorem membersUnbroken_append
    {first second : Members Int}
    (hFirst : MembersUnbroken first)
    (hSecond : MembersUnbroken second) :
    MembersUnbroken (first ++ second) := by
  induction first with
  | nil => exact hSecond
  | cons member rest ih =>
      rcases member with ⟨other, before⟩
      exact ⟨hFirst.1, ih hFirst.2⟩

/- A member that is not undefined replaces what is there. -/
theorem mergeMembers_cons
    (target rest : Members Int)
    (name : ConfigKey)
    (hValue : value ≠ .undefined) :
    mergeMembers target ((name, value) :: rest) =
      mergeMembers
        (setMember name (mergeValue (target.lookup name) value)
          target)
        rest := by
  cases value with
  | undefined => exact absurd rfl hValue
  | null => rw [mergeMembers]; exact hValue
  | bool value => rw [mergeMembers]; exact hValue
  | number value => rw [mergeMembers]; exact hValue
  | string value => rw [mergeMembers]; exact hValue
  | array elements => rw [mergeMembers]; exact hValue
  | object proto members => rw [mergeMembers]; exact hValue

mutual

theorem unbroken_mergeValue
    (found : Found)
    (value : ConfigValue Int)
    (hFound : FoundUnbroken found)
    (hValue : Unbroken value) :
    Unbroken (mergeValue found value) := by
  cases value with
  | object proto members =>
      unfold mergeValue
      split
      · rename_i targetProto targetMembers
        have hTarget := hFound _ rfl
        exact
          membersUnbroken_mergeMembers targetMembers members
            hTarget hValue
      · exact hValue
  | undefined => exact hValue
  | null => exact hValue
  | bool value => exact hValue
  | number value => exact hValue
  | string value => exact hValue
  | array elements => exact hValue

theorem membersUnbroken_mergeMembers
    (target source : Members Int)
    (hTarget : MembersUnbroken target)
    (hSource : MembersUnbroken source) :
    MembersUnbroken (mergeMembers target source) := by
  match source with
  | [] =>
      unfold mergeMembers
      exact hTarget
  | (name, value) :: rest =>
      by_cases hValue : value = .undefined
      · rw [hValue, mergeMembers]
        exact
          membersUnbroken_mergeMembers target rest hTarget
            hSource.2
      · rw [mergeMembers_cons target rest name hValue]
        apply membersUnbroken_mergeMembers _ rest _ hSource.2
        apply membersUnbroken_setMember hTarget
        apply unbroken_mergeValue _ value _ hSource.1
        exact foundUnbroken_lookup hTarget name

end

------------------------------------------------------------
-- Variables Without Line Breaks
------------------------------------------------------------

/- No variable has a line break but the path of the file. -/
def EnvUnbroken (env : Env) : Prop :=
  ∀ entry ∈ env,
    entry.1 = "DELTIX_ENV_FILE".toList ∨ '\n' ∉ entry.2

variable {env : Env} {members result : Members Int}
variable {names : List String} {after : Members Int}

theorem mem_of_lookup
    {name value : List Char}
    (hFound : env.lookup name = some value) :
    (name, value) ∈ env := by
  rcases List.lookup_eq_some_iff.mp hFound with
    ⟨before, after, hEnv, _⟩
  rw [hEnv]
  exact List.mem_append_right _ List.mem_cons_self

theorem firstOf_unbroken
    (hEnv : EnvUnbroken env)
    (hNames : "DELTIX_ENV_FILE" ∉ names)
    {text : JsString}
    (hFirst : firstOf env names = some text) :
    breakUnit ∉ text := by
  unfold firstOf at hFirst
  rcases Option.map_eq_some_iff.mp hFirst with
    ⟨chars, hSome, hText⟩
  rcases List.exists_of_findSome?_eq_some hSome with
    ⟨name, hName, hFound⟩
  rcases hEnv _ (mem_of_lookup hFound) with hFile | hPlain
  · have hSame : name = "DELTIX_ENV_FILE" :=
      String.toList_inj.mp hFile
    rw [hSame] at hName
    exact absurd hName hNames
  · rw [← hText]
    intro hBreak
    exact hPlain (mem_of_break_mem_units hBreak)

theorem membersUnbroken_variable
    (hEnv : EnvUnbroken env)
    (name : ConfigKey)
    (hNames : "DELTIX_ENV_FILE" ∉ names) :
    MembersUnbroken (optional name (firstOf env names)) := by
  cases hFirst : firstOf env names with
  | none => trivial
  | some text =>
      exact ⟨firstOf_unbroken hEnv hNames hFirst, trivial⟩

theorem membersUnbroken_unlessEmpty
    (name : ConfigKey)
    (hMembers : MembersUnbroken members) :
    MembersUnbroken (unlessEmpty name members) := by
  unfold unlessEmpty
  split
  · trivial
  · exact ⟨hMembers, trivial⟩

theorem membersUnbroken_extractTlsEnv (hEnv : EnvUnbroken env) :
    MembersUnbroken (extractTlsEnv env) := by
  unfold extractTlsEnv
  repeat' apply membersUnbroken_append
  all_goals exact membersUnbroken_variable hEnv _ (by decide)

theorem membersUnbroken_extractServerEnv
    (hEnv : EnvUnbroken env) :
    MembersUnbroken (extractServerEnv env) := by
  unfold extractServerEnv
  apply membersUnbroken_append
  · repeat' apply membersUnbroken_append
    all_goals exact membersUnbroken_variable hEnv _ (by decide)
  · apply membersUnbroken_unlessEmpty
    exact membersUnbroken_extractTlsEnv hEnv

theorem membersUnbroken_extractStorageEnv
    (hEnv : EnvUnbroken env) :
    MembersUnbroken (extractStorageEnv env) := by
  unfold extractStorageEnv
  repeat' apply membersUnbroken_append
  all_goals exact membersUnbroken_variable hEnv _ (by decide)

theorem membersUnbroken_extractDatabaseEnv
    (hEnv : EnvUnbroken env) :
    MembersUnbroken (extractDatabaseEnv env) := by
  unfold extractDatabaseEnv
  repeat' apply membersUnbroken_append
  all_goals exact membersUnbroken_variable hEnv _ (by decide)

theorem membersUnbroken_extractAuthEnv
    (hEnv : EnvUnbroken env) :
    MembersUnbroken (extractAuthEnv env) := by
  unfold extractAuthEnv
  repeat' apply membersUnbroken_append
  all_goals exact membersUnbroken_variable hEnv _ (by decide)

theorem membersUnbroken_extractLoggingEnv
    (hEnv : EnvUnbroken env) :
    MembersUnbroken (extractLoggingEnv env) := by
  unfold extractLoggingEnv
  repeat' apply membersUnbroken_append
  all_goals exact membersUnbroken_variable hEnv _ (by decide)

theorem membersUnbroken_assignWithin
    {sectionName prop value : List Char}
    (hResult : MembersUnbroken result)
    (hValue : '\n' ∉ value)
    (hAssigned :
      assignWithin sectionName prop value result = .ok after) :
    MembersUnbroken after := by
  have hText : Unbroken (.string (units value)) := by
    intro hBreak
    exact hValue (mem_of_break_mem_units hBreak)
  unfold assignWithin at hAssigned
  split at hAssigned
  · split at hAssigned
    · cases hAssigned
    · cases hAssigned
      exact hResult
  · split at hAssigned
    · cases hAssigned
      exact hResult
    · split at hAssigned
      · cases hAssigned
        exact hResult
      · rename_i hSection _
        have hFound :=
          foundUnbroken_lookup hResult
            ⟨units sectionName, hSection⟩
        simp only at hAssigned
        split at hAssigned
        · cases hAssigned
          exact
            membersUnbroken_setMember hResult ⟨hText, trivial⟩
        · rename_i proto members hThere
          cases hAssigned
          apply membersUnbroken_setMember hResult
          exact
            membersUnbroken_setMember (hFound _ hThere) hText
        · cases hAssigned

theorem membersUnbroken_extractUnderscored
    {entry : List Char × List Char}
    (hEntry :
      entry.1 = "DELTIX_ENV_FILE".toList ∨ '\n' ∉ entry.2)
    (hResult : MembersUnbroken result)
    (hExtracted : extractUnderscored result entry = .ok after) :
    MembersUnbroken after := by
  unfold extractUnderscored at hExtracted
  split at hExtracted
  · rename_i hPrefix
    have hPlain : '\n' ∉ entry.2 := by
      rcases hEntry with hFile | hPlain
      · rw [hFile] at hPrefix
        exact absurd hPrefix (by decide)
      · exact hPlain
    split at hExtracted
    · split at hExtracted
      · cases hExtracted
        exact hResult
      · exact
          membersUnbroken_assignWithin hResult hPlain
            hExtracted
    · cases hExtracted
      exact hResult
  · cases hExtracted
    exact hResult

theorem membersUnbroken_underscored
    (hEnv : EnvUnbroken env)
    (hResult : MembersUnbroken result)
    (hExtracted :
      extractDoubleUnderscoreEnv env result = .ok after) :
    MembersUnbroken after := by
  unfold extractDoubleUnderscoreEnv at hExtracted
  induction env generalizing result with
  | nil =>
      cases hExtracted
      exact hResult
  | cons entry rest ih =>
      rw [List.foldlM_cons] at hExtracted
      cases hStep : extractUnderscored result entry with
      | error error =>
          rw [hStep] at hExtracted
          cases hExtracted
      | ok next =>
          rw [hStep] at hExtracted
          refine ih ?_ ?_ hExtracted
          · intro other hOther
            exact hEnv other (List.mem_cons_of_mem _ hOther)
          · exact
              membersUnbroken_extractUnderscored
                (hEnv entry List.mem_cons_self) hResult hStep

/- What is extracted has no line break. -/
theorem membersUnbroken_extractEnvConfig
    (hEnv : EnvUnbroken env)
    (hExtracted : extractEnvConfig env = .ok after) :
    MembersUnbroken after := by
  refine membersUnbroken_underscored hEnv ?_ hExtracted
  repeat' apply membersUnbroken_append
  · exact membersUnbroken_variable hEnv _ (by decide)
  · apply membersUnbroken_unlessEmpty
    exact membersUnbroken_extractServerEnv hEnv
  · apply membersUnbroken_unlessEmpty
    exact membersUnbroken_extractStorageEnv hEnv
  · apply membersUnbroken_unlessEmpty
    exact membersUnbroken_extractDatabaseEnv hEnv
  · apply membersUnbroken_unlessEmpty
    exact membersUnbroken_extractAuthEnv hEnv
  · apply membersUnbroken_unlessEmpty
    exact membersUnbroken_extractLoggingEnv hEnv

------------------------------------------------------------
-- What Is Loaded
------------------------------------------------------------

variable {found : Found}
variable {text : JsString} {rules : Coercions}
variable {config : AppConfig Int}

theorem textOr_unbroken
    {fallback : JsString}
    (hFallback : breakUnit ∉ fallback)
    (hFound : FoundUnbroken found)
    (hText : textOr fallback found = some text) :
    breakUnit ∉ text := by
  unfold textOr at hText
  split at hText
  · cases hText
    exact hFallback
  · cases hText
    exact hFallback
  · split at hText
    · cases hText
    · cases hText
      exact hFound _ rfl
  · cases hText

theorem optionalText_unbroken
    (hFound : FoundUnbroken found)
    (hText : optionalText found = some (some text)) :
    breakUnit ∉ text := by
  unfold optionalText at hText
  split at hText
  · cases hText
  · cases hText
  · split at hText
    · cases hText
    · cases hText
      exact hFound _ rfl
  · cases hText

theorem membersOf_unbroken
    (hFound : FoundUnbroken found)
    (hMembers : membersOf found = some members) :
    MembersUnbroken members := by
  unfold membersOf at hMembers
  split at hMembers
  · cases hMembers
    exact hFound _ rfl
  · cases hMembers

/- The texts of a configuration, but for the origins and the
   keys. -/
def loadedTexts (config : AppConfig Int) : List JsString :=
  [config.server.host] ++
    [config.storage.dataDir, config.storage.stagingRootPath,
      config.storage.doltReposRootPath,
      config.storage.nasSimPath] ++
    [config.database.userDbPath, config.database.repoDbPath,
      config.database.ticketDbPath,
      config.database.transferJobDbPath,
      config.database.addonTrustDbPath,
      config.database.sessionDbPath] ++
    config.auth.bootstrapAdminUsername.toList ++
    config.auth.bootstrapAdminPassword.toList ++
    config.server.tls.certPath.toList ++
    config.server.tls.keyPath.toList

theorem ParsedFrom.unbroken
    {Part : Type}
    {parse : Members Int → Option Part}
    {part : Part}
    (hParsed : ParsedFrom found parse part)
    (hFound : FoundUnbroken found) :
    ∃ members, MembersUnbroken members ∧
      parse members = some part := by
  rcases hParsed with ⟨members, hMembers, hPart⟩
  exact ⟨members, membersOf_unbroken hFound hMembers, hPart⟩

/- No text of a list has a line break. -/
def TextsUnbroken (texts : List JsString) : Prop :=
  ∀ text ∈ texts, breakUnit ∉ text

theorem textsUnbroken_parseStorage
    {storage : StorageConfig}
    (hMembers : MembersUnbroken members)
    (hParsed : parseStorage members = some storage) :
    TextsUnbroken
      [storage.dataDir, storage.stagingRootPath,
        storage.doltReposRootPath, storage.nasSimPath] := by
  rcases parseStorage_eq_some_iff.mp hParsed with
    ⟨hData, hStaging, hRepos, hNas⟩
  have hFound := foundUnbroken_lookup hMembers
  simp only [TextsUnbroken, List.forall_mem_cons]
  refine ⟨?_, ?_, ?_, ?_, ?_⟩
  · exact textOr_unbroken (by decide) (hFound _) hData
  · exact textOr_unbroken (by decide) (hFound _) hStaging
  · exact textOr_unbroken (by decide) (hFound _) hRepos
  · exact textOr_unbroken (by decide) (hFound _) hNas
  · intro text hText
    cases hText

theorem textsUnbroken_parseDatabase
    {database : DatabaseConfig}
    (hMembers : MembersUnbroken members)
    (hParsed : parseDatabase members = some database) :
    TextsUnbroken
      [database.userDbPath, database.repoDbPath,
        database.ticketDbPath, database.transferJobDbPath,
        database.addonTrustDbPath, database.sessionDbPath] := by
  rcases parseDatabase_eq_some_iff.mp hParsed with
    ⟨hUser, hRepo, hTicket, hJob, hTrust, hSession⟩
  have hFound := foundUnbroken_lookup hMembers
  simp only [TextsUnbroken, List.forall_mem_cons]
  refine ⟨?_, ?_, ?_, ?_, ?_, ?_, ?_⟩
  · exact textOr_unbroken (by decide) (hFound _) hUser
  · exact textOr_unbroken (by decide) (hFound _) hRepo
  · exact textOr_unbroken (by decide) (hFound _) hTicket
  · exact textOr_unbroken (by decide) (hFound _) hJob
  · exact textOr_unbroken (by decide) (hFound _) hTrust
  · exact textOr_unbroken (by decide) (hFound _) hSession
  · intro text hText
    cases hText

theorem textsUnbroken_optionalText
    {text : Option JsString}
    (hMembers : MembersUnbroken members)
    (hParsed : optionalText (members.lookup name) = some text) :
    TextsUnbroken text.toList := by
  intro other hOther
  rw [Option.mem_toList] at hOther
  rw [hOther] at hParsed
  exact
    optionalText_unbroken (foundUnbroken_lookup hMembers name)
      hParsed

theorem textsUnbroken_append
    {first second : List JsString}
    (hFirst : TextsUnbroken first)
    (hSecond : TextsUnbroken second) :
    TextsUnbroken (first ++ second) := by
  intro text hText
  rcases List.mem_append.mp hText with hHere | hThere
  · exact hFirst text hHere
  · exact hSecond text hThere

theorem membersUnbroken_default :
    MembersUnbroken DEFAULT_CONFIG.members := by
  simp only [AppConfig.members, DEFAULT_CONFIG,
    ServerConfig.members, TlsConfig.members,
    StorageConfig.members, DatabaseConfig.members,
    AuthConfig.members, LoggingConfig.members, optional,
    List.cons_append, List.nil_append, MembersUnbroken,
    Unbroken]
  decide

/- What `loadConfig` returns is parsed from members. -/
theorem parsed_of_loadConfig
    (hLoaded : loadConfig rules env = .ok config) :
    ∃ envConfig,
      extractEnvConfig env = .ok envConfig ∧
        safeParse rules
            (deepMerge DEFAULT_CONFIG.members envConfig) =
          some config := by
  unfold loadConfig at hLoaded
  cases hExtracted : extractEnvConfig env with
  | error error =>
      rw [hExtracted] at hLoaded
      cases hLoaded
  | ok envConfig =>
      rw [hExtracted] at hLoaded
      refine ⟨envConfig, rfl, ?_⟩
      simp only [bind, Except.bind] at hLoaded
      split at hLoaded
      · rename_i parsed hParsed
        cases hLoaded
        exact hParsed
      · cases hLoaded

/- A loaded configuration has no line break in its texts. -/
theorem loadedTexts_unbroken
    (hEnv : EnvUnbroken env)
    (hLoaded : loadConfig rules env = .ok config) :
    TextsUnbroken (loadedTexts config) := by
  rcases parsed_of_loadConfig hLoaded with
    ⟨envConfig, hExtracted, hParsed⟩
  have hMerged :
      MembersUnbroken
        (deepMerge DEFAULT_CONFIG.members envConfig) :=
    membersUnbroken_mergeMembers _ _ membersUnbroken_default
      (membersUnbroken_extractEnvConfig hEnv hExtracted)
  have hFound := foundUnbroken_lookup hMerged
  rcases safeParse_eq_some_iff.mp hParsed with
    ⟨_, hServer, hStorage, hDatabase, hAuth, _⟩
  rcases hServer.unbroken (hFound _) with
    ⟨server, hServerMembers, hServer⟩
  rcases hStorage.unbroken (hFound _) with
    ⟨storage, hStorageMembers, hStorage⟩
  rcases hDatabase.unbroken (hFound _) with
    ⟨database, hDatabaseMembers, hDatabase⟩
  rcases hAuth.unbroken (hFound _) with
    ⟨auth, hAuthMembers, hAuth⟩
  rcases parseServer_eq_some_iff.mp hServer with
    ⟨hHost, _, _, _, hTls⟩
  rcases hTls.unbroken
      (foundUnbroken_lookup hServerMembers _) with
    ⟨tls, hTlsMembers, hTls⟩
  rcases parseTls_eq_some_iff.mp hTls with
    ⟨_, hCert, hKey, _⟩
  rcases parseAuth_eq_some_iff.mp hAuth with
    ⟨_, _, _, _, _, _, _, _, hUsername, hPassword, _⟩
  have hHostText :
      TextsUnbroken [config.server.host] := by
    intro text hText
    rw [List.mem_singleton.mp hText]
    exact
      textOr_unbroken (by decide)
        (foundUnbroken_lookup hServerMembers _) hHost
  unfold loadedTexts
  repeat' apply textsUnbroken_append
  · exact hHostText
  · exact textsUnbroken_parseStorage hStorageMembers hStorage
  · exact
      textsUnbroken_parseDatabase hDatabaseMembers hDatabase
  · exact textsUnbroken_optionalText hAuthMembers hUsername
  · exact textsUnbroken_optionalText hAuthMembers hPassword
  · exact textsUnbroken_optionalText hTlsMembers hCert
  · exact textsUnbroken_optionalText hTlsMembers hKey

variable {line : List Char}

theorem mem_of_mem_unquote
    {mark c : Char}
    {text : List Char}
    (hMember : c ∈ unquote mark text) :
    c ∈ text := by
  cases text with
  | nil => exact hMember
  | cons first rest =>
      rw [unquote] at hMember
      split at hMember
      · exact
          List.mem_cons_of_mem _
            (List.dropLast_subset _ hMember)
      · exact hMember

theorem envUnbroken_loadLine
    (hEnv : EnvUnbroken env)
    (hLine : '\n' ∉ line) :
    EnvUnbroken (loadLine env line) := by
  unfold loadLine
  simp only
  split
  · exact hEnv
  · split
    · exact hEnv
    · split
      · exact hEnv
      · intro entry hEntry
        rcases List.mem_append.mp hEntry with hOld | hNew
        · exact hEnv entry hOld
        · right
          rw [List.mem_singleton.mp hNew]
          intro hBreak
          have hInner :=
            mem_of_mem_unquote (mem_of_mem_unquote hBreak)
          have hValue := mem_of_mem_trimBy hInner
          have hTrimmed := List.mem_of_mem_drop hValue
          exact hLine (mem_of_mem_trimBy hTrimmed)

/- A file sets no variable to a text with a line break. -/
theorem envUnbroken_load
    (files : Files)
    (hEnv : EnvUnbroken env) :
    EnvUnbroken (loadProductionEnvFileInto files env) := by
  have hLines (lines : List (List Char))
      (hLines : ∀ line ∈ lines, '\n' ∉ line) :
      ∀ env, EnvUnbroken env →
        EnvUnbroken (lines.foldl loadLine env) := by
    induction lines with
    | nil =>
        intro env hEnv
        exact hEnv
    | cons line rest ih =>
        intro env hEnv
        rw [List.foldl_cons]
        apply ih
        · intro other hOther
          exact hLines other (List.mem_cons_of_mem _ hOther)
        · exact
            envUnbroken_loadLine hEnv
              (hLines line List.mem_cons_self)
  unfold loadProductionEnvFileInto
  simp only
  split
  · exact hEnv
  · exact hEnv
  · apply hLines
    · intro line hLine
      exact not_mem_of_mem_split hLine
    · exact hEnv

end Config
