import Deltix.Config.ExportMembers

/-
  The round trip of a configuration: exported to a file, and
  loaded from there.

  The export leaves out the keys, the origins and the wish
  for a generated certificate, and the file is read without
  regard to what its texts hold.

  Key definitions include:
    * `ValidConfig`
    * `loadExported`
    * `Carries`
    * `Portable`

  Key theorems include:
    * `parseServer_exported_iff`
    * `parseAuth_exported_iff`
    * `safeParse_exported_iff`
    * `loadExported_iff`
    * `roundTrips_iff`
-/

------------------------------------------------------------
-- Valid Configurations
------------------------------------------------------------

namespace Config

open Text

variable {rules : Coercions} {found : Found}
variable {fallback text value : JsString} {low n : Int}
variable {high : Option Int} {c : Char}

/- The schema gives the configuration for some object. -/
def ValidConfig
    (rules : Coercions)
    (config : AppConfig Int) : Prop :=
  ∃ merged, safeParse rules merged = some config

theorem textOr_ne_nil
    (hFallback : fallback ≠ [])
    (hText : textOr fallback found = some text) :
    text ≠ [] := by
  unfold textOr at hText
  split at hText
  · cases hText
    exact hFallback
  · cases hText
    exact hFallback
  · split at hText
    · cases hText
    · rename_i hSome
      cases hText
      exact hSome
  · cases hText

theorem optionalText_ne_nil
    (hText : optionalText found = some (some text)) :
    text ≠ [] := by
  unfold optionalText at hText
  split at hText
  · cases hText
  · cases hText
  · split at hText
    · cases hText
    · rename_i hSome
      cases hText
      exact hSome
  · cases hText

/- A number that the schema lets pass. -/
structure InBounds
    (low : Int)
    (high : Option Int)
    (n : Int) : Prop where
  safe : n.natAbs ≤ maxSafeInteger
  above : low ≤ n
  below : high.all (n ≤ ·) = true

theorem integerOr_inBounds
    {fallback : Int}
    (hFallback : InBounds low high fallback)
    (hNumber : integerOr rules fallback low high found = some n) :
    InBounds low high n := by
  unfold integerOr at hNumber
  split at hNumber
  · cases hNumber
    exact hFallback
  · cases hNumber
    exact hFallback
  · rw [Option.filter_eq_some_iff] at hNumber
    have hAll := hNumber.2
    simp only [Bool.and_eq_true, decide_eq_true_eq] at hAll
    exact ⟨hAll.1.1, hAll.1.2, hAll.2⟩

/- What the schema asks of a configuration. -/
structure Admitted (config : AppConfig Int) : Prop where
  texts : ∀ text ∈ loadedTexts config, text ≠ []
  port : InBounds 1 (some 65535) config.server.port
  grpcPort : InBounds 1 (some 65535) config.server.grpcPort
  session : InBounds 1 none config.auth.sessionTtlSeconds
  access : InBounds 1 none config.auth.accessTokenTtlSeconds
  refined : Bootstrap.superRefine config.auth = none

theorem ValidConfig.admitted
    {config : AppConfig Int}
    (hValid : ValidConfig rules config) :
    Admitted config := by
  rcases hValid with ⟨merged, hParsed⟩
  rcases safeParse_eq_some_iff.mp hParsed with
    ⟨_, ⟨_, _, hServer⟩, ⟨_, _, hStorage⟩, ⟨_, _, hDatabase⟩,
      ⟨_, _, hAuth⟩, _⟩
  rcases parseServer_eq_some_iff.mp hServer with
    ⟨hHost, hPort, hGrpc, _, ⟨_, _, hTls⟩⟩
  rcases parseTls_eq_some_iff.mp hTls with
    ⟨_, hCert, hKey, _⟩
  rcases parseStorage_eq_some_iff.mp hStorage with
    ⟨hData, hStaging, hRepos, hNas⟩
  rcases parseDatabase_eq_some_iff.mp hDatabase with
    ⟨hUser, hRepo, hTicket, hJob, hTrust, hSessions⟩
  rcases parseAuth_eq_some_iff.mp hAuth with
    ⟨_, _, _, _, hSession, hAccess, _, _, hUsername,
      hPassword, hRefined⟩
  have hOptional
      {text : Option JsString}
      {found : Found}
      (hText : optionalText found = some text)
      (other : JsString)
      (hOther : text = some other) :
      other ≠ [] := by
    rw [hOther] at hText
    exact optionalText_ne_nil hText
  refine ⟨?_, ?_, ?_, ?_, ?_, hRefined⟩
  · simp only [loadedTexts, List.mem_append, List.mem_cons,
      List.not_mem_nil, or_false, Option.mem_toList]
    rintro text
      ((((((hSame | hStore) | hBase) | hSame) | hSame) |
        hSame) | hSame)
    · rw [hSame]
      exact textOr_ne_nil (by decide) hHost
    · rcases hStore with hSame | hSame | hSame | hSame
      · rw [hSame]
        exact textOr_ne_nil (by decide) hData
      · rw [hSame]
        exact textOr_ne_nil (by decide) hStaging
      · rw [hSame]
        exact textOr_ne_nil (by decide) hRepos
      · rw [hSame]
        exact textOr_ne_nil (by decide) hNas
    · rcases hBase with
        hSame | hSame | hSame | hSame | hSame | hSame
      · rw [hSame]
        exact textOr_ne_nil (by decide) hUser
      · rw [hSame]
        exact textOr_ne_nil (by decide) hRepo
      · rw [hSame]
        exact textOr_ne_nil (by decide) hTicket
      · rw [hSame]
        exact textOr_ne_nil (by decide) hJob
      · rw [hSame]
        exact textOr_ne_nil (by decide) hTrust
      · rw [hSame]
        exact textOr_ne_nil (by decide) hSessions
    · exact hOptional hUsername text hSame
    · exact hOptional hPassword text hSame
    · exact hOptional hCert text hSame
    · exact hOptional hKey text hSame
  · exact integerOr_inBounds ⟨by decide, by decide, by decide⟩ hPort
  · exact integerOr_inBounds ⟨by decide, by decide, by decide⟩ hGrpc
  · exact
      integerOr_inBounds ⟨by decide, by decide, by decide⟩
        hSession
  · exact
      integerOr_inBounds ⟨by decide, by decide, by decide⟩
        hAccess

------------------------------------------------------------
-- Values That Are Read Back
------------------------------------------------------------

/- A text of characters with nothing around it. -/
theorem readBack_eq_self_iff (text : JsString) :
    readBack text = text ↔
      ∃ chars, text = units chars ∧ IsBare chars := by
  unfold readBack
  constructor
  · intro hSame
    refine ⟨bare (textOf text), hSame.symm, ?_⟩
    rw [← bare_eq_self_iff]
    have hText := congrArg textOf hSame
    rw [textOf_units] at hText
    exact congrArg bare hText
  · rintro ⟨chars, hText, hBare⟩
    rw [hText, textOf_units, (bare_eq_self_iff chars).mpr hBare]

theorem textOr_string_iff
    (hText : text ≠ []) :
    textOr fallback (some (.string value)) = some text ↔
      value = text := by
  rw [textOr]
  constructor
  · intro hSome
    split at hSome
    · cases hSome
    · exact Option.some.inj hSome
  · intro hSame
    rw [hSame, if_neg hText]

theorem optionalText_string_iff
    (hText : text ≠ []) :
    optionalText (some (.string value)) = some (some text) ↔
      value = text := by
  rw [optionalText]
  constructor
  · intro hSome
    split at hSome
    · cases hSome
    · exact Option.some.inj (Option.some.inj hSome)
  · intro hSame
    rw [hSame, if_neg hText]

theorem numberText_eq
    (hNat : 0 ≤ n) :
    numberText n = Nat.toDigits 10 n.toNat := by
  rcases Int.eq_ofNat_of_zero_le hNat with ⟨m, rfl⟩
  have hText : toString (m : Int) = toString m := rfl
  unfold numberText
  rw [hText, Nat.toString_eq_ofList_toDigits,
    String.toList_ofList]
  rfl

theorem isDigit_of_mem_numberText
    (hNat : 0 ≤ n)
    (hMember : c ∈ numberText n) :
    c.isDigit = true := by
  rw [numberText_eq hNat] at hMember
  exact
    Nat.isDigit_of_mem_toDigits (by decide) (by decide) hMember

theorem isBlank_of_isDigit
    (hDigit : c.isDigit = true) :
    isBlank c = false := by
  have hCode := code_of_isDigit hDigit
  exact isSpaceCode_of_between (by omega) (by omega)

/- There is nothing to take from around digits. -/
theorem isBare_of_digits
    {text : List Char}
    (hDigits : ∀ c ∈ text, c.isDigit = true) :
    IsBare text := by
  constructor
  · intro first hFirst
    exact
      isBlank_of_isDigit
        (hDigits first (List.mem_of_mem_head? hFirst))
  · intro last hLast
    exact
      isBlank_of_isDigit
        (hDigits last (List.mem_of_getLast? hLast))
  · rintro ⟨inner, hText⟩
    have hQuote := hDigits '"' (by rw [hText]; simp)
    exact absurd hQuote (by decide)
  · rintro ⟨inner, hText⟩
    have hQuote := hDigits '\'' (by rw [hText]; simp)
    exact absurd hQuote (by decide)

theorem digitsNumber?_numberText
    (hNat : 0 ≤ n) :
    digitsNumber? (units (numberText n)) = some n.toNat := by
  unfold digitsNumber?
  rw [charsOf?_units]
  simp only
  rw [if_pos]
  · rw [numberText_eq hNat,
      Nat.ofDigitChars_toDigits (by decide) (by decide)]
  · rw [Bool.and_eq_true, Bool.not_eq_true',
      List.isEmpty_eq_false_iff, List.all_eq_true]
    constructor
    · rw [numberText_eq hNat]
      exact Nat.toDigits_ne_nil
    · intro c hMember
      exact isDigit_of_mem_numberText hNat hMember

/- A number that is written comes back. -/
theorem integerOr_readBack
    {fallback : Int}
    (hLow : 0 ≤ low)
    (hBounds : InBounds low high n) :
    integerOr rules fallback low high
        (some (.string (readBack (units (numberText n))))) =
      some n := by
  have hAbove := hBounds.above
  have hNat : 0 ≤ n := by omega
  have hSame :
      readBack (units (numberText n)) =
        units (numberText n) := by
    rw [readBack_eq_self_iff]
    refine ⟨numberText n, rfl, isBare_of_digits ?_⟩
    intro c hMember
    exact isDigit_of_mem_numberText hNat hMember
  have hCoerced :
      coerceNumber rules
          (.string (readBack (units (numberText n)))) =
        some n := by
    rw [hSame, coerceNumber]
    unfold numberOfText
    rw [digitsNumber?_numberText hNat]
    simp only
    rw [Int.toNat_of_nonneg hNat]
  rw [integerOr, hCoerced]
  · simp [Option.filter, hBounds.safe, hBounds.above,
      hBounds.below]
  · intro hNever
    cases hNever

theorem booleanCoerce_readBack (value : Bool) :
    booleanCoerce (some (.string (readBack (boolText value)))) =
      some value := by
  cases value with
  | true => rfl
  | false => rfl

theorem environmentOf_readBack (environment : Environment) :
    environmentOf
        (some (.string (readBack environment.text))) =
      some environment := by
  cases environment with
  | development => rfl
  | production => rfl
  | test => rfl

theorem levelOf_readBack (level : LogLevel) :
    levelOf (some (.string (readBack level.text))) =
      some level := by
  cases level with
  | trace => rfl
  | debug => rfl
  | info => rfl
  | warn => rfl
  | error => rfl
  | fatal => rfl
  | silent => rfl

------------------------------------------------------------
-- The Sections Of An Export
------------------------------------------------------------

/- Texts that are read back as they were. -/
def KeepsTexts (texts : List JsString) : Prop :=
  ∀ text ∈ texts, readBack text = text

theorem parseStorage_exported_iff
    (storage : StorageConfig)
    (hTexts :
      ∀ text ∈
        [storage.dataDir, storage.stagingRootPath,
          storage.doltReposRootPath, storage.nasSimPath],
        text ≠ []) :
    parseStorage
          (mergeMembers DEFAULT_CONFIG.storage.members
            (storageMembers storage)) =
        some storage ↔
      KeepsTexts
        [storage.dataDir, storage.stagingRootPath,
          storage.doltReposRootPath, storage.nasSimPath] := by
  simp only [List.forall_mem_cons] at hTexts
  rcases hTexts with ⟨hData, hStaging, hRepos, hNas, _⟩
  have hMerged :
      mergeMembers DEFAULT_CONFIG.storage.members
          (storageMembers storage) =
        storageMembers storage := rfl
  have hLookups :
      (storageMembers storage).lookup (named "dataDir") =
          some (.string (readBack storage.dataDir)) ∧
        (storageMembers storage).lookup
            (named "stagingRootPath") =
          some (.string (readBack storage.stagingRootPath)) ∧
        (storageMembers storage).lookup
            (named "doltReposRootPath") =
          some (.string (readBack storage.doltReposRootPath)) ∧
        (storageMembers storage).lookup (named "nasSimPath") =
          some (.string (readBack storage.nasSimPath)) :=
    ⟨rfl, rfl, rfl, rfl⟩
  rcases hLookups with ⟨hFirst, hSecond, hThird, hFourth⟩
  rw [hMerged, parseStorage_eq_some_iff, hFirst, hSecond,
    hThird, hFourth, textOr_string_iff hData,
    textOr_string_iff hStaging, textOr_string_iff hRepos,
    textOr_string_iff hNas]
  simp [KeepsTexts]

theorem parseDatabase_exported_iff
    (database : DatabaseConfig)
    (hTexts :
      ∀ text ∈
        [database.userDbPath, database.repoDbPath,
          database.ticketDbPath, database.transferJobDbPath,
          database.addonTrustDbPath, database.sessionDbPath],
        text ≠ []) :
    parseDatabase
          (mergeMembers DEFAULT_CONFIG.database.members
            (databaseMembers database)) =
        some database ↔
      KeepsTexts
        [database.userDbPath, database.repoDbPath,
          database.ticketDbPath, database.transferJobDbPath,
          database.addonTrustDbPath,
          database.sessionDbPath] := by
  simp only [List.forall_mem_cons] at hTexts
  rcases hTexts with
    ⟨hUser, hRepo, hTicket, hJob, hTrust, hSession, _⟩
  have hMerged :
      mergeMembers DEFAULT_CONFIG.database.members
          (databaseMembers database) =
        databaseMembers database := rfl
  have hLookups :
      (databaseMembers database).lookup (named "userDbPath") =
          some (.string (readBack database.userDbPath)) ∧
        (databaseMembers database).lookup (named "repoDbPath") =
          some (.string (readBack database.repoDbPath)) ∧
        (databaseMembers database).lookup
            (named "ticketDbPath") =
          some (.string (readBack database.ticketDbPath)) ∧
        (databaseMembers database).lookup
            (named "transferJobDbPath") =
          some
            (.string (readBack database.transferJobDbPath)) ∧
        (databaseMembers database).lookup
            (named "addonTrustDbPath") =
          some (.string (readBack database.addonTrustDbPath)) ∧
        (databaseMembers database).lookup
            (named "sessionDbPath") =
          some (.string (readBack database.sessionDbPath)) :=
    ⟨rfl, rfl, rfl, rfl, rfl, rfl⟩
  rcases hLookups with
    ⟨hFirst, hSecond, hThird, hFourth, hFifth, hSixth⟩
  rw [hMerged, parseDatabase_eq_some_iff, hFirst, hSecond,
    hThird, hFourth, hFifth, hSixth, textOr_string_iff hUser,
    textOr_string_iff hRepo, textOr_string_iff hTicket,
    textOr_string_iff hJob, textOr_string_iff hTrust,
    textOr_string_iff hSession]
  simp [KeepsTexts]

theorem parseLogging_exported (logging : LoggingConfig) :
    parseLogging
        (mergeMembers DEFAULT_CONFIG.logging.members
          (loggingMembers logging)) =
      some logging := by
  have hMerged :
      mergeMembers DEFAULT_CONFIG.logging.members
          (loggingMembers logging) =
        loggingMembers logging := rfl
  have hLevel :
      (loggingMembers logging).lookup (named "level") =
        some (.string (readBack logging.level.text)) := rfl
  have hPretty :
      (loggingMembers logging).lookup (named "pretty") =
        some (.string (readBack (boolText logging.pretty))) :=
    rfl
  rw [hMerged, parseLogging_eq_some_iff, hLevel, hPretty]
  exact
    ⟨levelOf_readBack logging.level,
      booleanCoerce_readBack logging.pretty⟩

/- What a TLS configuration has to be to come back. -/
structure TlsKept (tls : TlsConfig) : Prop where
  texts :
    tls.enabled = true →
      KeepsTexts (tls.certPath.toList ++ tls.keyPath.toList)
  noPaths :
    tls.enabled = false →
      tls.certPath = none ∧ tls.keyPath = none
  noGenerate : tls.autoGenerate = false

theorem optionalText_exported_iff
    {text : Option JsString}
    (hText : text ≠ some [])
    (hFound :
      found = (text.map readBack).map ConfigValue.string) :
    optionalText found = some text ↔
      KeepsTexts text.toList := by
  rw [hFound]
  cases text with
  | none =>
      constructor
      · intro _ text hMember
        cases hMember
      · intro _
        rfl
  | some text =>
      have hSome : text ≠ [] := by
        intro hNil
        rw [hNil] at hText
        exact hText rfl
      rw [Option.map_some, Option.map_some,
        optionalText_string_iff hSome]
      simp [KeepsTexts]

/- What is found of a TLS configuration after merging. -/
theorem lookup_merged_tls
    (certPath keyPath : Option JsString)
    (autoGenerate : Bool) :
    let merged :=
      mergeMembers DEFAULT_CONFIG.server.tls.members
        (tlsMembers ⟨true, certPath, keyPath, autoGenerate⟩)
    merged.lookup (named "enabled") =
        some (.string (js "true")) ∧
      merged.lookup (named "certPath") =
        (certPath.map readBack).map ConfigValue.string ∧
      merged.lookup (named "keyPath") =
        (keyPath.map readBack).map ConfigValue.string ∧
      merged.lookup (named "autoGenerate") =
        some (.bool false) := by
  cases certPath with
  | none =>
      cases keyPath with
      | none => exact ⟨rfl, rfl, rfl, rfl⟩
      | some keyPath => exact ⟨rfl, rfl, rfl, rfl⟩
  | some certPath =>
      cases keyPath with
      | none => exact ⟨rfl, rfl, rfl, rfl⟩
      | some keyPath => exact ⟨rfl, rfl, rfl, rfl⟩

theorem keepsTexts_append_iff
    {first second : List JsString} :
    KeepsTexts (first ++ second) ↔
      KeepsTexts first ∧ KeepsTexts second := by
  unfold KeepsTexts
  simp only [List.forall_mem_append]

theorem parseTls_exported_iff
    {tls : TlsConfig}
    (hCert : tls.certPath ≠ some [])
    (hKey : tls.keyPath ≠ some []) :
    parseTls
          (mergeMembers DEFAULT_CONFIG.server.tls.members
            (tlsMembers tls)) =
        some tls ↔
      TlsKept tls := by
  rcases tls with ⟨enabled, certPath, keyPath, autoGenerate⟩
  rw [parseTls_eq_some_iff]
  cases enabled with
  | false =>
      have hMerged :
          mergeMembers DEFAULT_CONFIG.server.tls.members
              (tlsMembers
                ⟨false, certPath, keyPath, autoGenerate⟩) =
            DEFAULT_CONFIG.server.tls.members := rfl
      rw [hMerged]
      constructor
      · rintro ⟨_, hCertNone, hKeyNone, hGenerate⟩
        have hNoCert : none = certPath :=
          Option.some.inj hCertNone
        have hNoKey : none = keyPath :=
          Option.some.inj hKeyNone
        have hNot : false = autoGenerate :=
          Option.some.inj hGenerate
        refine ⟨?_, ?_, hNot.symm⟩
        · intro hNever
          cases hNever
        · intro _
          exact ⟨hNoCert.symm, hNoKey.symm⟩
      · rintro ⟨_, hNone, hGenerate⟩
        have hBoth : certPath = none ∧ keyPath = none :=
          hNone rfl
        have hNot : autoGenerate = false := hGenerate
        rw [hBoth.1, hBoth.2, hNot]
        exact ⟨rfl, rfl, rfl, rfl⟩
  | true =>
      rcases lookup_merged_tls certPath keyPath autoGenerate with
        ⟨hEnabledText, hCertText, hKeyText, hGenerateText⟩
      rw [hEnabledText,
        optionalText_exported_iff hCert hCertText,
        optionalText_exported_iff hKey hKeyText, hGenerateText]
      constructor
      · rintro ⟨_, hCertKept, hKeyKept, hGenerate⟩
        have hNot : false = autoGenerate :=
          Option.some.inj hGenerate
        refine ⟨?_, ?_, hNot.symm⟩
        · intro _
          exact keepsTexts_append_iff.mpr ⟨hCertKept, hKeyKept⟩
        · intro hNever
          cases hNever
      · rintro ⟨hTexts, _, hGenerate⟩
        have hBoth := keepsTexts_append_iff.mp (hTexts rfl)
        have hNot : autoGenerate = false := hGenerate
        rw [hNot]
        exact ⟨rfl, hBoth.1, hBoth.2, rfl⟩

/- A server comes back if its host and its TLS do. -/
theorem parseServer_exported_iff
    (rules : Coercions)
    {server : ServerConfig Int}
    (hHost : server.host ≠ [])
    (hPort : InBounds 1 (some 65535) server.port)
    (hGrpc : InBounds 1 (some 65535) server.grpcPort)
    (hCert : server.tls.certPath ≠ some [])
    (hKey : server.tls.keyPath ≠ some []) :
    parseServer rules
          (mergeMembers DEFAULT_CONFIG.server.members
            (serverMembers server)) =
        some server ↔
      readBack server.host = server.host ∧
        TlsKept server.tls := by
  have hLookups :
      let merged :=
        mergeMembers DEFAULT_CONFIG.server.members
          (serverMembers server)
      merged.lookup (named "host") =
          some (.string (readBack server.host)) ∧
        merged.lookup (named "port") =
          some
            (.string
              (readBack (units (numberText server.port)))) ∧
        merged.lookup (named "grpcPort") =
          some
            (.string
              (readBack
                (units (numberText server.grpcPort)))) ∧
        merged.lookup (named "dynamicPort") =
          some
            (.string (readBack (boolText server.dynamicPort))) ∧
        merged.lookup (named "tls") =
          some
            (.object none
              (mergeMembers DEFAULT_CONFIG.server.tls.members
                (tlsMembers server.tls))) := by
    rcases server with ⟨host, port, grpcPort, dynamicPort, tls⟩
    rcases tls with ⟨enabled, certPath, keyPath, autoGenerate⟩
    cases enabled with
    | false => exact ⟨rfl, rfl, rfl, rfl, rfl⟩
    | true => exact ⟨rfl, rfl, rfl, rfl, rfl⟩
  rcases hLookups with
    ⟨hHostText, hPortText, hGrpcText, hDynamic, hTls⟩
  have hNat : (0 : Int) ≤ 1 := by decide
  rw [parseServer_eq_some_iff, hHostText, hPortText, hGrpcText,
    hDynamic, hTls, textOr_string_iff hHost]
  unfold portOr
  rw [integerOr_readBack hNat hPort,
    integerOr_readBack hNat hGrpc, booleanCoerce_readBack,
    ← parseTls_exported_iff hCert hKey]
  constructor
  · rintro ⟨hKept, _, _, _, ⟨members, hMembers, hParsed⟩⟩
    cases hMembers
    exact ⟨hKept, hParsed⟩
  · rintro ⟨hKept, hParsed⟩
    exact ⟨hKept, rfl, rfl, rfl, _, rfl, hParsed⟩

/- What the authentication has to be to come back. -/
structure AuthKept (auth : AuthConfig Int) : Prop where
  texts :
    KeepsTexts
      (auth.bootstrapAdminUsername.toList ++
        auth.bootstrapAdminPassword.toList)
  noPrivateKey : auth.jwtPrivateKey = none
  noPublicKey : auth.jwtPublicKey = none
  noPrivateKeyPath : auth.jwtPrivateKeyPath = none
  noPublicKeyPath : auth.jwtPublicKeyPath = none
  noOrigins : auth.corsAllowedOrigins = []

/- What is found of the authentication after merging. -/
theorem lookup_merged_auth (auth : AuthConfig Int) :
    let merged :=
      mergeMembers DEFAULT_CONFIG.auth.members
        (authMembers auth)
    (merged.lookup (named "jwtPrivateKey") = none ∧
        merged.lookup (named "jwtPublicKey") = none ∧
        merged.lookup (named "jwtPrivateKeyPath") = none ∧
        merged.lookup (named "jwtPublicKeyPath") = none ∧
        merged.lookup (named "corsAllowedOrigins") =
          some (.array [])) ∧
      merged.lookup (named "sessionTtlSeconds") =
        some
          (.string
            (readBack
              (units (numberText auth.sessionTtlSeconds)))) ∧
      merged.lookup (named "accessTokenTtlSeconds") =
        some
          (.string
            (readBack
              (units
                (numberText auth.accessTokenTtlSeconds)))) ∧
      merged.lookup (named "adminUiEnabled") =
        some
          (.string (readBack (boolText auth.adminUiEnabled))) ∧
      merged.lookup (named "bootstrapAdminUsername") =
        (auth.bootstrapAdminUsername.map readBack).map
          ConfigValue.string ∧
      merged.lookup (named "bootstrapAdminPassword") =
        (auth.bootstrapAdminPassword.map readBack).map
          ConfigValue.string := by
  rcases auth with
    ⟨_, _, _, _, session, access, _, adminUi, username,
      password⟩
  cases username with
  | none =>
      cases password with
      | none =>
          exact ⟨⟨rfl, rfl, rfl, rfl, rfl⟩, rfl, rfl, rfl, rfl, rfl⟩
      | some password =>
          exact ⟨⟨rfl, rfl, rfl, rfl, rfl⟩, rfl, rfl, rfl, rfl, rfl⟩
  | some username =>
      cases password with
      | none =>
          exact ⟨⟨rfl, rfl, rfl, rfl, rfl⟩, rfl, rfl, rfl, rfl, rfl⟩
      | some password =>
          exact ⟨⟨rfl, rfl, rfl, rfl, rfl⟩, rfl, rfl, rfl, rfl, rfl⟩

/- The authentication comes back without keys and origins. -/
theorem parseAuth_exported_iff
    (rules : Coercions)
    {auth : AuthConfig Int}
    (hSession : InBounds 1 none auth.sessionTtlSeconds)
    (hAccess : InBounds 1 none auth.accessTokenTtlSeconds)
    (hUsername : auth.bootstrapAdminUsername ≠ some [])
    (hPassword : auth.bootstrapAdminPassword ≠ some [])
    (hRefined : Bootstrap.superRefine auth = none) :
    parseAuth rules
          (mergeMembers DEFAULT_CONFIG.auth.members
            (authMembers auth)) =
        some auth ↔
      AuthKept auth := by
  rcases lookup_merged_auth auth with
    ⟨⟨hPrivate, hPublic, hPrivatePath, hPublicPath, hOrigins⟩,
      hSessionText, hAccessText, hAdminUi, hNameText,
      hPassText⟩
  have hNat : (0 : Int) ≤ 1 := by decide
  rw [parseAuth_eq_some_iff, hPrivate, hPublic, hPrivatePath,
    hPublicPath, hOrigins, hSessionText, hAccessText, hAdminUi,
    optionalText_exported_iff hUsername hNameText,
    optionalText_exported_iff hPassword hPassText]
  unfold positiveOr
  rw [integerOr_readBack hNat hSession,
    integerOr_readBack hNat hAccess, booleanCoerce_readBack]
  constructor
  · rintro
      ⟨hNoPrivate, hNoPublic, hNoPrivatePath, hNoPublicPath, _,
        _, hNoOrigins, _, hName, hPass, _⟩
    refine ⟨?_, ?_, ?_, ?_, ?_, ?_⟩
    · exact keepsTexts_append_iff.mpr ⟨hName, hPass⟩
    · exact (Option.some.inj hNoPrivate).symm
    · exact (Option.some.inj hNoPublic).symm
    · exact (Option.some.inj hNoPrivatePath).symm
    · exact (Option.some.inj hNoPublicPath).symm
    · exact (Option.some.inj hNoOrigins).symm
  · rintro
      ⟨hTexts, hNoPrivate, hNoPublic, hNoPrivatePath,
        hNoPublicPath, hNoOrigins⟩
    rcases keepsTexts_append_iff.mp hTexts with ⟨hName, hPass⟩
    rw [hNoPrivate, hNoPublic, hNoPrivatePath, hNoPublicPath,
      hNoOrigins]
    exact
      ⟨rfl, rfl, rfl, rfl, rfl, rfl, rfl, rfl, hName, hPass,
        hRefined⟩

------------------------------------------------------------
-- The Round Trip
------------------------------------------------------------

variable {config : AppConfig Int} {path : List Char}
variable {exportedAt : JsString}

/- What is loaded from the file that an export was written
   to, in an environment that only names the file. -/
def loadExported
    (rules : Coercions)
    (exportedAt : JsString)
    (path : List Char)
    (config : AppConfig Int) :
    Except LoadError (AppConfig Int) :=
  loadConfig rules
    (loadProductionEnvFileInto
      (exportFiles config path exportedAt) (namedEnv path))

/- The texts that an export writes. -/
def exportedTexts (config : AppConfig Int) : List JsString :=
  [config.server.host] ++
    [config.storage.dataDir, config.storage.stagingRootPath,
      config.storage.doltReposRootPath,
      config.storage.nasSimPath] ++
    [config.database.userDbPath, config.database.repoDbPath,
      config.database.ticketDbPath,
      config.database.transferJobDbPath,
      config.database.addonTrustDbPath,
      config.database.sessionDbPath] ++
    config.auth.bootstrapAdminUsername.toList ++
    config.auth.bootstrapAdminPassword.toList ++
    if config.server.tls.enabled then
      config.server.tls.certPath.toList ++
        config.server.tls.keyPath.toList
    else []

/- A text of characters, without a line break, and with
   nothing around it that is taken away. -/
def Carries (text : JsString) : Prop :=
  ∃ chars, text = units chars ∧ '\n' ∉ chars ∧ IsBare chars

/- What is left out of the export is not set, and the file
   carries what is written. -/
structure Portable (config : AppConfig Int) : Prop where
  texts : ∀ text ∈ exportedTexts config, Carries text
  noPrivateKey : config.auth.jwtPrivateKey = none
  noPublicKey : config.auth.jwtPublicKey = none
  noPrivateKeyPath : config.auth.jwtPrivateKeyPath = none
  noPublicKeyPath : config.auth.jwtPublicKeyPath = none
  noOrigins : config.auth.corsAllowedOrigins = []
  noGenerate : config.server.tls.autoGenerate = false
  noPaths :
    config.server.tls.enabled = false →
      config.server.tls.certPath = none ∧
        config.server.tls.keyPath = none

theorem carries_iff (text : JsString) :
    Carries text ↔ OneLine text ∧ readBack text = text := by
  rw [readBack_eq_self_iff]
  constructor
  · rintro ⟨chars, hText, hPlain, hBare⟩
    refine ⟨?_, chars, hText, hBare⟩
    rw [hText]
    intro hBreak
    exact hPlain (mem_of_break_mem_units hBreak)
  · rintro ⟨hLine, chars, hText, hBare⟩
    refine ⟨chars, hText, ?_, hBare⟩
    intro hBreak
    rw [hText] at hLine
    apply hLine
    apply break_mem_of_mem_textOf
    rw [textOf_units]
    exact hBreak

instance (text : JsString) : Decidable (Carries text) :=
  decidable_of_iff _ (carries_iff text).symm

/- The sections of a configuration that come back. -/
structure Kept (config : AppConfig Int) : Prop where
  host : readBack config.server.host = config.server.host
  tls : TlsKept config.server.tls
  storage :
    KeepsTexts
      [config.storage.dataDir, config.storage.stagingRootPath,
        config.storage.doltReposRootPath,
        config.storage.nasSimPath]
  database :
    KeepsTexts
      [config.database.userDbPath, config.database.repoDbPath,
        config.database.ticketDbPath,
        config.database.transferJobDbPath,
        config.database.addonTrustDbPath,
        config.database.sessionDbPath]
  auth : AuthKept config.auth

theorem oneLine_number
    {n low : Int}
    {high : Option Int}
    (hLow : 0 ≤ low)
    (hBounds : InBounds low high n) :
    OneLine (units (numberText n)) := by
  have hAbove := hBounds.above
  intro hBreak
  have hMember := mem_of_break_mem_units hBreak
  have hDigit :=
    isDigit_of_mem_numberText (by omega) hMember
  exact absurd hDigit (by decide)

theorem oneLine_environment (environment : Environment) :
    OneLine environment.text := by
  cases environment with
  | development => decide
  | production => decide
  | test => decide

theorem oneLine_level (level : LogLevel) :
    OneLine level.text := by
  cases level with
  | trace => decide
  | debug => decide
  | info => decide
  | warn => decide
  | error => decide
  | fatal => decide
  | silent => decide

theorem oneLine_bool (value : Bool) :
    OneLine (boolText value) := by
  cases value with
  | true => decide
  | false => decide

theorem oneLine_baseEntries
    (hAdmitted : Admitted config)
    (hLines : TextsUnbroken (exportedTexts config)) :
    ∀ entry ∈ baseEntries config, OneLine entry.2 := by
  have hText (text : JsString)
      (hMember : text ∈ exportedTexts config) :
      OneLine text :=
    hLines text hMember
  have hNat : (0 : Int) ≤ 1 := by decide
  simp only [baseEntries, List.forall_mem_cons]
  refine
    ⟨oneLine_environment _, hText _ ?_,
      oneLine_number hNat hAdmitted.port,
      oneLine_number hNat hAdmitted.grpcPort, oneLine_bool _,
      hText _ ?_, hText _ ?_, hText _ ?_, hText _ ?_,
      hText _ ?_, hText _ ?_, hText _ ?_, hText _ ?_,
      hText _ ?_, hText _ ?_, oneLine_bool _,
      oneLine_number hNat hAdmitted.session,
      oneLine_number hNat hAdmitted.access, oneLine_level _,
      oneLine_bool _, ?_⟩
  all_goals simp [exportedTexts]

theorem oneLine_adminEntries
    (hLines : TextsUnbroken (exportedTexts config)) :
    ∀ entry ∈ adminEntries config.auth, OneLine entry.2 := by
  have hName (text : JsString)
      (hSome : config.auth.bootstrapAdminUsername = some text) :
      OneLine text := by
    apply hLines
    simp [exportedTexts, hSome]
  have hPass (text : JsString)
      (hSome : config.auth.bootstrapAdminPassword = some text) :
      OneLine text := by
    apply hLines
    simp [exportedTexts, hSome]
  intro entry hEntry
  unfold adminEntries at hEntry
  split at hEntry
  · cases hEntry
  · cases hEntry
  · rename_i username _ hUser
    rcases List.mem_pair.mp hEntry with hFirst | hSecond
    · rw [hFirst]
      exact hName username hUser
    · rw [hSecond]
      cases hPassword : config.auth.bootstrapAdminPassword with
      | none => exact List.not_mem_nil
      | some password => exact hPass password hPassword

theorem oneLine_pathEntry
    {name : String}
    {text : Option JsString}
    (hText : TextsUnbroken text.toList) :
    ∀ entry ∈ pathEntry name text, OneLine entry.2 := by
  intro entry hEntry
  unfold pathEntry at hEntry
  split at hEntry
  · cases hEntry
  · cases hEntry
  · rw [List.mem_singleton.mp hEntry]
    apply hText
    simp

theorem oneLine_tlsEntries
    (hLines : TextsUnbroken (exportedTexts config)) :
    ∀ entry ∈ tlsEntries config.server.tls,
      OneLine entry.2 := by
  intro entry hEntry
  unfold tlsEntries at hEntry
  split at hEntry
  · rename_i hEnabled
    have hCert :
        TextsUnbroken config.server.tls.certPath.toList := by
      intro text hMember
      apply hLines
      unfold exportedTexts
      rw [if_pos hEnabled]
      exact
        List.mem_append_right _
          (List.mem_append_left _ hMember)
    have hKey :
        TextsUnbroken config.server.tls.keyPath.toList := by
      intro text hMember
      apply hLines
      unfold exportedTexts
      rw [if_pos hEnabled]
      exact
        List.mem_append_right _
          (List.mem_append_right _ hMember)
    rcases List.mem_append.mp hEntry with hFirst | hLast
    · rcases List.mem_cons.mp hFirst with hHere | hPath
      · rw [hHere]
        decide
      · exact oneLine_pathEntry hCert entry hPath
    · exact oneLine_pathEntry hKey entry hLast
  · cases hEntry

/- An export has line breaks in its texts only. -/
theorem oneLine_entries
    (hAdmitted : Admitted config)
    (hLines : TextsUnbroken (exportedTexts config)) :
    ∀ entry ∈ exportEntries config, OneLine entry.2 := by
  intro entry hEntry
  rcases List.mem_append.mp hEntry with hGiven | hTls
  · rcases List.mem_append.mp hGiven with hBase | hAdmin
    · exact oneLine_baseEntries hAdmitted hLines entry hBase
    · exact oneLine_adminEntries hLines entry hAdmin
  · exact oneLine_tlsEntries hLines entry hTls

theorem Admitted.wellGiven (hAdmitted : Admitted config) :
    WellGiven config := by
  have hOptional
      (text : Option JsString)
      (hTexts : ∀ other ∈ text.toList, other ≠ []) :
      text ≠ some [] := by
    intro hNil
    apply hTexts []
    · rw [hNil]
      exact List.mem_singleton_self _
    · rfl
  have hTexts (text : JsString) := hAdmitted.texts text
  simp only [loadedTexts, List.mem_append] at hTexts
  refine ⟨?_, ?_, ?_, ?_, hAdmitted.refined⟩
  · apply hOptional
    intro text hMember
    exact hTexts text (Or.inl (Or.inr hMember))
  · apply hOptional
    intro text hMember
    exact hTexts text (Or.inr hMember)
  · apply hOptional
    intro text hMember
    exact
      hTexts text
        (Or.inl (Or.inl (Or.inl (Or.inr hMember))))
  · apply hOptional
    intro text hMember
    exact hTexts text (Or.inl (Or.inl (Or.inr hMember)))

theorem parsedFrom_object_iff
    {Part : Type}
    {proto : Option (ConfigValue Int)}
    {members : Members Int}
    {parse : Members Int → Option Part}
    {part : Part} :
    ParsedFrom (some (.object proto members)) parse part ↔
      parse members = some part := by
  constructor
  · rintro ⟨other, hMembers, hParsed⟩
    cases hMembers
    exact hParsed
  · intro hParsed
    exact ⟨members, rfl, hParsed⟩

/- What is found of an export after merging. -/
theorem lookup_merged_exported (config : AppConfig Int) :
    let merged :=
      deepMerge DEFAULT_CONFIG.members (exportedMembers config)
    merged.lookup (named "environment") =
        some (.string (readBack config.environment.text)) ∧
      merged.lookup (named "server") =
        some
          (.object none
            (mergeMembers DEFAULT_CONFIG.server.members
              (serverMembers config.server))) ∧
      merged.lookup (named "storage") =
        some
          (.object none
            (mergeMembers DEFAULT_CONFIG.storage.members
              (storageMembers config.storage))) ∧
      merged.lookup (named "database") =
        some
          (.object none
            (mergeMembers DEFAULT_CONFIG.database.members
              (databaseMembers config.database))) ∧
      merged.lookup (named "auth") =
        some
          (.object none
            (mergeMembers DEFAULT_CONFIG.auth.members
              (authMembers config.auth))) ∧
      merged.lookup (named "logging") =
        some
          (.object none
            (mergeMembers DEFAULT_CONFIG.logging.members
              (loggingMembers config.logging))) :=
  ⟨rfl, rfl, rfl, rfl, rfl, rfl⟩

/- What the schema makes of an export's members. -/
theorem safeParse_exported_iff
    (rules : Coercions)
    (hAdmitted : Admitted config) :
    safeParse rules
          (deepMerge DEFAULT_CONFIG.members
            (exportedMembers config)) =
        some config ↔
      Kept config := by
  have hGiven := hAdmitted.wellGiven
  have hTexts (text : JsString) := hAdmitted.texts text
  simp only [loadedTexts, List.mem_append] at hTexts
  have hHost : config.server.host ≠ [] := by
    apply hTexts
    simp
  have hStorage :=
    parseStorage_exported_iff config.storage
      fun text hMember =>
        hTexts text
          (Or.inl
            (Or.inl
              (Or.inl (Or.inl (Or.inl (Or.inr hMember))))))
  have hDatabase :=
    parseDatabase_exported_iff config.database
      fun text hMember =>
        hTexts text
          (Or.inl
            (Or.inl (Or.inl (Or.inl (Or.inr hMember)))))
  have hServer :=
    parseServer_exported_iff rules hHost hAdmitted.port
      hAdmitted.grpcPort hGiven.cert hGiven.keyPath
  have hAuth :=
    parseAuth_exported_iff rules hAdmitted.session
      hAdmitted.access hGiven.username hGiven.password
      hAdmitted.refined
  rcases lookup_merged_exported config with
    ⟨hEnvironmentText, hServerText, hStorageText,
      hDatabaseText, hAuthText, hLoggingText⟩
  rw [safeParse_eq_some_iff, hEnvironmentText, hServerText,
    hStorageText, hDatabaseText, hAuthText, hLoggingText]
  simp only [parsedFrom_object_iff]
  rw [environmentOf_readBack, parseLogging_exported, hServer,
    hStorage, hDatabase, hAuth]
  constructor
  · rintro ⟨_, ⟨hHostKept, hTls⟩, hStore, hBase, hUser, _⟩
    exact ⟨hHostKept, hTls, hStore, hBase, hUser⟩
  · rintro ⟨hHostKept, hTls, hStore, hBase, hUser⟩
    exact ⟨rfl, ⟨hHostKept, hTls⟩, hStore, hBase, hUser, rfl⟩

/- An export without line breaks in its texts is loaded as it
   was where its sections come back. -/
theorem loadExported_iff
    (hDate : OneLine exportedAt)
    (hAdmitted : Admitted config)
    (hLines : TextsUnbroken (exportedTexts config)) :
    loadExported rules exportedAt path config = .ok config ↔
      Kept config := by
  rw [← safeParse_exported_iff rules hAdmitted]
  unfold loadExported loadConfig
  rw [env_of_export config path exportedAt hDate
      (oneLine_entries hAdmitted hLines),
    extractEnvConfig_exported config path hAdmitted.wellGiven]
  constructor
  · intro hSame
    simp only [bind, Except.bind] at hSame
    split at hSame
    · rename_i loaded hParsed
      rw [hParsed]
      cases hSame
      rfl
    · cases hSame
  · intro hParsed
    simp only [bind, Except.bind, hParsed]
    rfl

theorem keepsTexts_exportedTexts_iff :
    KeepsTexts (exportedTexts config) ↔
      (((readBack config.server.host = config.server.host ∧
              KeepsTexts
                [config.storage.dataDir,
                  config.storage.stagingRootPath,
                  config.storage.doltReposRootPath,
                  config.storage.nasSimPath]) ∧
            KeepsTexts
              [config.database.userDbPath,
                config.database.repoDbPath,
                config.database.ticketDbPath,
                config.database.transferJobDbPath,
                config.database.addonTrustDbPath,
                config.database.sessionDbPath]) ∧
          KeepsTexts
            (config.auth.bootstrapAdminUsername.toList ++
              config.auth.bootstrapAdminPassword.toList)) ∧
        (config.server.tls.enabled = true →
          KeepsTexts
            (config.server.tls.certPath.toList ++
              config.server.tls.keyPath.toList)) := by
  have hHost :
      KeepsTexts [config.server.host] ↔
        readBack config.server.host = config.server.host := by
    unfold KeepsTexts
    rw [List.forall_mem_singleton]
  have hTls :
      KeepsTexts
          (if config.server.tls.enabled = true then
            config.server.tls.certPath.toList ++
              config.server.tls.keyPath.toList
          else []) ↔
        (config.server.tls.enabled = true →
          KeepsTexts
            (config.server.tls.certPath.toList ++
              config.server.tls.keyPath.toList)) := by
    split
    · rename_i hEnabled
      constructor
      · intro hKept _
        exact hKept
      · intro hKept
        exact hKept hEnabled
    · rename_i hDisabled
      constructor
      · intro _ hEnabled
        exact absurd hEnabled hDisabled
      · intro _ text hText
        cases hText
  unfold exportedTexts
  rw [keepsTexts_append_iff, hTls, List.append_assoc,
    keepsTexts_append_iff, keepsTexts_append_iff,
    keepsTexts_append_iff, hHost]

/- What the file has to carry, and what comes back. -/
theorem portable_iff :
    Portable config ↔
      TextsUnbroken (exportedTexts config) ∧ Kept config := by
  constructor
  · intro hPortable
    have hKept : KeepsTexts (exportedTexts config) := by
      intro text hText
      exact
        ((carries_iff text).mp (hPortable.texts text hText)).2
    rcases keepsTexts_exportedTexts_iff.mp hKept with
      ⟨⟨⟨⟨hHost, hStorage⟩, hDatabase⟩, hAdmin⟩, hPaths⟩
    refine ⟨?_, hHost, ?_, hStorage, hDatabase, ?_⟩
    · intro text hText
      exact
        ((carries_iff text).mp (hPortable.texts text hText)).1
    · exact ⟨hPaths, hPortable.noPaths, hPortable.noGenerate⟩
    · exact
        ⟨hAdmin, hPortable.noPrivateKey, hPortable.noPublicKey,
          hPortable.noPrivateKeyPath,
          hPortable.noPublicKeyPath, hPortable.noOrigins⟩
  · rintro ⟨hLines, hKept⟩
    have hTexts : KeepsTexts (exportedTexts config) := by
      apply keepsTexts_exportedTexts_iff.mpr
      exact
        ⟨⟨⟨⟨hKept.host, hKept.storage⟩, hKept.database⟩,
          hKept.auth.texts⟩, hKept.tls.texts⟩
    refine ⟨?_, ?_, ?_, ?_, ?_, ?_, ?_, ?_⟩
    · intro text hText
      exact
        (carries_iff text).mpr
          ⟨hLines text hText, hTexts text hText⟩
    · exact hKept.auth.noPrivateKey
    · exact hKept.auth.noPublicKey
    · exact hKept.auth.noPrivateKeyPath
    · exact hKept.auth.noPublicKeyPath
    · exact hKept.auth.noOrigins
    · exact hKept.tls.noGenerate
    · exact hKept.tls.noPaths

theorem exportedTexts_subset :
    exportedTexts config ⊆ loadedTexts config := by
  intro text hText
  unfold exportedTexts at hText
  rcases List.mem_append.mp hText with hText | hPaths
  · unfold loadedTexts
    exact
      List.mem_append_left _ (List.mem_append_left _ hText)
  · split at hPaths
    · unfold loadedTexts
      rcases List.mem_append.mp hPaths with hCert | hKey
      · exact
          List.mem_append_left _
            (List.mem_append_right _ hCert)
      · exact List.mem_append_right _ hKey
    · cases hPaths

/- The export of a valid configuration, written to the file
   that an environment names, is loaded as it was exactly where
   the configuration is portable. -/
theorem roundTrips_iff
    (rules : Coercions)
    (exportedAt : JsString)
    (path : List Char)
    (config : AppConfig Int)
    (hDate : OneLine exportedAt)
    (hValid : ValidConfig rules config) :
    loadExported rules exportedAt path config = .ok config ↔
      Portable config := by
  have hAdmitted := hValid.admitted
  rw [portable_iff]
  constructor
  · intro hSame
    have hNamed : EnvUnbroken (namedEnv path) := by
      intro entry hEntry
      left
      rw [List.mem_singleton.mp hEntry]
    -- No variable of the file has a line break in its value.
    have hLoaded : TextsUnbroken (loadedTexts config) :=
      loadedTexts_unbroken (envUnbroken_load _ hNamed) hSame
    have hLines : TextsUnbroken (exportedTexts config) := by
      intro text hText
      exact hLoaded text (exportedTexts_subset hText)
    exact
      ⟨hLines,
        (loadExported_iff hDate hAdmitted hLines).mp hSame⟩
  · rintro ⟨hLines, hKept⟩
    exact (loadExported_iff hDate hAdmitted hLines).mpr hKept

/- No text of the examples is left to these. -/
def decimalOnly : Coercions where
  ofText := fun _ => none
  ofObject := fun _ => none
  textOf := fun _ => []

def exportDate : JsString :=
  js "2026-01-31T08:15:00.000Z"

/- A server with a certificate and an administrator, whose
   texts have marks and blanks inside. -/
def migratedConfig : AppConfig Int :=
  { DEFAULT_CONFIG with
    environment := .production
    server :=
      { DEFAULT_CONFIG.server with
        tls :=
          { enabled := true
            certPath := some (js "/etc/my certs/a=b#1.pem")
            keyPath := some (js "/etc/my certs/a=b#1.key")
            autoGenerate := false } }
    auth :=
      { DEFAULT_CONFIG.auth with
        bootstrapAdminUsername := some (js "admin")
        bootstrapAdminPassword := some (js "it's \"#1\" = ok") } }

theorem roundTrips_migratedConfig :
    ValidConfig decimalOnly migratedConfig ∧
      Portable migratedConfig ∧
      loadExported decimalOnly exportDate
          "deltix.env".toList migratedConfig =
        .ok migratedConfig := by
  have hValid : ValidConfig decimalOnly migratedConfig :=
    ⟨migratedConfig.members, rfl⟩
  have hPortable : Portable migratedConfig := by
    constructor
    · decide +kernel
    · rfl
    · rfl
    · rfl
    · rfl
    · rfl
    · rfl
    · decide
  refine ⟨hValid, hPortable, ?_⟩
  exact
    (roundTrips_iff decimalOnly exportDate _ migratedConfig
      (by decide +kernel) hValid).mpr hPortable

/- Configurations whose exports set the same variables are
   not told apart. -/
theorem loadExported_of_entries
    {other : AppConfig Int}
    (hEntries : exportEntries config = exportEntries other) :
    loadExported rules exportedAt path config =
      loadExported rules exportedAt path other := by
  have hText :
      exportConfig numberText exportedAt config unredactedEnv =
        exportConfig numberText exportedAt other
          unredactedEnv := by
    change
      joinLines
          (buildEnvExportLines numberText exportedAt config
            unredactedEnv) =
        joinLines
          (buildEnvExportLines numberText exportedAt other
            unredactedEnv)
    rw [buildEnvExportLines_eq, buildEnvExportLines_eq,
      hEntries]
  unfold loadExported exportFiles
  rw [hText]

/- Origins that a browser may come from. -/
def originsConfig : AppConfig Int :=
  { DEFAULT_CONFIG with
    auth :=
      { DEFAULT_CONFIG.auth with
        corsAllowedOrigins := [js "https://game.example"] } }

/- The origins are not in the export, and are lost. -/
theorem loadExported_originsConfig :
    ValidConfig decimalOnly originsConfig ∧
      loadExported decimalOnly exportDate
          "deltix.env".toList originsConfig =
        .ok DEFAULT_CONFIG ∧
      DEFAULT_CONFIG ≠ originsConfig := by
  have hValid : ValidConfig decimalOnly originsConfig :=
    ⟨originsConfig.members, rfl⟩
  have hDefault : ValidConfig decimalOnly DEFAULT_CONFIG :=
    ⟨DEFAULT_CONFIG.members, rfl⟩
  have hPortable : Portable DEFAULT_CONFIG := by
    constructor
    · decide +kernel
    · rfl
    · rfl
    · rfl
    · rfl
    · rfl
    · rfl
    · decide
  have hSame :
      loadExported decimalOnly exportDate "deltix.env".toList
          originsConfig =
        loadExported decimalOnly exportDate
          "deltix.env".toList DEFAULT_CONFIG :=
    loadExported_of_entries rfl
  rcases portable_iff.mp hPortable with ⟨hLines, hKept⟩
  refine ⟨hValid, ?_, ?_⟩
  · rw [hSame]
    exact
      (loadExported_iff (by decide +kernel) hDefault.admitted
        hLines).mpr hKept
  · intro hBoth
    have hNone :
        ([] : List JsString) = [js "https://game.example"] :=
      congrArg (fun config => config.auth.corsAllowedOrigins)
        hBoth
    cases hNone

end Config
