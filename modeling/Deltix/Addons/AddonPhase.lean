import Deltix.Addons.AddonLoader
import Deltix.Text.Split

/-
  The part of the boot that finds the addons, loads them, and
  activates those with an HTTP route.

  Key definitions include:
    * `discoverAndLoadAddons`
    * `addonPhase`
    * `Isolated`
    * `Harmless`

  Key theorems include:
    * `loadEach_eq`
    * `thrown_activateEach`
    * `isolated_iff`
    * `throwing_activate_aborts`
-/

namespace Text

/- The names of a list with commas that are not blank. -/
def csvEntries (csv : JsString) : List JsString :=
  let trim := trimBy fun unit => isSpaceCode unit.toNat
  ((split 0x2C csv).map trim).filter fun entry =>
    0 < entry.length

end Text

------------------------------------------------------------
-- Discovery
------------------------------------------------------------

namespace Addons

open Text Licensing

variable (platform : Platform) (deps : AddonLoadDeps)

structure AddonDiscoveryResult where
  loaded : List LoadedAddon
  failures : List (JsString × ErrorClass × JsString)
  deriving DecidableEq

/- The tier of a manifest, where one can be read. -/
def peekTier (addonDir : JsString) : Option AddonTier :=
  match platform.readFile (manifestPath platform addonDir) with
  | .error _ => none
  | .ok raw =>
      match parseBytes raw with
      | some (.object members) =>
          tierOf (Json.get? members "tier")
      | _ => none

def communityCount (addonDirs : List JsString) : Nat :=
  (addonDirs.filter fun addonDir =>
    peekTier platform addonDir = some .community).length

def withinCommunityAddonLimit
    (communityAddonCount : Nat)
    (addonsConfig : LicenseAddonsConfig) : Bool :=
  match addonsConfig.maxCommunityAddons with
  | none => true
  | some most => (communityAddonCount : Rat) ≤ most

def assertWithinCommunityAddonLimit
    (communityAddonCount : Nat)
    (addonsConfig : LicenseAddonsConfig) : Loading Unit :=
  match addonsConfig.maxCommunityAddons with
  | none => .ok ()
  | some most =>
      if most < (communityAddonCount : Rat) then
        fail .addonLimitExceeded
          (js "This license allows at most " ++
            platform.showNumber most ++
            js " community addon(s), but " ++
            js (toString communityAddonCount) ++
            js " were discovered")
      else .ok ()

/- `err instanceof Error ? err : new Error(String(err))` -/
def asError : Thrown → Loading (ErrorClass × JsString)
  | .error kind message => .ok (kind, message)
  | .other text => .ok (.error, text)
  | .unprintable thrown => .error thrown

/- The loop over the directories, with what it collects. -/
def loadEach :
    List JsString →
      AddonDiscoveryResult → Loading AddonDiscoveryResult
  | [], result => .ok result
  | addonDir :: rest, result =>
      match loadAddon platform deps addonDir with
      | .ok addon =>
          loadEach rest
            { loaded := result.loaded ++ [addon]
              failures := result.failures }
      | .error thrown => do
          let error ← asError thrown
          loadEach rest
            { loaded := result.loaded
              failures :=
                result.failures ++ [(addonDir, error)] }

def discoverAndLoadAddons (addonPathsCsv : JsString) :
    Loading AddonDiscoveryResult := do
  let addonDirs := csvEntries addonPathsCsv
  assertWithinCommunityAddonLimit platform
    (communityCount platform addonDirs) deps.addonsConfig
  loadEach platform deps addonDirs
    { loaded := [], failures := [] }

/- What the boot gives to the phase. -/
structure BootEnv where
  addonPaths : JsString
  addonFreeOfficial : JsString
  licensePublicKey : JsString
  license : LicensePayload

variable (platform : Platform) (env : BootEnv)

def BootEnv.loadDeps : AddonLoadDeps where
  officialPublicKey := env.licensePublicKey
  addonsConfig := resolveLicenseAddonsConfig env.license
  freeOfficialAddons := csvEntries env.addonFreeOfficial

def grantedHttpRoute (addon : LoadedAddon) : Bool :=
  addon.manifest.capabilities.contains (js "http:route")

/-
  The addons whose `activate()` is called, and what the loop
  throws.
-/
def activateEach :
    List LoadedAddon → List LoadedAddon × Option Thrown
  | [] => ([], none)
  | addon :: rest =>
      if grantedHttpRoute addon then
        match addon.activate with
        | some thrown => ([addon], some thrown)
        | none =>
            let next := activateEach rest
            (addon :: next.1, next.2)
      else activateEach rest

structure AddonPhase where
  loaded : List LoadedAddon
  failures : List (JsString × ErrorClass × JsString)
  activated : List LoadedAddon
  thrown : Option Thrown
  deriving DecidableEq

def addonPhase : AddonPhase :=
  match
    discoverAndLoadAddons platform env.loadDeps
      env.addonPaths with
  | .error thrown =>
      { loaded := []
        failures := []
        activated := []
        thrown := some thrown }
  | .ok result =>
      let activation := activateEach result.loaded
      { loaded := result.loaded
        failures := result.failures
        activated := activation.1
        thrown := activation.2 }

def BootEnv.addonDirs : List JsString :=
  csvEntries env.addonPaths

def loads (addonDir : JsString) : Option LoadedAddon :=
  (loadAddon platform env.loadDeps addonDir).toOption

/- The addons that pass all checks on their own. -/
def passing : List LoadedAddon :=
  env.addonDirs.filterMap (loads platform env)

/- Whether the license allows the community addons found. -/
def withinLimit : Bool :=
  withinCommunityAddonLimit
    (communityCount platform env.addonDirs)
    env.loadDeps.addonsConfig

/- Only a community addon over the limit may be refused. -/
def mustLoad (addon : LoadedAddon) : Bool :=
  addon.manifest.tier = .official || withinLimit platform env

/-
  The phase throws nothing, every addon that passes is
  loaded, and every such addon with a route is activated.
-/
structure Isolated : Prop where
  completes : (addonPhase platform env).thrown = none
  loads :
    ((passing platform env).filter
        (mustLoad platform env)).Sublist
      (addonPhase platform env).loaded
  activates :
    ((passing platform env).filter fun addon =>
        mustLoad platform env addon &&
          grantedHttpRoute addon).Sublist
      (addonPhase platform env).activated

/-
  The license allows the community addons found, no addon
  throws a value without a text, and no `activate()` that
  is reached throws.
-/
structure Harmless : Prop where
  withinLimit : withinLimit platform env = true
  printable :
    ∀ addonDir ∈ env.addonDirs,
      ∀ thrown,
        loadAddon platform env.loadDeps addonDir ≠
          .error (.unprintable thrown)
  activates :
    ∀ addon ∈ passing platform env,
      grantedHttpRoute addon = true → addon.activate = none

------------------------------------------------------------
-- What The Loops Collect
------------------------------------------------------------

variable {platform : Platform} {deps : AddonLoadDeps}
variable {addonDir : JsString}
variable {rest addonDirs : List JsString}
variable {result : AddonDiscoveryResult}

theorem assertWithinCommunityAddonLimit_eq_ok
    (platform : Platform)
    (count : Nat)
    (config : LicenseAddonsConfig) :
    assertWithinCommunityAddonLimit platform count config =
        .ok () ↔
      withinCommunityAddonLimit count config = true := by
  unfold assertWithinCommunityAddonLimit
    withinCommunityAddonLimit
  cases config.maxCommunityAddons with
  | none => simp
  | some most =>
      by_cases hMost : most < (count : Rat)
      · have hOver : ¬ (count : Rat) ≤ most :=
          Rat.not_le.mpr hMost
        simp [hMost, hOver, fail]
      · have hWithin : (count : Rat) ≤ most :=
          Rat.not_lt.mp hMost
        simp [hMost, hWithin]

/- An unprintable error ends the loop, and nothing else. -/
theorem asError_eq_ok
    (thrown : Thrown) :
    (∃ error, asError thrown = .ok error) ↔
      ∀ inner, thrown ≠ .unprintable inner := by
  cases thrown with
  | error kind message => simp [asError]
  | other text => simp [asError]
  | unprintable inner => simp [asError]

/- No addon of these throws a value without a text. -/
def Printable
    (platform : Platform)
    (deps : AddonLoadDeps)
    (addonDirs : List JsString) : Prop :=
  ∀ addonDir ∈ addonDirs,
    ∀ thrown,
      loadAddon platform deps addonDir ≠
        .error (.unprintable thrown)

theorem loadEach_cons_ok
    {addon : LoadedAddon}
    (hLoad : loadAddon platform deps addonDir = .ok addon) :
    loadEach platform deps (addonDir :: rest) result =
      loadEach platform deps rest
        { loaded := result.loaded ++ [addon]
          failures := result.failures } := by
  rw [loadEach]
  rw [hLoad]

theorem loadEach_cons_error
    {thrown : Thrown}
    {error : ErrorClass × JsString}
    (hLoad : loadAddon platform deps addonDir = .error thrown)
    (hError : asError thrown = .ok error) :
    loadEach platform deps (addonDir :: rest) result =
      loadEach platform deps rest
        { loaded := result.loaded
          failures := result.failures ++ [(addonDir, error)] } := by
  rw [loadEach]
  rw [hLoad]
  dsimp only
  rw [hError]
  rfl

/- Whatever fails before or after, an addon that passes is
   among those loaded. -/
theorem loadEach_eq
    (result : AddonDiscoveryResult)
    (hPrintable : Printable platform deps addonDirs) :
    ∃ failures,
      loadEach platform deps addonDirs result =
        .ok {
          loaded :=
            result.loaded ++
              addonDirs.filterMap fun addonDir =>
                (loadAddon platform deps addonDir).toOption
          failures := failures } := by
  induction addonDirs generalizing result with
  | nil =>
      use result.failures
      simp [loadEach]
  | cons addonDir rest ih =>
      have hRest : Printable platform deps rest :=
        fun other hMember =>
          hPrintable other (List.mem_cons_of_mem _ hMember)
      cases hLoad : loadAddon platform deps addonDir with
      | ok addon =>
          rw [loadEach_cons_ok hLoad]
          have hLoaded := ih
            { loaded := result.loaded ++ [addon]
              failures := result.failures } hRest
          simpa [hLoad, Except.toOption] using hLoaded
      | error thrown =>
          have hText :
              ∀ inner, thrown ≠ .unprintable inner := by
            intro inner hThrown
            apply hPrintable addonDir List.mem_cons_self inner
            rw [hLoad, hThrown]
          rcases (asError_eq_ok thrown).mpr hText with
            ⟨error, hError⟩
          rw [loadEach_cons_error hLoad hError]
          have hLoaded := ih
            { loaded := result.loaded
              failures :=
                result.failures ++ [(addonDir, error)] } hRest
          simpa [hLoad, Except.toOption] using hLoaded

/- A loop that ends has met no unprintable error. -/
theorem printable_of_loadEach
    {final : AddonDiscoveryResult}
    (hLoads :
      loadEach platform deps addonDirs result = .ok final) :
    Printable platform deps addonDirs := by
  induction addonDirs generalizing result with
  | nil =>
      intro addonDir hMember
      cases hMember
  | cons addonDir rest ih =>
      intro other hMember thrown hThrown
      rcases List.mem_cons.mp hMember with hSame | hLater
      · subst hSame
        rw [loadEach, hThrown] at hLoads
        cases hLoads
      · cases hLoad : loadAddon platform deps addonDir with
        | ok addon =>
            rw [loadEach_cons_ok hLoad] at hLoads
            exact ih hLoads other hLater thrown hThrown
        | error first =>
            cases hError : asError first with
            | error escaped =>
                rw [loadEach, hLoad] at hLoads
                dsimp only at hLoads
                rw [hError] at hLoads
                cases hLoads
            | ok error =>
                rw [loadEach_cons_error hLoad hError] at hLoads
                exact ih hLoads other hLater thrown hThrown

/- The activation stops at the first `activate()` that throws. -/
theorem thrown_activateEach
    (addons : List LoadedAddon) :
    (activateEach addons).2 = none ↔
      ∀ addon ∈ addons,
        grantedHttpRoute addon = true →
          addon.activate = none := by
  induction addons with
  | nil => simp [activateEach]
  | cons addon rest ih =>
      rw [activateEach]
      by_cases hGranted : grantedHttpRoute addon = true
      · cases hActivate : addon.activate with
        | none => simp [hGranted, hActivate, ih]
        | some thrown => simp [hGranted, hActivate]
      · simp [hGranted, ih]

theorem called_activateEach
    {addons : List LoadedAddon}
    (hThrown : (activateEach addons).2 = none) :
    (activateEach addons).1 =
      addons.filter grantedHttpRoute := by
  have hQuiet := (thrown_activateEach addons).mp hThrown
  clear hThrown
  induction addons with
  | nil => rfl
  | cons addon rest ih =>
      have hRest := ih fun other hMember =>
        hQuiet other (List.mem_cons_of_mem _ hMember)
      rw [activateEach]
      by_cases hGranted : grantedHttpRoute addon = true
      · have hActivate :=
          hQuiet addon List.mem_cons_self hGranted
        simp [hGranted, hActivate, hRest]
      · simp [hGranted, hRest]

------------------------------------------------------------
-- When The Addons Are Isolated
------------------------------------------------------------

variable {env : BootEnv}

/- A discovery that ends has loaded what passes. -/
theorem discoverAndLoadAddons_eq_ok :
    (∃ failures,
      discoverAndLoadAddons platform env.loadDeps
          env.addonPaths =
        .ok {
          loaded := passing platform env
          failures := failures }) ↔
      withinLimit platform env = true ∧
        Printable platform env.loadDeps env.addonDirs := by
  have hLimit :=
    assertWithinCommunityAddonLimit_eq_ok platform
      (communityCount platform env.addonDirs)
      env.loadDeps.addonsConfig
  constructor
  · intro hDiscovers
    rcases hDiscovers with ⟨failures, hDiscovers⟩
    rcases bind_eq_ok hDiscovers with ⟨_, hWithin, hLoads⟩
    constructor
    · exact hLimit.mp hWithin
    · exact printable_of_loadEach hLoads
  · intro hBoth
    rcases loadEach_eq { loaded := [], failures := [] }
      hBoth.2 with ⟨failures, hLoads⟩
    use failures
    have hWithin := hLimit.mpr hBoth.1
    unfold discoverAndLoadAddons
    dsimp only
    rw [show csvEntries env.addonPaths = env.addonDirs from rfl,
      hWithin]
    exact hLoads

theorem addonPhase_of_discovers
    {result : AddonDiscoveryResult}
    (hDiscovers :
      discoverAndLoadAddons platform env.loadDeps
          env.addonPaths =
        .ok result) :
    addonPhase platform env =
      { loaded := result.loaded
        failures := result.failures
        activated := (activateEach result.loaded).1
        thrown := (activateEach result.loaded).2 } := by
  unfold addonPhase
  rw [hDiscovers]

/- A phase that throws nothing has found its addons. -/
theorem discovers_of_completes
    (hCompletes : (addonPhase platform env).thrown = none) :
    ∃ failures,
      discoverAndLoadAddons platform env.loadDeps
          env.addonPaths =
        .ok {
          loaded := passing platform env
          failures := failures } := by
  cases hDiscovers :
      discoverAndLoadAddons platform env.loadDeps
        env.addonPaths with
  | error thrown =>
      unfold addonPhase at hCompletes
      rw [hDiscovers] at hCompletes
      cases hCompletes
  | ok result =>
      rw [← hDiscovers]
      apply discoverAndLoadAddons_eq_ok.mpr
      rcases bind_eq_ok hDiscovers with ⟨_, hWithin, hLoads⟩
      constructor
      · exact
          (assertWithinCommunityAddonLimit_eq_ok platform _
            _).mp hWithin
      · exact printable_of_loadEach hLoads

/-
  One bad addon spares the others exactly when the addons
  are harmless in the ways that the phase does not guard.
-/
theorem isolated_iff
    (platform : Platform)
    (env : BootEnv) :
    Isolated platform env ↔ Harmless platform env := by
  constructor
  · intro hIsolated
    rcases discovers_of_completes hIsolated.completes with
      ⟨failures, hDiscovers⟩
    have hBoth :=
      discoverAndLoadAddons_eq_ok.mp ⟨failures, hDiscovers⟩
    have hThrown := hIsolated.completes
    rw [addonPhase_of_discovers hDiscovers] at hThrown
    constructor
    · exact hBoth.1
    · exact hBoth.2
    · exact (thrown_activateEach _).mp hThrown
  · intro hHarmless
    rcases discoverAndLoadAddons_eq_ok.mpr
      ⟨hHarmless.withinLimit, hHarmless.printable⟩ with
      ⟨failures, hDiscovers⟩
    have hThrown :=
      (thrown_activateEach _).mpr hHarmless.activates
    have hPhase := addonPhase_of_discovers hDiscovers
    constructor
    · rw [hPhase]
      exact hThrown
    · rw [hPhase]
      exact List.filter_sublist
    · rw [hPhase]
      dsimp only
      rw [called_activateEach hThrown]
      have hGranted :
          ∀ addon,
            (mustLoad platform env addon &&
                grantedHttpRoute addon) = true →
              grantedHttpRoute addon = true := by
        intro addon hAddon
        exact (Bool.and_eq_true _ _ ▸ hAddon).2
      exact List.monotone_filter_right _ hGranted

/- The manifest of an official addon with a route. -/
def routeManifest : List UInt8 :=
  asciiBytes
    ("\x7b\"name\":\"a\",\"version\":\"1\"," ++
      "\"tier\":\"official\",\"entrypoint\":\"e\"," ++
      "\"capabilities\":[\"http:route\"]\x7d")

/-
  Two addons with that manifest, signed by the key, of which
  the first throws when it is activated.
-/
def throwingPlatform : Platform where
  join first second := first ++ js "/" ++ second
  readFile _ := .ok routeManifest
  getTrustedKey _ := .ok none
  verifyEd25519Signature _ _ _ := .ok true
  importModule path :=
    if path = js "x/e" then
      .addon (some (.error .error (js "boom")))
    else .addon none
  manifestIssues _ := []
  showNumber _ := []

def throwingEnv : BootEnv where
  addonPaths := js "x, y"
  addonFreeOfficial := js "a"
  licensePublicKey := js "k"
  license := {
    licensee := js "l"
    tier := .community
    seats := 1
    addons := none
    issuedAt := js "2026-01-01"
    expiresAt := none
    nonce := js "n" }

/- The phase throws, and the second addon is not activated. -/
theorem throwing_activate_aborts :
    ¬ Isolated throwingPlatform throwingEnv := by
  intro hIsolated
  have hThrown :
      (addonPhase throwingPlatform throwingEnv).thrown =
        some (.error .error (js "boom")) := by
    decide +kernel
  rw [hIsolated.completes] at hThrown
  cases hThrown

end Addons
