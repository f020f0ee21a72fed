import Deltix.Addons.AddonSignature

/-
  Loading an addon: its manifest, capabilities, signature and
  license, and only then its code.

  Key definitions include:
    * `AddonManifest`
    * `addonManifestSchema`
    * `Platform`
    * `loadAddon`
-/

namespace Addons

open Text

inductive AddonTier where
  | official
  | community
  deriving DecidableEq, Repr

structure AddonManifest where
  name : JsString
  version : JsString
  tier : AddonTier
  entrypoint : JsString
  capabilities : List JsString
  authorPublicKey : Option JsString
  deriving DecidableEq

def ADDON_CAPABILITIES : List JsString :=
  [js "http:route", js "db:read", js "db:write", js "nas:read"]

def isAddonCapability (value : JsString) : Bool :=
  ADDON_CAPABILITIES.contains value

def RESERVED_OFFICIAL_NAME_PREFIXES : List JsString :=
  [js "deltix-", js "official-"]

/- `z.string().min(1)` -/
def nonEmptyString : Option Json → Option JsString
  | some (.string value) =>
      if value.length = 0 then none else some value
  | _ => none

/- `z.enum(['official', 'community'])` -/
def tierOf : Option Json → Option AddonTier
  | some (.string tier) =>
      if tier = js "official" then some .official
      else if tier = js "community" then some .community
      else none
  | _ => none

/- `z.array(z.enum(ADDON_CAPABILITIES))` -/
def capabilitiesOf : Option Json → Option (List JsString)
  | some (.array elements) =>
      (Licensing.strings elements).filter fun capabilities =>
        capabilities.all isAddonCapability
  | _ => none

/- `z.string().min(1).optional()` -/
def optionalString :
    Option Json → Option (Option JsString)
  | none => some none
  | some value => (nonEmptyString (some value)).map some

/- The data of a manifest that the schema accepts. -/
def addonManifestSchema : Json → Option AddonManifest
  | .object members => do
      let name ← nonEmptyString (Json.get? members "name")
      let version ←
        nonEmptyString (Json.get? members "version")
      let tier ← tierOf (Json.get? members "tier")
      let entrypoint ←
        nonEmptyString (Json.get? members "entrypoint")
      let capabilities ←
        capabilitiesOf (Json.get? members "capabilities")
      let authorPublicKey ←
        optionalString (Json.get? members "authorPublicKey")
      if tier = .official ∨
          !RESERVED_OFFICIAL_NAME_PREFIXES.any fun reserved =>
            reserved.isPrefixOf name then
        return {
          name := name
          version := version
          tier := tier
          entrypoint := entrypoint
          capabilities := capabilities
          authorPublicKey := authorPublicKey }
      else none
  | _ => none

open Licensing

/- The classes of the errors that loading throws. -/
inductive ErrorClass where
  | addonManifestInvalid
  | addonCapabilityDenied
  | addonSignatureInvalid
  | addonNotTrusted
  | addonLicenseDenied
  | addonLimitExceeded
  | error
  | typeError
  deriving DecidableEq, Repr

/-
  What is thrown: an error, some other value with what
  `String` makes of it, or a value on which `String` throws.
-/
inductive Thrown where
  | error (kind : ErrorClass) (message : JsString)
  | other (text : JsString)
  | unprintable (thrown : Thrown)
  deriving DecidableEq

/-
  What importing a file gives.  An addon is known by what
  its `activate()` throws, if it does.
-/
inductive Imported where
  | threw (thrown : Thrown)
  | noAddon
  | addon (activate : Option Thrown)
  deriving DecidableEq

/-
  The files, the store of trusted keys, the signatures and
  the imports, as the boot finds them.  `manifestIssues` is
  what the schema's error says, and `showNumber` is how the
  language writes a number.
-/
structure Platform where
  join : JsString → JsString → JsString
  readFile : JsString → Except JsString (List UInt8)
  getTrustedKey : JsString → Except Thrown (Option JsString)
  verifyEd25519Signature :
    List UInt8 → List UInt8 → JsString → Except Thrown Bool
  importModule : JsString → Imported
  manifestIssues : Json → JsString
  showNumber : Rat → JsString

structure AddonLoadDeps where
  officialPublicKey : JsString
  addonsConfig : LicenseAddonsConfig
  freeOfficialAddons : List JsString

structure LoadedAddon where
  manifest : AddonManifest
  activate : Option Thrown
  deriving DecidableEq

abbrev Loading (α : Type) : Type :=
  Except Thrown α

def fail {α : Type} (kind : ErrorClass) (message : JsString) :
    Loading α :=
  .error (.error kind message)

------------------------------------------------------------
-- Loading
------------------------------------------------------------

variable (platform : Platform) (deps : AddonLoadDeps)

def manifestPath (addonDir : JsString) : JsString :=
  platform.join addonDir (js "addon.manifest.json")

/- A file whose absence is an error of the platform. -/
def readFile (path : JsString) : Loading (List UInt8) :=
  match platform.readFile path with
  | .ok bytes => .ok bytes
  | .error message => fail .error message

def readAndValidateManifest (addonDir : JsString) :
    Loading AddonManifest :=
  let path := manifestPath platform addonDir
  match platform.readFile path with
  | .error _ =>
      fail .addonManifestInvalid
        (js "Missing addon.manifest.json at " ++ path)
  | .ok raw =>
      match parseBytes raw with
      | none =>
          fail .addonManifestInvalid
            (js "addon.manifest.json at " ++ path ++
              js " is not valid JSON")
      | some parsedJson =>
          match addonManifestSchema parsedJson with
          | some manifest => .ok manifest
          | none =>
              fail .addonManifestInvalid
                (js "addon.manifest.json at " ++ path ++
                  js " failed validation: " ++
                  platform.manifestIssues parsedJson)

/- The first capability that is not in the closed list. -/
def assertClosedCapabilities (manifest : AddonManifest) :
    Loading Unit :=
  match
    manifest.capabilities.find? fun capability =>
      !isAddonCapability capability with
  | none => .ok ()
  | some capability =>
      fail .addonCapabilityDenied
        (js "Addon \"" ++ manifest.name ++
          js "\" requested unknown capability \"" ++
          capability ++ js "\" — refusing to load")

def readSignatureFile
    (signaturePath : JsString)
    (manifest : AddonManifest) : Loading (List UInt8) :=
  match platform.readFile signaturePath with
  | .ok signature => .ok signature
  | .error _ =>
      fail .addonSignatureInvalid
        (js "Addon \"" ++ manifest.name ++
          js "\" is missing its signature file at " ++
          signaturePath)

def verifySignature
    (manifest : AddonManifest)
    (manifestBytes entrypointBytes : List UInt8)
    (addonDir : JsString) : Loading Unit := do
  let signaturePath := platform.join addonDir (js "addon.sig")
  let payload :=
    buildSignedPayload manifestBytes entrypointBytes
  match manifest.tier with
  | .official =>
      let signature ←
        readSignatureFile platform signaturePath manifest
      let valid ←
        platform.verifyEd25519Signature payload signature
          deps.officialPublicKey
      if valid then return ()
      else
        fail .addonSignatureInvalid
          (js "Official addon \"" ++ manifest.name ++
            js ("\" failed signature verification against " ++
              "the Deltix key"))
  | .community =>
      let trusted ← platform.getTrustedKey manifest.name
      match trusted with
      | none =>
          fail .addonNotTrusted
            (js "Community addon \"" ++ manifest.name ++
              js ("\" has no TOFU trust record — an admin " ++
                "must register its author's public key " ++
                "before it can load"))
      | some authorPublicKey =>
          let signature ←
            readSignatureFile platform signaturePath manifest
          let valid ←
            platform.verifyEd25519Signature payload signature
              authorPublicKey
          if valid then return ()
          else
            fail .addonSignatureInvalid
              (js "Community addon \"" ++ manifest.name ++
                js ("\" signature does not match its " ++
                  "trusted author key (key rotated without " ++
                  "re-trust, or tampered package)"))

def enforceLicenseRules (manifest : AddonManifest) :
    Loading Unit :=
  match manifest.tier with
  | .official =>
      if deps.freeOfficialAddons.contains manifest.name ||
          deps.addonsConfig.official.contains manifest.name then
        .ok ()
      else
        fail .addonLicenseDenied
          (js "Official addon \"" ++ manifest.name ++
            js "\" is not authorized by this license")
  | .community =>
      if deps.addonsConfig.communityAddonsEnabled then .ok ()
      else
        fail .addonLicenseDenied
          (js ("Community addons are disabled by this " ++
              "license — refusing to load \"") ++
            manifest.name ++ js "\"")

def loadAddon (addonDir : JsString) : Loading LoadedAddon := do
  let manifest ← readAndValidateManifest platform addonDir
  assertClosedCapabilities manifest
  let manifestBytes ←
    readFile platform (manifestPath platform addonDir)
  let entrypointPath :=
    platform.join addonDir manifest.entrypoint
  let entrypointBytes ← readFile platform entrypointPath
  verifySignature platform deps manifest manifestBytes
    entrypointBytes addonDir
  enforceLicenseRules deps manifest
  match platform.importModule entrypointPath with
  | .threw thrown => .error thrown
  | .noAddon =>
      fail .addonManifestInvalid
        (js "Addon \"" ++ manifest.name ++
          js ("\" entrypoint must default-export an object " ++
            "with an activate() function"))
  | .addon activate =>
      return { manifest := manifest, activate := activate }

variable {platform : Platform} {deps : AddonLoadDeps}
variable {addonDir : JsString} {addon : LoadedAddon}

theorem bind_eq_ok
    {α β : Type}
    {first : Loading α}
    {next : α → Loading β}
    {value : β}
    (hBind : (first >>= next) = .ok value) :
    ∃ mid, first = .ok mid ∧ next mid = .ok value := by
  cases first with
  | error thrown => cases hBind
  | ok mid => exact ⟨mid, rfl, hBind⟩

end Addons
