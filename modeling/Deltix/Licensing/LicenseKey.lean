import Deltix.Text.Base64Url
import Deltix.Text.Json
import Deltix.Text.Utf8

/-
  The shape of a license key: two segments of base64, the
  first of which is a JSON text with the license.

  Key definitions include:
    * `LicenseAddonsConfig`
    * `LicensePayload`
    * `parseLicenseKey`
    * `resolveLicenseAddonsConfig`

  Key theorems include:
    * `zero_not_mem_of_parses`
    * `parseLicenseKey_parses`
-/

namespace Licensing

open Text

structure LicenseAddonsConfig where
  official : List JsString
  communityAddonsEnabled : Bool
  maxCommunityAddons : Option Rat
  deriving DecidableEq

inductive LicenseTier where
  | community
  | enterprise
  deriving DecidableEq, Repr

structure LicensePayload where
  licensee : JsString
  tier : LicenseTier
  seats : Rat
  addons : Option LicenseAddonsConfig
  issuedAt : JsString
  expiresAt : Option JsString
  nonce : JsString
  deriving DecidableEq

structure ParsedLicenseKey where
  payloadBytes : List UInt8
  payload : LicensePayload
  signature : List UInt8

/- `LicenseMalformedError` -/
structure LicenseMalformedError where
  message : String
  deriving DecidableEq, Repr

/-
  What the language does with numbers and dates: the double
  nearest to a decimal, unless it is infinite, and whether
  `Date.parse` finds a date.
-/
structure Runtime where
  double : Decimal → Option Rat
  parsesDate : JsString → Bool

/- `JSON.parse` of bytes that are read as UTF-8. -/
def parseBytes (bytes : List UInt8) : Option Json :=
  Json.parse (Utf8.decode bytes)

------------------------------------------------------------
-- The Parser Of License Keys
------------------------------------------------------------

abbrev Checked (α : Type) : Type :=
  Except LicenseMalformedError α

def malformed {α : Type} (message : String) : Checked α :=
  .error ⟨message⟩

variable (runtime : Runtime)
variable (v : List (JsString × Json))

def assertLicensee : Checked JsString :=
  match Json.get? v "licensee" with
  | some (.string licensee) =>
      if licensee.length = 0 then
        malformed "License payload missing a valid \"licensee\""
      else .ok licensee
  | _ =>
      malformed "License payload missing a valid \"licensee\""

def assertTier : Checked LicenseTier :=
  match Json.get? v "tier" with
  | some (.string tier) =>
      if tier = js "community" then .ok .community
      else if tier = js "enterprise" then .ok .enterprise
      else
        malformed
          ("License payload \"tier\" must be " ++
            "\"community\" or \"enterprise\"")
  | _ =>
      malformed
        ("License payload \"tier\" must be " ++
          "\"community\" or \"enterprise\"")

/- A finite number that is at least a bound. -/
def numberFrom (least : Rat) : Option Json → Option Rat
  | some (.number written) =>
      (runtime.double written).filter fun value =>
        least ≤ value
  | _ => none

def assertSeats : Checked Rat :=
  match numberFrom runtime 1 (Json.get? v "seats") with
  | some seats => .ok seats
  | none =>
      malformed
        "License payload \"seats\" must be a positive number"

/- The strings of an array that holds nothing else. -/
def strings : List Json → Option (List JsString)
  | [] => some []
  | .string value :: rest => (strings rest).map (value :: ·)
  | _ :: _ => none

def assertOfficial
    (addons : List (JsString × Json)) :
    Checked (List JsString) :=
  let message :=
    "License payload \"addons.official\" must be " ++
      "an array of strings"
  match Json.get? addons "official" with
  | some (.array elements) =>
      match strings elements with
      | some official => .ok official
      | none => malformed message
  | _ => malformed message

def assertMaxCommunityAddons
    (addons : List (JsString × Json)) :
    Checked (Option Rat) :=
  match Json.get? addons "maxCommunityAddons" with
  | some .null => .ok none
  | other =>
      match numberFrom runtime 0 other with
      | some value => .ok (some value)
      | none =>
          malformed
            ("License payload \"addons.maxCommunityAddons\" " ++
              "must be a non-negative number or null")

def assertAddons : Checked (Option LicenseAddonsConfig) :=
  match Json.get? v "addons" with
  | none => .ok none
  | some (.object addons) => do
      let official ← assertOfficial addons
      match Json.get? addons "communityAddonsEnabled" with
      | some (.bool communityAddonsEnabled) =>
          let maxCommunityAddons ←
            assertMaxCommunityAddons runtime addons
          return some {
            official := official
            communityAddonsEnabled := communityAddonsEnabled
            maxCommunityAddons := maxCommunityAddons }
      | _ =>
          malformed
            ("License payload " ++
              "\"addons.communityAddonsEnabled\" " ++
              "must be a boolean")
  | some _ =>
      malformed
        ("License payload \"addons\" must be an object " ++
          "when present")

def assertIssuedAt : Checked JsString :=
  match Json.get? v "issuedAt" with
  | some (.string issuedAt) =>
      if runtime.parsesDate issuedAt then .ok issuedAt
      else
        malformed
          ("License payload \"issuedAt\" must be " ++
            "a valid ISO 8601 date")
  | _ =>
      malformed
        ("License payload \"issuedAt\" must be " ++
          "a valid ISO 8601 date")

def assertExpiresAt : Checked (Option JsString) :=
  match Json.get? v "expiresAt" with
  | none => .ok none
  | some (.string expiresAt) =>
      if runtime.parsesDate expiresAt then .ok (some expiresAt)
      else
        malformed
          ("License payload \"expiresAt\" must be " ++
            "a valid ISO 8601 date")
  | some _ =>
      malformed
        ("License payload \"expiresAt\" must be " ++
          "a valid ISO 8601 date")

def assertNonce : Checked JsString :=
  match Json.get? v "nonce" with
  | some (.string nonce) =>
      if nonce.length = 0 then
        malformed "License payload missing a valid \"nonce\""
      else .ok nonce
  | _ => malformed "License payload missing a valid \"nonce\""

/- An array is an object too, without the members asked for. -/
def membersOf : Json → Option (List (JsString × Json))
  | .object members => some members
  | .array _ => some []
  | _ => none

def assertIsLicensePayload (value : Json) :
    Checked LicensePayload := do
  match membersOf value with
  | none => malformed "License payload must be a JSON object"
  | some v =>
      let licensee ← assertLicensee v
      let tier ← assertTier v
      let seats ← assertSeats runtime v
      let addons ← assertAddons runtime v
      let issuedAt ← assertIssuedAt runtime v
      let expiresAt ← assertExpiresAt runtime v
      let nonce ← assertNonce v
      return {
        licensee := licensee
        tier := tier
        seats := seats
        addons := addons
        issuedAt := issuedAt
        expiresAt := expiresAt
        nonce := nonce }

/- `BASE64URL_PATTERN` -/
def isBase64Url (part : List Char) : Bool :=
  !part.isEmpty && part.all Base64Url.isLetter

def parseLicenseKey (licenseKey : List Char) :
    Checked ParsedLicenseKey :=
  match licenseKey.splitOn '.' with
  | [payloadPart, signaturePart] =>
      if !isBase64Url payloadPart ||
          !isBase64Url signaturePart then
        malformed
          "License key segments must be valid base64url"
      else
        let payloadBytes := Base64Url.decode payloadPart
        match parseBytes payloadBytes with
        | none =>
            malformed "License payload is not valid JSON"
        | some parsedJson => do
            let payload ←
              assertIsLicensePayload runtime parsedJson
            return {
              payloadBytes := payloadBytes
              payload := payload
              signature := Base64Url.decode signaturePart }
  | parts =>
      malformed
        ("License key must have the form " ++
          "\"<payload>.<signature>\", got " ++
          toString parts.length ++ " segment(s)")

/- The rules for addons, or the defaults of the tier. -/
def resolveLicenseAddonsConfig
    (payload : LicensePayload) : LicenseAddonsConfig :=
  match payload.addons with
  | some addons => addons
  | none =>
      match payload.tier with
      | .community =>
          { official := []
            communityAddonsEnabled := true
            maxCommunityAddons := some 10 }
      | .enterprise =>
          { official := []
            communityAddonsEnabled := true
            maxCommunityAddons := none }

variable {runtime : Runtime} {licenseKey : List Char}
variable {parsed : ParsedLicenseKey}

/- A zero byte is decoded as a control character, which may
   stand nowhere in a JSON text. -/
theorem zero_not_mem_of_parses
    {bytes : List UInt8}
    (hParses : (parseBytes bytes).isSome) :
    0 ∉ bytes := by
  intro hMember
  rcases Option.isSome_iff_exists.mp hParses with
    ⟨value, hValue⟩
  have hDecoded :
      Char.ofNat (0 : UInt8).toNat ∈ Utf8.decode bytes :=
    Utf8.ascii_mem_decode (by decide) hMember
  have hPlain := Json.plain_of_parse hValue _ hDecoded
  have hControl :
      ¬ (0x20 ≤ (Char.ofNat (0 : UInt8).toNat).toNat ∨
        Json.isWhitespace (Char.ofNat (0 : UInt8).toNat) =
          true) := by
    decide
  exact hControl hPlain

/- The payload is what the first segment stands for. -/
theorem parseLicenseKey_parses
    (hParsed :
      parseLicenseKey runtime licenseKey = .ok parsed) :
    (parseBytes parsed.payloadBytes).isSome ∧
      ∃ payloadPart signaturePart,
        licenseKey.splitOn '.' =
            [payloadPart, signaturePart] ∧
          parsed.payloadBytes =
            Base64Url.decode payloadPart := by
  unfold parseLicenseKey at hParsed
  split at hParsed
  · rename_i payloadPart signaturePart hParts
    split at hParsed
    · cases hParsed
    · dsimp only at hParsed
      split at hParsed
      · cases hParsed
      · rename_i parsedJson hJson
        cases hPayload :
            assertIsLicensePayload runtime parsedJson with
        | error error =>
            rw [hPayload] at hParsed
            cases hParsed
        | ok payload =>
            rw [hPayload] at hParsed
            cases hParsed
            refine ⟨?_, payloadPart, signaturePart, hParts, rfl⟩
            rw [hJson]
            rfl
  · cases hParsed

end Licensing
