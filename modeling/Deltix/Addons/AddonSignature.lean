import Deltix.Licensing.LicenseKey

/-
  The bytes that the signature of an addon covers: the
  manifest, a separator, and the entrypoint.

  Neither length is part of them, so that they can be taken
  apart again rests on the manifest being a JSON text.

  Key definitions include:
    * `buildSignedPayload`
    * `SignsOneArtefact`

  Key theorems include:
    * `buildSignedPayload_inj`
    * `parseLicenseKey_ne_signedPayload`
    * `signature_binds`
-/

namespace Addons

open Text Licensing

/- The bytes of a text of ASCII. -/
def asciiBytes (text : String) : List UInt8 :=
  text.toList.map fun char => UInt8.ofNat char.toNat

/- The separator between its two zero bytes. -/
def separatorName : List UInt8 :=
  asciiBytes "DELTIX-ADDON" ++ [0]

def SEPARATOR : List UInt8 :=
  0 :: separatorName

def buildSignedPayload
    (manifestBytes entrypointBytes : List UInt8) :
    List UInt8 :=
  manifestBytes ++ SEPARATOR ++ entrypointBytes

/- A license key with these bytes as its payload. -/
def licenseKeyOf
    (payload : List UInt8)
    (signaturePart : List Char) : List Char :=
  Base64Url.encode payload ++ '.' :: signaturePart

variable {m₁ m₂ e₁ e₂ : List UInt8}

/-
  Payloads of manifests that parse are those of one manifest
  and one entrypoint, and no license key holds one.
-/
structure SignsOneArtefact
    (runtime : Runtime)
    (m₁ m₂ e₁ e₂ : List UInt8) : Prop where
  splits :
    buildSignedPayload m₁ e₁ = buildSignedPayload m₂ e₂ →
      m₁ = m₂ ∧ e₁ = e₂
  noLicense :
    ∀ signaturePart parsed,
      parseLicenseKey runtime
          (licenseKeyOf (buildSignedPayload m₁ e₁)
            signaturePart) ≠
        .ok parsed
  noOtherLicense :
    ∀ licenseKey parsed,
      parseLicenseKey runtime licenseKey = .ok parsed →
        parsed.payloadBytes ≠ buildSignedPayload m₁ e₁

/-
  A signature that verifies nothing but the payload of one
  addon verifies no other addon and no license.
-/
def VerifiesOneArtefact
    (runtime : Runtime)
    (verifies : List UInt8 → List UInt8 → Bool)
    (signature m₁ e₁ : List UInt8) : Prop :=
  (∀ m₂ e₂,
    (parseBytes m₂).isSome →
      verifies (buildSignedPayload m₂ e₂) signature = true →
        m₂ = m₁ ∧ e₂ = e₁) ∧
    ∀ licenseKey parsed,
      parseLicenseKey runtime licenseKey = .ok parsed →
        verifies parsed.payloadBytes signature = false

variable {runtime : Runtime}
variable {parsed : ParsedLicenseKey}

theorem buildSignedPayload_eq
    (m e : List UInt8) :
    buildSignedPayload m e = m ++ 0 :: (separatorName ++ e) := by
  unfold buildSignedPayload SEPARATOR
  rw [List.append_assoc]
  rfl

/- A list is cut in one way before the first of an element. -/
theorem cut_unique
    {Element : Type}
    {mark : Element}
    {first second tail rest : List Element}
    (hFirst : mark ∉ first)
    (hSecond : mark ∉ second)
    (hSame : first ++ mark :: tail = second ++ mark :: rest) :
    first = second ∧ tail = rest := by
  induction first generalizing second with
  | nil =>
      cases second with
      | nil =>
          rw [List.nil_append, List.nil_append,
            List.cons.injEq] at hSame
          exact ⟨rfl, hSame.2⟩
      | cons head more =>
          rw [List.nil_append, List.cons_append,
            List.cons.injEq] at hSame
          exfalso
          apply hSecond
          rw [hSame.1]
          exact List.mem_cons_self
  | cons head more ih =>
      cases second with
      | nil =>
          rw [List.nil_append, List.cons_append,
            List.cons.injEq] at hSame
          exfalso
          apply hFirst
          rw [hSame.1]
          exact List.mem_cons_self
      | cons other others =>
          rw [List.cons_append, List.cons_append,
            List.cons.injEq] at hSame
          have hMore : mark ∉ more := fun hMember =>
            hFirst (List.mem_cons_of_mem _ hMember)
          have hOthers : mark ∉ others := fun hMember =>
            hSecond (List.mem_cons_of_mem _ hMember)
          have hRest := ih hMore hOthers hSame.2
          constructor
          · rw [hSame.1, hRest.1]
          · exact hRest.2

/- The first zero byte ends the manifest. -/
theorem buildSignedPayload_inj
    (hFirst : 0 ∉ m₁)
    (hSecond : 0 ∉ m₂)
    (hSame :
      buildSignedPayload m₁ e₁ = buildSignedPayload m₂ e₂) :
    m₁ = m₂ ∧ e₁ = e₂ := by
  rw [buildSignedPayload_eq, buildSignedPayload_eq] at hSame
  have hCut := cut_unique hFirst hSecond hSame
  constructor
  · exact hCut.1
  · exact List.append_cancel_left hCut.2

theorem zero_mem_buildSignedPayload
    (m e : List UInt8) :
    0 ∈ buildSignedPayload m e := by
  rw [buildSignedPayload_eq]
  exact List.mem_append_right _ List.mem_cons_self

theorem parseLicenseKey_ne_signedPayload
    {licenseKey : List Char}
    (hParsed :
      parseLicenseKey runtime licenseKey = .ok parsed) :
    parsed.payloadBytes ≠ buildSignedPayload m₁ e₁ := by
  intro hSame
  have hZero :=
    zero_not_mem_of_parses (parseLicenseKey_parses hParsed).1
  rw [hSame] at hZero
  exact hZero (zero_mem_buildSignedPayload m₁ e₁)

theorem splitOn_licenseKeyOf
    (payload : List UInt8)
    (signaturePart : List Char) :
    (licenseKeyOf payload signaturePart).splitOn '.' =
      Base64Url.encode payload ::
        signaturePart.splitOn '.' := by
  unfold licenseKeyOf
  apply List.splitOn_append_cons_self_of_not_mem
  intro hMember
  have hLetter := Base64Url.isLetter_of_mem_encode hMember
  revert hLetter
  decide

/- The payload of such a key is what was encoded. -/
theorem payloadBytes_licenseKeyOf
    {payload : List UInt8}
    {signaturePart : List Char}
    (hParsed :
      parseLicenseKey runtime
          (licenseKeyOf payload signaturePart) =
        .ok parsed) :
    parsed.payloadBytes = payload := by
  rcases (parseLicenseKey_parses hParsed).2 with
    ⟨first, second, hParts, hPayload⟩
  rw [splitOn_licenseKeyOf, List.cons.injEq] at hParts
  rw [hPayload, ← hParts.1, Base64Url.decode_encode]

/-
  For any manifests that parse and any entrypoints, and for
  a signature that verifies only the bytes that were signed.
-/
theorem signature_binds
    (runtime : Runtime)
    (verifies : List UInt8 → List UInt8 → Bool)
    (signature m₁ m₂ e₁ e₂ : List UInt8)
    (hFirst : (parseBytes m₁).isSome)
    (hSecond : (parseBytes m₂).isSome)
    (hSigned :
      ∀ payload,
        verifies payload signature = true →
          payload = buildSignedPayload m₁ e₁) :
    SignsOneArtefact runtime m₁ m₂ e₁ e₂ ∧
      VerifiesOneArtefact runtime verifies signature m₁ e₁ := by
  constructor
  · constructor
    · intro hSame
      exact
        buildSignedPayload_inj (zero_not_mem_of_parses hFirst)
          (zero_not_mem_of_parses hSecond) hSame
    · intro signaturePart parsed hParsed
      exact
        parseLicenseKey_ne_signedPayload hParsed
          (payloadBytes_licenseKeyOf hParsed)
    · intro licenseKey parsed hParsed
      exact parseLicenseKey_ne_signedPayload hParsed
  · constructor
    · intro m e hParses hVerified
      exact
        buildSignedPayload_inj (zero_not_mem_of_parses hParses)
          (zero_not_mem_of_parses hFirst) (hSigned _ hVerified)
    · intro licenseKey parsed hParsed
      by_contra hVerified
      have hTrue := Bool.of_not_eq_false hVerified
      exact
        parseLicenseKey_ne_signedPayload hParsed
          (hSigned _ hTrue)

/- A signature over a small addon, whose entrypoint holds
   the separator. -/
theorem signature_binds_of_empty :
    SignsOneArtefact ⟨fun _ => none, fun _ => false⟩
        (asciiBytes "[]") (asciiBytes "[0]")
        (SEPARATOR ++ SEPARATOR) SEPARATOR ∧
      VerifiesOneArtefact ⟨fun _ => none, fun _ => false⟩
        (fun payload _ =>
          payload =
            buildSignedPayload (asciiBytes "[]")
              (SEPARATOR ++ SEPARATOR))
        [1] (asciiBytes "[]") (SEPARATOR ++ SEPARATOR) := by
  apply signature_binds
  · decide
  · decide
  · intro payload hVerified
    exact of_decide_eq_true hVerified

end Addons
