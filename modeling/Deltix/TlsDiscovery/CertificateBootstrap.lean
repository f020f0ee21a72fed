import Deltix.Text.Base64
import Deltix.Text.JsonText
import Deltix.Text.Lines
import Deltix.Text.Removal

/-
  The fingerprint that the server advertises of a certificate
  file, and the certificate that a client is shown.

  A server shows the first block of the file.  The fingerprint
  is that of whatever letters the whole file has.

  Key definitions include:
    * `pemToDer`
    * `pemToFingerprint`
    * `PemFile`
    * `LeafAlone`

  Key theorems include:
    * `pemToBase64_text`
    * `pemToDer_eq_iff`
    * `sha256Fingerprint_iff`
-/

namespace TlsDiscovery

open Text

def BEGIN_CERTIFICATE : List Char :=
  "-----BEGIN CERTIFICATE-----".toList

def END_CERTIFICATE : List Char :=
  "-----END CERTIFICATE-----".toList

/- The text that is decoded. -/
def pemToBase64 (pem : List Char) : List Char :=
  (removeAll END_CERTIFICATE
    (removeAll BEGIN_CERTIFICATE pem)).filter fun c =>
      !isBlank c

def pemToDer (pem : List Char) : List UInt8 :=
  Base64.bufferFrom (pemToBase64 pem)

/- `digest('hex')` -/
def hexText (digest : List UInt8) : List Char :=
  digest.flatMap fun byte =>
    [Json.hexDigit (byte.toNat / 16),
      Json.hexDigit (byte.toNat % 16)]

/- `match(/.{1,2}/g)` -/
def pairs : List Char → List (List Char)
  | [] => []
  | [c] => [[c]]
  | c :: d :: rest => [c, d] :: pairs rest

/- `join(':')` -/
def joinColons : List (List Char) → List Char
  | [] => []
  | [part] => part
  | part :: rest => part ++ ':' :: joinColons rest

/- A digest as it is shown. -/
def fingerprintOf (digest : List UInt8) : List Char :=
  joinColons (pairs ((hexText digest).map Char.toUpper))

def pemToFingerprint
    (sha256 : List UInt8 → List UInt8)
    (pem : List Char) : List Char :=
  fingerprintOf (sha256 (pemToDer pem))

structure CertificateBootstrapConfig where
  httpCertPem : Option (List Char)
  grpcCertPem : List Char

structure CertificateInfo where
  pem : List Char
  sha256Fingerprint : List Char
  deriving DecidableEq

structure BootstrapCertificates where
  http : Option CertificateInfo
  grpc : CertificateInfo
  deriving DecidableEq

def certificateInfo
    (sha256 : List UInt8 → List UInt8)
    (pem : List Char) : CertificateInfo where
  pem := pem
  sha256Fingerprint := pemToFingerprint sha256 pem

/- The certificates of a new `CertificateBootstrapService`. -/
def getCertificates
    (sha256 : List UInt8 → List UInt8)
    (config : CertificateBootstrapConfig) :
    BootstrapCertificates where
  http :=
    match config.httpCertPem with
    | none => none
    | some [] => none
    | some pem => some (certificateInfo sha256 pem)
  grpc := certificateInfo sha256 config.grpcCertPem

example :
    fingerprintOf [0x0A, 0xFF] = "0A:FF".toList ∧
      pemToDer "-----BEGIN CERTIFICATE-----\nMA==\n".toList =
        [0x30] := by
  decide

/- Blanks that end no line. -/
def LineBlanks (text : List Char) : Prop :=
  ∀ c ∈ text, isBlank c = true ∧ c ≠ '\n'

/- A block of one certificate: its marker lines may end with
   blanks, and its lines may be of any length. -/
structure CertificateBlock where
  der : List UInt8
  afterBegin : List Char
  body : List Char
  afterEnd : List Char
  beginBlank : LineBlanks afterBegin
  endBlank : LineBlanks afterEnd
  encoded :
    (body.filter fun c => !isBlank c) = Base64.encode der

def CertificateBlock.text (block : CertificateBlock) : List Char :=
  (BEGIN_CERTIFICATE ++ block.afterBegin) ++
    '\n' ::
      (block.body ++ '\n' :: (END_CERTIFICATE ++ block.afterEnd))

/- Whole lines, none of which starts a block. -/
structure OutsideLines (text : List Char) : Prop where
  whole : text = [] ∨ ∃ lines, text = lines ++ ['\n']
  noBlock :
    ∀ line ∈ split '\n' text, ¬ BEGIN_CERTIFICATE <+: line

/-
  A file with the certificate of the server, any number of
  further ones, and text before, between and after them.
-/
structure PemFile where
  before : List Char
  leaf : CertificateBlock
  chain : List (List Char × CertificateBlock)
  after : Option (List Char)
  beforeLines : OutsideLines before
  chainLines : ∀ link ∈ chain, OutsideLines link.1
  afterLines :
    ∀ text ∈ after, ∀ line ∈ split '\n' text,
      ¬ BEGIN_CERTIFICATE <+: line

namespace PemFile

/- What stands after the first block. -/
def following (file : PemFile) : List Char :=
  (file.chain.flatMap fun link =>
      '\n' :: (link.1 ++ link.2.text)) ++
    (match file.after with
    | none => []
    | some text => '\n' :: text)

def text (file : PemFile) : List Char :=
  file.before ++ (file.leaf.text ++ file.following)

end PemFile

/-
  No letters stand before the block.  None is decoded after
  it, or a single one that makes no byte, or the block ends
  with padding.  The odd cases: the letters before the block
  are decoded to the certificate themselves, or there is one
  that all letters of the block are like.
-/
def LeafAlone (file : PemFile) : Prop :=
  let front := pemToBase64 file.before
  let rest := pemToBase64 file.following
  if '=' ∈ front then Base64.bufferFrom front = file.leaf.der
  else
    (Base64.letters front = [] ∧
        (file.leaf.der.length % 3 ≠ 0 ∨
          (Base64.letters rest).length ≤ 1)) ∨
      (file.leaf.der.length % 3 = 0 ∧
        Base64.letters rest = [] ∧
        ∃ extra, Base64.letters front = [extra] ∧
          ∀ c ∈ Base64Url.encode file.leaf.der,
            Base64Url.sextet c = Base64Url.sextet extra)

------------------------------------------------------------
-- The Text That Is Decoded
------------------------------------------------------------

variable {a b blanks : List Char}

/- The lines of a file are cleaned one by one. -/
theorem pemToBase64_append_cons
    (a b : List Char) :
    pemToBase64 (a ++ '\n' :: b) =
      pemToBase64 a ++ pemToBase64 b := by
  have hBegin : '\n' ∉ BEGIN_CERTIFICATE := by
    decide
  have hEnd : '\n' ∉ END_CERTIFICATE := by
    decide
  have hBeginSome : BEGIN_CERTIFICATE ≠ [] := by
    decide
  have hEndSome : END_CERTIFICATE ≠ [] := by
    decide
  have hBreak : isBlank '\n' = true := by
    decide
  unfold pemToBase64
  rw [removeAll_append_cons hBegin hBeginSome,
    removeAll_append_cons hEnd hEndSome, List.filter_append,
    List.filter_cons, hBreak]
  rfl

theorem not_mem_of_lineBlanks
    {c : Char}
    (hBlanks : LineBlanks blanks)
    (hSolid : isBlank c = false) :
    c ∉ blanks := by
  intro hMember
  have hBlank := (hBlanks c hMember).1
  rw [hSolid] at hBlank
  cases hBlank

theorem filter_of_lineBlanks
    (hBlanks : LineBlanks blanks) :
    (blanks.filter fun c => !isBlank c) = [] := by
  rw [List.filter_eq_nil_iff]
  intro c hMember
  simp [(hBlanks c hMember).1]

/- The line of a marker leaves nothing. -/
theorem pemToBase64_begin
    (hBlanks : LineBlanks blanks) :
    pemToBase64 (BEGIN_CERTIFICATE ++ blanks) = [] := by
  have hB : 'B' ∈ BEGIN_CERTIFICATE := by
    decide
  have hN : 'N' ∈ END_CERTIFICATE := by
    decide
  unfold pemToBase64
  rw [removeAll_pattern_append (by decide),
    removeAll_of_not_mem hB
      (not_mem_of_lineBlanks hBlanks (by decide)),
    removeAll_of_not_mem hN
      (not_mem_of_lineBlanks hBlanks (by decide))]
  exact filter_of_lineBlanks hBlanks

theorem pemToBase64_end
    (hBlanks : LineBlanks blanks) :
    pemToBase64 (END_CERTIFICATE ++ blanks) = [] := by
  have hB : 'B' ∈ BEGIN_CERTIFICATE := by
    decide
  have hN : 'N' ∈ END_CERTIFICATE := by
    decide
  have hOther : 'B' ∉ END_CERTIFICATE ++ blanks := by
    intro hMember
    rcases List.mem_append.mp hMember with hEnd | hIn
    · revert hEnd
      decide
    · exact
        not_mem_of_lineBlanks hBlanks (by decide) hIn
  unfold pemToBase64
  rw [removeAll_of_not_mem hB hOther,
    removeAll_pattern_append (by decide),
    removeAll_of_not_mem hN
      (not_mem_of_lineBlanks hBlanks (by decide))]
  exact filter_of_lineBlanks hBlanks

theorem dash_not_mem_encode (bytes : List UInt8) :
    '-' ∉ Base64.encode bytes := by
  intro hMember
  unfold Base64.encode at hMember
  rcases List.mem_append.mp hMember with hLetter | hPad
  · rcases List.mem_map.mp hLetter with ⟨c, _, hSame⟩
    unfold Base64.ofUrl at hSame
    split_ifs at hSame with hDash hLine
    · revert hSame
      decide
    · revert hSame
      decide
    · exact hDash hSame
  · have hOnly := (List.mem_replicate.mp hPad).2
    revert hOnly
    decide

/- A block leaves the letters of its certificate. -/
theorem pemToBase64_block (block : CertificateBlock) :
    pemToBase64 block.text = Base64.encode block.der := by
  have hDash : '-' ∉ block.body := by
    intro hMember
    apply dash_not_mem_encode block.der
    rw [← block.encoded, List.mem_filter]
    exact ⟨hMember, by decide⟩
  have hBody :
      pemToBase64 block.body = Base64.encode block.der := by
    have hBegin : '-' ∈ BEGIN_CERTIFICATE := by
      decide
    have hEnd : '-' ∈ END_CERTIFICATE := by
      decide
    unfold pemToBase64
    rw [removeAll_of_not_mem hBegin hDash,
      removeAll_of_not_mem hEnd hDash]
    exact block.encoded
  unfold CertificateBlock.text
  rw [pemToBase64_append_cons, pemToBase64_append_cons,
    pemToBase64_begin block.beginBlank, hBody,
    pemToBase64_end block.endBlank, List.append_nil,
    List.nil_append]

theorem pemToBase64_lines
    (hLines : OutsideLines a)
    (b : List Char) :
    pemToBase64 (a ++ b) = pemToBase64 a ++ pemToBase64 b := by
  rcases hLines.whole with hNone | ⟨lines, hWhole⟩
  · rw [hNone]
    rfl
  · have hNothing : pemToBase64 [] = [] := rfl
    rw [hWhole, List.append_assoc, List.singleton_append,
      pemToBase64_append_cons, pemToBase64_append_cons,
      hNothing, List.append_nil]

theorem following_cases (file : PemFile) :
    file.following = [] ∨
      ∃ rest, file.following = '\n' :: rest := by
  unfold PemFile.following
  cases file.chain with
  | cons link rest => exact Or.inr ⟨_, rfl⟩
  | nil =>
      cases file.after with
      | none => exact Or.inl rfl
      | some text => exact Or.inr ⟨text, rfl⟩

/- The text of a file is that of its parts. -/
theorem pemToBase64_text (file : PemFile) :
    pemToBase64 file.text =
      pemToBase64 file.before ++
        (Base64.encode file.leaf.der ++
          pemToBase64 file.following) := by
  have hNothing : pemToBase64 [] = [] := rfl
  unfold PemFile.text
  rw [pemToBase64_lines file.beforeLines]
  rcases following_cases file with hNone | ⟨rest, hRest⟩
  · rw [hNone, List.append_nil, pemToBase64_block, hNothing,
      List.append_nil]
  · have hTail :
        pemToBase64 ('\n' :: rest) = pemToBase64 rest :=
      pemToBase64_append_cons [] rest
    rw [hRest, pemToBase64_append_cons, pemToBase64_block,
      hTail]

------------------------------------------------------------
-- The Certificate That Is Decoded
------------------------------------------------------------

/- The file is decoded to its first certificate exactly if
   nothing else is decoded. -/
theorem pemToDer_eq_iff (file : PemFile) :
    pemToDer file.text = file.leaf.der ↔ LeafAlone file := by
  unfold pemToDer LeafAlone
  rw [pemToBase64_text]
  dsimp only
  by_cases hPad : '=' ∈ pemToBase64 file.before
  · rw [if_pos hPad]
    unfold Base64.bufferFrom
    rw [Base64.letters_append_of_pad hPad]
  · rw [if_neg hPad]
    unfold Base64.bufferFrom
    rw [Base64.letters_append hPad]
    by_cases hLeafPad : '=' ∈ Base64.encode file.leaf.der
    · have hThrees := Base64.pad_mem_encode_iff.mp hLeafPad
      have hAround :=
        Base64Url.decode_around_iff file.leaf.der
          (Base64.letters (pemToBase64 file.before)) []
      rw [List.append_nil] at hAround
      rw [Base64.letters_append_of_pad hLeafPad,
        Base64.letters_encode, hAround]
      simp [hThrees]
    · have hThrees : file.leaf.der.length % 3 = 0 := by
        by_contra hNot
        exact hLeafPad (Base64.pad_mem_encode_iff.mpr hNot)
      have hAround :=
        Base64Url.decode_around_iff file.leaf.der
          (Base64.letters (pemToBase64 file.before))
          (Base64.letters (pemToBase64 file.following))
      have hShort :
          (Base64.letters (pemToBase64 file.following) = [] ∨
              (Base64.letters
                (pemToBase64 file.following)).length = 1) ↔
            (Base64.letters
              (pemToBase64 file.following)).length ≤ 1 := by
        rw [← List.length_eq_zero_iff]
        omega
      rw [Base64.letters_append hLeafPad,
        Base64.letters_encode, ← List.append_assoc, hAround]
      simp only [hThrees, true_and, ne_eq, not_true_eq_false,
        false_or, hShort]

/- A digest is told by its pairs. -/
theorem hexDigit_injective :
    ∀ digit < 16, ∀ other < 16,
      (Json.hexDigit digit).toUpper =
        (Json.hexDigit other).toUpper → digit = other := by
  decide

theorem fingerprintOf_cons
    (byte : UInt8)
    (rest : List UInt8) :
    fingerprintOf (byte :: rest) =
      (Json.hexDigit (byte.toNat / 16)).toUpper ::
        (Json.hexDigit (byte.toNat % 16)).toUpper ::
        (if rest = [] then [] else ':' :: fingerprintOf rest) := by
  cases rest with
  | nil => rfl
  | cons next others => rfl

theorem fingerprintOf_injective
    {digest other : List UInt8}
    (hSame : fingerprintOf digest = fingerprintOf other) :
    digest = other := by
  induction digest generalizing other with
  | nil =>
      cases other with
      | nil => rfl
      | cons byte rest =>
          rw [fingerprintOf_cons] at hSame
          cases hSame
  | cons byte rest ih =>
      cases other with
      | nil =>
          rw [fingerprintOf_cons] at hSame
          cases hSame
      | cons otherByte others =>
          rw [fingerprintOf_cons, fingerprintOf_cons]
            at hSame
          have hLess := byte.toNat_lt
          have hOtherLess := otherByte.toNat_lt
          rcases List.cons.inj hSame with ⟨hHigh, hTail⟩
          rcases List.cons.inj hTail with ⟨hLow, hRest⟩
          have hFirst :=
            hexDigit_injective _ (by omega) _ (by omega) hHigh
          have hSecond :=
            hexDigit_injective _ (by omega) _ (by omega) hLow
          have hByte : byte = otherByte := by
            apply UInt8.toNat_inj.mp
            omega
          rw [hByte]
          congr 1
          split_ifs at hRest with hNone hNoOther hNoOther
          · rw [hNone, hNoOther]
          · exact ih (List.cons.inj hRest).2

theorem text_ne_nil (file : PemFile) : file.text ≠ [] := by
  intro hNone
  have hBlock :=
    (List.append_eq_nil_iff.mp
      (List.append_eq_nil_iff.mp hNone).2).1
  unfold CertificateBlock.text at hBlock
  have hBegin :=
    (List.append_eq_nil_iff.mp
      (List.append_eq_nil_iff.mp hBlock).1).1
  revert hBegin
  decide

/-
  The fingerprint of a file is that of its first certificate
  exactly if nothing else is decoded, for the certificate of
  either listener.
-/
theorem sha256Fingerprint_iff
    (sha256 : List UInt8 → List UInt8)
    (file : PemFile)
    (config : CertificateBootstrapConfig)
    (hNoCollision :
      sha256 (pemToDer file.text) = sha256 file.leaf.der →
        pemToDer file.text = file.leaf.der) :
    (config.grpcCertPem = file.text →
        ((getCertificates sha256 config).grpc.sha256Fingerprint =
            fingerprintOf (sha256 file.leaf.der) ↔
          LeafAlone file)) ∧
      (config.httpCertPem = some file.text →
        ∃ info,
          (getCertificates sha256 config).http = some info ∧
            (info.sha256Fingerprint =
                fingerprintOf (sha256 file.leaf.der) ↔
              LeafAlone file)) := by
  have hFingerprint :
      pemToFingerprint sha256 file.text =
          fingerprintOf (sha256 file.leaf.der) ↔
        LeafAlone file := by
    rw [← pemToDer_eq_iff]
    constructor
    · intro hSame
      exact hNoCollision (fingerprintOf_injective hSame)
    · intro hSame
      unfold pemToFingerprint
      rw [hSame]
  constructor
  · intro hGrpc
    unfold getCertificates
    rw [hGrpc]
    exact hFingerprint
  · intro hHttp
    refine ⟨certificateInfo sha256 file.text, ?_, hFingerprint⟩
    unfold getCertificates
    rw [hHttp]
    cases hText : file.text with
    | nil => exact absurd hText (text_ne_nil file)
    | cons first rest => rfl

/- A block of three bytes on a line. -/
def shortBlock (last : Bool) : CertificateBlock where
  der := [0x30, 1, if last then 1 else 0]
  afterBegin := []
  body := if last then "MAEB".toList else "MAEA".toList
  afterEnd := []
  beginBlank := by
    intro c hMember
    cases hMember
  endBlank := by
    intro c hMember
    cases hMember
  encoded := by
    cases last with
    | true => decide
    | false => decide

/- The leaf with further certificates or a line before it. -/
def shortFile
    (before : String)
    (chained : Bool)
    (hBefore : OutsideLines before.toList) : PemFile where
  before := before.toList
  leaf := shortBlock false
  chain := if chained then [([], shortBlock true)] else []
  after := some []
  beforeLines := hBefore
  chainLines := by
    intro link hLink
    cases chained with
    | false => cases hLink
    | true =>
        rw [List.mem_singleton.mp hLink]
        exact ⟨Or.inl rfl, by decide⟩
  afterLines := by
    intro text hText
    cases hText
    decide

theorem no_lines : OutsideLines "".toList :=
  ⟨Or.inl rfl, by decide⟩

theorem leaf_line : OutsideLines "leaf\n".toList :=
  ⟨Or.inr ⟨"leaf".toList, rfl⟩, by decide⟩

theorem sha256Fingerprint_iff_bare :
    let file := shortFile "" false no_lines
    let config : CertificateBootstrapConfig :=
      { httpCertPem := none, grpcCertPem := file.text }
    (getCertificates id config).grpc.sha256Fingerprint =
        fingerprintOf file.leaf.der ↔
      LeafAlone file := by
  intro file config
  exact (sha256Fingerprint_iff id file config id).1 rfl

/- A chain, or a line before the block, is decoded with it. -/
theorem others_decoded :
    let bare := shortFile "" false no_lines
    let chained := shortFile "" true no_lines
    let commented := shortFile "leaf\n" false leaf_line
    pemToDer bare.text = bare.leaf.der ∧
      pemToDer chained.text = [0x30, 1, 0, 0x30, 1, 1] ∧
      chained.leaf.der = [0x30, 1, 0] ∧
      pemToDer commented.text ≠ commented.leaf.der ∧
      (certificateInfo id chained.text).sha256Fingerprint ≠
        fingerprintOf chained.leaf.der ∧
      (certificateInfo id chained.text).sha256Fingerprint ≠
        (certificateInfo id bare.text).sha256Fingerprint := by
  decide +kernel

end TlsDiscovery
