import Mathlib.Data.List.Basic

/-
  Decoding bytes as UTF-8, with a replacement character for
  every sequence of bytes that is no character.

  A byte that does not continue the character begun starts
  a new one, so no byte is ever swallowed by the one before
  it.

  Key definitions include:
    * `Utf8.Begun`
    * `Utf8.decode`
    * `Utf8.encode`

  Key theorems include:
    * `Utf8.ascii_mem_decode`
    * `Utf8.decode_encode`
    * `Utf8.mem_of_ascii_mem_encode`
-/

------------------------------------------------------------
-- The Decoder
------------------------------------------------------------

namespace Text

namespace Utf8

variable {bytes : List UInt8} {byte : UInt8}

/- What stands for bytes that are no character. -/
def replacement : Char := Char.ofNat 0xFFFD

/-
  A character that is begun: how many bytes it lacks besides
  the next one, which bytes may come next, and its bits so
  far.  No byte of ASCII continues a character.
-/
structure Begun where
  lacking : Nat
  lower : Nat
  upper : Nat
  bits : Nat
  lower_ascii : 0x80 ≤ lower

/- What a byte makes of the start of a character. -/
def begin (byte : Nat) : List Char × Option Begun :=
  if byte ≤ 0x7F then ([Char.ofNat byte], none)
  else if 0xC2 ≤ byte ∧ byte ≤ 0xDF then
    ([], some ⟨0, 0x80, 0xBF, byte - 0xC0, by decide⟩)
  else if byte = 0xE0 then
    ([], some ⟨1, 0xA0, 0xBF, 0, by decide⟩)
  else if byte = 0xED then
    ([], some ⟨1, 0x80, 0x9F, 0xD, by decide⟩)
  else if 0xE1 ≤ byte ∧ byte ≤ 0xEF then
    ([], some ⟨1, 0x80, 0xBF, byte - 0xE0, by decide⟩)
  else if byte = 0xF0 then
    ([], some ⟨2, 0x90, 0xBF, 0, by decide⟩)
  else if byte = 0xF4 then
    ([], some ⟨2, 0x80, 0x8F, 4, by decide⟩)
  else if 0xF1 ≤ byte ∧ byte ≤ 0xF3 then
    ([], some ⟨2, 0x80, 0xBF, byte - 0xF0, by decide⟩)
  else ([replacement], none)

/- What a byte adds to a character that is begun. -/
def proceed
    (begun : Begun)
    (byte : Nat) : List Char × Option Begun :=
  if begun.lower ≤ byte ∧ byte ≤ begun.upper then
    let bits := begun.bits * 0x40 + (byte - 0x80)
    match begun.lacking with
    | 0 => ([Char.ofNat bits], none)
    | lacking + 1 =>
        ([], some ⟨lacking, 0x80, 0xBF, bits, by decide⟩)
  else
    (replacement :: (begin byte).1, (begin byte).2)

def step :
    Option Begun → Nat → List Char × Option Begun
  | none, byte => begin byte
  | some begun, byte => proceed begun byte

def decodeFrom : Option Begun → List UInt8 → List Char
  | none, [] => []
  | some _, [] => [replacement]
  | begun, byte :: rest =>
      (step begun byte.toNat).1 ++
        decodeFrom (step begun byte.toNat).2 rest

def decode (bytes : List UInt8) : List Char :=
  decodeFrom none bytes

example :
    decode [0x68, 0xC3, 0xA9, 0xE2, 0x82, 0x00] =
      ['h', 'é', replacement, Char.ofNat 0] := by
  decide

theorem ascii_mem_step
    (begun : Option Begun)
    {byte : Nat}
    (hAscii : byte ≤ 0x7F) :
    Char.ofNat byte ∈ (step begun byte).1 := by
  have hBegin : Char.ofNat byte ∈ (begin byte).1 := by
    unfold begin
    rw [if_pos hAscii]
    exact List.mem_singleton.mpr rfl
  cases begun with
  | none => exact hBegin
  | some begun =>
      have hLower := begun.lower_ascii
      have hOther :
          ¬ (begun.lower ≤ byte ∧ byte ≤ begun.upper) := by
        omega
      change Char.ofNat byte ∈ (proceed begun byte).1
      unfold proceed
      rw [if_neg hOther]
      exact List.mem_cons_of_mem _ hBegin

/- A byte of ASCII is decoded wherever it stands. -/
theorem ascii_mem_decodeFrom
    (begun : Option Begun)
    (hAscii : byte.toNat ≤ 0x7F)
    (hMember : byte ∈ bytes) :
    Char.ofNat byte.toNat ∈ decodeFrom begun bytes := by
  induction bytes generalizing begun with
  | nil => cases hMember
  | cons first rest ih =>
      have hSplit :
          decodeFrom begun (first :: rest) =
            (step begun first.toNat).1 ++
              decodeFrom (step begun first.toNat).2 rest := by
        cases begun with
        | none => rfl
        | some begun => rfl
      rw [hSplit, List.mem_append]
      rcases List.mem_cons.mp hMember with hFirst | hRest
      · left
        rw [← hFirst]
        exact ascii_mem_step begun hAscii
      · right
        exact ih _ hRest

theorem ascii_mem_decode
    (hAscii : byte.toNat ≤ 0x7F)
    (hMember : byte ∈ bytes) :
    Char.ofNat byte.toNat ∈ decode bytes :=
  ascii_mem_decodeFrom none hAscii hMember

------------------------------------------------------------
-- The Encoder
------------------------------------------------------------

/- The bytes of a character. -/
def codeBytes (code : Nat) : List Nat :=
  if code < 0x80 then [code]
  else if code < 0x800 then
    [0xC0 + code / 0x40, 0x80 + code % 0x40]
  else if code < 0x10000 then
    [0xE0 + code / 0x1000, 0x80 + code / 0x40 % 0x40,
      0x80 + code % 0x40]
  else
    [0xF0 + code / 0x40000, 0x80 + code / 0x1000 % 0x40,
      0x80 + code / 0x40 % 0x40, 0x80 + code % 0x40]

def encodeChar (char : Char) : List UInt8 :=
  (codeBytes char.toNat).map UInt8.ofNat

def encode (chars : List Char) : List UInt8 :=
  chars.flatMap encodeChar

theorem encode_append
    (first second : List Char) :
    encode (first ++ second) =
      encode first ++ encode second :=
  List.flatMap_append

variable {byte : Nat} {begun : Begun}
variable {rest : List UInt8} {char : Char}

theorem decodeFrom_cons
    (begun : Option Begun)
    (hByte : byte < 0x100) :
    decodeFrom begun (UInt8.ofNat byte :: rest) =
      (step begun byte).1 ++
        decodeFrom (step begun byte).2 rest := by
  have hCode : (UInt8.ofNat byte).toNat = byte := by
    rw [UInt8.toNat_ofNat']
    omega
  cases begun with
  | none => rw [decodeFrom, hCode]
  | some begun => rw [decodeFrom, hCode]

/- A byte that continues a character. -/
theorem decodeFrom_more
    {lacking : Nat}
    (hByte : byte < 0x100)
    (hRange : begun.lower ≤ byte ∧ byte ≤ begun.upper)
    (hLacking : begun.lacking = lacking + 1) :
    decodeFrom (some begun) (UInt8.ofNat byte :: rest) =
      decodeFrom
        (some
          ⟨lacking, 0x80, 0xBF,
            begun.bits * 0x40 + (byte - 0x80), by decide⟩)
        rest := by
  rw [decodeFrom_cons _ hByte]
  simp only [step, proceed]
  rw [if_pos hRange, hLacking]
  rfl

theorem decodeFrom_last
    (hByte : byte < 0x100)
    (hRange : begun.lower ≤ byte ∧ byte ≤ begun.upper)
    (hLacking : begun.lacking = 0) :
    decodeFrom (some begun) (UInt8.ofNat byte :: rest) =
      Char.ofNat (begun.bits * 0x40 + (byte - 0x80)) ::
        decodeFrom none rest := by
  rw [decodeFrom_cons _ hByte]
  simp only [step, proceed]
  rw [if_pos hRange, hLacking]
  rfl

theorem begin_two
    (hLead : 0xC2 ≤ byte ∧ byte ≤ 0xDF) :
    begin byte =
      ([], some ⟨0, 0x80, 0xBF, byte - 0xC0, by decide⟩) := by
  unfold begin
  rw [if_neg (by omega), if_pos hLead]

/- The ranges of the second byte leave out what is written
   with fewer bytes, and halves of pairs. -/
theorem begin_three
    (byte second : Nat)
    (hLead : 0xE0 ≤ byte ∧ byte ≤ 0xEF)
    (hSecond : 0x80 ≤ second ∧ second ≤ 0xBF)
    (hShort : byte = 0xE0 → 0xA0 ≤ second)
    (hHalf : byte = 0xED → second ≤ 0x9F) :
    ∃ begun,
      begin byte = ([], some begun) ∧
        begun.lacking = 1 ∧ begun.bits = byte - 0xE0 ∧
        begun.lower ≤ second ∧ second ≤ begun.upper := by
  unfold begin
  rw [if_neg (by omega), if_neg (by omega)]
  split_ifs with hE0 hED hOther
  · have hLower := hShort hE0
    exact ⟨_, rfl, rfl, by dsimp only; omega, hLower,
      hSecond.2⟩
  · have hUpper := hHalf hED
    exact ⟨_, rfl, rfl, by dsimp only; omega, hSecond.1,
      hUpper⟩
  · exact ⟨_, rfl, rfl, rfl, hSecond.1, hSecond.2⟩
  all_goals omega

theorem begin_four
    (byte second : Nat)
    (hLead : 0xF0 ≤ byte ∧ byte ≤ 0xF4)
    (hSecond : 0x80 ≤ second ∧ second ≤ 0xBF)
    (hShort : byte = 0xF0 → 0x90 ≤ second)
    (hLong : byte = 0xF4 → second ≤ 0x8F) :
    ∃ begun,
      begin byte = ([], some begun) ∧
        begun.lacking = 2 ∧ begun.bits = byte - 0xF0 ∧
        begun.lower ≤ second ∧ second ≤ begun.upper := by
  unfold begin
  rw [if_neg (by omega), if_neg (by omega),
    if_neg (by omega), if_neg (by omega), if_neg (by omega)]
  split_ifs with hF0 hF4 hOther
  · have hLower := hShort hF0
    exact ⟨_, rfl, rfl, by dsimp only; omega, hLower,
      hSecond.2⟩
  · have hUpper := hLong hF4
    exact ⟨_, rfl, rfl, by dsimp only; omega, hSecond.1,
      hUpper⟩
  · exact ⟨_, rfl, rfl, rfl, hSecond.1, hSecond.2⟩
  all_goals omega

theorem decodeFrom_encodeChar
    (char : Char)
    (rest : List UInt8) :
    decodeFrom none (encodeChar char ++ rest) =
      char :: decodeFrom none rest := by
  have hValid := char.valid
  have hCode :
      char.toNat < 0xD800 ∨
        (0xDFFF < char.toNat ∧ char.toNat < 0x110000) :=
    hValid
  have hChar (code : Nat) (hSame : code = char.toNat) :
      Char.ofNat code = char := by
    rw [hSame, Char.ofNat_toNat]
  unfold encodeChar codeBytes
  split_ifs with hOne hTwo hThree
  · simp only [List.map_cons, List.map_nil, List.cons_append,
      List.nil_append]
    rw [decodeFrom_cons none (by omega)]
    simp only [step, begin]
    rw [if_pos (by omega), hChar _ rfl]
    rfl
  · simp only [List.map_cons, List.map_nil, List.cons_append,
      List.nil_append]
    rw [decodeFrom_cons none (by omega), step,
      begin_two (by omega), List.nil_append,
      decodeFrom_last (by omega) (by dsimp only; omega) rfl]
    rw [hChar _ (by dsimp only; omega)]
  · simp only [List.map_cons, List.map_nil, List.cons_append,
      List.nil_append]
    obtain ⟨begun, hBegin, hLacking, hBits, hRange⟩ :=
      begin_three
        (0xE0 + char.toNat / 0x1000)
        (0x80 + char.toNat / 0x40 % 0x40)
        (by omega) (by omega) (by omega) (by omega)
    rw [decodeFrom_cons none (by omega), step, hBegin,
      List.nil_append,
      decodeFrom_more (by omega) hRange hLacking,
      decodeFrom_last (by omega) (by dsimp only; omega) rfl]
    rw [hChar _ (by dsimp only; omega)]
  · simp only [List.map_cons, List.map_nil, List.cons_append,
      List.nil_append]
    obtain ⟨begun, hBegin, hLacking, hBits, hRange⟩ :=
      begin_four
        (0xF0 + char.toNat / 0x40000)
        (0x80 + char.toNat / 0x1000 % 0x40)
        (by omega) (by omega) (by omega) (by omega)
    rw [decodeFrom_cons none (by omega), step, hBegin,
      List.nil_append,
      decodeFrom_more (by omega) hRange hLacking,
      decodeFrom_more (by omega) (by dsimp only; omega) rfl,
      decodeFrom_last (by omega) (by dsimp only; omega) rfl]
    rw [hChar _ (by dsimp only; omega)]

/- What was encoded is decoded as it was. -/
theorem decode_encode (chars : List Char) :
    decode (encode chars) = chars := by
  unfold decode encode
  induction chars with
  | nil => rfl
  | cons char rest ih =>
      rw [List.flatMap_cons, decodeFrom_encodeChar, ih]

/- Only a character of ASCII has a byte of ASCII. -/
theorem mem_of_ascii_mem_encode
    {chars : List Char}
    (hAscii : byte < 0x80)
    (hMember : UInt8.ofNat byte ∈ encode chars) :
    Char.ofNat byte ∈ chars := by
  unfold encode at hMember
  rcases List.mem_flatMap.mp hMember with
    ⟨char, hChar, hByte⟩
  have hValid := char.valid
  have hCode :
      char.toNat < 0xD800 ∨
        (0xDFFF < char.toNat ∧ char.toNat < 0x110000) :=
    hValid
  rcases List.mem_map.mp hByte with ⟨other, hOther, hSame⟩
  have hNat := congrArg UInt8.toNat hSame
  rw [UInt8.toNat_ofNat', UInt8.toNat_ofNat'] at hNat
  have hOnly : char.toNat = byte := by
    unfold codeBytes at hOther
    split_ifs at hOther
    · simp only [List.mem_singleton] at hOther
      omega
    · simp only [List.mem_cons, List.not_mem_nil, or_false]
        at hOther
      omega
    · simp only [List.mem_cons, List.not_mem_nil, or_false]
        at hOther
      omega
    · simp only [List.mem_cons, List.not_mem_nil, or_false]
        at hOther
      omega
  rw [← hOnly, Char.ofNat_toNat]
  exact hChar

end Utf8

end Text
