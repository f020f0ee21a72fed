import Mathlib.Data.List.Basic

/-
  Bytes as text in the base64 alphabet for URLs, without
  padding.

  Key definitions include:
    * `Base64Url.encode`
    * `Base64Url.decode`

  Key theorems include:
    * `Base64Url.decode_encode`
    * `Base64Url.isLetter_of_mem_encode`
-/

namespace Text

namespace Base64Url

variable {n : Nat}

def letter (n : Nat) : Char :=
  if n < 26 then Char.ofNat (0x41 + n)
  else if n < 52 then Char.ofNat (0x61 + (n - 26))
  else if n < 62 then Char.ofNat (0x30 + (n - 52))
  else if n = 62 then '-'
  else '_'

/- A character of the alphabet. -/
def isLetter (char : Char) : Bool :=
  ('A' ≤ char && char ≤ 'Z') || ('a' ≤ char && char ≤ 'z') ||
    ('0' ≤ char && char ≤ '9') || char = '_' || char = '-'

/- The six bits that a letter stands for. -/
def sextet (char : Char) : Nat :=
  if 'A' ≤ char ∧ char ≤ 'Z' then char.toNat - 0x41
  else if 'a' ≤ char ∧ char ≤ 'z' then char.toNat - 0x61 + 26
  else if '0' ≤ char ∧ char ≤ '9' then char.toNat - 0x30 + 52
  else if char = '-' then 62
  else 63

def encode : List UInt8 → List Char
  | [] => []
  | [a] =>
      [letter (a.toNat / 4), letter (a.toNat % 4 * 16)]
  | [a, b] =>
      [letter (a.toNat / 4),
        letter (a.toNat % 4 * 16 + b.toNat / 16),
        letter (b.toNat % 16 * 4)]
  | a :: b :: c :: rest =>
      letter (a.toNat / 4) ::
        letter (a.toNat % 4 * 16 + b.toNat / 16) ::
        letter (b.toNat % 16 * 4 + c.toNat / 64) ::
        letter (c.toNat % 64) :: encode rest

/- Bits that make up no whole byte are dropped. -/
def decode : List Char → List UInt8
  | [] => []
  | [_] => []
  | [a, b] => [UInt8.ofNat (sextet a * 4 + sextet b / 16)]
  | [a, b, c] =>
      [UInt8.ofNat (sextet a * 4 + sextet b / 16),
        UInt8.ofNat (sextet b % 16 * 16 + sextet c / 4)]
  | a :: b :: c :: d :: rest =>
      UInt8.ofNat (sextet a * 4 + sextet b / 16) ::
        UInt8.ofNat (sextet b % 16 * 16 + sextet c / 4) ::
        UInt8.ofNat (sextet c % 4 * 64 + sextet d) ::
        decode rest

theorem sextet_letter
    (hBound : n < 64) :
    sextet (letter n) = n := by
  have hAll : ∀ m : Fin 64, sextet (letter m) = m := by decide
  exact hAll ⟨n, hBound⟩

theorem isLetter_letter
    (hBound : n < 64) :
    isLetter (letter n) = true := by
  have hAll : ∀ m : Fin 64, isLetter (letter m) = true := by
    decide
  exact hAll ⟨n, hBound⟩

theorem byte_of
    (byte : UInt8)
    (hValue : n = byte.toNat) :
    UInt8.ofNat n = byte := by
  rw [hValue]
  exact UInt8.ofNat_toNat

theorem decode_encode (bytes : List UInt8) :
    decode (encode bytes) = bytes := by
  induction bytes using encode.induct with
  | case1 => rfl
  | case2 a =>
      have ha := a.toNat_lt
      simp only [encode, decode,
        sextet_letter (by omega : a.toNat / 4 < 64),
        sextet_letter (by omega : a.toNat % 4 * 16 < 64)]
      rw [byte_of a (by omega)]
  | case3 a b =>
      have ha := a.toNat_lt
      have hb := b.toNat_lt
      simp only [encode, decode,
        sextet_letter (by omega : a.toNat / 4 < 64),
        sextet_letter
          (by omega : a.toNat % 4 * 16 + b.toNat / 16 < 64),
        sextet_letter (by omega : b.toNat % 16 * 4 < 64)]
      rw [byte_of a (by omega),
        byte_of b (by omega)]
  | case4 a b c rest ih =>
      have ha := a.toNat_lt
      have hb := b.toNat_lt
      have hc := c.toNat_lt
      simp only [encode, decode, ih,
        sextet_letter (by omega : a.toNat / 4 < 64),
        sextet_letter
          (by omega : a.toNat % 4 * 16 + b.toNat / 16 < 64),
        sextet_letter
          (by omega : b.toNat % 16 * 4 + c.toNat / 64 < 64),
        sextet_letter (by omega : c.toNat % 64 < 64)]
      rw [byte_of a (by omega),
        byte_of b (by omega),
        byte_of c (by omega)]

theorem isLetter_of_mem_encode
    {bytes : List UInt8}
    {char : Char}
    (hMember : char ∈ encode bytes) :
    isLetter char = true := by
  induction bytes using encode.induct with
  | case1 => cases hMember
  | case2 a =>
      have ha := a.toNat_lt
      simp only [encode, List.mem_cons, List.not_mem_nil,
        or_false] at hMember
      rcases hMember with hEq | hEq
      · rw [hEq]
        exact isLetter_letter (by omega)
      · rw [hEq]
        exact isLetter_letter (by omega)
  | case3 a b =>
      have ha := a.toNat_lt
      have hb := b.toNat_lt
      simp only [encode, List.mem_cons, List.not_mem_nil,
        or_false] at hMember
      rcases hMember with hEq | hEq | hEq
      · rw [hEq]
        exact isLetter_letter (by omega)
      · rw [hEq]
        exact isLetter_letter (by omega)
      · rw [hEq]
        exact isLetter_letter (by omega)
  | case4 a b c rest ih =>
      have ha := a.toNat_lt
      have hb := b.toNat_lt
      have hc := c.toNat_lt
      simp only [encode, List.mem_cons] at hMember
      rcases hMember with hEq | hEq | hEq | hEq | hRest
      · rw [hEq]
        exact isLetter_letter (by omega)
      · rw [hEq]
        exact isLetter_letter (by omega)
      · rw [hEq]
        exact isLetter_letter (by omega)
      · rw [hEq]
        exact isLetter_letter (by omega)
      · exact ih hRest

end Base64Url

end Text
