import Mathlib.Data.List.TakeWhile

/-
  Reading a JSON text, as the language's `JSON.parse` does.

  A string is the list of its UTF-16 code units, since an
  escape may give half of a surrogate pair.  A number is
  kept as the decimal that was written.

  Key definitions include:
    * `Decimal`
    * `Json`
    * `Json.parse`
    * `Json.get?`

  Key theorems include:
    * `Json.reads_parseWithin`
    * `Json.parseWithin_enough`
    * `Json.plain_of_parse`
-/

namespace Text

/- A string of the language. -/
abbrev JsString : Type := List UInt16

/- The code units of a character. -/
def unitsOf (char : Char) : JsString :=
  if char.toNat < 0x10000 then [UInt16.ofNat char.toNat]
  else
    [UInt16.ofNat (0xD800 + (char.toNat - 0x10000) / 0x400),
      UInt16.ofNat (0xDC00 + (char.toNat - 0x10000) % 0x400)]

def units (chars : List Char) : JsString :=
  chars.flatMap unitsOf

/- The code units of a text of the source. -/
def js (text : String) : JsString :=
  units text.toList

/- A number as it is written. -/
structure Decimal where
  negative : Bool
  digits : List Nat
  fraction : List Nat
  exponent : Int
  deriving DecidableEq, Repr

inductive Json where
  | null
  | bool (value : Bool)
  | number (value : Decimal)
  | string (value : JsString)
  | array (elements : List Json)
  | object (members : List (JsString × Json))

/- The member of an object under a key: the last one wins. -/
def Json.get? (members : List (JsString × Json)) (key : String) :
    Option Json :=
  (members.reverse.find? fun member =>
    member.1 = js key).map Prod.snd

end Text

------------------------------------------------------------
-- Tokens
------------------------------------------------------------

namespace Text

namespace Json

def isWhitespace (char : Char) : Bool :=
  char = ' ' || char = '\t' || char = '\n' || char = '\r'

def skipWhitespace (input : List Char) : List Char :=
  input.dropWhile isWhitespace

def isDigit (char : Char) : Bool :=
  '0' ≤ char && char ≤ '9'

def digitOf (char : Char) : Nat :=
  char.toNat - '0'.toNat

def hexOf? (char : Char) : Option Nat :=
  if '0' ≤ char ∧ char ≤ '9' then
    some (char.toNat - '0'.toNat)
  else if 'a' ≤ char ∧ char ≤ 'f' then
    some (char.toNat - 'a'.toNat + 10)
  else if 'A' ≤ char ∧ char ≤ 'F' then
    some (char.toNat - 'A'.toNat + 10)
  else none

/- The code unit of `\u` and four digits. -/
def unit? (a b c d : Char) : Option UInt16 :=
  match hexOf? a, hexOf? b, hexOf? c, hexOf? d with
  | some a, some b, some c, some d =>
      some
        (UInt16.ofNat
          (a * 0x1000 + b * 0x100 + c * 0x10 + d))
  | _, _, _, _ => none

def escape? : Char → Option UInt16
  | '"' => some 0x22
  | '\\' => some 0x5C
  | '/' => some 0x2F
  | 'b' => some 0x08
  | 'f' => some 0x0C
  | 'n' => some 0x0A
  | 'r' => some 0x0D
  | 't' => some 0x09
  | _ => none

/- The rest of a string, after its opening quote. -/
def stringBody : List Char → Option (JsString × List Char)
  | [] => none
  | '"' :: rest => some ([], rest)
  | '\\' :: 'u' :: a :: b :: c :: d :: rest =>
      (unit? a b c d).bind fun unit =>
        (stringBody rest).map fun read =>
          (unit :: read.1, read.2)
  | '\\' :: char :: rest =>
      (escape? char).bind fun unit =>
        (stringBody rest).map fun read =>
          (unit :: read.1, read.2)
  | char :: rest =>
      if char.toNat < 0x20 ∨ char = '\\' then none
      else
        (stringBody rest).map fun read =>
          (unitsOf char ++ read.1, read.2)

/- As many digits as there are. -/
def digits (input : List Char) : List Nat × List Char :=
  ((input.takeWhile isDigit).map digitOf,
    input.dropWhile isDigit)

def natOf (digits : List Nat) : Nat :=
  digits.foldl (fun value digit => value * 10 + digit) 0

/- At least one digit. -/
def someDigits (input : List Char) :
    Option (List Nat × List Char) :=
  if (digits input).1 = [] then none else some (digits input)

/- `0`, or digits that do not start with it. -/
def integer (input : List Char) :
    Option (List Nat × List Char) :=
  match input with
  | '0' :: rest => some ([0], rest)
  | _ => someDigits input

def fraction (input : List Char) :
    Option (List Nat × List Char) :=
  match input with
  | '.' :: rest => someDigits rest
  | _ => some ([], input)

def signed (sign : Int) (rest : List Char) :
    Option (Int × List Char) :=
  (someDigits rest).map fun number =>
    (sign * natOf number.1, number.2)

def exponent (input : List Char) :
    Option (Int × List Char) :=
  match input with
  | 'e' :: '+' :: rest => signed 1 rest
  | 'e' :: '-' :: rest => signed (-1) rest
  | 'e' :: rest => signed 1 rest
  | 'E' :: '+' :: rest => signed 1 rest
  | 'E' :: '-' :: rest => signed (-1) rest
  | 'E' :: rest => signed 1 rest
  | _ => some (0, input)

def unsignedNumber (negative : Bool) (input : List Char) :
    Option (Json × List Char) := do
  let (whole, rest) ← integer input
  let (part, rest) ← fraction rest
  let (power, rest) ← exponent rest
  return (.number ⟨negative, whole, part, power⟩, rest)

def readNumber (input : List Char) :
    Option (Json × List Char) :=
  match input with
  | '-' :: rest => unsignedNumber true rest
  | _ => unsignedNumber false input

/- What is to be read: a value, the rest of an array, or the
   rest of an object. -/
inductive Goal where
  | value
  | elements (done : List Json)
  | members (done : List (JsString × Json))

/-
  Read with an allowance of steps.  Every step but one in two
  takes a character, so twice the length is enough.
-/
def parseWithin :
    Nat → Goal → List Char → Option (Json × List Char)
  | 0, _, _ => none
  | steps + 1, .value, input =>
      match skipWhitespace input with
      | '{' :: rest =>
          match skipWhitespace rest with
          | '}' :: rest => some (.object [], rest)
          | rest => parseWithin steps (.members []) rest
      | '[' :: rest =>
          match skipWhitespace rest with
          | ']' :: rest => some (.array [], rest)
          | rest => parseWithin steps (.elements []) rest
      | '"' :: rest =>
          (stringBody rest).map fun read =>
            (.string read.1, read.2)
      | 't' :: 'r' :: 'u' :: 'e' :: rest =>
          some (.bool true, rest)
      | 'f' :: 'a' :: 'l' :: 's' :: 'e' :: rest =>
          some (.bool false, rest)
      | 'n' :: 'u' :: 'l' :: 'l' :: rest => some (.null, rest)
      | rest => readNumber rest
  | steps + 1, .elements done, input =>
      match parseWithin steps .value input with
      | none => none
      | some (element, rest) =>
          match skipWhitespace rest with
          | ',' :: rest =>
              parseWithin steps (.elements (done ++ [element]))
                rest
          | ']' :: rest =>
              some (.array (done ++ [element]), rest)
          | _ => none
  | steps + 1, .members done, input =>
      match skipWhitespace input with
      | '"' :: rest =>
          match stringBody rest with
          | none => none
          | some (key, rest) =>
              match skipWhitespace rest with
              | ':' :: rest =>
                  match parseWithin steps .value rest with
                  | none => none
                  | some (value, rest) =>
                      match skipWhitespace rest with
                      | ',' :: rest =>
                          parseWithin steps
                            (.members (done ++ [(key, value)]))
                            rest
                      | '}' :: rest =>
                          some
                            (.object (done ++ [(key, value)]),
                              rest)
                      | _ => none
              | _ => none
      | _ => none

/- Read a whole text. -/
def parse (text : List Char) : Option Json :=
  match parseWithin (2 * text.length + 1) .value text with
  | some (value, rest) =>
      if skipWhitespace rest = [] then some value else none
  | none => none

example :
    (parse "\x7b\"a\": [1.5e3, \"\\u0041\"]\x7d".toList).isSome =
      true := by
  decide

------------------------------------------------------------
-- What Is Read
------------------------------------------------------------

/- A character that may stand in a JSON text. -/
def Plain (char : Char) : Prop :=
  0x20 ≤ char.toNat ∨ isWhitespace char = true

/- At least `n` characters were read, all of them plain. -/
def Reads (n : Nat) (input rest : List Char) : Prop :=
  ∃ taken, input = taken ++ rest ∧ n ≤ taken.length ∧
    ∀ char ∈ taken, Plain char

variable {m n steps : Nat} {input rest last : List Char}
variable {char : Char} {goal : Goal} {value : Json}
variable {unit : UInt16} {read : List Nat} {power : Int}

theorem Reads.refl (input : List Char) : Reads 0 input input :=
  ⟨[], rfl, Nat.le_refl _, by simp⟩

theorem Reads.trans
    (hFirst : Reads m input rest)
    (hSecond : Reads n rest last) :
    Reads (m + n) input last := by
  rcases hFirst with ⟨first, hInput, hFirstLen, hFirst⟩
  rcases hSecond with ⟨second, hRest, hSecondLen, hSecond⟩
  refine ⟨first ++ second, ?_, ?_, ?_⟩
  · rw [hInput, hRest, List.append_assoc]
  · rw [List.length_append]
    omega
  · intro char hMember
    rcases List.mem_append.mp hMember with hIn | hIn
    · exact hFirst char hIn
    · exact hSecond char hIn

theorem Reads.mono
    (hReads : Reads n input rest)
    (hLe : m ≤ n) :
    Reads m input rest := by
  rcases hReads with ⟨taken, hInput, hLen, hPlain⟩
  exact ⟨taken, hInput, Nat.le_trans hLe hLen, hPlain⟩

theorem Reads.length
    (hReads : Reads n input rest) :
    rest.length + n ≤ input.length := by
  rcases hReads with ⟨taken, hInput, hLen, _⟩
  rw [hInput, List.length_append]
  omega

theorem reads_cons (hPlain : Plain char) :
    Reads 1 (char :: rest) rest := by
  refine ⟨[char], rfl, Nat.le_refl _, ?_⟩
  intro other hOther
  rw [List.mem_singleton.mp hOther]
  exact hPlain

/- Reading goes on after a plain character. -/
theorem Reads.cons
    (hReads : Reads n input rest)
    (hPlain : Plain char) :
    Reads (n + 1) (char :: input) rest := by
  have hBoth := (reads_cons hPlain).trans hReads
  rwa [Nat.add_comm] at hBoth

theorem reads_dropWhile
    {test : Char → Bool}
    (hTest : ∀ char, test char = true → Plain char)
    (input : List Char) :
    Reads 0 input (input.dropWhile test) := by
  refine
    ⟨input.takeWhile test,
      (List.takeWhile_append_dropWhile ..).symm,
      Nat.zero_le _, ?_⟩
  intro char hMember
  exact hTest char (List.mem_takeWhile_imp hMember)

theorem plain_of_digit
    (char : Char)
    (hDigit : isDigit char = true) :
    Plain char := by
  left
  simp only [isDigit, Bool.and_eq_true, decide_eq_true_eq]
    at hDigit
  have hLe : '0'.toNat ≤ char.toNat := hDigit.1
  have hZero : '0'.toNat = 0x30 := rfl
  omega

theorem reads_skipWhitespace (input : List Char) :
    Reads 0 input (skipWhitespace input) :=
  reads_dropWhile (fun _ hSpace => Or.inr hSpace) input

theorem plain_of_hex
    (hHex : (hexOf? char).isSome) :
    Plain char := by
  left
  unfold hexOf? at hHex
  split at hHex
  · rename_i hRange
    have hLe : '0'.toNat ≤ char.toNat := hRange.1
    have hCode : '0'.toNat = 0x30 := rfl
    omega
  · split at hHex
    · rename_i hRange
      have hLe : 'a'.toNat ≤ char.toNat := hRange.1
      have hCode : 'a'.toNat = 0x61 := rfl
      omega
    · split at hHex
      · rename_i hRange
        have hLe : 'A'.toNat ≤ char.toNat := hRange.1
        have hCode : 'A'.toNat = 0x41 := rfl
        omega
      · cases hHex

theorem plain_of_unit
    {a b c d : Char}
    (hUnit : unit? a b c d = some unit) :
    Plain a ∧ Plain b ∧ Plain c ∧ Plain d := by
  unfold unit? at hUnit
  split at hUnit
  · rename_i ha hb hc hd
    refine
      ⟨plain_of_hex ?_, plain_of_hex ?_, plain_of_hex ?_,
        plain_of_hex ?_⟩
    · rw [ha]
      rfl
    · rw [hb]
      rfl
    · rw [hc]
      rfl
    · rw [hd]
      rfl
  · cases hUnit

theorem plain_of_escape
    (hEscape : escape? char = some unit) :
    Plain char := by
  unfold escape? at hEscape
  split at hEscape
  · exact Or.inl (by decide)
  · exact Or.inl (by decide)
  · exact Or.inl (by decide)
  · exact Or.inl (by decide)
  · exact Or.inl (by decide)
  · exact Or.inl (by decide)
  · exact Or.inl (by decide)
  · exact Or.inl (by decide)
  · cases hEscape

theorem reads_stringBody
    {body : JsString}
    (hRead : stringBody input = some (body, rest)) :
    Reads 1 input rest := by
  have hQuote : Plain '"' := Or.inl (by decide)
  have hSlash : Plain '\\' := Or.inl (by decide)
  have hLetter : Plain 'u' := Or.inl (by decide)
  induction input using stringBody.induct generalizing body with
  | case1 => cases hRead
  | case2 tail =>
      cases hRead
      exact reads_cons hQuote
  | case3 a b c d tail ih =>
      rw [stringBody, Option.bind_eq_some_iff] at hRead
      rcases hRead with ⟨unit, hUnit, hMore⟩
      rw [Option.map_eq_some_iff] at hMore
      rcases hMore with ⟨⟨more, left⟩, hMore, hEq⟩
      cases hEq
      rcases plain_of_unit hUnit with ⟨ha, hb, hc, hd⟩
      have hReads := ih hMore
      have hAll :=
        (((((hReads.cons hd).cons hc).cons hb).cons ha).cons
          hLetter).cons hSlash
      exact hAll.mono (by omega)
  | case4 char tail hNot ih =>
      rw [stringBody] at hRead
      · rw [Option.bind_eq_some_iff] at hRead
        rcases hRead with ⟨unit, hEscape, hMore⟩
        rw [Option.map_eq_some_iff] at hMore
        rcases hMore with ⟨⟨more, left⟩, hMore, hEq⟩
        cases hEq
        have hReads := ih hMore
        have hAll :=
          (hReads.cons (plain_of_escape hEscape)).cons hSlash
        exact hAll.mono (by omega)
      · exact hNot
  | case5 char tail hQuoted hUnicode hEscaped hControl =>
      rw [stringBody, if_pos hControl] at hRead
      · cases hRead
      · exact hQuoted
      · exact hUnicode
      · exact hEscaped
  | case6 char tail hQuoted hUnicode hEscaped hControl ih =>
      rw [stringBody, if_neg hControl] at hRead
      · rw [Option.map_eq_some_iff] at hRead
        rcases hRead with ⟨⟨more, left⟩, hMore, hEq⟩
        cases hEq
        have hPlain : Plain char := by
          left
          omega
        exact ((ih hMore).cons hPlain).mono (by omega)
      · exact hQuoted
      · exact hUnicode
      · exact hEscaped

theorem reads_digits (input : List Char) :
    Reads 0 input (digits input).2 :=
  reads_dropWhile plain_of_digit input

theorem reads_someDigits
    (hRead : someDigits input = some (read, rest)) :
    Reads 1 input rest := by
  unfold someDigits at hRead
  split at hRead
  · cases hRead
  · rename_i hSome
    rw [Option.some.injEq] at hRead
    have hRest : (digits input).2 = rest := by rw [hRead]
    cases input with
    | nil => exact absurd rfl hSome
    | cons first tail =>
        by_cases hDigit : isDigit first = true
        · have hTail := reads_digits tail
          have hSame :
              (digits (first :: tail)).2 = (digits tail).2 := by
            simp [digits, hDigit]
          rw [← hRest, hSame]
          exact hTail.cons (plain_of_digit first hDigit)
        · exfalso
          apply hSome
          simp [digits, hDigit]

theorem reads_integer
    (hRead : integer input = some (read, rest)) :
    Reads 1 input rest := by
  unfold integer at hRead
  split at hRead
  · cases hRead
    exact reads_cons (Or.inl (by decide))
  · exact reads_someDigits hRead

theorem reads_fraction
    (hRead : fraction input = some (read, rest)) :
    Reads 0 input rest := by
  unfold fraction at hRead
  split at hRead
  · have hReads := reads_someDigits hRead
    have hDot : Plain '.' := Or.inl (by decide)
    exact (hReads.cons hDot).mono (Nat.zero_le _)
  · cases hRead
    exact Reads.refl input

theorem reads_signed
    {sign : Int}
    (hRead : signed sign input = some (power, rest)) :
    Reads 1 input rest := by
  unfold signed at hRead
  rw [Option.map_eq_some_iff] at hRead
  rcases hRead with ⟨⟨read, left⟩, hDigits, hEq⟩
  cases hEq
  exact reads_someDigits hDigits

theorem reads_exponent
    (hRead : exponent input = some (power, rest)) :
    Reads 0 input rest := by
  have hLower : Plain 'e' := Or.inl (by decide)
  have hUpper : Plain 'E' := Or.inl (by decide)
  have hPlus : Plain '+' := Or.inl (by decide)
  have hMinus : Plain '-' := Or.inl (by decide)
  unfold exponent at hRead
  split at hRead
  · have hReads := reads_signed hRead
    exact ((hReads.cons hPlus).cons hLower).mono (Nat.zero_le _)
  · have hReads := reads_signed hRead
    exact ((hReads.cons hMinus).cons hLower).mono (Nat.zero_le _)
  · have hReads := reads_signed hRead
    exact (hReads.cons hLower).mono (Nat.zero_le _)
  · have hReads := reads_signed hRead
    exact ((hReads.cons hPlus).cons hUpper).mono (Nat.zero_le _)
  · have hReads := reads_signed hRead
    exact ((hReads.cons hMinus).cons hUpper).mono (Nat.zero_le _)
  · have hReads := reads_signed hRead
    exact (hReads.cons hUpper).mono (Nat.zero_le _)
  · cases hRead
    exact Reads.refl input

theorem reads_unsignedNumber
    {negative : Bool}
    (hRead :
      unsignedNumber negative input = some (value, rest)) :
    Reads 1 input rest := by
  unfold unsignedNumber at hRead
  simp only [Option.bind_eq_bind, Option.bind_eq_some_iff]
    at hRead
  rcases hRead with
    ⟨⟨whole, first⟩, hInteger, ⟨part, second⟩, hFraction,
      ⟨power, third⟩, hExponent, hEq⟩
  cases hEq
  exact
    ((reads_integer hInteger).trans
      (reads_fraction hFraction)).trans
      (reads_exponent hExponent)

theorem reads_readNumber
    (hRead : readNumber input = some (value, rest)) :
    Reads 1 input rest := by
  unfold readNumber at hRead
  split at hRead
  · have hReads := reads_unsignedNumber hRead
    have hMinus : Plain '-' := Or.inl (by decide)
    exact (hReads.cons hMinus).mono (by omega)
  · exact reads_unsignedNumber hRead

------------------------------------------------------------
-- What The Parser Reads
------------------------------------------------------------

/- After blanks, a plain character and what is read next. -/
theorem Reads.after
    {tail : List Char}
    (hReads : Reads n tail rest)
    (hSkip : skipWhitespace input = char :: tail)
    (hPlain : Plain char) :
    Reads (n + 1) input rest := by
  have hBlanks := reads_skipWhitespace input
  rw [hSkip] at hBlanks
  have hAll := hBlanks.trans (hReads.cons hPlain)
  exact hAll.mono (by omega)

/- A literal after blanks. -/
theorem reads_word
    (word : List Char)
    (hSkip : skipWhitespace input = word ++ rest)
    (hWord : 1 ≤ word.length)
    (hPlain :
      word.all (fun char => 0x20 ≤ char.toNat) = true) :
    Reads 1 input rest := by
  have hBlanks := reads_skipWhitespace input
  rw [hSkip] at hBlanks
  have hRead : Reads 1 (word ++ rest) rest := by
    refine ⟨word, rfl, hWord, ?_⟩
    intro char hMember
    have hLower := List.all_eq_true.mp hPlain char hMember
    exact Or.inl (of_decide_eq_true hLower)
  exact (hBlanks.trans hRead).mono (by omega)

theorem plain_ascii
    (hLower : 0x20 ≤ char.toNat) :
    Plain char :=
  Or.inl hLower

theorem reads_parseWithin
    (hRead :
      parseWithin steps goal input = some (value, rest)) :
    Reads 1 input rest := by
  have hOpenBrace : Plain '{' := plain_ascii (by decide)
  have hCloseBrace : Plain '}' := plain_ascii (by decide)
  have hOpenBracket : Plain '[' := plain_ascii (by decide)
  have hCloseBracket : Plain ']' := plain_ascii (by decide)
  have hQuote : Plain '"' := plain_ascii (by decide)
  have hComma : Plain ',' := plain_ascii (by decide)
  have hColon : Plain ':' := plain_ascii (by decide)
  induction steps generalizing goal input value rest with
  | zero => cases hRead
  | succ steps ih =>
      cases goal with
      | value =>
          rw [parseWithin] at hRead
          split at hRead
          · rename_i tail hSkip
            split at hRead
            · rename_i hEnd
              cases hRead
              have hInner :=
                (Reads.refl _).after hEnd hCloseBrace
              exact
                (hInner.after hSkip hOpenBrace).mono (by omega)
            · have hInner :=
                (reads_skipWhitespace tail).trans (ih hRead)
              exact
                (hInner.after hSkip hOpenBrace).mono (by omega)
          · rename_i tail hSkip
            split at hRead
            · rename_i hEnd
              cases hRead
              have hInner :=
                (Reads.refl _).after hEnd hCloseBracket
              exact
                (hInner.after hSkip hOpenBracket).mono
                  (by omega)
            · have hInner :=
                (reads_skipWhitespace tail).trans (ih hRead)
              exact
                (hInner.after hSkip hOpenBracket).mono
                  (by omega)
          · rename_i tail hSkip
            rw [Option.map_eq_some_iff] at hRead
            rcases hRead with ⟨⟨body, left⟩, hBody, hEq⟩
            cases hEq
            have hInner := reads_stringBody hBody
            exact (hInner.after hSkip hQuote).mono (by omega)
          · rename_i hSkip
            cases hRead
            exact
              reads_word ['t', 'r', 'u', 'e'] hSkip
                (by decide) (by decide)
          · rename_i hSkip
            cases hRead
            exact
              reads_word ['f', 'a', 'l', 's', 'e'] hSkip
                (by decide) (by decide)
          · rename_i hSkip
            cases hRead
            exact
              reads_word ['n', 'u', 'l', 'l'] hSkip
                (by decide) (by decide)
          · rename_i hSkip
            have hBlanks := reads_skipWhitespace input
            have hAll := hBlanks.trans (reads_readNumber hRead)
            exact hAll.mono (by omega)
      | elements done =>
          rw [parseWithin] at hRead
          split at hRead
          · cases hRead
          · rename_i element left hElement
            have hFirst := ih hElement
            split at hRead
            · rename_i tail hNext
              have hMore := (ih hRead).after hNext hComma
              exact (hFirst.trans hMore).mono (by omega)
            · rename_i hEnd
              cases hRead
              have hLast :=
                (Reads.refl _).after hEnd hCloseBracket
              exact (hFirst.trans hLast).mono (by omega)
            · cases hRead
      | members done =>
          rw [parseWithin] at hRead
          split at hRead
          · rename_i tail hSkip
            split at hRead
            · cases hRead
            · rename_i key afterKey hKey
              have hFirst :=
                (reads_stringBody hKey).after hSkip hQuote
              split at hRead
              · rename_i afterColon hNext
                split at hRead
                · cases hRead
                · rename_i member afterMember hMember
                  have hSecond :=
                    hFirst.trans
                      ((ih hMember).after hNext hColon)
                  split at hRead
                  · rename_i afterComma hMore
                    have hThird :=
                      (ih hRead).after hMore hComma
                    exact
                      (hSecond.trans hThird).mono (by omega)
                  · rename_i hEnd
                    cases hRead
                    have hLast :=
                      (Reads.refl _).after hEnd hCloseBrace
                    exact
                      (hSecond.trans hLast).mono (by omega)
                  · cases hRead
              · cases hRead
          · cases hRead

/- A text that parses has no control character but blanks. -/
theorem plain_of_parse
    {text : List Char}
    (hParse : parse text = some value) :
    ∀ char ∈ text, Plain char := by
  unfold parse at hParse
  split at hParse
  · rename_i read left hRead
    split at hParse
    · rename_i hBlank
      have hAll :=
        (reads_parseWithin hRead).trans
          (reads_skipWhitespace left)
      rw [hBlank] at hAll
      rcases hAll with ⟨taken, hText, _, hPlain⟩
      rw [hText, List.append_nil]
      exact hPlain
    · cases hParse
  · cases hParse

------------------------------------------------------------
-- The Allowance Is Enough
------------------------------------------------------------

variable {tail : List Char}

/- The steps that reading for a goal takes at most. -/
def Goal.needs (length : Nat) : Goal → Nat
  | .value => 2 * length + 1
  | .elements _ => 2 * length + 2
  | .members _ => 2 * length + 2

theorem length_of_skip
    (hSkip : skipWhitespace input = char :: tail) :
    tail.length + 1 ≤ input.length := by
  have hReads := (reads_skipWhitespace input).length
  rw [hSkip, List.length_cons] at hReads
  omega

theorem length_skip (input : List Char) :
    (skipWhitespace input).length ≤ input.length := by
  have hReads := (reads_skipWhitespace input).length
  omega

/- More steps than are needed change nothing. -/
theorem parseWithin_succ
    (hEnough : goal.needs input.length ≤ steps) :
    parseWithin (steps + 1) goal input =
      parseWithin steps goal input := by
  induction steps generalizing goal input with
  | zero => cases goal <;> simp [Goal.needs] at hEnough
  | succ steps ih =>
      cases goal with
      | value =>
          simp only [Goal.needs] at hEnough
          rw [parseWithin, parseWithin]
          split
          · rename_i tail hSkip
            have hLength := length_of_skip hSkip
            have hBlanks := length_skip tail
            split
            · rfl
            · apply ih
              simp only [Goal.needs]
              omega
          · rename_i tail hSkip
            have hLength := length_of_skip hSkip
            have hBlanks := length_skip tail
            split
            · rfl
            · apply ih
              simp only [Goal.needs]
              omega
          · rfl
          · rfl
          · rfl
          · rfl
          · rfl
      | elements done =>
          simp only [Goal.needs] at hEnough
          have hValue :
              parseWithin (steps + 1) .value input =
                parseWithin steps .value input := by
            apply ih
            simp only [Goal.needs]
            omega
          conv =>
            lhs
            rw [parseWithin, hValue]
          conv =>
            rhs
            rw [parseWithin]
          split
          · rfl
          · rename_i element left hElement
            have hRead := (reads_parseWithin hElement).length
            split
            · rename_i tail hNext
              have hLength := length_of_skip hNext
              apply ih
              simp only [Goal.needs]
              omega
            · rfl
            · rfl
      | members done =>
          simp only [Goal.needs] at hEnough
          conv =>
            lhs
            rw [parseWithin]
          conv =>
            rhs
            rw [parseWithin]
          split
          · rename_i tail hSkip
            have hLength := length_of_skip hSkip
            split
            · rfl
            · rename_i key afterKey hKey
              have hRead := (reads_stringBody hKey).length
              split
              · rename_i afterColon hNext
                have hColon := length_of_skip hNext
                have hValue :
                    parseWithin (steps + 1) .value afterColon =
                      parseWithin steps .value afterColon := by
                  apply ih
                  simp only [Goal.needs]
                  omega
                rw [hValue]
                split
                · rfl
                · rename_i member afterMember hMember
                  have hTaken :=
                    (reads_parseWithin hMember).length
                  split
                  · rename_i afterComma hMore
                    have hComma := length_of_skip hMore
                    apply ih
                    simp only [Goal.needs]
                    omega
                  · rfl
                  · rfl
              · rfl
          · rfl

/- The allowance of a text does not keep it from parsing. -/
theorem parseWithin_enough
    {text : List Char}
    (hEnough : 2 * text.length + 1 ≤ steps) :
    parseWithin steps .value text =
      parseWithin (2 * text.length + 1) .value text := by
  induction steps, hEnough using Nat.le_induction with
  | base => rfl
  | succ steps hLe ih =>
      rw [parseWithin_succ hLe]
      exact ih

end Json

end Text
