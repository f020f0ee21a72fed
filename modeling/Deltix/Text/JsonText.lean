import Deltix.Text.Units

/-
  Writing a list of texts as JSON, as the language's
  `JSON.stringify` does, and reading it back.

  Key definitions include:
    * `charsOf?`
    * `Json.quote`
    * `Json.stringifyTexts`
    * `Json.texts?`

  Key theorems include:
    * `charsOf?_units`
    * `Json.parse_stringifyTexts`
-/

------------------------------------------------------------
-- Characters Of Code Units
------------------------------------------------------------

namespace Text

variable {c : Char}

/- The character that half of a pair stands for alone. -/
def isSurrogate (unit : UInt16) : Bool :=
  0xD800 ≤ unit.toNat && unit.toNat ≤ 0xDFFF

/- The character of a pair of halves. -/
def pairChar (high low : UInt16) : Char :=
  Char.ofNat
    (0x10000 + (high.toNat - 0xD800) * 0x400 +
      (low.toNat - 0xDC00))

def isPair (high low : UInt16) : Bool :=
  0xD800 ≤ high.toNat && high.toNat < 0xDC00 &&
    0xDC00 ≤ low.toNat && low.toNat ≤ 0xDFFF

/- The characters of a string, if it has no half of a pair
   on its own. -/
def charsOf? : JsString → Option (List Char)
  | [] => some []
  | [unit] =>
      if isSurrogate unit then none
      else some [Char.ofNat unit.toNat]
  | unit :: next :: rest =>
      if isPair unit next then
        (charsOf? rest).map fun chars =>
          pairChar unit next :: chars
      else if isSurrogate unit then none
      else
        (charsOf? (next :: rest)).map fun chars =>
          Char.ofNat unit.toNat :: chars

/- The unit of a character is not half of a pair. -/
theorem isSurrogate_ofNat
    (hLow : c.toNat < 0x10000) :
    isSurrogate (UInt16.ofNat c.toNat) = false := by
  have hNot := not_surrogate c
  simp only [isSurrogate, UInt16.toNat_ofNat',
    Bool.and_eq_false_iff, decide_eq_false_iff_not]
  omega

theorem isPair_eq_false
    {unit : UInt16}
    (hAlone : isSurrogate unit = false)
    (next : UInt16) :
    isPair unit next = false := by
  simp only [isSurrogate, Bool.and_eq_false_iff,
    decide_eq_false_iff_not] at hAlone
  simp only [isPair, Bool.and_eq_false_iff,
    decide_eq_false_iff_not]
  omega

/- The two units of a character are a pair, which stands for
   the character. -/
theorem pairChar_of_high
    (hHigh : ¬c.toNat < 0x10000) :
    isPair
        (UInt16.ofNat (0xD800 + (c.toNat - 0x10000) / 0x400))
        (UInt16.ofNat
          (0xDC00 + (c.toNat - 0x10000) % 0x400)) =
          true ∧
      pairChar
          (UInt16.ofNat
            (0xD800 + (c.toNat - 0x10000) / 0x400))
          (UInt16.ofNat
            (0xDC00 + (c.toNat - 0x10000) % 0x400)) =
        c := by
  have hCode := toNat_lt c
  have hTop :
      (UInt16.ofNat
          (0xD800 + (c.toNat - 0x10000) / 0x400)).toNat =
        0xD800 + (c.toNat - 0x10000) / 0x400 := by
    rw [UInt16.toNat_ofNat']
    omega
  have hBottom :
      (UInt16.ofNat
          (0xDC00 + (c.toNat - 0x10000) % 0x400)).toNat =
        0xDC00 + (c.toNat - 0x10000) % 0x400 := by
    rw [UInt16.toNat_ofNat']
    omega
  constructor
  · simp only [isPair, hTop, hBottom, Bool.and_eq_true,
      decide_eq_true_eq]
    omega
  · have hBoth :
        0x10000 +
              (0xD800 + (c.toNat - 0x10000) / 0x400 - 0xD800) *
                0x400 +
            (0xDC00 + (c.toNat - 0x10000) % 0x400 - 0xDC00) =
          c.toNat := by
      omega
    unfold pairChar
    rw [hTop, hBottom, hBoth, Char.ofNat_toNat]

theorem charsOf?_low
    (hLow : c.toNat < 0x10000)
    (rest : JsString) :
    charsOf? (UInt16.ofNat c.toNat :: rest) =
      (charsOf? rest).map fun chars => c :: chars := by
  have hCode : (UInt16.ofNat c.toNat).toNat = c.toNat := by
    rw [UInt16.toNat_ofNat']
    omega
  have hAlone := isSurrogate_ofNat hLow
  cases rest with
  | nil =>
      simp only [charsOf?, hAlone, hCode, Char.ofNat_toNat]
      rfl
  | cons next rest =>
      have hPair := isPair_eq_false hAlone next
      rw [charsOf?, if_neg (by rw [hPair]; decide),
        if_neg (by rw [hAlone]; decide), hCode,
        Char.ofNat_toNat]

theorem charsOf?_high
    (hHigh : ¬c.toNat < 0x10000)
    (rest : JsString) :
    charsOf?
        (UInt16.ofNat
            (0xD800 + (c.toNat - 0x10000) / 0x400) ::
          UInt16.ofNat
            (0xDC00 + (c.toNat - 0x10000) % 0x400) ::
          rest) =
      (charsOf? rest).map fun chars => c :: chars := by
  rcases pairChar_of_high hHigh with ⟨hPair, hChar⟩
  rw [charsOf?, if_pos hPair, hChar]

theorem charsOf?_units (text : List Char) :
    charsOf? (units text) = some text := by
  induction text with
  | nil => rfl
  | cons c rest ih =>
      have hUnits : units (c :: rest) = unitsOf c ++ units rest :=
        rfl
      rw [hUnits]
      unfold unitsOf
      split
      · rename_i hLow
        rw [List.singleton_append, charsOf?_low hLow, ih]
        rfl
      · rename_i hHigh
        rw [List.cons_append, List.singleton_append,
          charsOf?_high hHigh, ih]
        rfl

end Text

namespace Text

namespace Json

def hexDigit (digit : Nat) : Char :=
  if digit < 10 then Char.ofNat (digit + 0x30)
  else Char.ofNat (digit - 10 + 0x61)

/- A character between the quotes of a string. -/
def quoteChar (char : Char) : List Char :=
  if char = '"' then ['\\', '"']
  else if char = '\\' then ['\\', '\\']
  else if char.toNat = 0x08 then ['\\', 'b']
  else if char.toNat = 0x0C then ['\\', 'f']
  else if char.toNat = 0x0A then ['\\', 'n']
  else if char.toNat = 0x0D then ['\\', 'r']
  else if char.toNat = 0x09 then ['\\', 't']
  else if char.toNat < 0x20 then
    ['\\', 'u', '0', '0', hexDigit (char.toNat / 16),
      hexDigit (char.toNat % 16)]
  else [char]

def quote (text : String) : List Char :=
  '"' :: text.toList.flatMap quoteChar ++ ['"']

/- What stands between the brackets. -/
def elementsText : List String → List Char
  | [] => []
  | [text] => quote text
  | text :: rest => quote text ++ ',' :: elementsText rest

/- `JSON.stringify` of a list of texts. -/
def stringifyTexts (texts : List String) : List Char :=
  '[' :: elementsText texts ++ [']']

/- A list of texts, of the value that was read. -/
def text? : Json → Option String
  | .string units => (charsOf? units).map String.ofList
  | _ => none

def texts? : Json → Option (List String)
  | .array elements => elements.mapM text?
  | _ => none

example :
    stringifyTexts ["a\"b", "c"] =
      "[\"a\\\"b\",\"c\"]".toList := by
  decide

------------------------------------------------------------
-- Reading Back
------------------------------------------------------------

variable {text : String} {rest : List Char}
variable {steps : Nat}

theorem hexOf?_hexDigit :
    ∀ digit < 16, hexOf? (hexDigit digit) = some digit := by
  decide

/- A character that is escaped by a letter. -/
theorem stringBody_escaped
    {char letter : Char}
    {unit : UInt16}
    (hEscape : escape? letter = some unit)
    (hUnits : unitsOf char = [unit])
    (rest : List Char) :
    stringBody ('\\' :: letter :: rest) =
      (stringBody rest).map fun read =>
        (unitsOf char ++ read.1, read.2) := by
  rw [stringBody, hEscape, hUnits]
  · rfl
  · intro a b c d more hLetter
    rw [hLetter] at hEscape
    cases hEscape

theorem stringBody_quoteChar
    (char : Char)
    (rest : List Char) :
    stringBody (quoteChar char ++ rest) =
      (stringBody rest).map fun read =>
        (unitsOf char ++ read.1, read.2) := by
  have hUnits :
      ∀ code < 0x20, char.toNat = code →
        unitsOf char = [UInt16.ofNat code] := by
    intro code hCode hSame
    unfold unitsOf
    rw [if_pos (by omega), hSame]
  unfold quoteChar
  split_ifs with hQuote hSlash h8 hC hA hD h9 hControl
  · have hEscape : escape? '"' = some 0x22 := rfl
    exact stringBody_escaped hEscape (by rw [hQuote]; rfl) rest
  · exact stringBody_escaped rfl (by rw [hSlash]; rfl) rest
  · exact stringBody_escaped rfl
      (hUnits _ (by omega) h8) rest
  · exact stringBody_escaped rfl
      (hUnits _ (by omega) hC) rest
  · exact stringBody_escaped rfl
      (hUnits _ (by omega) hA) rest
  · exact stringBody_escaped rfl
      (hUnits _ (by omega) hD) rest
  · exact stringBody_escaped rfl
      (hUnits _ (by omega) h9) rest
  · have hHigh :=
      hexOf?_hexDigit (char.toNat / 16) (by omega)
    have hLow :=
      hexOf?_hexDigit (char.toNat % 16) (by omega)
    have hZero : hexOf? '0' = some 0 := rfl
    have hCode :
        0 * 0x1000 + 0 * 0x100 + char.toNat / 16 * 0x10 +
            char.toNat % 16 =
          char.toNat := by
      omega
    have hUnit :
        unit? '0' '0' (hexDigit (char.toNat / 16))
            (hexDigit (char.toNat % 16)) =
          some (UInt16.ofNat char.toNat) := by
      simp only [unit?, hZero, hHigh, hLow, hCode]
    rw [hUnits _ hControl rfl]
    simp only [List.cons_append, List.nil_append]
    rw [stringBody, hUnit]
    rfl
  · rw [List.singleton_append, stringBody, if_neg]
    · rintro (hLow | hSame)
      · exact hControl hLow
      · exact hSlash hSame
    · exact hQuote
    · rintro _ _ _ _ _ hSame _
      exact hSlash hSame
    · rintro _ _ hSame _
      exact hSlash hSame

theorem stringBody_quoted
    (chars rest : List Char) :
    stringBody (chars.flatMap quoteChar ++ '"' :: rest) =
      some (units chars, rest) := by
  induction chars with
  | nil => rw [List.flatMap_nil, List.nil_append, stringBody]; rfl
  | cons char chars ih =>
      rw [List.flatMap_cons, List.append_assoc,
        stringBody_quoteChar, ih]
      rfl

/- A quoted text is read as a string. -/
theorem parseWithin_quote
    (steps : Nat)
    (text : String)
    (rest : List Char) :
    parseWithin (steps + 1) .value (quote text ++ rest) =
      some (.string (js text), rest) := by
  have hOpen :
      skipWhitespace (quote text ++ rest) =
        '"' :: (text.toList.flatMap quoteChar ++
          '"' :: rest) := by
    simp [quote, skipWhitespace, isWhitespace]
  rw [parseWithin, hOpen]
  simp only [stringBody_quoted]
  rfl

theorem parseWithin_elementsText
    {texts : List String}
    {done : List Json}
    (hSteps : texts.length + 1 < steps) :
    parseWithin steps (.elements done)
        (elementsText (text :: texts) ++ ']' :: rest) =
      some
        (.array
          (done ++
            (text :: texts).map fun text => .string (js text)),
          rest) := by
  induction texts generalizing text steps done with
  | nil =>
      obtain ⟨more, rfl⟩ :
          ∃ more, steps = more + 1 + 1 :=
        ⟨steps - 2, by simp at hSteps; omega⟩
      rw [parseWithin, elementsText, parseWithin_quote]
      rfl
  | cons next texts ih =>
      obtain ⟨more, rfl⟩ :
          ∃ more, steps = more + 1 + 1 :=
        ⟨steps - 2, by simp at hSteps; omega⟩
      rw [List.length_cons] at hSteps
      have hText :
          elementsText (text :: next :: texts) ++
              ']' :: rest =
            quote text ++
              ',' :: (elementsText (next :: texts) ++
                ']' :: rest) := by
        rw [elementsText, List.append_assoc, List.cons_append]
        exact List.cons_ne_nil _ _
      have hComma :
          skipWhitespace
              (',' :: (elementsText (next :: texts) ++
                ']' :: rest)) =
            ',' :: (elementsText (next :: texts) ++
              ']' :: rest) := by
        rfl
      rw [hText, parseWithin, parseWithin_quote]
      simp only [hComma]
      rw [ih (by omega), List.append_assoc]
      rfl

theorem length_le_elementsText (texts : List String) :
    texts.length ≤ (elementsText texts).length := by
  induction texts with
  | nil => exact Nat.zero_le _
  | cons text rest ih =>
      cases rest with
      | nil =>
          simp [elementsText, quote]
      | cons next rest =>
          rw [elementsText]
          · simp only [List.length_append, List.length_cons]
              at ih ⊢
            omega
          · exact List.cons_ne_nil _ _

/- A list that is not empty is read element by element. -/
theorem parseWithin_array
    {first : Char}
    {input tail more : List Char}
    (hOpen : skipWhitespace input = '[' :: tail)
    (hFirst : skipWhitespace tail = first :: more)
    (hElement : first ≠ ']') :
    parseWithin (steps + 1) .value input =
      parseWithin steps (.elements []) (first :: more) := by
  rw [parseWithin, hOpen]
  simp only [hFirst]
  split
  · rename_i hClose
    exact absurd (List.cons.inj hClose).1 hElement
  · rfl

/- The first element starts with its quote. -/
theorem elementsText_cons
    (text : String)
    (texts : List String)
    (rest : List Char) :
    ∃ more,
      elementsText (text :: texts) ++ rest = '"' :: more := by
  cases texts with
  | nil => exact ⟨_, rfl⟩
  | cons next texts =>
      rw [elementsText]
      · exact ⟨_, rfl⟩
      · exact List.cons_ne_nil _ _

theorem parse_stringifyTexts (texts : List String) :
    parse (stringifyTexts texts) =
      some (.array (texts.map fun text => .string (js text))) := by
  cases texts with
  | nil => rfl
  | cons text rest =>
      rcases elementsText_cons text rest [']'] with
        ⟨more, hMore⟩
      have hLength := length_le_elementsText (text :: rest)
      have hRead :
          parseWithin
              (2 * (stringifyTexts (text :: rest)).length)
              (.elements []) ('"' :: more) =
            some
              (.array
                ((text :: rest).map fun text =>
                  .string (js text)),
                []) := by
        rw [← hMore]
        apply parseWithin_elementsText
        simp only [stringifyTexts, List.length_append,
          List.length_cons] at hLength ⊢
        omega
      have hOpen :
          skipWhitespace (stringifyTexts (text :: rest)) =
            '[' :: ('"' :: more) := by
        rw [← hMore]
        rfl
      have hQuote :
          skipWhitespace ('"' :: more) = '"' :: more :=
        rfl
      unfold parse
      rw [parseWithin_array hOpen hQuote (by decide), hRead]
      rfl

theorem text?_string (text : String) :
    text? (.string (js text)) = some text := by
  simp only [text?, js, charsOf?_units, Option.map_some,
    String.ofList_toList]

theorem texts?_array (texts : List String) :
    texts? (.array (texts.map fun text => .string (js text))) =
      some texts := by
  simp only [texts?]
  induction texts with
  | nil => rfl
  | cons text rest ih =>
      rw [List.map_cons, List.mapM_cons, text?_string, ih]
      rfl

end Json

end Text
