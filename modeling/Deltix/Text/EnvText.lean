import Deltix.Text.Csv
import Deltix.Text.JsonText
import Mathlib.Data.List.Induction

/-
  Strings that are written to a file as UTF-8, a line each,
  and read back without the blanks and the quotes around
  them.

  Half of a surrogate pair on its own is written as the
  replacement character, so only a text of characters comes
  back as it was.

  Key definitions include:
    * `textOf`
    * `unquote`
    * `bare`
    * `IsBare`

  Key theorems include:
    * `textOf_units_append`
    * `textOf_append_of_break`
    * `bare_eq_self_iff`
-/

------------------------------------------------------------
-- Through A File
------------------------------------------------------------

namespace Text

variable {unit : UInt16}

/- What a unit that is not half of a pair is written as. -/
def charOf (unit : UInt16) : Char :=
  if isSurrogate unit then Char.ofNat 0xFFFD
  else Char.ofNat unit.toNat

/- A string, as it is read back from a file. -/
def textOf : JsString → List Char
  | [] => []
  | [unit] => [charOf unit]
  | unit :: next :: rest =>
      if isPair unit next then
        pairChar unit next :: textOf rest
      else charOf unit :: textOf (next :: rest)

theorem textOf_cons
    (hAlone : isSurrogate unit = false)
    (rest : JsString) :
    textOf (unit :: rest) =
      Char.ofNat unit.toNat :: textOf rest := by
  have hChar : charOf unit = Char.ofNat unit.toNat := by
    unfold charOf
    rw [hAlone]
    rfl
  cases rest with
  | nil =>
      unfold textOf
      rw [hChar]
  | cons next rest =>
      have hPair := isPair_eq_false hAlone next
      rw [textOf, hPair, hChar]
      rfl

theorem textOf_pair
    {high low : UInt16}
    (hPair : isPair high low = true)
    (rest : JsString) :
    textOf (high :: low :: rest) =
      pairChar high low :: textOf rest := by
  rw [textOf, if_pos hPair]

theorem textOf_unitsOf_append
    (c : Char)
    (rest : JsString) :
    textOf (unitsOf c ++ rest) = c :: textOf rest := by
  unfold unitsOf
  split
  · rename_i hLow
    have hCode : (UInt16.ofNat c.toNat).toNat = c.toNat := by
      rw [UInt16.toNat_ofNat']
      omega
    rw [List.singleton_append,
      textOf_cons (isSurrogate_ofNat hLow), hCode,
      Char.ofNat_toNat]
  · rename_i hHigh
    rcases pairChar_of_high hHigh with ⟨hPair, hChar⟩
    rw [List.cons_append, List.singleton_append,
      textOf_pair hPair, hChar]

/- A text of characters comes back as it was. -/
theorem textOf_units_append
    (chars : List Char)
    (rest : JsString) :
    textOf (units chars ++ rest) = chars ++ textOf rest := by
  induction chars with
  | nil => rfl
  | cons c chars ih =>
      have hUnits :
          units (c :: chars) = unitsOf c ++ units chars := rfl
      rw [hUnits, List.append_assoc, textOf_unitsOf_append,
        ih, List.cons_append]

theorem textOf_units (chars : List Char) :
    textOf (units chars) = chars := by
  have hWhole := textOf_units_append chars []
  rw [List.append_nil] at hWhole
  rw [hWhole]
  exact List.append_nil _

/- The unit of a line break. -/
abbrev breakUnit : UInt16 := 0x0A

/- No pair reaches over a line break. -/
theorem textOf_append_of_break
    (a b : JsString) :
    textOf (a ++ breakUnit :: b) =
      textOf a ++ '\n' :: textOf b := by
  have hBreak :
      textOf (breakUnit :: b) = '\n' :: textOf b :=
    textOf_cons (by decide) b
  induction a using textOf.induct with
  | case1 => exact hBreak
  | case2 unit =>
      have hPair : isPair unit breakUnit = false := by
        simp only [isPair, Bool.and_eq_false_iff,
          decide_eq_false_iff_not]
        left
        right
        decide
      have hStep :
          textOf (unit :: breakUnit :: b) =
            charOf unit :: textOf (breakUnit :: b) := by
        rw [textOf, hPair]
        rfl
      rw [List.singleton_append, hStep, hBreak]
      rfl
  | case3 unit next rest hPair ih =>
      rw [List.cons_append, List.cons_append,
        textOf_pair hPair, textOf_pair hPair, ih,
        List.cons_append]
  | case4 unit next rest hPair ih =>
      rw [List.cons_append, List.cons_append, textOf,
        if_neg hPair, textOf, if_neg hPair, List.cons_append]
      rw [List.cons_append] at ih
      rw [ih]

theorem code_of_break
    {code : Nat}
    (hBreak : Char.ofNat code = '\n') :
    code = 10 := by
  have hCode := congrArg Char.toNat hBreak
  by_cases hValid : code.isValidChar
  · have hSame : Char.ofNat code = Char.ofNatAux code hValid :=
      dif_pos hValid
    rw [hSame] at hCode
    exact hCode
  · have hNull : Char.ofNat code = Char.ofNat 0 :=
      dif_neg hValid
    rw [hNull] at hCode
    cases hCode

theorem unit_of_break
    (hBreak : charOf unit = '\n') :
    unit = breakUnit := by
  unfold charOf at hBreak
  split at hBreak
  · exact absurd hBreak (by decide)
  · have hCode := code_of_break hBreak
    apply UInt16.toNat_inj.mp
    exact hCode

/- A line break that is read was written. -/
theorem break_mem_of_mem_textOf
    {text : JsString}
    (hMember : '\n' ∈ textOf text) :
    breakUnit ∈ text := by
  induction text using textOf.induct with
  | case1 => cases hMember
  | case2 unit =>
      have hUnit :=
        unit_of_break (List.mem_singleton.mp hMember).symm
      rw [hUnit]
      exact List.mem_singleton_self _
  | case3 unit next rest hPair ih =>
      rw [textOf_pair hPair] at hMember
      rcases List.mem_cons.mp hMember with hHere | hLater
      · have hCode := code_of_break hHere.symm
        omega
      · exact
          List.mem_cons_of_mem _
            (List.mem_cons_of_mem _ (ih hLater))
  | case4 unit next rest hPair ih =>
      rw [textOf, if_neg hPair] at hMember
      rcases List.mem_cons.mp hMember with hHere | hLater
      · rw [unit_of_break hHere.symm]
        exact List.mem_cons_self
      · exact List.mem_cons_of_mem _ (ih hLater)

theorem mem_of_break_mem_units
    {chars : List Char}
    (hMember : breakUnit ∈ units chars) :
    '\n' ∈ chars := by
  rcases List.mem_flatMap.mp hMember with ⟨c, hChar, hUnit⟩
  have hCode : c.toNat = 10 := by
    have hBound := toNat_lt c
    unfold unitsOf at hUnit
    split at hUnit
    · have hSame := List.mem_singleton.mp hUnit
      have hNat := congrArg UInt16.toNat hSame
      rw [UInt16.toNat_ofNat'] at hNat
      have hTen : breakUnit.toNat = 10 := rfl
      omega
    · rcases List.mem_pair.mp hUnit with hTop | hBottom
      · have hNat := congrArg UInt16.toNat hTop
        rw [UInt16.toNat_ofNat'] at hNat
        have hTen : breakUnit.toNat = 10 := rfl
        omega
      · have hNat := congrArg UInt16.toNat hBottom
        rw [UInt16.toNat_ofNat'] at hNat
        have hTen : breakUnit.toNat = 10 := rfl
        omega
  have hBreak : c = '\n' := Char.toNat_inj.mp hCode
  rw [hBreak] at hChar
  exact hChar

------------------------------------------------------------
-- Blanks And Quotes
------------------------------------------------------------

variable {c : Char} {a text : List Char}

/- `text.replace(/^"(.*)"$/s, '$1')`, for any mark. -/
def unquote (mark : Char) : List Char → List Char
  | [] => []
  | first :: rest =>
      if first = mark ∧ rest.getLast? = some mark then
        rest.dropLast
      else first :: rest

/- A value that is read, without what may stand around it. -/
def bare (text : List Char) : List Char :=
  unquote '\'' (unquote '"' (trimChars text))

/- A mark stands at both ends of a text. -/
def Enclosed (mark : Char) (text : List Char) : Prop :=
  ∃ inner, text = mark :: inner ++ [mark]

/- There is nothing around a text. -/
structure IsBare (text : List Char) : Prop where
  starts :
    ∀ first, text.head? = some first → isBlank first = false
  ends :
    ∀ last, text.getLast? = some last → isBlank last = false
  unquoted : ¬ Enclosed '"' text
  unmarked : ¬ Enclosed '\'' text

theorem unquote_enclosed
    (mark : Char)
    (inner : List Char) :
    unquote mark (mark :: inner ++ [mark]) = inner := by
  rw [List.cons_append, unquote, if_pos]
  · exact List.dropLast_concat
  · exact ⟨rfl, List.getLast?_concat⟩

theorem unquote_of_not_enclosed
    {mark : Char}
    (hOpen : ¬ Enclosed mark text) :
    unquote mark text = text := by
  cases text with
  | nil => rfl
  | cons first rest =>
      rw [unquote, if_neg]
      rintro ⟨hFirst, hLast⟩
      apply hOpen
      rcases List.getLast?_eq_some_iff.mp hLast with
        ⟨inner, hInner⟩
      refine ⟨inner, ?_⟩
      rw [hFirst, hInner, List.cons_append]

theorem length_unquote (mark : Char) (text : List Char) :
    (unquote mark text = text ∧ ¬ Enclosed mark text) ∨
      (unquote mark text).length < text.length := by
  by_cases hClosed : Enclosed mark text
  · right
    rcases hClosed with ⟨inner, hInner⟩
    rw [hInner, unquote_enclosed]
    simp only [List.length_append, List.length_cons]
    omega
  · left
    exact ⟨unquote_of_not_enclosed hClosed, hClosed⟩

theorem length_unquote_le (mark : Char) (text : List Char) :
    (unquote mark text).length ≤ text.length := by
  rcases length_unquote mark text with ⟨hSame, _⟩ | hLess
  · rw [hSame]
  · omega

theorem dropWhile_cases (text : List Char) :
    (text.dropWhile isBlank = text ∧
        ∀ first,
          text.head? = some first → isBlank first = false) ∨
      (text.dropWhile isBlank).length < text.length := by
  cases text with
  | nil =>
      left
      refine ⟨rfl, ?_⟩
      intro first hFirst
      cases hFirst
  | cons first rest =>
      cases hBlank : isBlank first with
      | true =>
          right
          rw [List.dropWhile_cons_of_pos hBlank]
          have hLe := (List.dropWhile_suffix isBlank
            (l := rest)).length_le
          rw [List.length_cons]
          omega
      | false =>
          left
          rw [List.dropWhile_cons_of_neg (by rw [hBlank]; decide)]
          refine ⟨rfl, ?_⟩
          intro other hOther
          rw [← Option.some.inj hOther]
          exact hBlank

theorem trimChars_cases (text : List Char) :
    (trimChars text = text ∧
        (∀ first,
          text.head? = some first → isBlank first = false) ∧
        ∀ last,
          text.getLast? = some last → isBlank last = false) ∨
      (trimChars text).length < text.length := by
  rw [trimChars_eq]
  unfold trimBy
  rcases dropWhile_cases text with ⟨hStart, hFirst⟩ | hLess
  · rw [hStart]
    rcases dropWhile_cases text.reverse with
      ⟨hEnd, hLast⟩ | hLess
    · left
      rw [hEnd, List.reverse_reverse]
      refine ⟨rfl, hFirst, ?_⟩
      intro last hSome
      apply hLast
      rw [List.head?_reverse]
      exact hSome
    · right
      rw [List.length_reverse] at hLess ⊢
      exact hLess
  · right
    rw [List.length_reverse]
    have hLe :=
      (List.dropWhile_suffix isBlank
        (l := (text.dropWhile isBlank).reverse)).length_le
    rw [List.length_reverse] at hLe
    omega

theorem dropWhile_eq_self
    (hStart :
      ∀ first, text.head? = some first → isBlank first = false) :
    text.dropWhile isBlank = text := by
  cases text with
  | nil => rfl
  | cons first rest =>
      rw [List.dropWhile_cons_of_neg]
      rw [hStart first rfl]
      decide

theorem trimChars_eq_self
    (hStart :
      ∀ first, text.head? = some first → isBlank first = false)
    (hEnd :
      ∀ last, text.getLast? = some last → isBlank last = false) :
    trimChars text = text := by
  rw [trimChars_eq]
  unfold trimBy
  rw [dropWhile_eq_self hStart, dropWhile_eq_self,
    List.reverse_reverse]
  intro first hFirst
  rw [List.head?_reverse] at hFirst
  exact hEnd first hFirst

/- A text comes back as it was if nothing stands around it. -/
theorem bare_eq_self_iff (text : List Char) :
    bare text = text ↔ IsBare text := by
  constructor
  · intro hSame
    have hLength := congrArg List.length hSame
    unfold bare at hLength
    have hTrimLe : (trimChars text).length ≤ text.length := by
      rcases trimChars_cases text with ⟨hTrim, _⟩ | hLess
      · rw [hTrim]
      · omega
    have hDouble := length_unquote '"' (trimChars text)
    have hDoubleLe := length_unquote_le '"' (trimChars text)
    have hSingle :=
      length_unquote '\'' (unquote '"' (trimChars text))
    have hSingleLe :=
      length_unquote_le '\'' (unquote '"' (trimChars text))
    rcases trimChars_cases text with
      ⟨hTrim, hStart, hEnd⟩ | hLess
    · rcases hDouble with ⟨hDouble, hQuote⟩ | hLess
      · rcases hSingle with ⟨_, hMark⟩ | hLess
        · rw [hTrim] at hQuote
          rw [hDouble, hTrim] at hMark
          exact ⟨hStart, hEnd, hQuote, hMark⟩
        · omega
      · omega
    · omega
  · intro hBare
    unfold bare
    rw [trimChars_eq_self hBare.starts hBare.ends,
      unquote_of_not_enclosed hBare.unquoted,
      unquote_of_not_enclosed hBare.unmarked]

open Csv

/- What is trimmed after a solid character stays apart from
   what stands before it. -/
theorem trimChars_append_cons
    (hStart :
      ∀ first, a.head? = some first → isBlank first = false)
    (hSolid : isBlank c = false)
    (text : List Char) :
    trimChars (a ++ c :: text) = a ++ c :: dropBlankEnd text := by
  have hTrim :
      trimChars (a ++ c :: text) =
        dropBlankEnd ((a ++ c :: text).dropWhile isBlank) := rfl
  rw [hTrim, dropWhile_append_cons hSolid,
    dropWhile_eq_self hStart, dropBlankEnd_append_cons hSolid]

theorem trimChars_dropBlankEnd (text : List Char) :
    trimChars (dropBlankEnd text) = trimChars text := by
  induction text using List.reverseRecOn with
  | nil => rfl
  | append_singleton rest last ih =>
      cases hBlank : isBlank last with
      | true =>
          have hDrop :
              dropBlankEnd (rest ++ [last]) =
                dropBlankEnd rest := by
            unfold dropBlankEnd
            rw [List.reverse_append, List.reverse_singleton,
              List.singleton_append,
              List.dropWhile_cons_of_pos hBlank]
          rw [hDrop, ih, trimChars_eq, trimChars_eq,
            trimBy_append_of_blank hBlank]
      | false =>
          rw [dropBlankEnd_append_cons hBlank]
          rfl

end Text
