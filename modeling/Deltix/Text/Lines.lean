import Deltix.Text.Split
import Mathlib.Data.List.TakeWhile

/-
  The parts of a text that are not blank, each without the
  white space around it: its lines, or the texts between
  commas.

  Key definitions include:
    * `solidParts`

  Key theorems include:
    * `split_append`
    * `trimBy_eq_nil_iff`
    * `solidParts_append`
    * `solidParts_trimChars`
    * `not_mem_of_mem_solidParts`
-/

------------------------------------------------------------
-- Parts
------------------------------------------------------------

namespace Text

variable {Element : Type} [DecidableEq Element]
variable {mark c : Element} {a b text : List Element}
variable {part : List Element}

theorem split_ne_nil
    (mark : Element)
    (text : List Element) :
    split mark text ≠ [] := by
  cases text with
  | nil => exact List.cons_ne_nil _ _
  | cons first rest =>
      unfold split
      split
      · exact List.cons_ne_nil _ _
      · split
        · exact List.cons_ne_nil _ _
        · exact List.cons_ne_nil _ _

theorem split_cons_of_ne
    {parts : List (List Element)}
    (hMark : c ≠ mark)
    (hParts : split mark text = part :: parts) :
    split mark (c :: text) = (c :: part) :: parts := by
  rw [split, if_neg hMark, hParts]

/- A mark ends the parts before it. -/
theorem split_append
    (mark : Element)
    (a b : List Element) :
    split mark (a ++ mark :: b) =
      split mark a ++ split mark b := by
  induction a with
  | nil =>
      have hMark : split mark (mark :: b) = [] :: split mark b := by
        rw [split, if_pos rfl]
      rw [List.nil_append, hMark]
      rfl
  | cons first rest ih =>
      rw [List.cons_append]
      by_cases hMark : first = mark
      · rw [split, if_pos hMark, ih, split, if_pos hMark]
        rfl
      · cases hParts : split mark rest with
        | nil => exact absurd hParts (split_ne_nil mark rest)
        | cons part parts =>
            rw [hParts, List.cons_append] at ih
            rw [split_cons_of_ne hMark ih,
              split_cons_of_ne hMark hParts, List.cons_append]

theorem split_of_not_mem
    (hMark : mark ∉ text) :
    split mark text = [text] := by
  induction text with
  | nil => rfl
  | cons first rest ih =>
      rw [List.mem_cons, not_or] at hMark
      exact
        split_cons_of_ne (fun hSame => hMark.1 hSame.symm)
          (ih hMark.2)

/- A character at the end goes to the last part. -/
theorem split_append_singleton
    (hMark : c ≠ mark)
    (text : List Element) :
    ∃ parts last,
      split mark text = parts ++ [last] ∧
        split mark (text ++ [c]) = parts ++ [last ++ [c]] := by
  induction text with
  | nil =>
      refine ⟨[], [], rfl, ?_⟩
      apply split_of_not_mem
      rw [List.nil_append, List.mem_singleton]
      exact fun hSame => hMark hSame.symm
  | cons first rest ih =>
      rcases ih with ⟨parts, last, hRest, hMore⟩
      by_cases hFirst : first = mark
      · refine ⟨[] :: parts, last, ?_, ?_⟩
        · rw [split, if_pos hFirst, hRest, List.cons_append]
        · rw [List.cons_append, split, if_pos hFirst, hMore,
            List.cons_append]
      · cases parts with
        | nil =>
            exact ⟨[], first :: last,
              split_cons_of_ne hFirst hRest,
              split_cons_of_ne hFirst hMore⟩
        | cons part parts =>
            exact ⟨(first :: part) :: parts, last,
              split_cons_of_ne hFirst hRest,
              split_cons_of_ne hFirst hMore⟩

theorem not_mem_of_mem_split
    (hMember : part ∈ split mark text) :
    mark ∉ part := by
  induction text generalizing part with
  | nil =>
      rw [List.mem_singleton.mp hMember]
      exact List.not_mem_nil
  | cons first rest ih =>
      by_cases hFirst : first = mark
      · rw [split, if_pos hFirst] at hMember
        rcases List.mem_cons.mp hMember with hEmpty | hLater
        · rw [hEmpty]
          exact List.not_mem_nil
        · exact ih hLater
      · cases hParts : split mark rest with
        | nil => exact absurd hParts (split_ne_nil mark rest)
        | cons head parts =>
            rw [split_cons_of_ne hFirst hParts] at hMember
            rcases List.mem_cons.mp hMember with hHead | hLater
            · rw [hHead, List.mem_cons, not_or]
              refine ⟨fun hSame => hFirst hSame.symm, ?_⟩
              apply ih
              rw [hParts]
              exact List.mem_cons_self
            · apply ih
              rw [hParts]
              exact List.mem_cons_of_mem _ hLater

/- A part has every element that is no mark. -/
theorem exists_mem_split
    (hMember : c ∈ text)
    (hMark : c ≠ mark) :
    ∃ part ∈ split mark text, c ∈ part := by
  induction text with
  | nil => cases hMember
  | cons first rest ih =>
      by_cases hFirst : first = mark
      · rw [split, if_pos hFirst]
        rcases List.mem_cons.mp hMember with hSame | hLater
        · exact absurd (hSame.trans hFirst) hMark
        · rcases ih hLater with ⟨part, hPart, hIn⟩
          exact ⟨part, List.mem_cons_of_mem _ hPart, hIn⟩
      · cases hParts : split mark rest with
        | nil => exact absurd hParts (split_ne_nil mark rest)
        | cons head parts =>
            rw [split_cons_of_ne hFirst hParts]
            rcases List.mem_cons.mp hMember with hSame | hLater
            · refine ⟨_, List.mem_cons_self, ?_⟩
              rw [hSame]
              exact List.mem_cons_self
            · rcases ih hLater with ⟨part, hPart, hIn⟩
              rw [hParts] at hPart
              rcases List.mem_cons.mp hPart with hHead | hMore
              · refine ⟨_, List.mem_cons_self, ?_⟩
                rw [hHead] at hIn
                exact List.mem_cons_of_mem _ hIn
              · exact ⟨part, List.mem_cons_of_mem _ hMore, hIn⟩

variable {Element : Type} {blank : Element → Bool}
variable {c : Element} {text : List Element}

theorem trimBy_cons_of_blank
    (hBlank : blank c = true)
    (text : List Element) :
    trimBy blank (c :: text) = trimBy blank text := by
  unfold trimBy
  rw [List.dropWhile_cons_of_pos hBlank]

theorem trimBy_append_of_blank
    (hBlank : blank c = true)
    (text : List Element) :
    trimBy blank (text ++ [c]) = trimBy blank text := by
  induction text with
  | nil => rw [List.nil_append, trimBy_cons_of_blank hBlank]
  | cons first rest ih =>
      by_cases hFirst : blank first = true
      · rw [List.cons_append, trimBy_cons_of_blank hFirst,
          trimBy_cons_of_blank hFirst]
        exact ih
      · unfold trimBy
        rw [List.cons_append,
          List.dropWhile_cons_of_neg hFirst,
          List.dropWhile_cons_of_neg hFirst,
          ← List.cons_append, List.reverse_append,
          List.reverse_singleton, List.singleton_append,
          List.dropWhile_cons_of_pos hBlank]

/- A text is blank if nothing is left of it. -/
theorem trimBy_eq_nil_iff :
    trimBy blank text = [] ↔ ∀ c ∈ text, blank c = true := by
  unfold trimBy
  rw [List.reverse_eq_nil_iff, List.dropWhile_eq_nil_iff]
  constructor
  · intro hAll c hMember
    by_contra hBlank
    have hKept : c ∈ text.dropWhile blank := by
      have hWhole :
          text.takeWhile blank ++ text.dropWhile blank =
            text :=
        List.takeWhile_append_dropWhile
      rw [← hWhole, List.mem_append] at hMember
      rcases hMember with hTaken | hDropped
      · exact absurd (List.mem_takeWhile_imp hTaken) hBlank
      · exact hDropped
    exact hBlank (hAll c (List.mem_reverse.mpr hKept))
  · intro hAll c hMember
    apply hAll
    rw [List.mem_reverse] at hMember
    exact (List.dropWhile_suffix blank).subset hMember

theorem mem_of_mem_trimBy
    (hMember : c ∈ trimBy blank text) :
    c ∈ text := by
  unfold trimBy at hMember
  rw [List.mem_reverse] at hMember
  have hInner := (List.dropWhile_suffix blank).subset hMember
  rw [List.mem_reverse] at hInner
  exact (List.dropWhile_suffix blank).subset hInner

variable {mark c : Char} {a b text part : List Char}

def isBlank (c : Char) : Bool :=
  isSpaceCode c.toNat

def solidParts
    (mark : Char)
    (text : List Char) : List (List Char) :=
  ((split mark text).map trimChars).filter
    fun part => part ≠ []

theorem trimChars_eq (text : List Char) :
    trimChars text = trimBy isBlank text := rfl

theorem solidParts_append
    (mark : Char)
    (a b : List Char) :
    solidParts mark (a ++ mark :: b) =
      solidParts mark a ++ solidParts mark b := by
  unfold solidParts
  rw [split_append, List.map_append, List.filter_append]

theorem solidParts_nil : solidParts mark [] = [] := rfl

/- A text of one part. -/
theorem solidParts_of_not_mem
    (hMark : mark ∉ text) :
    solidParts mark text =
      if trimChars text = [] then [] else [trimChars text] := by
  unfold solidParts
  rw [split_of_not_mem hMark, List.map_singleton]
  split
  · rename_i hBlank
    simp [hBlank]
  · rename_i hSolid
    simp [hSolid]

theorem solidParts_cons_of_blank
    (hBlank : isBlank c = true)
    (text : List Char) :
    solidParts mark (c :: text) = solidParts mark text := by
  by_cases hMark : c = mark
  · rw [hMark]
    exact solidParts_append mark [] text
  · unfold solidParts
    cases hParts : split mark text with
    | nil => exact absurd hParts (split_ne_nil _ _)
    | cons part parts =>
        rw [split_cons_of_ne hMark hParts, List.map_cons,
          List.map_cons, trimChars_eq, trimChars_eq,
          trimBy_cons_of_blank hBlank]

theorem solidParts_append_of_blank
    (hBlank : isBlank c = true)
    (text : List Char) :
    solidParts mark (text ++ [c]) = solidParts mark text := by
  by_cases hMark : c = mark
  · rw [hMark, solidParts_append, solidParts_nil,
      List.append_nil]
  · rcases split_append_singleton hMark text with
      ⟨parts, last, hText, hMore⟩
    unfold solidParts
    rw [hText, hMore, List.map_append, List.map_append,
      List.map_singleton, List.map_singleton, trimChars_eq,
      trimChars_eq, trimBy_append_of_blank hBlank]

/- The white space around a text is around its parts. -/
theorem solidParts_trimChars
    (mark : Char)
    (text : List Char) :
    solidParts mark (trimChars text) =
      solidParts mark text := by
  have hStart :
      ∀ text : List Char,
        solidParts mark (text.dropWhile isBlank) =
          solidParts mark text := by
    intro text
    induction text with
    | nil => rfl
    | cons first rest ih =>
        by_cases hBlank : isBlank first = true
        · rw [List.dropWhile_cons_of_pos hBlank, ih,
            solidParts_cons_of_blank hBlank]
        · rw [List.dropWhile_cons_of_neg hBlank]
  have hEnd :
      ∀ text : List Char,
        solidParts mark (text.dropWhile isBlank).reverse =
          solidParts mark text.reverse := by
    intro text
    induction text with
    | nil => rfl
    | cons first rest ih =>
        by_cases hBlank : isBlank first = true
        · rw [List.dropWhile_cons_of_pos hBlank, ih,
            List.reverse_cons,
            solidParts_append_of_blank hBlank]
        · rw [List.dropWhile_cons_of_neg hBlank]
  rw [trimChars_eq]
  unfold trimBy
  rw [hEnd, List.reverse_reverse, hStart]

theorem not_mem_of_mem_solidParts
    (hMember : part ∈ solidParts mark text) :
    mark ∉ part := by
  unfold solidParts at hMember
  rw [List.mem_filter, List.mem_map] at hMember
  rcases hMember.1 with ⟨whole, hPart, hTrim⟩
  rw [← hTrim]
  intro hIn
  exact not_mem_of_mem_split hPart (mem_of_mem_trimBy hIn)

/- A text with something in it has a part. -/
theorem solidParts_ne_nil
    (hMember : c ∈ text)
    (hSolid : isBlank c = false)
    (hMark : c ≠ mark) :
    solidParts mark text ≠ [] := by
  rcases exists_mem_split hMember hMark with
    ⟨whole, hPart, hIn⟩
  have hKept : trimChars whole ≠ [] := by
    intro hNone
    rw [trimChars_eq, trimBy_eq_nil_iff] at hNone
    have hBlank := hNone c hIn
    rw [hSolid] at hBlank
    cases hBlank
  have hPart : trimChars whole ∈ solidParts mark text := by
    unfold solidParts
    rw [List.mem_filter, decide_eq_true_eq]
    exact ⟨List.mem_map_of_mem hPart, hKept⟩
  exact List.ne_nil_of_mem hPart

end Text
