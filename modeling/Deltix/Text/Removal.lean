import Mathlib.Data.List.Infix

/-
  Deleting every occurrence of a pattern in a text, from left
  to right.

  A character that the pattern does not have cuts the text:
  what stands before it and after it is searched alone.

  Key definitions include:
    * `removeAll`

  Key theorems include:
    * `removeAll_append_cons`
    * `removeAll_of_not_mem`
    * `removeAll_pattern_append`
-/

namespace Text

variable {Element : Type}
variable {pattern a b : List Element} {c : Element}

/- An occurrence does not reach over what it does not have. -/
theorem prefix_of_append_cons
    (hMark : c ∉ pattern)
    (hPrefix : pattern <+: a ++ c :: b) :
    pattern <+: a := by
  induction pattern generalizing a with
  | nil => exact List.nil_prefix
  | cons first rest ih =>
      rw [List.mem_cons, not_or] at hMark
      cases a with
      | nil =>
          rw [List.nil_append, List.cons_prefix_cons]
            at hPrefix
          exact absurd hPrefix.1.symm hMark.1
      | cons head tail =>
          rw [List.cons_append, List.cons_prefix_cons]
            at hPrefix
          rw [List.cons_prefix_cons]
          exact ⟨hPrefix.1, ih hMark.2 hPrefix.2⟩

theorem prefix_append_cons_iff
    (hMark : c ∉ pattern) :
    pattern <+: a ++ c :: b ↔ pattern <+: a := by
  constructor
  · exact prefix_of_append_cons hMark
  · intro hPrefix
    exact hPrefix.trans (List.prefix_append _ _)

------------------------------------------------------------
-- Removal
------------------------------------------------------------

variable [DecidableEq Element]

/- Deletes as many elements, and from there on each occurrence
   of the pattern. -/
def removeFrom
    (pattern : List Element) :
    Nat → List Element → List Element
  | _, [] => []
  | skip + 1, _ :: rest => removeFrom pattern skip rest
  | 0, c :: rest =>
      if pattern <+: c :: rest then
        removeFrom pattern (pattern.length - 1) rest
      else c :: removeFrom pattern 0 rest

/- `text.replace(/pattern/g, '')` -/
def removeAll
    (pattern text : List Element) : List Element :=
  removeFrom pattern 0 text

variable {pattern a b text : List Element} {c : Element}

theorem removeFrom_append_cons
    {skip : Nat}
    (hMark : c ∉ pattern)
    (hPattern : pattern ≠ [])
    (hSkip : skip ≤ a.length) :
    removeFrom pattern skip (a ++ c :: b) =
      removeFrom pattern skip a ++
        c :: removeFrom pattern 0 b := by
  induction a generalizing skip with
  | nil =>
      rw [Nat.le_zero.mp hSkip, List.nil_append]
      have hNot : ¬ pattern <+: c :: b := by
        intro hPrefix
        have hNil : pattern <+: [] :=
          prefix_of_append_cons hMark hPrefix
        exact hPattern (List.prefix_nil.mp hNil)
      have hKept :
          removeFrom pattern 0 (c :: b) =
            c :: removeFrom pattern 0 b := by
        rw [removeFrom, if_neg hNot]
      rw [hKept]
      rfl
  | cons head tail ih =>
      rw [List.length_cons] at hSkip
      rw [List.cons_append]
      cases skip with
      | succ skip =>
          rw [removeFrom, removeFrom, ih (by omega)]
      | zero =>
          have hSame :
              pattern <+: head :: (tail ++ c :: b) ↔
                pattern <+: head :: tail :=
            prefix_append_cons_iff (a := head :: tail) hMark
          rw [removeFrom, removeFrom]
          by_cases hPrefix : pattern <+: head :: tail
          · have hLength := hPrefix.length_le
            rw [List.length_cons] at hLength
            rw [if_pos (hSame.mpr hPrefix), if_pos hPrefix,
              ih (by omega)]
          · rw [if_neg (fun hIn => hPrefix (hSame.mp hIn)),
              if_neg hPrefix, ih (Nat.zero_le _),
              List.cons_append]

theorem removeAll_append_cons
    (hMark : c ∉ pattern)
    (hPattern : pattern ≠ []) :
    removeAll pattern (a ++ c :: b) =
      removeAll pattern a ++ c :: removeAll pattern b :=
  removeFrom_append_cons hMark hPattern (Nat.zero_le _)

/- A text that lacks part of the pattern stays as it is. -/
theorem removeAll_of_not_mem
    (hPart : c ∈ pattern)
    (hText : c ∉ text) :
    removeAll pattern text = text := by
  unfold removeAll
  induction text with
  | nil => rfl
  | cons head tail ih =>
      rw [List.mem_cons, not_or] at hText
      have hNot : ¬ pattern <+: head :: tail := by
        intro hPrefix
        rcases List.mem_cons.mp (hPrefix.subset hPart) with
          hHead | hTail
        · exact hText.1 hHead
        · exact hText.2 hTail
      rw [removeFrom, if_neg hNot, ih hText.2]

theorem removeFrom_length_append
    (skipped rest : List Element) :
    removeFrom pattern skipped.length (skipped ++ rest) =
      removeFrom pattern 0 rest := by
  induction skipped with
  | nil => rfl
  | cons head tail ih =>
      rw [List.length_cons, List.cons_append, removeFrom, ih]

/- The pattern at the start of a text is deleted. -/
theorem removeAll_pattern_append
    (hPattern : pattern ≠ [])
    (rest : List Element) :
    removeAll pattern (pattern ++ rest) =
      removeAll pattern rest := by
  unfold removeAll
  cases pattern with
  | nil => exact absurd rfl hPattern
  | cons head tail =>
      rw [List.cons_append, removeFrom, if_pos]
      · exact removeFrom_length_append tail rest
      · rw [← List.cons_append]
        exact List.prefix_append _ _

end Text
