import Mathlib.Data.List.Infix

/-
  Phrases that are searched for in a text which is put
  together of parts.

  A part in which the phrase neither stands, begins nor ends
  may be left out of the search.

  Key definitions include:
    * `EndsApart`
    * `StartsApart`

  Key theorems include:
    * `infix_append_iff_of_endsApart`
    * `infix_append_iff_of_startsApart`
-/

namespace Text

variable {Element : Type}
variable {text rest phrase : List Element}

/- The phrase is not in the text, nor does it begin there. -/
structure EndsApart (text phrase : List Element) : Prop where
  absent : ¬ phrase <:+: text
  unbegun :
    ∀ part ∈ phrase.inits, part ≠ [] → ¬ part <:+ text

/- The phrase is not in the text, nor does it end there. -/
structure StartsApart (text phrase : List Element) :
    Prop where
  absent : ¬ phrase <:+: text
  unended :
    ∀ part ∈ phrase.tails, part ≠ [] → ¬ part <+: text

instance [DecidableEq Element] :
    Decidable (EndsApart text phrase) :=
  decidable_of_iff
    (¬ phrase <:+: text ∧
      ∀ part ∈ phrase.inits, part ≠ [] → ¬ part <:+ text)
    ⟨fun hApart => ⟨hApart.1, hApart.2⟩,
      fun hApart => ⟨hApart.absent, hApart.unbegun⟩⟩

instance [DecidableEq Element] :
    Decidable (StartsApart text phrase) :=
  decidable_of_iff
    (¬ phrase <:+: text ∧
      ∀ part ∈ phrase.tails, part ≠ [] → ¬ part <+: text)
    ⟨fun hApart => ⟨hApart.1, hApart.2⟩,
      fun hApart => ⟨hApart.absent, hApart.unended⟩⟩

theorem infix_append_iff_of_endsApart
    (hApart : EndsApart text phrase) :
    phrase <:+: text ++ rest ↔ phrase <:+: rest := by
  constructor
  · intro hInfix
    rcases List.infix_append_iff_ne_nil.mp hInfix with
      hText | hRest | ⟨front, back, hSome, _, hSame, hEnd, _⟩
    · exact absurd hText hApart.absent
    · exact hRest
    · have hPart : front ∈ phrase.inits := by
        rw [List.mem_inits, hSame]
        exact List.prefix_append front back
      exact absurd hEnd (hApart.unbegun front hPart hSome)
  · intro hRest
    exact List.infix_append_of_infix_right hRest

theorem infix_append_iff_of_startsApart
    (hApart : StartsApart text phrase) :
    phrase <:+: rest ++ text ↔ phrase <:+: rest := by
  constructor
  · intro hInfix
    rcases List.infix_append_iff_ne_nil.mp hInfix with
      hRest | hText | ⟨front, back, _, hSome, hSame, _, hStart⟩
    · exact hRest
    · exact absurd hText hApart.absent
    · have hPart : back ∈ phrase.tails := by
        rw [List.mem_tails, hSame]
        exact List.suffix_append front back
      exact absurd hStart (hApart.unended back hPart hSome)
  · intro hRest
    exact List.infix_append_of_infix_left hRest

/- A text without one of its elements is without it. -/
theorem not_infix_of_not_mem
    {element : Element}
    (hPhrase : element ∈ phrase)
    (hText : element ∉ text) :
    ¬ phrase <:+: text := by
  intro hInfix
  exact hText (hInfix.subset hPhrase)

end Text
