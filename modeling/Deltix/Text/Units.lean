import Deltix.Text.Json
import Mathlib.Data.List.Lex
import Mathlib.Data.List.Sort

/-
  The order of texts by their code units, which is the one
  that the language sorts by.

  Key definitions include:
    * `unitsLe`
    * `sortTexts`

  Key theorems include:
    * `js_injective`
    * `sortTexts_unique`
-/

------------------------------------------------------------
-- Code Units
------------------------------------------------------------

namespace Text

variable {c d : Char} {text other : List Char}

theorem toNat_lt (c : Char) : c.toNat < 0x110000 := by
  rcases c.valid with hLow | hHigh
  · have hVal : c.val.toNat < 0xD800 := hLow
    have hSame : c.toNat = c.val.toNat := rfl
    omega
  · have hVal : c.val.toNat < 0x110000 := hHigh.2
    exact hVal

theorem not_surrogate (c : Char) :
    c.toNat < 0xD800 ∨ 0xDFFF < c.toNat := by
  rcases c.valid with hLow | hHigh
  · exact Or.inl hLow
  · exact Or.inr hHigh.1

/- The units of a text tell its first character and the
   rest. -/
theorem unitsOf_append_inj
    {rest more : JsString}
    (hSame : unitsOf c ++ rest = unitsOf d ++ more) :
    c = d ∧ rest = more := by
  have hFirst := toNat_lt c
  have hSecond := toNat_lt d
  have hFirstCode := not_surrogate c
  have hSecondCode := not_surrogate d
  have hNat :
      ∀ m n : Nat, m < 0x10000 → n < 0x10000 →
        UInt16.ofNat m = UInt16.ofNat n → m = n := by
    intro m n hm hn hEq
    have hBoth := congrArg UInt16.toNat hEq
    rw [UInt16.toNat_ofNat', UInt16.toNat_ofNat'] at hBoth
    omega
  unfold unitsOf at hSame
  split_ifs at hSame with hLow hOther hOther
  · rcases List.cons.inj hSame with ⟨hUnit, hRest⟩
    have hCode := hNat _ _ hLow hOther hUnit
    exact ⟨Char.toNat_inj.mp hCode, hRest⟩
  · exfalso
    rcases List.cons.inj hSame with ⟨hUnit, _⟩
    have hCode := hNat _ _ hLow (by omega) hUnit
    omega
  · exfalso
    rcases List.cons.inj hSame with ⟨hUnit, _⟩
    have hCode := hNat _ _ (by omega) hOther hUnit
    omega
  · rcases List.cons.inj hSame with ⟨hHigh, hTail⟩
    rcases List.cons.inj hTail with ⟨hLowUnit, hRest⟩
    have hTop := hNat _ _ (by omega) (by omega) hHigh
    have hBottom := hNat _ _ (by omega) (by omega) hLowUnit
    have hCode : c.toNat = d.toNat := by omega
    exact ⟨Char.toNat_inj.mp hCode, hRest⟩

theorem unitsOf_ne_nil (c : Char) : unitsOf c ≠ [] := by
  unfold unitsOf
  split
  · exact List.cons_ne_nil _ _
  · exact List.cons_ne_nil _ _

theorem units_injective
    (hSame : units text = units other) :
    text = other := by
  induction text generalizing other with
  | nil =>
      cases other with
      | nil => rfl
      | cons d more =>
          exfalso
          have hParts :=
            List.append_eq_nil_iff.mp hSame.symm
          exact unitsOf_ne_nil d hParts.1
  | cons c rest ih =>
      cases other with
      | nil =>
          exfalso
          have hParts := List.append_eq_nil_iff.mp hSame
          exact unitsOf_ne_nil c hParts.1
      | cons d more =>
          rcases unitsOf_append_inj hSame with ⟨hChar, hRest⟩
          rw [hChar, ih hRest]

theorem js_injective
    {a b : String}
    (hSame : js a = js b) :
    a = b :=
  String.toList_inj.mp (units_injective hSame)

/- The order that `.sort()` puts texts in. -/
def unitsLe (a b : String) : Prop :=
  (js a).map UInt16.toNat ≤ (js b).map UInt16.toNat

instance : DecidableRel unitsLe :=
  fun a b =>
    inferInstanceAs
      (Decidable
        ((js a).map UInt16.toNat ≤ (js b).map UInt16.toNat))

def sortTexts (texts : List String) : List String :=
  texts.insertionSort unitsLe

instance : Std.Total unitsLe where
  total a b :=
    le_total ((js a).map UInt16.toNat)
      ((js b).map UInt16.toNat)

instance : IsTrans String unitsLe where
  trans _ b _ hFirst hSecond :=
    le_trans (b := (js b).map UInt16.toNat) hFirst hSecond

instance : Std.Antisymm unitsLe where
  antisymm a b hFirst hSecond := by
    have hSame := le_antisymm hFirst hSecond
    have hInjective : Function.Injective UInt16.toNat :=
      fun _ _ hEq => UInt16.toNat_inj.mp hEq
    exact js_injective (hInjective.list_map hSame)

variable {texts others : List String} {text : String}

@[simp] theorem mem_sortTexts :
    text ∈ sortTexts texts ↔ text ∈ texts :=
  List.mem_insertionSort unitsLe

theorem sorted_sortTexts (texts : List String) :
    (sortTexts texts).Pairwise unitsLe :=
  List.pairwise_insertionSort unitsLe texts

theorem nodup_sortTexts :
    (sortTexts texts).Nodup ↔ texts.Nodup :=
  (List.perm_insertionSort unitsLe texts).nodup_iff

/- What is sorted and has no doubles is determined by its
   members. -/
theorem sortTexts_unique
    (hTexts : texts.Nodup)
    (hOthers : others.Nodup)
    (hSame : ∀ text, text ∈ texts ↔ text ∈ others) :
    sortTexts texts = sortTexts others := by
  have hPerm : (sortTexts texts).Perm (sortTexts others) := by
    have hBoth := (List.perm_ext_iff_of_nodup hTexts hOthers).mpr hSame
    have hLeft := List.perm_insertionSort unitsLe texts
    have hRight := List.perm_insertionSort unitsLe others
    exact (hLeft.trans hBoth).trans hRight.symm
  exact
    hPerm.eq_of_pairwise' (sorted_sortTexts texts)
      (sorted_sortTexts others)

end Text
