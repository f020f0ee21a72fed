import Mathlib.Data.List.Basic

/-
  Taking texts apart: at a mark, and at the white space
  around them.

  Key definitions include:
    * `split`
    * `trimBy`
    * `isSpaceCode`

  Key theorems include:
    * `code_of_isAlphanum`
    * `isSpaceCode_of_between`
-/

namespace Text

variable {Element : Type}

/- The parts of a text between the marks in it. -/
def split [DecidableEq Element] (mark : Element) :
    List Element → List (List Element)
  | [] => [[]]
  | element :: rest =>
      if element = mark then [] :: split mark rest
      else
        match split mark rest with
        | [] => [[element]]
        | part :: parts => (element :: part) :: parts

/- A text without the blanks at its ends. -/
def trimBy
    (blank : Element → Bool)
    (text : List Element) : List Element :=
  ((text.dropWhile blank).reverse.dropWhile blank).reverse

/- The white space and the line ends of the language. -/
def isSpaceCode (code : Nat) : Bool :=
  (0x09 ≤ code && code ≤ 0x0D) || code = 0x20 ||
    code = 0xA0 || code = 0x1680 ||
    (0x2000 ≤ code && code ≤ 0x200A) || code = 0x2028 ||
    code = 0x2029 || code = 0x202F || code = 0x205F ||
    code = 0x3000 || code = 0xFEFF

/- A text of characters, as `trim` leaves it. -/
def trimChars (text : List Char) : List Char :=
  trimBy (fun char => isSpaceCode char.toNat) text

variable {c : Char}

theorem code_of_isUpper (hUpper : c.isUpper = true) :
    65 ≤ c.toNat ∧ c.toNat ≤ 90 := by
  have hBoth : 'A'.val ≤ c.val ∧ c.val ≤ 'Z'.val :=
    of_decide_eq_true hUpper
  rw [UInt32.le_iff_toNat_le, UInt32.le_iff_toNat_le] at hBoth
  exact hBoth

theorem code_of_isLower (hLower : c.isLower = true) :
    97 ≤ c.toNat ∧ c.toNat ≤ 122 := by
  have hBoth :
      (decide ('a'.val ≤ c.val) && decide (c.val ≤ 'z'.val)) =
        true := hLower
  rw [Bool.and_eq_true, decide_eq_true_eq, decide_eq_true_eq,
    UInt32.le_iff_toNat_le, UInt32.le_iff_toNat_le] at hBoth
  exact hBoth

theorem code_of_isDigit (hDigit : c.isDigit = true) :
    48 ≤ c.toNat ∧ c.toNat ≤ 57 := by
  have hBoth :
      (decide ('0'.val ≤ c.val) && decide (c.val ≤ '9'.val)) =
        true := hDigit
  rw [Bool.and_eq_true, decide_eq_true_eq, decide_eq_true_eq,
    UInt32.le_iff_toNat_le, UInt32.le_iff_toNat_le] at hBoth
  exact hBoth

theorem code_of_isAlphanum (hAlphanum : c.isAlphanum = true) :
    48 ≤ c.toNat ∧ c.toNat ≤ 122 := by
  have hClasses :
      ((c.isUpper || c.isLower) || c.isDigit) = true :=
    hAlphanum
  rw [Bool.or_eq_true, Bool.or_eq_true] at hClasses
  rcases hClasses with (hUpper | hLower) | hDigit
  · have hCode := code_of_isUpper hUpper
    omega
  · have hCode := code_of_isLower hLower
    omega
  · have hCode := code_of_isDigit hDigit
    omega

theorem isAlphanum_of_isLower (hLower : c.isLower = true) :
    c.isAlphanum = true := by
  have hClasses :
      c.isAlphanum = ((c.isUpper || c.isLower) || c.isDigit) :=
    rfl
  rw [hClasses, hLower, Bool.or_true, Bool.true_or]

theorem isAlphanum_of_isDigit (hDigit : c.isDigit = true) :
    c.isAlphanum = true := by
  have hClasses :
      c.isAlphanum = ((c.isUpper || c.isLower) || c.isDigit) :=
    rfl
  rw [hClasses, hDigit, Bool.or_true]

/- There is no white space among the letters and marks. -/
theorem isSpaceCode_of_between
    {code : Nat}
    (hLow : 0x20 < code)
    (hHigh : code < 0xA0) :
    isSpaceCode code = false := by
  simp only [isSpaceCode, Bool.or_eq_false_iff,
    Bool.and_eq_false_iff, decide_eq_false_iff_not]
  omega

end Text
