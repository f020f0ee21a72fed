import Mathlib.Logic.Function.Basic

/-
  Maps with values under finitely many keys.

  The keys that a map lists cover those it has a value for,
  so that two maps can be compared.  What a map lists beyond
  that does not matter: maps are the same when they have the
  same values.

  Key definitions include:
    * `FiniteMap`
    * `FiniteMap.choose`
    * `FiniteMap.carry`
    * `FiniteMap.same`

  Key theorems include:
    * `FiniteMap.same_iff`
    * `FiniteMap.find_carry`
    * `FiniteMap.carry_base`
-/

namespace Relational

structure FiniteMap (Key Value : Type) where
  keys : List Key
  find : Key → Option Value
  covered : ∀ key, find key ≠ none → key ∈ keys

namespace FiniteMap

variable {Key Value : Type}

def empty : FiniteMap Key Value where
  keys := []
  find _ := none
  covered _ hFound := absurd rfl hFound

/- One map under some keys, and the other under the rest. -/
def choose
    (first second : FiniteMap Key Value)
    (takesFirst : Key → Bool) : FiniteMap Key Value where
  keys := first.keys ++ second.keys
  find key :=
    if takesFirst key then first.find key
    else second.find key
  covered := by
    intro key hFound
    rw [List.mem_append]
    by_cases hTakes : takesFirst key = true
    · rw [if_pos hTakes] at hFound
      exact Or.inl (first.covered key hFound)
    · rw [if_neg hTakes] at hFound
      exact Or.inr (second.covered key hFound)

variable [DecidableEq Key]

def set
    (map : FiniteMap Key Value)
    (key : Key)
    (value : Value) : FiniteMap Key Value where
  keys := key :: map.keys
  find := Function.update map.find key (some value)
  covered := by
    intro other hFound
    rw [List.mem_cons]
    by_cases hKey : other = key
    · exact Or.inl hKey
    · rw [Function.update_of_ne hKey] at hFound
      exact Or.inr (map.covered other hFound)

def ofList : List (Key × Value) → FiniteMap Key Value
  | [] => empty
  | entry :: rest => (ofList rest).set entry.1 entry.2

variable [DecidableEq Value]

/- Two maps have the same values. -/
def same (first second : FiniteMap Key Value) : Bool :=
  (first.keys ++ second.keys).all fun key =>
    first.find key = second.find key

/-
  Carry the changes since a base over to another base: a
  value that has not changed follows the base.
-/
def carry
    (current base next : FiniteMap Key Value) :
    FiniteMap Key Value :=
  choose next current fun key =>
    current.find key = base.find key

/- A key has changed both here and between the bases. -/
def overwrites
    (current base next : FiniteMap Key Value) : Bool :=
  (current.keys ++ base.keys ++ next.keys).any fun key =>
    current.find key ≠ base.find key &&
      base.find key ≠ next.find key &&
      next.find key ≠ current.find key

variable {Key Value : Type}
variable {first second current base next : FiniteMap Key Value}

@[simp] theorem find_empty (key : Key) :
    (empty : FiniteMap Key Value).find key = none := rfl

theorem find_choose
    (takesFirst : Key → Bool)
    (key : Key) :
    (choose first second takesFirst).find key =
      if takesFirst key then first.find key
      else second.find key := rfl

variable [DecidableEq Value]

theorem same_iff :
    same first second = true ↔
      ∀ key, first.find key = second.find key := by
  unfold same
  rw [List.all_eq_true]
  constructor
  · intro hAll key
    by_cases hCovered : key ∈ first.keys ++ second.keys
    · exact of_decide_eq_true (hAll key hCovered)
    · have hFirst : first.find key = none := by
        by_contra hFound
        exact hCovered
          (List.mem_append_left _ (first.covered key hFound))
      have hSecond : second.find key = none := by
        by_contra hFound
        exact hCovered
          (List.mem_append_right _ (second.covered key hFound))
      rw [hFirst, hSecond]
  · intro hSame key _
    exact decide_eq_true (hSame key)

theorem find_carry (key : Key) :
    (carry current base next).find key =
      if current.find key = base.find key then next.find key
      else current.find key := by
  unfold carry
  rw [find_choose]
  by_cases hSame : current.find key = base.find key
  · rw [if_pos hSame, if_pos (decide_eq_true hSame)]
  · rw [if_neg hSame, if_neg]
    intro hDecided
    exact hSame (of_decide_eq_true hDecided)

/- Carried over to its own base, a map stays as it is. -/
theorem carry_base (key : Key) :
    (carry current base base).find key =
      current.find key := by
  rw [find_carry]
  by_cases hSame : current.find key = base.find key
  · rw [if_pos hSame, hSame]
  · rw [if_neg hSame]

/- What is carried depends on the values only. -/
theorem carry_congr
    {current' base' next' : FiniteMap Key Value}
    {key : Key}
    (hCurrent : current.find key = current'.find key)
    (hBase : base.find key = base'.find key)
    (hNext : next.find key = next'.find key) :
    (carry current base next).find key =
      (carry current' base' next').find key := by
  rw [find_carry, find_carry, hCurrent, hBase, hNext]

variable {Key Value : Type} [DecidableEq Key]

theorem find_set
    (map : FiniteMap Key Value)
    (key : Key)
    (value : Value)
    (other : Key) :
    (map.set key value).find other =
      if other = key then some value
      else map.find other := by
  unfold set
  exact Function.update_apply ..

@[simp] theorem find_set_self
    (map : FiniteMap Key Value)
    (key : Key)
    (value : Value) :
    (map.set key value).find key = some value :=
  Function.update_self ..

theorem find_set_of_ne
    {map : FiniteMap Key Value}
    {key other : Key}
    {value : Value}
    (hKey : other ≠ key) :
    (map.set key value).find other = map.find other :=
  Function.update_of_ne hKey ..

end FiniteMap

end Relational
