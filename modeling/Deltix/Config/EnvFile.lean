import Deltix.Text.EnvText

/-
  Variables that are read from a file into an environment,
  one on each line, where it has no such variable yet.

  Key definitions include:
    * `Env`
    * `loadLine`
    * `loadProductionEnvFileInto`
    * `IsName`

  Key theorems include:
    * `loadLine_assignment`
    * `foldl_loadLine`
-/

namespace Config

open Text

/- The variables of an environment, in the order they were
   set in. -/
abbrev Env : Type :=
  List (List Char × List Char)

/- What every object has besides its own properties. -/
def prototypeNames : List (List Char) :=
  ["constructor".toList, "hasOwnProperty".toList,
    "isPrototypeOf".toList, "propertyIsEnumerable".toList,
    "toLocaleString".toList, "toString".toList,
    "valueOf".toList, "__defineGetter__".toList,
    "__defineSetter__".toList, "__lookupGetter__".toList,
    "__lookupSetter__".toList, "__proto__".toList]

/- `key in env` -/
def isIn (key : List Char) (env : Env) : Bool :=
  (env.lookup key).isSome || prototypeNames.contains key

def DEFAULT_PROD_ENV_FILE : List Char :=
  "/etc/deltix/deltix.env".toList

/- What is at a path: nothing, a file that cannot be read, or
   its text. -/
abbrev Files : Type :=
  List Char → Option (Option (List Char))

def loadLine (env : Env) (line : List Char) : Env :=
  let trimmed := trimChars line
  if trimmed = [] ∨ trimmed.head? = some '#' then env
  else if '=' ∉ trimmed then env
  else
    let eq := trimmed.idxOf '='
    let key := trimChars (trimmed.take eq)
    let rawValue := trimChars (trimmed.drop (eq + 1))
    if key = [] ∨ isIn key env then env
    else env ++ [(key, unquote '\'' (unquote '"' rawValue))]

def loadProductionEnvFileInto
    (files : Files)
    (env : Env) : Env :=
  let envFilePath :=
    (env.lookup "DELTIX_ENV_FILE".toList).getD
      DEFAULT_PROD_ENV_FILE
  match files envFilePath with
  | none => env
  | some none => env
  | some (some text) => (split '\n' text).foldl loadLine env

------------------------------------------------------------
-- Assignments
------------------------------------------------------------

open Csv

variable {env : Env} {key value : List Char}
variable {c : Char}

/- The name of a variable, of capitals and underscores. -/
structure IsName (key : List Char) : Prop where
  nonempty : key ≠ []
  letters : ∀ c ∈ key, c.isUpper = true ∨ c = '_'

theorem isName_iff :
    IsName key ↔
      key.isEmpty = false ∧
        key.all (fun c => c.isUpper || c == '_') = true := by
  simp only [List.isEmpty_eq_false_iff, List.all_eq_true,
    Bool.or_eq_true, beq_iff_eq]
  constructor
  · intro hName
    exact ⟨hName.nonempty, hName.letters⟩
  · rintro ⟨hNonempty, hLetters⟩
    exact ⟨hNonempty, hLetters⟩

instance (key : List Char) : Decidable (IsName key) :=
  decidable_of_iff _ isName_iff.symm

theorem IsName.not_mem
    (hName : IsName key)
    (hUpper : c.isUpper = false)
    (hScore : c ≠ '_') :
    c ∉ key := by
  intro hMember
  rcases hName.letters c hMember with hLetter | hSame
  · rw [hUpper] at hLetter
    cases hLetter
  · exact hScore hSame

theorem isBlank_of_isUpper
    (hUpper : c.isUpper = true) :
    isBlank c = false := by
  have hCode := code_of_isUpper hUpper
  exact isSpaceCode_of_between (by omega) (by omega)

theorem IsName.solid
    (hName : IsName key)
    (hMember : c ∈ key) :
    isBlank c = false := by
  rcases hName.letters c hMember with hUpper | hSame
  · exact isBlank_of_isUpper hUpper
  · rw [hSame]
    decide

theorem IsName.starts
    (hName : IsName key)
    (first : Char)
    (hFirst : key.head? = some first) :
    isBlank first = false :=
  hName.solid (List.mem_of_mem_head? hFirst)

/- A name is not trimmed. -/
theorem IsName.trimChars_eq (hName : IsName key) :
    trimChars key = key := by
  apply trimChars_eq_self hName.starts
  intro last hLast
  exact hName.solid (List.mem_of_getLast? hLast)

/- A line with a name sets the variable to the bare value. -/
theorem loadLine_assignment
    (hName : IsName key)
    (hNew : isIn key env = false)
    (value : List Char) :
    loadLine env (key ++ '=' :: value) =
      env ++ [(key, bare value)] := by
  have hMark : '=' ∉ key := hName.not_mem (by decide) (by decide)
  have hHash : '#' ∉ key := hName.not_mem (by decide) (by decide)
  have hTrim :
      trimChars (key ++ '=' :: value) =
        key ++ '=' :: dropBlankEnd value :=
    trimChars_append_cons hName.starts (by decide) value
  have hHead :
      ¬ (key ++ '=' :: dropBlankEnd value = [] ∨
          (key ++ '=' :: dropBlankEnd value).head? =
            some '#') := by
    rintro (hNil | hFirst)
    · exact List.cons_ne_nil _ _ (List.append_eq_nil_iff.mp hNil).2
    · rw [List.head?_append_of_ne_nil _ hName.nonempty] at hFirst
      exact hHash (List.mem_of_mem_head? hFirst)
  have hIndex :
      (key ++ '=' :: dropBlankEnd value).idxOf '=' =
        key.length := by
    rw [List.idxOf_append_of_notMem hMark, List.idxOf_cons_self]
    rfl
  have hValue :
      (key ++ '=' :: dropBlankEnd value).drop (key.length + 1) =
        dropBlankEnd value := by
    rw [List.drop_append]
    simp
  unfold loadLine
  simp only [hTrim]
  rw [if_neg hHead, if_neg (by simp), hIndex, List.take_left,
    hValue, hName.trimChars_eq, trimChars_dropBlankEnd,
    if_neg]
  · rfl
  · rintro (hNil | hThere)
    · exact hName.nonempty hNil
    · rw [hNew] at hThere
      cases hThere

theorem loadLine_comment (env : Env) (text : List Char) :
    loadLine env ('#' :: text) = env := by
  have hTrim :
      trimChars ('#' :: text) = '#' :: dropBlankEnd text := by
    apply trimChars_append_cons (a := [])
    · intro first hFirst
      cases hFirst
    · decide
  unfold loadLine
  simp only [hTrim]
  rw [if_pos]
  right
  rfl

theorem loadLine_nil (env : Env) : loadLine env [] = env := rfl

theorem isIn_append_of_ne
    {other : List Char}
    (hNew : isIn key env = false)
    (hOther : key ≠ other)
    (value : List Char) :
    isIn key (env ++ [(other, value)]) = false := by
  have hKey : (key == other) = false := by
    simpa using hOther
  unfold isIn at hNew ⊢
  rw [Bool.or_eq_false_iff] at hNew ⊢
  refine ⟨?_, hNew.2⟩
  have hNone : env.lookup key = none := by
    simpa using hNew.1
  rw [List.lookup_append, hNone, List.lookup_cons, hKey]
  rfl

/- A line for each variable. -/
def assignment (entry : List Char × List Char) : List Char :=
  entry.1 ++ '=' :: entry.2

/- Lines with different names set all their variables. -/
theorem foldl_loadLine
    (entries : Env)
    (hNames : ∀ entry ∈ entries, IsName entry.1)
    (hApart : (entries.map Prod.fst).Nodup)
    (hNew : ∀ entry ∈ entries, isIn entry.1 env = false) :
    (entries.map assignment).foldl loadLine env =
      env ++
        entries.map fun entry => (entry.1, bare entry.2) := by
  induction entries generalizing env with
  | nil => simp
  | cons entry rest ih =>
      rw [List.map_cons, List.nodup_cons] at hApart
      have hHere :
          loadLine env (assignment entry) =
            env ++ [(entry.1, bare entry.2)] :=
        loadLine_assignment
          (hNames entry List.mem_cons_self)
          (hNew entry List.mem_cons_self) entry.2
      rw [List.map_cons, List.foldl_cons, hHere, ih]
      · rw [List.map_cons, List.append_assoc,
          List.singleton_append]
      · intro other hOther
        exact hNames other (List.mem_cons_of_mem _ hOther)
      · exact hApart.2
      · intro other hOther
        apply isIn_append_of_ne
        · exact hNew other (List.mem_cons_of_mem _ hOther)
        · intro hSame
          apply hApart.1
          rw [← hSame]
          exact List.mem_map_of_mem hOther

end Config
