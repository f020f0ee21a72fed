import Deltix.Versioning.RepoServices

/-
  The checks of branch names.  The services and the commands
  have a copy each, and one of them asks for more.

  Key definitions include:
    * `BranchCheck`
    * `BranchCheck.accepts`

  Key theorems include:
    * `accepts_eq`
    * `agree_iff`
    * `upper_case_not_diffed`
-/

------------------------------------------------------------
-- The Copies Of The Check
------------------------------------------------------------

namespace Versioning

open Text

/- `s.trim()` -/
def trimmed (s : String) : List Char :=
  trimChars s.toList

def includesDots (s : String) : Bool :=
  ['.', '.'] <:+: s.toList

def startsWithSlash (s : String) : Bool :=
  ['/'] <+: s.toList

def endsWithSlash (s : String) : Bool :=
  ['/'] <:+ s.toList

/- `s === s.toLowerCase()`, for characters of a branch. -/
def isLowerCase (s : String) : Bool :=
  s.toList.flatMap lowerOf = s.toList

/- `/^[0-9a-z]{32}$/` -/
def validCommitHash (ref : String) : Bool :=
  ref.toList.length = 32 &&
    ref.toList.all fun c => c.isDigit || c.isLower

/- The condition of three services. -/
def acceptsForService (branchName : String) : Bool :=
  let normalized := trimmed branchName
  !(normalized.length = 0 || normalized ≠ branchName.toList ||
      !validBranch branchName || includesDots branchName ||
      startsWithSlash branchName || endsWithSlash branchName)

/- The condition of two commands. -/
def acceptsForCommand (branchName : String) : Bool :=
  !(trimmed branchName ≠ branchName.toList ||
      !validBranch branchName || includesDots branchName ||
      startsWithSlash branchName || endsWithSlash branchName)

namespace BranchService

def acceptsName : String → Bool :=
  acceptsForService

end BranchService

namespace MergeService

def acceptsName : String → Bool :=
  acceptsForService

end MergeService

namespace LogService

def acceptsName : String → Bool :=
  acceptsForService

end LogService

namespace DoltLogCli

def acceptsSafeName : String → Bool :=
  acceptsForCommand

end DoltLogCli

namespace DoltMergeCli

def acceptsSafeName : String → Bool :=
  acceptsForCommand

end DoltMergeCli

namespace DiffService

/- A branch has to be written in lower case here. -/
def acceptsRef (ref : String) : Bool :=
  let normalized := trimmed ref
  let asBranch :=
    validBranch ref && isLowerCase ref && !includesDots ref &&
      !startsWithSlash ref && !endsWithSlash ref
  let asCommit := validCommitHash ref && isLowerCase ref
  !(normalized.length = 0 || normalized ≠ ref.toList ||
      (!asBranch && !asCommit))

end DiffService

namespace DoltDiffCli

def acceptsSafeRef (ref : String) : Bool :=
  let normalized := trimmed ref
  let isBranch :=
    validBranch ref && !includesDots ref &&
      !startsWithSlash ref && !endsWithSlash ref
  !(normalized ≠ ref.toList || normalized.length = 0) &&
    (isBranch || validCommitHash ref)

end DoltDiffCli

/- Where a branch name is checked. -/
inductive BranchCheck where
  | branchService
  | mergeService
  | logService
  | diffService
  | logCli
  | mergeCli
  | diffCli
  deriving DecidableEq, Repr

def BranchCheck.accepts : BranchCheck → String → Bool
  | .branchService => BranchService.acceptsName
  | .mergeService => MergeService.acceptsName
  | .logService => LogService.acceptsName
  | .diffService => DiffService.acceptsRef
  | .logCli => DoltLogCli.acceptsSafeName
  | .mergeCli => DoltMergeCli.acceptsSafeName
  | .diffCli => DoltDiffCli.acceptsSafeRef

------------------------------------------------------------
-- What The Pattern Implies
------------------------------------------------------------

/- The characters of the pattern. -/
def isBranchChar (c : Char) : Bool :=
  c.isAlphanum || c = '_' || c = '.' || c = '-' || c = '/'

variable {s : String} {c : Char}

theorem branchChars_of_validBranch
    (hValid : validBranch s = true) :
    ∀ c ∈ s.toList, isBranchChar c = true := by
  unfold validBranch at hValid
  cases hList : s.toList with
  | nil => simp [hList] at hValid
  | cons first rest =>
      rw [hList] at hValid
      simp only [Bool.and_eq_true, List.all_eq_true] at hValid
      intro c hMember
      rcases List.mem_cons.mp hMember with hFirst | hRest
      · subst hFirst
        have hStart := hValid.1.1
        unfold isBranchChar
        simp only [Bool.or_eq_true] at hStart ⊢
        exact Or.inl (Or.inl (Or.inl hStart))
      · exact hValid.2 c hRest

theorem ne_nil_of_validBranch
    (hValid : validBranch s = true) :
    s.toList ≠ [] := by
  intro hNone
  simp [validBranch, hNone] at hValid

/- None of the characters is white space. -/
theorem not_space_of_branchChar
    (hChar : isBranchChar c = true) :
    isSpaceCode c.toNat = false := by
  simp only [isBranchChar, Bool.or_eq_true,
    decide_eq_true_eq] at hChar
  have hCodes :
      '_'.toNat = 95 ∧ '.'.toNat = 46 ∧ '-'.toNat = 45 ∧
        '/'.toNat = 47 :=
    ⟨rfl, rfl, rfl, rfl⟩
  have hRange : 45 ≤ c.toNat ∧ c.toNat ≤ 122 := by
    rcases hChar with (((hAlnum | hOther) | hOther) | hOther) |
      hOther
    · have hCode := code_of_isAlphanum hAlnum
      omega
    all_goals
      rw [hOther]
      omega
  exact isSpaceCode_of_between (by omega) (by omega)

/- A text without white space stays as it is. -/
theorem trimmed_eq_self
    (hSpaces :
      ∀ c ∈ s.toList, isSpaceCode c.toNat = false) :
    trimmed s = s.toList := by
  have hDrop :
      ∀ text : List Char,
        (∀ c ∈ text, isSpaceCode c.toNat = false) →
          text.dropWhile (fun c => isSpaceCode c.toNat) =
            text := by
    intro text hText
    cases text with
    | nil => rfl
    | cons first rest =>
        have hFirst := hText first List.mem_cons_self
        rw [List.dropWhile_cons_of_neg]
        simpa using hFirst
  unfold trimmed trimChars trimBy
  rw [hDrop _ hSpaces, hDrop, List.reverse_reverse]
  intro c hMember
  exact hSpaces c (List.mem_reverse.mp hMember)

theorem trimmed_of_validBranch
    (hValid : validBranch s = true) :
    trimmed s = s.toList := by
  apply trimmed_eq_self
  intro c hMember
  apply not_space_of_branchChar
  exact branchChars_of_validBranch hValid c hMember

/- The first character of the pattern is no slash. -/
theorem startsWithSlash_of_validBranch
    (hValid : validBranch s = true) :
    startsWithSlash s = false := by
  unfold validBranch at hValid
  unfold startsWithSlash
  cases hList : s.toList with
  | nil => rfl
  | cons first rest =>
      rw [hList] at hValid
      simp only [Bool.and_eq_true] at hValid
      rw [decide_eq_false_iff_not, List.cons_prefix_cons]
      rintro ⟨hSlash, _⟩
      rw [← hSlash] at hValid
      exact absurd hValid.1.1 (by decide)

/- A hash is a branch name, too. -/
theorem validBranch_of_hash
    (hHash : validCommitHash s = true) :
    validBranch s = true := by
  simp only [validCommitHash, Bool.and_eq_true,
    decide_eq_true_eq, List.all_eq_true] at hHash
  have hAlnum :
      ∀ c ∈ s.toList, c.isAlphanum = true := by
    intro c hMember
    have hChar := hHash.2 c hMember
    simp only [Bool.or_eq_true] at hChar
    rcases hChar with hDigit | hLower
    · exact isAlphanum_of_isDigit hDigit
    · exact isAlphanum_of_isLower hLower
  unfold validBranch
  cases hList : s.toList with
  | nil =>
      rw [hList] at hHash
      cases hHash.1
  | cons first rest =>
      rw [hList] at hHash hAlnum
      have hLength := hHash.1
      rw [List.length_cons] at hLength
      simp only [Bool.and_eq_true, Bool.or_eq_true,
        decide_eq_true_eq, List.all_eq_true]
      refine ⟨⟨Or.inl (hAlnum _ List.mem_cons_self), ?_⟩, ?_⟩
      · omega
      · intro c hMember
        have hChar := hAlnum c (List.mem_cons_of_mem _ hMember)
        exact Or.inl (Or.inl (Or.inl (Or.inl hChar)))

/- Nor is there a dot or a slash in it. -/
theorem hash_notMem
    (hHash : validCommitHash s = true)
    (hOther : (c.isDigit || c.isLower) = false) :
    c ∉ s.toList := by
  intro hMember
  simp only [validCommitHash, Bool.and_eq_true,
    List.all_eq_true] at hHash
  rw [hHash.2 c hMember] at hOther
  cases hOther

theorem includesDots_of_hash
    (hHash : validCommitHash s = true) :
    includesDots s = false := by
  unfold includesDots
  rw [decide_eq_false_iff_not]
  intro hDots
  have hMember : '.' ∈ s.toList :=
    hDots.subset List.mem_cons_self
  exact hash_notMem hHash (by decide) hMember

theorem endsWithSlash_of_hash
    (hHash : validCommitHash s = true) :
    endsWithSlash s = false := by
  unfold endsWithSlash
  rw [decide_eq_false_iff_not]
  intro hSlash
  have hMember : '/' ∈ s.toList :=
    hSlash.subset List.mem_cons_self
  exact hash_notMem hHash (by decide) hMember

------------------------------------------------------------
-- What Each Copy Accepts
------------------------------------------------------------

theorem acceptsBranchName_of_hash
    (hHash : validCommitHash s = true) :
    acceptsBranchName s = true := by
  have hDots := includesDots_of_hash hHash
  have hSlash := endsWithSlash_of_hash hHash
  unfold includesDots at hDots
  unfold endsWithSlash at hSlash
  unfold acceptsBranchName
  rw [validBranch_of_hash hHash, hDots, hSlash]
  rfl

theorem acceptsForService_eq (s : String) :
    acceptsForService s = acceptsBranchName s := by
  unfold acceptsForService acceptsBranchName
  cases hValid : validBranch s with
  | false => simp
  | true =>
      rw [startsWithSlash_of_validBranch hValid]
      have hSome := ne_nil_of_validBranch hValid
      simp [trimmed_of_validBranch hValid, hSome,
        includesDots, endsWithSlash]

theorem acceptsForCommand_eq (s : String) :
    acceptsForCommand s = acceptsBranchName s := by
  unfold acceptsForCommand acceptsBranchName
  cases hValid : validBranch s with
  | false => simp
  | true =>
      rw [startsWithSlash_of_validBranch hValid]
      simp [trimmed_of_validBranch hValid, includesDots,
        endsWithSlash]

theorem acceptsSafeRef_eq (s : String) :
    DoltDiffCli.acceptsSafeRef s = acceptsBranchName s := by
  cases hHash : validCommitHash s with
  | true =>
      have hValid := validBranch_of_hash hHash
      have hSome := ne_nil_of_validBranch hValid
      rw [acceptsBranchName_of_hash hHash]
      simp [DoltDiffCli.acceptsSafeRef, hHash,
        trimmed_of_validBranch hValid, hSome]
  | false =>
      unfold DoltDiffCli.acceptsSafeRef acceptsBranchName
      rw [hHash]
      cases hValid : validBranch s with
      | false => simp
      | true =>
          rw [startsWithSlash_of_validBranch hValid]
          have hSome := ne_nil_of_validBranch hValid
          simp [trimmed_of_validBranch hValid, hSome,
            includesDots, endsWithSlash]

/- The service of the diffs asks for lower case besides. -/
theorem acceptsRef_eq (s : String) :
    DiffService.acceptsRef s =
      (acceptsBranchName s && isLowerCase s) := by
  cases hHash : validCommitHash s with
  | true =>
      have hValid := validBranch_of_hash hHash
      have hSome := ne_nil_of_validBranch hValid
      rw [acceptsBranchName_of_hash hHash]
      cases hLower : isLowerCase s with
      | true =>
          simp [DiffService.acceptsRef, hHash, hLower,
            trimmed_of_validBranch hValid, hSome]
      | false => simp [DiffService.acceptsRef, hLower]
  | false =>
      unfold DiffService.acceptsRef acceptsBranchName
      rw [hHash]
      cases hValid : validBranch s with
      | false => simp
      | true =>
          rw [startsWithSlash_of_validBranch hValid]
          have hSome := ne_nil_of_validBranch hValid
          cases isLowerCase s with
          | true =>
              simp [trimmed_of_validBranch hValid, hSome,
                includesDots, endsWithSlash]
          | false => simp

def hasUpperCase (s : String) : Bool :=
  s.toList.any Char.isUpper

theorem lowerOf_of_branchChar
    (hChar : isBranchChar c = true) :
    lowerOf c = [c.toLower] := by
  have hSpecial : c.toNat ≠ 0x212A ∧ c.toNat ≠ 0x130 := by
    constructor
    · intro hCode
      have hSame : c = Char.ofNat 0x212A := by
        rw [← hCode, Char.ofNat_toNat]
      rw [hSame] at hChar
      exact absurd hChar (by decide)
    · intro hCode
      have hSame : c = Char.ofNat 0x130 := by
        rw [← hCode, Char.ofNat_toNat]
      rw [hSame] at hChar
      exact absurd hChar (by decide)
  unfold lowerOf
  rw [if_neg hSpecial.1, if_neg hSpecial.2]

theorem toLower_eq_self_iff (c : Char) :
    c.toLower = c ↔ c.isUpper = false := by
  unfold Char.toLower
  split
  · rename_i hUpper
    constructor
    · intro hSame
      have hVal := congrArg Char.val hSame
      simp at hVal
    · intro hNot
      exact absurd hUpper (of_decide_eq_false hNot)
  · rename_i hNot
    constructor
    · intro _
      exact decide_eq_false hNot
    · intro _
      rfl

/- In a branch name only capitals change. -/
theorem isLowerCase_iff
    (hValid : validBranch s = true) :
    isLowerCase s = true ↔ hasUpperCase s = false := by
  have hAll :
      ∀ text : List Char,
        (∀ c ∈ text, isBranchChar c = true) →
          (text.flatMap lowerOf = text ↔
            text.any Char.isUpper = false) := by
    intro text
    induction text with
    | nil => simp
    | cons first rest ih =>
        intro hChars
        have hFirst := hChars first List.mem_cons_self
        have hRest :=
          ih fun c hMember =>
            hChars c (List.mem_cons_of_mem _ hMember)
        rw [List.flatMap_cons, lowerOf_of_branchChar hFirst,
          List.singleton_append, List.cons.injEq, hRest,
          toLower_eq_self_iff, List.any_cons,
          Bool.or_eq_false_iff]
  unfold isLowerCase hasUpperCase
  rw [decide_eq_true_eq]
  exact hAll s.toList (branchChars_of_validBranch hValid)

/- All but one of the copies accept the same names. -/
theorem accepts_eq
    (check : BranchCheck)
    (hCheck : check ≠ .diffService) :
    check.accepts s = acceptsBranchName s := by
  cases check with
  | branchService => exact acceptsForService_eq s
  | mergeService => exact acceptsForService_eq s
  | logService => exact acceptsForService_eq s
  | diffService => exact absurd rfl hCheck
  | logCli => exact acceptsForCommand_eq s
  | mergeCli => exact acceptsForCommand_eq s
  | diffCli => exact acceptsSafeRef_eq s

/-
  The copies agree on a text, and a branch of that name that
  can be created can be used everywhere, unless it is a
  branch name with a capital letter.
-/
theorem agree_iff (s : String) :
    ((∀ a b : BranchCheck, a.accepts s = b.accepts s) ↔
        (acceptsBranchName s = true →
          hasUpperCase s = false)) ∧
      ((BranchCheck.branchService.accepts s = true →
          ∀ check : BranchCheck, check.accepts s = true) ↔
        (acceptsBranchName s = true →
          hasUpperCase s = false)) := by
  have hDiff :
      BranchCheck.diffService.accepts s =
        (acceptsBranchName s && isLowerCase s) :=
    acceptsRef_eq s
  have hOthers :
      ∀ check : BranchCheck,
        check ≠ .diffService →
          check.accepts s = acceptsBranchName s :=
    fun check hCheck => accepts_eq check hCheck
  have hService := hOthers .branchService (by decide)
  cases hName : acceptsBranchName s with
  | false =>
      have hNone :
          ∀ check : BranchCheck, check.accepts s = false := by
        intro check
        by_cases hCheck : check = .diffService
        · rw [hCheck, hDiff, hName]
          rfl
        · rw [hOthers check hCheck, hName]
      simp [hNone]
  | true =>
      have hValid : validBranch s = true := by
        simp only [acceptsBranchName, Bool.and_eq_true]
          at hName
        exact hName.1.1
      have hLower := isLowerCase_iff hValid
      have hEvery :
          (∀ check : BranchCheck, check.accepts s = true) ↔
            isLowerCase s = true := by
        constructor
        · intro hAll
          have hAccepts := hAll .diffService
          rw [hDiff, hName, Bool.true_and] at hAccepts
          exact hAccepts
        · intro hSmall check
          by_cases hCheck : check = .diffService
          · rw [hCheck, hDiff, hName, hSmall]
            rfl
          · rw [hOthers check hCheck, hName]
      have hGiven : ∀ p : Prop, (true = true → p) ↔ p :=
        fun _ => ⟨fun hHolds => hHolds rfl, fun hHolds _ => hHolds⟩
      rw [hName] at hService
      constructor
      · rw [← hLower, hGiven, ← hEvery]
        constructor
        · intro hAgree check
          rw [hAgree check .branchService, hService]
        · intro hAll a b
          rw [hAll a, hAll b]
      · rw [hService, hGiven, hGiven, ← hLower]
        exact hEvery

/- Such a branch can be created and not be diffed. -/
theorem upper_case_not_diffed :
    BranchCheck.branchService.accepts "Feature" = true ∧
      BranchCheck.diffService.accepts "Feature" = false := by
  decide +kernel

end Versioning
