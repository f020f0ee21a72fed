import Deltix.Text.Phrases
import Deltix.Versioning.BranchNames
import Deltix.Versioning.MergeService

/-
  The words by which the services tell errors apart, and the
  messages of the binary that contain them.

  A branch name has no blank in it, so it can bring in none
  of the phrases, but it may contain the word `conflict`.

  Key definitions include:
    * `saysMissing`
    * `saysExists`

  Key theorems include:
    * `saysMissing_failed`
    * `saysMissing_noMatch`
    * `saysMissing_branchNotFound`
-/

------------------------------------------------------------
-- Phrases In Messages
------------------------------------------------------------

namespace Versioning

open Text

variable {part name command : String}

/- `message.toLowerCase()` -/
def lowered (text : String) : List Char :=
  text.toList.flatMap lowerOf

theorem includesLower_eq (text part : String) :
    includesLower text part =
      decide (part.toList <:+: lowered text) :=
  decide_eq_decide.mpr Iff.rfl

theorem lowered_append (first second : String) :
    lowered (first ++ second) =
      lowered first ++ lowered second := by
  unfold lowered
  rw [String.toList_append, List.flatMap_append]

/- A beginning that the phrase has nothing to do with. -/
theorem includesLower_after
    {before : String}
    (hApart : EndsApart (lowered before) part.toList)
    (text : String) :
    includesLower (before ++ text) part =
      includesLower text part := by
  rw [includesLower_eq, includesLower_eq, lowered_append]
  exact decide_eq_decide.mpr
    (infix_append_iff_of_endsApart hApart)

/- An end that it has nothing to do with. -/
theorem includesLower_before
    {after : String}
    (hApart : StartsApart (lowered after) part.toList)
    (text : String) :
    includesLower (text ++ after) part =
      includesLower text part := by
  rw [includesLower_eq, includesLower_eq, lowered_append]
  exact decide_eq_decide.mpr
    (infix_append_iff_of_startsApart hApart)

theorem includesLower_left
    {text : String}
    (hIncludes : includesLower text part = true)
    (after : String) :
    includesLower (text ++ after) part = true := by
  rw [includesLower_eq, decide_eq_true_eq] at hIncludes ⊢
  rw [lowered_append]
  exact List.infix_append_of_infix_left hIncludes

theorem not_blank_of_branchChar
    {c : Char}
    (hChar : isBranchChar c = true) :
    c.toLower ≠ ' ' := by
  intro hBlank
  cases hUpper : c.isUpper with
  | false =>
      rw [(toLower_eq_self_iff c).mpr hUpper] at hBlank
      rw [hBlank] at hChar
      revert hChar
      decide
  | true =>
      have hRange := of_decide_eq_true hUpper
      have hLow := UInt32.le_iff_toNat_le.mp hRange.1
      have hHigh := UInt32.le_iff_toNat_le.mp hRange.2
      unfold Char.toLower at hBlank
      rw [dif_pos hRange] at hBlank
      have hVal :=
        congrArg (fun d : Char => d.val.toNat) hBlank
      simp at hVal hLow hHigh
      omega

/- A branch name is one word. -/
theorem not_mem_lowered
    (hName : acceptsBranchName name = true) :
    ' ' ∉ lowered name := by
  unfold acceptsBranchName at hName
  simp only [Bool.and_eq_true] at hName
  unfold lowered
  rw [List.mem_flatMap]
  rintro ⟨c, hMember, hBlank⟩
  have hChar := branchChars_of_validBranch hName.1.1 c hMember
  rw [lowerOf_of_branchChar hChar, List.mem_singleton]
    at hBlank
  exact not_blank_of_branchChar hChar hBlank.symm

theorem includesLower_name
    (hName : acceptsBranchName name = true)
    (hBlank : ' ' ∈ part.toList) :
    includesLower name part = false := by
  rw [includesLower_eq, decide_eq_false_iff_not]
  exact not_infix_of_not_mem hBlank (not_mem_lowered hName)

def saysMissing (message : String) : Bool :=
  includesLower message "not found" ||
    includesLower message "unknown branch"

def saysExists (message : String) : Bool :=
  includesLower message "already exists"

/- The commands before whose errors their name is put. -/
def translatedCommands : List String :=
  ["current branch lookup", "checkout", "branch delete"]

/- What a command puts before an error of the binary. -/
def failedPrefix (command : String) : String :=
  "dolt " ++ command ++ " failed: "

theorem message_doltFailed (command stderr : String) :
    (VersioningError.doltFailed command stderr).message =
      failedPrefix command ++ stderr := rfl

/- The command does not change what is said. -/
theorem saysMissing_failed
    (hCommand : command ∈ translatedCommands)
    (stderr : String) :
    saysMissing (failedPrefix command ++ stderr) =
      saysMissing stderr := by
  have hApart :
      ∀ command ∈ translatedCommands,
        EndsApart (lowered (failedPrefix command))
            "not found".toList ∧
          EndsApart (lowered (failedPrefix command))
            "unknown branch".toList := by
    decide +kernel
  unfold saysMissing
  rw [includesLower_after (hApart command hCommand).1,
    includesLower_after (hApart command hCommand).2]

theorem saysExists_failed
    (hCommand : command ∈ translatedCommands)
    (stderr : String) :
    saysExists (failedPrefix command ++ stderr) =
      saysExists stderr := by
  have hApart :
      ∀ command ∈ translatedCommands,
        EndsApart (lowered (failedPrefix command))
          "already exists".toList := by
    decide +kernel
  unfold saysExists
  rw [includesLower_after (hApart command hCommand)]

/- A missing branch is not said to be missing here. -/
theorem saysMissing_noMatch
    (hName : acceptsBranchName name = true) :
    saysMissing (noMatch name) = false := by
  have hPhrase :
      ∀ part ∈ ["not found", "unknown branch"],
        EndsApart (lowered "error: pathspec '") part.toList ∧
          StartsApart
            (lowered
              "' did not match any table(s) known to dolt.")
            part.toList ∧
          ' ' ∈ part.toList := by
    decide +kernel
  have hNone :
      ∀ part ∈ ["not found", "unknown branch"],
        includesLower (noMatch name) part = false := by
    intro part hPart
    rcases hPhrase part hPart with ⟨hEnds, hStarts, hBlank⟩
    unfold noMatch
    rw [includesLower_before hStarts, includesLower_after hEnds]
    exact includesLower_name hName hBlank
  unfold saysMissing
  rw [hNone _ (by decide), hNone _ (by decide)]
  rfl

theorem saysMissing_localChanges :
    saysMissing (localChanges "checkout") = false := by
  decide +kernel

/- Here it is, and not said to exist. -/
theorem saysMissing_branchNotFound (name : String) :
    saysMissing (branchNotFound name) = true := by
  have hPhrase :
      includesLower "branch not found: " "not found" = true := by
    decide +kernel
  unfold saysMissing branchNotFound
  rw [includesLower_left hPhrase]
  rfl

theorem saysExists_branchNotFound
    (hName : acceptsBranchName name = true) :
    saysExists (branchNotFound name) = false := by
  have hApart :
      EndsApart (lowered "branch not found: ")
        "already exists".toList := by
    decide +kernel
  unfold saysExists branchNotFound
  rw [includesLower_after hApart]
  exact includesLower_name hName (by decide)

end Versioning
