import Deltix.Versioning.ErrorWords
import Deltix.Versioning.MergeRecovery

/-
  What the errors of merges, checkouts and deletions say,
  against what has happened.  Here it is shown for checkouts
  and deletions.

  Key definitions include:
    * `BranchCall`
    * `Classified`
    * `WordsFit`

  Key theorems include:
    * `tellsMissing_translated`
    * `ends_checkoutCall`
    * `ends_deleteCall`
-/

namespace Versioning

inductive BranchCall where
  | merge (sourceBranch : String) (targetBranch : Option String)
  | checkout (branchName : String)
  | delete (branchName : String)
  deriving DecidableEq, Repr

namespace BranchCall

abbrev Result : BranchCall → Type
  | .merge _ _ => MergeResult
  | .checkout _ => String
  | .delete _ => Unit

def serve (i : Nat) (repoId : String) :
    (call : BranchCall) → VersioningProgram call.Result
  | .merge sourceBranch targetBranch =>
      Versioning.merge i repoId sourceBranch targetBranch
  | .checkout branchName => checkoutBranch i repoId branchName
  | .delete branchName => deleteBranch i repoId branchName

/- The names of the branches that the call is given. -/
def names : BranchCall → List String
  | .merge sourceBranch targetBranch =>
      sourceBranch :: (namedTarget targetBranch).toList
  | .checkout branchName => [branchName]
  | .delete branchName => [branchName]

end BranchCall

end Versioning

namespace Versioning

variable {α : Type}

def VersioningError.isMissing : VersioningError → Bool
  | .branchNotFound _ => true
  | _ => false

def VersioningError.isConflict : VersioningError → Bool
  | .mergeConflict _ _ _ => true
  | _ => false

/- A call that rejects with `BranchNotFoundError`. -/
def RejectsMissing (outcome : Except VersioningError α) :
    Prop :=
  ∃ error, outcome = .error error ∧ error.isMissing = true

/- A call that rejects with `MergeConflictError`. -/
def RejectsConflict (outcome : Except VersioningError α) :
    Prop :=
  ∃ error, outcome = .error error ∧ error.isConflict = true

def ReturnsUpToDate
    (outcome : Except VersioningError MergeResult) : Prop :=
  ∃ result, outcome = .ok result ∧ result.status = .upToDate

namespace DoltRepo

/- The branch into which a merge goes. -/
def mergeTarget
    (repo : DoltRepo)
    (target : Option String) : String :=
  target.getD repo.checkedOut

/- One of the two branches does not exist. -/
def LacksBranch
    (repo : DoltRepo)
    (source : String)
    (target : Option String) : Prop :=
  repo.heads source = none ∨
    ∃ branch, target = some branch ∧ repo.heads branch = none

/- The source is an ancestor of the target. -/
def HasMerged
    (repo : DoltRepo)
    (source : String)
    (target : Option String) : Prop :=
  ∃ ours theirs,
    repo.heads (repo.mergeTarget target) = some ours ∧
      repo.heads source = some theirs ∧
      repo.isAncestor theirs.hash ours.hash = true

end DoltRepo

/- A merge is reported as what it was. -/
structure MergeClassified
    (config : DoltConfig)
    (repo : DoltRepo)
    (source : String)
    (target : Option String)
    (steps : List VersioningTaken)
    (outcome : Except VersioningError MergeResult) : Prop where
  conflict :
    RejectsConflict outcome ↔
      ∃ step ∈ steps, StepSticks config step
  missing :
    RejectsMissing outcome ↔ repo.LacksBranch source target
  upToDate :
    ReturnsUpToDate outcome ↔ repo.HasMerged source target

def Classified
    (config : DoltConfig)
    (repo : DoltRepo)
    (steps : List VersioningTaken) :
    (call : BranchCall) →
      Except VersioningError call.Result → Prop
  | .merge source target, outcome =>
      MergeClassified config repo source (namedTarget target)
        steps outcome
  | .checkout name, outcome =>
      RejectsMissing outcome ↔ repo.heads name = none
  | .delete name, outcome =>
      RejectsMissing outcome ↔ repo.heads name = none

/- An invocation whose errors a service translates. -/
def Translated : VersioningOp → Prop
  | .dolt .currentBranch => True
  | .dolt (.checkout _) => True
  | .dolt (.deleteBranch _) => True
  | _ => False

/- How a service takes a message for that of a missing
   branch. -/
def mergeMeans (message : String) : Bool :=
  saysMissing message

def branchMeans (message : String) : Bool :=
  !saysExists message && saysMissing message

/- An invocation fails for a reason of its own, and prints
   that something is missing. -/
def FailsMissing
    (means : String → Bool)
    (step : VersioningTaken) : Prop :=
  Translated step.op ∧ step.choice.fails = true ∧
    means step.choice.text = true

/- The merge was reached, and did not fail for a reason of its
   own. -/
def MergesWell (source : String) (step : VersioningTaken) :
    Prop :=
  step.op = .dolt (.merge source) ∧ step.choice.fails = false

/- A branch was asked to be deleted, and that did not fail for
   a reason of its own. -/
def Deletes (name : String) (step : VersioningTaken) : Prop :=
  step.op = .dolt (.deleteBranch name) ∧
    step.choice.fails = false

/- The conditions under which a merge is reported as what it
   was. -/
structure MergeWordsFit
    (config : DoltConfig)
    (repo : DoltRepo)
    (source : String)
    (target : Option String)
    (steps : List VersioningTaken) : Prop where
  missing :
    (∃ step ∈ steps, FailsMissing mergeMeans step) ↔
      repo.LacksBranch source target
  made :
    repo.HasMerged source target →
      repo.merging = none ∧ ∃ step ∈ steps, MergesWell source step
  read :
    (∃ step ∈ steps, StepSticks config step) →
      (∀ step ∈ steps, Readable step) ∧ AbortsSucceed steps
  other :
    (¬ ∃ step ∈ steps, StepSticks config step) →
      repo.merging = none ∨ ¬ Noticed steps ∨
        ¬ AbortsSucceed steps

def WordsFit
    (config : DoltConfig)
    (repo : DoltRepo)
    (steps : List VersioningTaken) : BranchCall → Prop
  | .merge source target =>
      MergeWordsFit config repo source (namedTarget target)
        steps
  | .checkout name =>
      (∃ step ∈ steps, FailsMissing branchMeans step) ↔
        repo.heads name = none
  | .delete name =>
      if repo.heads name = none then
        (∃ step ∈ steps, FailsMissing branchMeans step) ∨
          ∃ step ∈ steps, Deletes name step
      else ¬ ∃ step ∈ steps, FailsMissing branchMeans step

/- What the binary says of a merge that did not fail for a
   reason of its own. -/
structure MergesTold
    (config : DoltConfig)
    (steps : List VersioningTaken) : Prop where
  stuck :
    ∀ ours theirs stdout tables,
      config.merged ours theirs = .stuck stdout tables →
        includesLower stdout "conflict" = true
  upToDate :
    ∀ step ∈ steps, ∀ source ours theirs output,
      step.op = .dolt (.merge source) →
        step.choice.fails = false →
        step.before.repo.heads step.before.repo.checkedOut =
          some ours →
        step.before.repo.heads source = some theirs →
        mergeOutput step = some output →
        output.exitCode = 0 →
        (includesLower (combinedOutput output) "up to date" =
            true ↔
          step.before.repo.isAncestor theirs.hash ours.hash =
            true)

------------------------------------------------------------
-- Errors Of Commands
------------------------------------------------------------

open Concurrency

variable {α β : Type} {config : VersioningConfig}
variable {s : VersioningState} {means : String → Bool}
variable {translate : VersioningError → VersioningError}
variable {steps more : List VersioningTaken}

/- How a service translates the errors of its commands. -/
structure Translates
    (translate : VersioningError → VersioningError)
    (means : String → Bool) : Prop where
  missing :
    ∀ command ∈ translatedCommands, ∀ stderr,
      (translate (.doltFailed command stderr)).isMissing =
        means stderr
  conflict :
    ∀ command stderr,
      (translate (.doltFailed command stderr)).isConflict =
        false
  within :
    ∀ text, means text = true → saysMissing text = true

theorem translates_merge :
    Translates translateMergeError mergeMeans := by
  constructor
  · intro command hCommand stderr
    have hSame := saysMissing_failed hCommand stderr
    unfold translateMergeError
    rw [message_doltFailed]
    unfold saysMissing at hSame
    unfold mergeMeans saysMissing
    dsimp only
    rw [hSame]
    cases hFound :
        includesLower stderr "not found" ||
          includesLower stderr "unknown branch" with
    | true => rfl
    | false => rfl
  · intro command stderr
    unfold translateMergeError
    dsimp only
    split
    · rfl
    · rfl
  · intro text hMeans
    exact hMeans

theorem translates_branch :
    Translates translateError branchMeans := by
  constructor
  · intro command hCommand stderr
    have hMissing := saysMissing_failed hCommand stderr
    have hExists := saysExists_failed hCommand stderr
    unfold translateError
    rw [message_doltFailed]
    unfold saysMissing at hMissing
    unfold saysExists at hExists
    unfold branchMeans saysMissing saysExists
    dsimp only
    rw [hMissing, hExists]
    cases includesLower stderr "already exists" with
    | true => rfl
    | false =>
        cases includesLower stderr "not found" ||
            includesLower stderr "unknown branch" with
        | true => rfl
        | false => rfl
  · intro command stderr
    unfold translateError
    dsimp only
    split
    · rfl
    · split
      · rfl
      · rfl
  · intro text hMeans
    unfold branchMeans at hMeans
    rw [Bool.and_eq_true] at hMeans
    exact hMeans.2

/- A command throws what the binary has printed. -/
def Raw
    (means : String → Bool)
    (steps : List VersioningTaken) :
    Except VersioningError α → Prop
  | .ok _ => ¬ ∃ step ∈ steps, FailsMissing means step
  | .error error =>
      ∃ command ∈ translatedCommands, ∃ stderr,
        error = .doltFailed command stderr ∧
          (means stderr = true ↔
            ∃ step ∈ steps, FailsMissing means step)

theorem exists_append_iff
    {holds : VersioningTaken → Prop}
    (hNone : ¬ ∃ step ∈ steps, holds step) :
    (∃ step ∈ steps ++ more, holds step) ↔
      ∃ step ∈ more, holds step := by
  constructor
  · rintro ⟨step, hMember, hHolds⟩
    rcases List.mem_append.mp hMember with hOld | hNew
    · exact absurd ⟨step, hOld, hHolds⟩ hNone
    · exact ⟨step, hNew, hHolds⟩
  · rintro ⟨step, hMember, hHolds⟩
    exact ⟨step, List.mem_append_right _ hMember, hHolds⟩

theorem Raw.after
    {outcome : Except VersioningError α}
    (hNone : ¬ ∃ step ∈ steps, FailsMissing means step)
    (hRaw : Raw means more outcome) :
    Raw means (steps ++ more) outcome := by
  cases outcome with
  | ok value =>
      unfold Raw
      rw [exists_append_iff hNone]
      exact hRaw
  | error error =>
      unfold Raw
      rw [exists_append_iff hNone]
      exact hRaw

theorem not_failsMissing_of_ops
    (hOps : ∀ step ∈ steps, ¬ Translated step.op) :
    ¬ ∃ step ∈ steps, FailsMissing means step := by
  rintro ⟨step, hMember, hFails⟩
  exact hOps step hMember hFails.1

variable {step : VersioningTaken} {command stderr : String}
variable {error : VersioningError}
variable {outcome : Except VersioningError α}
variable {program : VersioningProgram α}

theorem raw_nil (value : α) :
    Raw means [] (.ok value : Except VersioningError α) := by
  rintro ⟨step, hMember, _⟩
  cases hMember

/- An invocation that fails by itself. -/
theorem raw_failed
    (hCommand : command ∈ translatedCommands)
    (hOp : Translated step.op)
    (hFails : step.choice.fails = true) :
    Raw means [step]
      (.error (.doltFailed command step.choice.text) :
        Except VersioningError α) := by
  refine ⟨command, hCommand, _, rfl, ?_⟩
  simp [FailsMissing, hOp, hFails]

/- One that does not, but is refused. -/
theorem raw_refused
    (hCommand : command ∈ translatedCommands)
    (hWell : step.choice.fails = false)
    (hWords : means stderr = false) :
    Raw means [step]
      (.error (.doltFailed command stderr) :
        Except VersioningError α) := by
  refine ⟨command, hCommand, _, rfl, ?_⟩
  simp [FailsMissing, hWell, hWords]

theorem raw_done
    (hWell : step.choice.fails = false)
    (value : α) :
    Raw means [step]
      (.ok value : Except VersioningError α) := by
  simp [Raw, FailsMissing, hWell]

/- The lookup of the current branch changes nothing. -/
theorem ends_currentBranch
    (means : String → Bool) :
    Ends (VersioningOp.exec config) readCurrentBranchName s
      fun steps outcome t =>
        Raw means steps outcome ∧
          (t.repo = s.repo ∧
            ∀ step ∈ steps, step.op = .dolt .currentBranch) ∧
          ∀ name, outcome = .ok name →
            name = s.repo.checkedOut := by
  have hCommand :
      "current branch lookup" ∈ translatedCommands := by
    decide
  apply ends_bind
  apply ends_dolt
  intro choice answer next hRun
  rcases DoltStatement.run_cases hRun with
    ⟨hFails, hAnswer, hNext⟩ | ⟨hWell, hPerform⟩
  · subst hAnswer hNext
    apply ends_threw
    refine ⟨?_, ⟨rfl, by simp⟩, ?_⟩
    · exact raw_failed hCommand trivial hFails
    · intro name hOk
      cases hOk
  · cases hPerform
    apply ends_returned
    refine ⟨?_, ⟨rfl, by simp⟩, ?_⟩
    · exact raw_done hWell _
    · intro name hOk
      cases hOk
      rfl

/- The error of a translated command. -/
theorem rejectsMissing_translated
    (hTranslate : Translates translate means)
    (hRaw :
      Raw means steps
        (.error error : Except VersioningError α)) :
    (translate error).isConflict = false ∧
      ((translate error).isMissing = true ↔
        ∃ step ∈ steps, FailsMissing means step) := by
  rcases hRaw with ⟨command, hCommand, stderr, hError, hMeans⟩
  rw [hError, hTranslate.missing command hCommand, hMeans]
  exact ⟨hTranslate.conflict command stderr, Iff.rfl⟩

------------------------------------------------------------
-- What A Service Tells
------------------------------------------------------------

/- The errors that are not the subject of the words. -/
def Plain (error : VersioningError) : Prop :=
  error.isMissing = false ∧ error.isConflict = false

/- A branch is reported missing if an invocation says so. -/
structure TellsMissing
    (means : String → Bool)
    (steps : List VersioningTaken)
    (outcome : Except VersioningError α) : Prop where
  missing :
    RejectsMissing outcome ↔
      ∃ step ∈ steps, FailsMissing means step
  conflict : ¬ RejectsConflict outcome

theorem rejectsMissing_error_iff (error : VersioningError) :
    RejectsMissing
        (.error error : Except VersioningError α) ↔
      error.isMissing = true := by
  simp [RejectsMissing]

instance (outcome : Except VersioningError α) :
    Decidable (RejectsMissing outcome) :=
  match outcome with
  | .ok _ => isFalse (by simp [RejectsMissing])
  | .error error =>
      decidable_of_iff _ (rejectsMissing_error_iff error).symm

theorem rejectsConflict_error_iff (error : VersioningError) :
    RejectsConflict
        (.error error : Except VersioningError α) ↔
      error.isConflict = true := by
  simp [RejectsConflict]

theorem not_rejectsMissing_ok (value : α) :
    ¬ RejectsMissing
        (.ok value : Except VersioningError α) := by
  simp [RejectsMissing]

theorem not_rejectsConflict_ok (value : α) :
    ¬ RejectsConflict
        (.ok value : Except VersioningError α) := by
  simp [RejectsConflict]

theorem not_rejectsMissing_of_plain
    (hPlain : Plain error) :
    ¬ RejectsMissing
        (.error error : Except VersioningError α) := by
  rw [rejectsMissing_error_iff, hPlain.1]
  exact Bool.false_ne_true

theorem not_rejectsConflict_of_plain
    (hPlain : Plain error) :
    ¬ RejectsConflict
        (.error error : Except VersioningError α) := by
  rw [rejectsConflict_error_iff, hPlain.2]
  exact Bool.false_ne_true

theorem tellsMissing_of_ops
    (hOps : ∀ step ∈ steps, ¬ Translated step.op)
    (hMissing : ¬ RejectsMissing outcome)
    (hConflict : ¬ RejectsConflict outcome) :
    TellsMissing means steps outcome := by
  refine ⟨?_, hConflict⟩
  constructor
  · intro hRejects
    exact absurd hRejects hMissing
  · intro hFails
    exact absurd hFails (not_failsMissing_of_ops hOps)

theorem TellsMissing.quiet
    {value : α}
    (hTells :
      TellsMissing means steps
        (.ok value : Except VersioningError α)) :
    ¬ ∃ step ∈ steps, FailsMissing means step := by
  rw [← hTells.missing]
  exact not_rejectsMissing_ok value

theorem TellsMissing.after
    (hNone : ¬ ∃ step ∈ steps, FailsMissing means step)
    (hTells : TellsMissing means more outcome) :
    TellsMissing means (steps ++ more) outcome := by
  refine ⟨?_, hTells.conflict⟩
  rw [exists_append_iff hNone]
  exact hTells.missing

theorem TellsMissing.retyped
    (hTells :
      TellsMissing means steps
        (.error error : Except VersioningError α)) :
    TellsMissing means steps
      (.error error : Except VersioningError β) := by
  have hMissing := hTells.missing
  have hConflict := hTells.conflict
  rw [rejectsMissing_error_iff] at hMissing
  rw [rejectsConflict_error_iff] at hConflict
  constructor
  · rw [rejectsMissing_error_iff]
    exact hMissing
  · rw [rejectsConflict_error_iff]
    exact hConflict

/- A program whose errors are translated.  What is known of a
   failure does not depend on the error. -/
theorem ends_translated
    (hTranslate : Translates translate means)
    {post :
      List VersioningTaken → Except VersioningError α →
        VersioningState → Prop}
    (hAny :
      ∀ steps error other t,
        post steps (.error error) t →
          post steps (.error other) t)
    (hProgram :
      Ends (VersioningOp.exec config) program s
        fun steps outcome t =>
          Raw means steps outcome ∧ post steps outcome t) :
    Ends (VersioningOp.exec config)
      (program.catchError fun error =>
        .threw (translate error)) s
      fun steps outcome t =>
        TellsMissing means steps outcome ∧
          post steps outcome t := by
  refine ends_catchError_of hProgram ?_ ?_
  · rintro steps value u ⟨hRaw, hPost⟩
    refine ⟨⟨?_, not_rejectsConflict_ok value⟩, hPost⟩
    constructor
    · intro hRejects
      exact absurd hRejects (not_rejectsMissing_ok value)
    · intro hFails
      exact absurd hFails hRaw
  · rintro steps error u ⟨hRaw, hPost⟩
    have hError := rejectsMissing_translated hTranslate hRaw
    apply ends_threw
    rw [List.append_nil]
    refine ⟨⟨?_, ?_⟩, hAny steps error _ u hPost⟩
    · rw [rejectsMissing_error_iff]
      exact hError.2
    · rw [rejectsConflict_error_iff, hError.1]
      exact Bool.false_ne_true

/- What is known of the value that is returned. -/
theorem tellsMissing_translated
    (hTranslate : Translates translate means)
    {keeps : List VersioningTaken → VersioningState → Prop}
    {holds : α → VersioningState → Prop}
    (hProgram :
      Ends (VersioningOp.exec config) program s
        fun steps outcome t =>
          Raw means steps outcome ∧ keeps steps t ∧
            ∀ value, outcome = .ok value → holds value t) :
    Ends (VersioningOp.exec config)
      (program.catchError fun error =>
        .threw (translate error)) s
      fun steps outcome t =>
        TellsMissing means steps outcome ∧ keeps steps t ∧
          ∀ value, outcome = .ok value → holds value t := by
  apply ends_translated hTranslate _ hProgram
  rintro steps error other t ⟨hKeeps, _⟩
  refine ⟨hKeeps, ?_⟩
  intro value hOk
  cases hOk

------------------------------------------------------------
-- Parts That All Calls Have
------------------------------------------------------------

variable {earlier later : List VersioningTaken} {i : Nat}
variable {repoId name : String}

/- The lookup of the repository, and the mutex. -/
def Outside (op : VersioningOp) : Prop :=
  ¬ Translated op ∧ Aside op

theorem exists_around_iff
    {holds : VersioningTaken → Prop}
    (hOp : ∀ step, holds step → Translated step.op)
    (hEarlier : ∀ step ∈ earlier, Outside step.op)
    (hLater : ∀ step ∈ later, Outside step.op) :
    (∃ step ∈ earlier ++ (steps ++ later), holds step) ↔
      ∃ step ∈ steps, holds step := by
  constructor
  · rintro ⟨step, hMember, hHolds⟩
    rw [List.mem_append, List.mem_append] at hMember
    rcases hMember with hOld | hThis | hNew
    · exact absurd (hOp step hHolds) (hEarlier step hOld).1
    · exact ⟨step, hThis, hHolds⟩
    · exact absurd (hOp step hHolds) (hLater step hNew).1
  · rintro ⟨step, hMember, hHolds⟩
    refine ⟨step, ?_, hHolds⟩
    apply List.mem_append_right
    exact List.mem_append_left _ hMember

theorem TellsMissing.around
    {outcome : Except VersioningError α}
    (hTells : TellsMissing means steps outcome)
    (hEarlier : ∀ step ∈ earlier, Outside step.op)
    (hLater : ∀ step ∈ later, Outside step.op) :
    TellsMissing means (earlier ++ (steps ++ later))
      outcome := by
  refine ⟨?_, hTells.conflict⟩
  rw [exists_around_iff (fun _ hFails => hFails.1) hEarlier
    hLater]
  exact hTells.missing

theorem tellsMissing_plain
    {error : VersioningError}
    (hOps : ∀ step ∈ steps, Outside step.op)
    (hPlain : Plain error) :
    TellsMissing means steps
      (.error error : Except VersioningError α) := by
  apply tellsMissing_of_ops
  · exact fun step hMember => (hOps step hMember).1
  · exact not_rejectsMissing_of_plain hPlain
  · exact not_rejectsConflict_of_plain hPlain

theorem throws_answered
    {toError : String → VersioningError}
    {cond : VersioningError → Prop}
    (hError : ∀ text, cond (toError text))
    (answer : Except String α) :
    (answered toError answer).Throws cond := by
  cases answer with
  | ok value => exact trivial
  | error text => exact hError text

theorem throws_requireRepo :
    (requireRepo repoId).Throws Plain := by
  apply Async.throws_bind
  · exact Async.throws_ensure ⟨rfl, rfl⟩
  intro _
  apply Async.throws_bind
  · apply Async.throws_bind (Async.throws_call _)
    intro answer
    exact throws_answered (fun _ => ⟨rfl, rfl⟩) answer
  intro found
  exact Async.throws_ensure ⟨rfl, rfl⟩

theorem assertBranchName_of_accepts
    (hName : acceptsBranchName name = true) :
    assertBranchName name = .returned () := by
  unfold assertBranchName
  rw [hName]
  rfl

/- The mutex is entered before, and left afterwards. -/
theorem ends_exclusive
    {body : VersioningProgram α}
    {post :
      List VersioningTaken → Except VersioningError α → Prop}
    (hBody :
      ∀ (u : VersioningState) enter,
        u.repo = s.repo → Outside enter.op →
          Ends (VersioningOp.exec config) body u
            fun steps outcome _ =>
              ∀ leave : VersioningTaken, Outside leave.op →
                post (enter :: (steps ++ [leave])) outcome) :
    Ends (VersioningOp.exec config) (runExclusive i body) s
      fun steps outcome _ => post steps outcome := by
  apply ends_await
  intro choice answer u hExec
  have hSame : u.repo = s.repo := by
    simp only [VersioningOp.exec] at hExec
    split at hExec
    · cases hExec
      rfl
    · cases hExec
  let enter : VersioningTaken :=
    ⟨.acquire i, choice, s, answer, u⟩
  have hEnter : Outside enter.op := ⟨id, trivial⟩
  refine
    ends_andFinally (ends_mono (hBody u enter hSame hEnter) ?_)
  intro steps outcome v hPost
  apply ends_await
  intro choice answer w hExec
  apply ends_returned
  exact hPost _ ⟨id, trivial⟩

/- The repository is looked up, and the mutex entered. -/
theorem ends_locked
    {body : VersioningProgram α}
    {post :
      List VersioningTaken → Except VersioningError α → Prop}
    (hBody :
      ∀ (u : VersioningState) earlier,
        u.repo = s.repo → (∀ step ∈ earlier, Outside step.op) →
          Ends (VersioningOp.exec config) body u
            fun steps outcome _ =>
              ∀ later, (∀ step ∈ later, Outside step.op) →
                post (earlier ++ (steps ++ later)) outcome)
    (hStops :
      ∀ steps error,
        (∀ step ∈ steps, Outside step.op) → Plain error →
          post steps (.error error)) :
    Ends (VersioningOp.exec config)
      ((requireRepo repoId).bind fun _ => runExclusive i body) s
      fun steps outcome _ => post steps outcome := by
  have hOnly : (requireRepo repoId).Only Outside := by
    apply only_requireRepo
    exact ⟨id, trivial⟩
  have hAside : (requireRepo repoId).Only Aside :=
    Async.only_mono (fun _ hOp => hOp.2) hOnly
  apply ends_bind
  intro earlier outcome u hSolo
  have hOps := hSolo.only hOnly
  have hSame := (ends_aside hAside earlier outcome u hSolo).1
  cases outcome with
  | error error =>
      exact
        hStops earlier error hOps
          (hSolo.throws throws_requireRepo)
  | ok _ =>
      apply ends_exclusive
      intro v enter hEntered hEnter
      have hBefore :
          ∀ step ∈ earlier ++ [enter], Outside step.op := by
        intro step hMember
        rcases List.mem_append.mp hMember with hOld | hNew
        · exact hOps step hOld
        · rw [List.mem_singleton.mp hNew]
          exact hEnter
      have hEnds :=
        hBody v (earlier ++ [enter]) (hEntered.trans hSame)
          hBefore
      refine ends_mono hEnds ?_
      intro steps ended t hPost leave hLeave
      have hAfter : ∀ step ∈ [leave], Outside step.op := by
        intro step hMember
        rw [List.mem_singleton.mp hMember]
        exact hLeave
      simpa using hPost [leave] hAfter

------------------------------------------------------------
-- Checkouts And Deletions
------------------------------------------------------------

/- A repository in which a branch may be checked out. -/
structure OnTarget
    (before : DoltRepo)
    (target : Option String)
    (repo : DoltRepo) : Prop where
  commits : repo.commits = before.commits
  heads : repo.heads = before.heads
  merging : repo.merging = before.merging
  checkedOut :
    (∀ branch, target = some branch →
        before.heads branch ≠ none) →
      repo.checkedOut = before.mergeTarget target

theorem onTarget_of_checkout
    {repo next : DoltRepo}
    (hCheckout : repo.checkout name = (.ok (), next)) :
    OnTarget repo (some name) next := by
  unfold DoltRepo.checkout at hCheckout
  split at hCheckout
  · rename_i head hHead
    split_ifs at hCheckout with hSame hOverwrites
    · cases hCheckout
      refine ⟨rfl, rfl, rfl, fun _ => hSame.symm⟩
    · cases hCheckout
    · cases hCheckout
      exact ⟨rfl, rfl, rfl, fun _ => rfl⟩
  · rename_i hNone
    split at hCheckout
    · cases hCheckout
      refine ⟨rfl, rfl, rfl, ?_⟩
      intro hExists
      exact absurd hNone (hExists name rfl)
    · cases hCheckout

/- The error of a checkout that is refused. -/
theorem refusal_of_checkout
    {repo next : DoltRepo}
    {stderr : String}
    (hName : acceptsBranchName name = true)
    (hCheckout : repo.checkout name = (.error stderr, next)) :
    saysMissing stderr = false := by
  unfold DoltRepo.checkout at hCheckout
  split at hCheckout
  · split_ifs at hCheckout
    · cases hCheckout
    · cases hCheckout
      exact saysMissing_localChanges
    · cases hCheckout
  · split at hCheckout
    · cases hCheckout
    · cases hCheckout
      exact saysMissing_noMatch hName

theorem ends_rawCheckout
    (hTranslate : Translates translate means)
    (hName : acceptsBranchName name = true) :
    Ends (VersioningOp.exec config)
      (runDoltCheckoutBranch name) s
      fun steps outcome t =>
        Raw means steps outcome ∧
          (∀ step ∈ steps,
            step.op = .dolt (.checkout name)) ∧
          ∀ value, outcome = .ok value →
            OnTarget s.repo (some name) t.repo := by
  have hCommand : "checkout" ∈ translatedCommands := by
    decide
  apply ends_bind
  apply ends_dolt
  intro choice answer next hRun
  rcases DoltStatement.run_cases hRun with
    ⟨hFails, hAnswer, _⟩ | ⟨hWell, hPerform⟩
  · subst hAnswer
    apply ends_threw
    refine ⟨?_, by simp, ?_⟩
    · exact raw_failed hCommand trivial hFails
    · intro value hOk
      cases hOk
  · have hCheckout :
        s.repo.checkout name = (answer, next) :=
      Option.some.inj hPerform
    cases answer with
    | ok value =>
        apply ends_returned
        refine ⟨raw_done hWell _, by simp, ?_⟩
        intro _ _
        exact onTarget_of_checkout hCheckout
    | error stderr =>
        apply ends_threw
        refine ⟨?_, by simp, ?_⟩
        · apply raw_refused hCommand hWell
          have hWords := refusal_of_checkout hName hCheckout
          rw [Bool.eq_false_iff] at hWords ⊢
          intro hMeans
          exact hWords (hTranslate.within stderr hMeans)
        · intro value hOk
          cases hOk

theorem ends_checkoutCall
    (hName : acceptsBranchName name = true) :
    Ends (VersioningOp.exec config)
      (checkoutBranch i repoId name) s
      fun steps outcome _ =>
        TellsMissing branchMeans steps outcome := by
  unfold checkoutBranch
  rw [assertBranchName_of_accepts hName]
  apply ends_locked
  · intro u earlier _ hEarlier
    have hChecked :
        Ends (VersioningOp.exec config)
          (translateErrors (runDoltCheckoutBranch name)) u _ :=
      tellsMissing_translated translates_branch
        (ends_rawCheckout translates_branch hName)
    refine ends_bind_of hChecked ?_ ?_
    · rintro steps value w ⟨hTells, _⟩
      apply ends_returned
      intro later hLater
      rw [List.append_nil]
      apply TellsMissing.around _ hEarlier hLater
      exact
        ⟨by simpa [RejectsMissing] using hTells.quiet,
          not_rejectsConflict_ok name⟩
    · rintro steps error w ⟨hTells, _⟩ later hLater
      exact hTells.retyped.around hEarlier hLater
  · intro steps error hOps hPlain
    exact tellsMissing_plain hOps hPlain

/- A deletion also tells of a branch that is not there. -/
def TellsDeleted
    {α : Type}
    (repo : DoltRepo)
    (name : String)
    (steps : List VersioningTaken)
    (outcome : Except VersioningError α) : Prop :=
  RejectsMissing outcome ↔
    (∃ step ∈ steps, FailsMissing branchMeans step) ∨
      repo.heads name = none ∧
        ∃ step ∈ steps, Deletes name step

theorem tellsDeleted_of_tells
    {α : Type}
    {repo : DoltRepo}
    {steps : List VersioningTaken}
    {outcome : Except VersioningError α}
    (hTells : TellsMissing branchMeans steps outcome)
    (hOps :
      ∀ step ∈ steps, step.op ≠ .dolt (.deleteBranch name)) :
    TellsDeleted repo name steps outcome := by
  have hNone : ¬ ∃ step ∈ steps, Deletes name step := by
    rintro ⟨step, hMember, hDeletes⟩
    exact hOps step hMember hDeletes.1
  unfold TellsDeleted
  rw [hTells.missing]
  constructor
  · intro hFails
    exact Or.inl hFails
  · rintro (hFails | ⟨_, hDeletes⟩)
    · exact hFails
    · exact absurd hDeletes hNone

/- The deletion itself, of a branch that is not checked out. -/
theorem ends_deletion
    (hName : acceptsBranchName name = true)
    (hOther : name ≠ s.repo.checkedOut) :
    Ends (VersioningOp.exec config)
      (translateErrors (runDoltDeleteBranch name)) s
      fun steps outcome _ =>
        TellsDeleted s.repo name steps outcome := by
  have hCommand : "branch delete" ∈ translatedCommands := by
    decide
  have hTranslates := translates_branch
  apply ends_catchError
  apply ends_bind
  apply ends_dolt
  intro choice answer next hRun
  rcases DoltStatement.run_cases hRun with
    ⟨hFails, hAnswer, _⟩ | ⟨hWell, hPerform⟩
  · subst hAnswer
    apply ends_threw
    apply ends_threw
    unfold TellsDeleted
    rw [rejectsMissing_error_iff,
      hTranslates.missing _ hCommand]
    simp [FailsMissing, Deletes, Translated, hFails]
  · have hDelete :
        s.repo.deleteBranch name = (answer, next) :=
      Option.some.inj hPerform
    unfold DoltRepo.deleteBranch at hDelete
    rw [if_neg hOther] at hDelete
    split at hDelete
    · rename_i head hHead
      cases hDelete
      apply ends_returned
      unfold TellsDeleted
      simp [RejectsMissing, FailsMissing, hWell, hHead]
    · rename_i hNone
      cases hDelete
      apply ends_threw
      apply ends_threw
      have hMeans :
          branchMeans (branchNotFound name) = true := by
        unfold branchMeans
        rw [saysExists_branchNotFound hName,
          saysMissing_branchNotFound]
        rfl
      unfold TellsDeleted
      rw [rejectsMissing_error_iff,
        hTranslates.missing _ hCommand, hMeans]
      simp [Deletes, hWell, hNone]

theorem TellsDeleted.around
    {α : Type}
    {repo : DoltRepo}
    {earlier steps later : List VersioningTaken}
    {outcome : Except VersioningError α}
    (hTells : TellsDeleted repo name steps outcome)
    (hEarlier : ∀ step ∈ earlier, Outside step.op)
    (hLater : ∀ step ∈ later, Outside step.op) :
    TellsDeleted repo name (earlier ++ (steps ++ later))
      outcome := by
  have hDeletes :
      ∀ step, Deletes name step → Translated step.op := by
    intro step hStep
    rw [hStep.1]
    trivial
  unfold TellsDeleted
  rw [exists_around_iff (fun _ hFails => hFails.1) hEarlier
      hLater,
    exists_around_iff hDeletes hEarlier hLater]
  exact hTells

/- The deletion comes after a lookup that went well. -/
theorem TellsDeleted.after
    {α : Type}
    {repo : DoltRepo}
    {steps more : List VersioningTaken}
    {outcome : Except VersioningError α}
    (hTells : TellsDeleted repo name more outcome)
    (hQuiet : ¬ ∃ step ∈ steps, FailsMissing branchMeans step)
    (hOps : ∀ step ∈ steps, step.op = .dolt .currentBranch) :
    TellsDeleted repo name (steps ++ more) outcome := by
  have hNone : ¬ ∃ step ∈ steps, Deletes name step := by
    rintro ⟨step, hMember, hDeletes⟩
    have hOp := hDeletes.1
    rw [hOps step hMember] at hOp
    cases hOp
  unfold TellsDeleted
  rw [exists_append_iff hQuiet, exists_append_iff hNone]
  exact hTells

theorem ends_deleteChecked
    (hName : acceptsBranchName name = true) :
    Ends (VersioningOp.exec config) (deleteChecked name) s
      fun steps outcome _ =>
        TellsDeleted s.repo name steps outcome := by
  have hLookup :
      Ends (VersioningOp.exec config)
        (translateErrors readCurrentBranchName) s _ :=
    tellsMissing_translated translates_branch
      (ends_currentBranch branchMeans)
  refine ends_bind_of hLookup ?_ ?_
  · rintro steps current u ⟨hTells, ⟨hSame, hOps⟩, hCurrent⟩
    have hRefused :
        ∀ error, Plain error →
          TellsDeleted s.repo name []
            (.error error : Except VersioningError Unit) := by
      intro error hPlain
      unfold TellsDeleted
      rw [rejectsMissing_error_iff, hPlain.1]
      simp
    apply ends_bind
    apply ends_ensure
    case hFails =>
      intro _
      exact (hRefused _ ⟨rfl, rfl⟩).after hTells.quiet hOps
    intro hOther
    apply ends_bind
    apply ends_ensure
    case hFails =>
      intro _
      exact (hRefused _ ⟨rfl, rfl⟩).after hTells.quiet hOps
    intro _
    have hNot : name ≠ u.repo.checkedOut := by
      rw [hSame, ← hCurrent current rfl]
      exact (of_decide_eq_true hOther).symm
    refine ends_mono (ends_deletion hName hNot) ?_
    intro more outcome t hDeleted
    rw [hSame] at hDeleted
    exact hDeleted.after hTells.quiet hOps
  · rintro steps error u ⟨hTells, ⟨_, hOps⟩, _⟩
    apply tellsDeleted_of_tells hTells.retyped
    intro step hMember hDeletes
    rw [hOps step hMember] at hDeletes
    cases hDeletes

theorem ends_deleteCall
    (hName : acceptsBranchName name = true) :
    Ends (VersioningOp.exec config)
      (deleteBranch i repoId name) s
      fun steps outcome _ =>
        TellsDeleted s.repo name steps outcome := by
  unfold deleteBranch
  rw [assertBranchName_of_accepts hName]
  apply ends_locked
  · intro u earlier hSame hEarlier
    refine ends_mono (ends_deleteChecked hName) ?_
    intro steps outcome t hTells later hLater
    rw [hSame] at hTells
    exact hTells.around hEarlier hLater
  · intro steps error hOps hPlain
    apply tellsDeleted_of_tells (tellsMissing_plain hOps hPlain)
    intro step hMember hDeletes
    have hOutside := hOps step hMember
    rw [hDeletes] at hOutside
    exact hOutside.1 trivial

end Versioning
