import Deltix.Concurrency.Solo
import Deltix.Versioning.VersioningOps

/-
  Solo runs of the computations of the versioning services.

  Key definitions include:
    * `VersioningTaken`
    * `FailedInvocation`

  Key theorems include:
    * `repo_of_not_dolt`
    * `ends_dolt`
    * `ends_answered`
    * `returns_dolt`
    * `returns_answered`
    * `returns_scratch`
-/

namespace Versioning

open Concurrency

abbrev VersioningTaken : Type :=
  Taken VersioningOp VersioningOp.Answer VersioningState
    VersioningChoice

/- An invocation that fails for a reason of its own. -/
def FailedInvocation (step : VersioningTaken) : Prop :=
  (∃ statement, step.op = .dolt statement) ∧
    step.choice.fails = true

variable {config : VersioningConfig}
variable {step : VersioningTaken}

/- Only an invocation changes the repository. -/
theorem repo_of_not_dolt
    (hOp : ∀ statement, step.op ≠ .dolt statement)
    (hExec :
      step.op.exec config step.choice step.before =
        some (step.answer, step.after)) :
    step.after.repo = step.before.repo := by
  rcases (VersioningOp.exec_frame hExec).repo with
    hSame | ⟨statement, hDolt⟩
  · exact hSame
  · exact absurd hDolt (hOp statement)

------------------------------------------------------------
-- What Is Returned
------------------------------------------------------------

variable {s : VersioningState}

/- An invocation returns what running it gives. -/
theorem returns_dolt
    {statement : DoltStatement}
    {post : statement.Answer → VersioningState → Prop}
    (hPost :
      ∀ (choice : DoltChoice) answer next,
        statement.run config.dolt choice s.repo =
            some (answer, next) →
          post answer ⟨next, s.lock⟩) :
    Returns (VersioningOp.exec config) (dolt statement) s
      post := by
  apply returns_call
  intro choice answer next hExec
  have hRun := exec_dolt hExec
  have hNext : next = ⟨next.repo, s.lock⟩ := by
    rw [← hRun.2]
  rw [hNext]
  exact hPost _ answer next.repo hRun.1

/- An answer that is thrown if it is an error. -/
theorem returns_answered
    {α : Type}
    {toError : String → VersioningError}
    {answer : Except String α}
    {post : α → VersioningState → Prop}
    (hPost : ∀ value, answer = .ok value → post value s) :
    Returns (VersioningOp.exec config)
      (answered toError answer) s post := by
  cases answer with
  | ok value => exact returns_returned (hPost value rfl)
  | error text => exact returns_threw _ _ _

/- Scratch files are no part of the repository. -/
theorem returns_scratch :
    Returns (VersioningOp.exec config) scratch s
      fun _ u => u.repo = s.repo := by
  apply returns_bind
  apply returns_call
  intro choice answer next hExec
  apply returns_answered
  intro _ _
  rcases (VersioningOp.exec_frame hExec).repo with
    hSame | ⟨statement, hOp⟩
  · exact hSame
  · cases hOp

theorem ends_scratch :
    Ends (VersioningOp.exec config) scratch s
      fun _ _ u => u.repo = s.repo := by
  apply ends_bind
  apply ends_call
  intro choice answer next hExec
  have hSame : next.repo = s.repo := by
    rcases (VersioningOp.exec_frame hExec).repo with
      hSame | ⟨statement, hOp⟩
    · exact hSame
    · cases hOp
  cases answer with
  | ok _ => exact ends_returned hSame
  | error _ => exact ends_threw hSame

theorem ends_dolt
    {statement : DoltStatement}
    {post :
      List VersioningTaken →
        Except VersioningError statement.Answer →
        VersioningState → Prop}
    (hPost :
      ∀ (choice : VersioningChoice) answer next,
        statement.run config.dolt choice.toDoltChoice s.repo =
            some (answer, next) →
          post
            [⟨.dolt statement, choice, s, answer,
              ⟨next, s.lock⟩⟩]
            (.ok answer) ⟨next, s.lock⟩) :
    Ends (VersioningOp.exec config) (dolt statement) s
      post := by
  apply ends_call
  intro choice answer next hExec
  have hRun := exec_dolt hExec
  have hNext : next = ⟨next.repo, s.lock⟩ := by
    rw [← hRun.2]
  rw [hNext]
  exact hPost choice answer next.repo hRun.1

theorem ends_answered
    {α : Type}
    {toError : String → VersioningError}
    {answer : Except String α}
    {post :
      List VersioningTaken → Except VersioningError α →
        VersioningState → Prop}
    (hOk : ∀ value, answer = .ok value → post [] (.ok value) s)
    (hError :
      ∀ text, answer = .error text →
        post [] (.error (toError text)) s) :
    Ends (VersioningOp.exec config)
      (answered toError answer) s post := by
  cases answer with
  | ok value => exact ends_returned (hOk value rfl)
  | error text => exact ends_threw (hError text rfl)

end Versioning
