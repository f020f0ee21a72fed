import Deltix.Concurrency.Critical
import Deltix.Versioning.ImportFidelity
import Deltix.Versioning.ServiceOps
import Deltix.Versioning.VersioningSystem

/-
  Branch calls and merges of a repository, any number of
  them at once.

  They look the repository up before they enter the mutex,
  and the binary only runs inside, so they come to the same
  as calls that are made one after the other.

  Key definitions include:
    * `branchSection`
    * `branchCalls`
    * `Serializes`

  Key theorems include:
    * `guarded_serveCall`
    * `branch_calls_serialize`
-/

------------------------------------------------------------
-- The Section
------------------------------------------------------------

namespace Versioning

namespace BranchSerial

open Concurrency

/- The operations before the mutex is entered. -/
def Apart : VersioningOp → Prop
  | .getRepo _ => True
  | .now => True
  | .scratch => True
  | _ => False

/- The operations inside the mutex, with the branches that
   they may delete. -/
def Works (mayDelete : String → Prop) : VersioningOp → Prop
  | .dolt (.deleteBranch name) => mayDelete name
  | .dolt _ => True
  | _ => False

theorem apart_exec
    {config : VersioningConfig}
    {op : VersioningOp}
    {choice : VersioningChoice}
    {s t : VersioningState}
    {answer : op.Answer}
    (hApart : Apart op)
    (hExec : op.exec config choice s = some (answer, t)) :
    t = s ∧
      ∀ u, op.exec config choice u = some (answer, u) := by
  cases op with
  | getRepo _ | scratch =>
      simp only [VersioningOp.exec] at hExec
      split at hExec
      · rename_i hFails
        cases hExec
        refine ⟨rfl, fun u => ?_⟩
        simp only [VersioningOp.exec, hFails, if_true]
      · rename_i hWorks
        cases hExec
        refine ⟨rfl, fun u => ?_⟩
        simp only [VersioningOp.exec, hWorks,
          Bool.false_eq_true, if_false]
  | now =>
      cases hExec
      exact ⟨rfl, fun _ => rfl⟩
  | _ => exact hApart.elim

/- The mutex of the repository as a critical section. -/
def branchSection
    (config : VersioningConfig)
    (mayDelete : String → Prop) :
    CriticalSection (VersioningOp.exec config) where
  apart := Apart
  works := Works mayDelete
  enter := .acquire
  leave := .release
  holder := VersioningState.lock
  apart_exec := apart_exec
  works_exec := by
    intro op choice s answer t hWorks hExec
    cases op with
    | dolt statement => exact (exec_dolt hExec).2
    | _ => exact hWorks.elim
  enter_exec := by
    intro i choice s answer t hExec
    simp only [VersioningOp.exec] at hExec
    split at hExec
    · rename_i hFree
      cases hExec
      exact ⟨hFree, rfl⟩
    · cases hExec
  leave_exec := by
    intro choice s answer t hExec
    cases hExec
    rfl

variable {config : VersioningConfig} {i : Nat} {α : Type}
variable {mayDelete : String → Prop}

theorem apart_requireRepo (repoId : String) :
    (requireRepo repoId).Only
      (branchSection config mayDelete).apart :=
  only_requireRepo trivial

theorem guarded_runExclusive
    {action : VersioningProgram α}
    (hAction :
      action.Only (branchSection config mayDelete).works) :
    (runExclusive i action).Guarded
      (branchSection config mayDelete) i := by
  refine guarded_exclusive rfl hAction ?_
  exact Or.inl ⟨rfl, fun _ => rfl⟩

theorem guarded_createBranch (repoId branchName : String) :
    (createBranch i repoId branchName).Guarded
      (branchSection config mayDelete) i := by
  apply guarded_bind Async.only_ensure
  intro _
  apply guarded_bind (apart_requireRepo repoId)
  intro _
  apply guarded_runExclusive
  apply Async.only_bind
  · apply only_translateErrors
    exact only_dolt_expect trivial fun created =>
      only_answered _ created
  · intro _
    apply only_translateErrors
    exact only_readCurrentBranchName trivial

theorem guarded_checkoutBranch (repoId branchName : String) :
    (checkoutBranch i repoId branchName).Guarded
      (branchSection config mayDelete) i := by
  apply guarded_bind Async.only_ensure
  intro _
  apply guarded_bind (apart_requireRepo repoId)
  intro _
  apply guarded_runExclusive
  apply Async.only_bind
  · apply only_translateErrors
    exact only_dolt_expect trivial fun checkout =>
      only_answered _ checkout
  · intro _
    exact Async.only_returned branchName

/- A check that fails keeps what follows from running. -/
theorem only_bind_ensure
    {cond : VersioningOp → Prop}
    {condition : Bool}
    {error : VersioningError}
    {next : Unit → VersioningProgram α}
    (hNext : condition = true → (next ()).Only cond) :
    ((Async.ensure condition error).bind next).Only cond := by
  cases condition with
  | false => exact Async.only_threw error
  | true => exact hNext rfl

theorem guarded_deleteBranch
    {branchName : String}
    (hName : branchName ∉ protectedBranches → mayDelete branchName)
    (repoId : String) :
    (deleteBranch i repoId branchName).Guarded
      (branchSection config mayDelete) i := by
  apply guarded_bind Async.only_ensure
  intro _
  apply guarded_bind (apart_requireRepo repoId)
  intro _
  apply guarded_runExclusive
  apply Async.only_bind
  · apply only_translateErrors
    exact only_readCurrentBranchName trivial
  intro currentBranch
  apply Async.only_bind Async.only_ensure
  intro _
  apply only_bind_ensure
  intro hUnprotected
  have hMayDelete : mayDelete branchName := by
    apply hName
    simpa using hUnprotected
  apply only_translateErrors
  exact only_dolt_expect hMayDelete fun deleted =>
    only_answered _ deleted

theorem works_rejectMerge
    (source target : String)
    (result : MergeOutput) :
    (rejectMerge source target result).Only
      (branchSection config mayDelete).works := by
  unfold rejectMerge
  split_ifs
  · apply Async.only_bind
    · exact only_runDoltReadConflicts trivial fun _ => trivial
    intro conflicts
    apply Async.only_bind (only_runDoltMergeAbort trivial)
    intro _
    exact Async.only_threw _
  all_goals exact Async.only_threw _

theorem guarded_merge
    (repoId source : String)
    (target : Option String) :
    (merge i repoId source target).Guarded
      (branchSection config mayDelete) i := by
  apply guarded_bind Async.only_ensure
  intro _
  apply guarded_bind (only_assertTarget _)
  intro _
  apply guarded_bind (apart_requireRepo repoId)
  intro _
  apply guarded_runExclusive
  apply Async.only_bind (only_intendedTarget trivial _)
  intro intended
  apply Async.only_bind
  · apply only_translateMergeErrors
    exact only_runDoltMerge trivial (fun _ _ => trivial) trivial
  intro result
  split_ifs
  · exact only_reportMerge _ _ _ trivial
  · exact works_rejectMerge _ _ _

------------------------------------------------------------
-- Whole Runs
------------------------------------------------------------

open Relational

/- The calls that run inside the mutex. -/
def IsBranchCall : VersioningCall → Prop
  | .createBranch _ _ => True
  | .checkoutBranch _ _ => True
  | .deleteBranch _ _ => True
  | .merge _ _ _ => True
  | _ => False

def branchCalls :
    Allowed VersioningOp VersioningOp.Answer VersioningState
      VersioningCall VersioningError VersioningReturn where
  start := fun _ call _ => IsBranchCall call
  perform := fun _ _ _ => True

/-
  The calls that have ended, made one after the other in the
  order in which they have ended, end as they did.  When the
  mutex is free they leave the repository as it is.
-/
def Serializes
    (config : VersioningConfig)
    (initial : VersioningState)
    (p : VersioningPool) : Prop :=
  ∃ served s,
    OneByOne (versioningSystem config) initial served s ∧
      served.map Served.ending = endings p.world.trace ∧
      (∀ last ∈ served,
        .started last.task last.request ∈ p.world.trace) ∧
      (p.world.state.lock = none → p.world.state = s)

theorem guarded_serveCall
    {call : VersioningCall}
    (hBranch : IsBranchCall call)
    (hDeletes :
      ∀ repoId name, call = .deleteBranch repoId name →
        name ∉ protectedBranches → mayDelete name) :
    (serveCall i call).Guarded
      (branchSection config mayDelete) i := by
  cases call with
  | createBranch repoId branchName =>
      exact
        guarded_map (guarded_createBranch repoId branchName)
          fun _ => rfl
  | checkoutBranch repoId branchName =>
      exact
        guarded_map (guarded_checkoutBranch repoId branchName)
          fun _ => rfl
  | deleteBranch repoId branchName =>
      exact
        guarded_map
          (guarded_deleteBranch (hDeletes _ _ rfl) repoId)
          fun _ => rfl
  | merge repoId sourceBranch targetBranch =>
      exact
        guarded_map
          (guarded_merge repoId sourceBranch targetBranch)
          fun _ => rfl
  | _ => exact hBranch.elim

/-
  Branch calls and merges on a repository are serializable,
  however they interleave and whatever fails.
-/
theorem branch_calls_serialize
    (config : VersioningConfig)
    (initial : VersioningState)
    (p : VersioningPool)
    (hFree : initial.lock = none)
    (hRun :
      (versioningSystem config).Run branchCalls
        (Pool.initial initial) p) :
    Serializes config initial p := by
  let everything : String → Prop := fun _ => True
  have hGuarded :
      ∀ i call (w : VersioningWorld),
        branchCalls.start i call w →
          ((versioningSystem config).serve i call).Guarded
            (branchSection config everything) i :=
    fun i call _ hStart =>
      guarded_serveCall hStart fun _ _ _ _ => trivial
  have hFreeOf :
      (branchSection config everything).holder initial =
        none :=
    hFree
  rcases one_by_one hFreeOf hGuarded hRun with
    ⟨served, s, hOneByOne, hEndings, hStarted, hState⟩
  refine ⟨served, s, hOneByOne, hEndings, hStarted, ?_⟩
  intro hNobody
  exact (hState hNobody).symm

/- A branch is made while another call waits to check it out
   and then does. -/
def twoBranchCalls :
    List (Label VersioningChoice VersioningCall) :=
  let works : VersioningChoice :=
    { fails := false, text := "", hash := "", now := 0 }
  [ .start 0 (.checkoutBranch "r" "dev")
  , .start 1 (.createBranch "r" "dev")
  , .resume 0 works
  , .resume 1 works
  , .resume 1 works
  , .resume 1 works
  , .resume 1 works
  , .resume 1 works
  , .resume 0 works
  , .resume 0 works
  , .resume 0 works ]

theorem branch_calls_serialize_two :
    ∃ p : VersioningPool,
      (versioningSystem oneTableConfig).replay?
            (Pool.initial (cleanState FiniteMap.empty))
            twoBranchCalls =
          some p ∧
        p.world.state.repo.checkedOut = "dev" ∧
        endings p.world.trace =
          [ (0, .ok (.branch "dev"))
          , (1, .ok (.branch "main")) ] ∧
        Serializes oneTableConfig (cleanState FiniteMap.empty)
          p := by
  have hReplay :
      ∃ p : VersioningPool,
        (versioningSystem oneTableConfig).replay?
              (Pool.initial (cleanState FiniteMap.empty))
              twoBranchCalls =
            some p ∧
          p.world.state.repo.checkedOut = "dev" ∧
          endings p.world.trace =
            [ (0, .ok (.branch "dev"))
            , (1, .ok (.branch "main")) ] :=
    ⟨_, rfl, by decide +kernel, by rfl⟩
  rcases hReplay with ⟨p, hReplay, hCheckedOut, hEndings⟩
  refine ⟨p, hReplay, hCheckedOut, hEndings, ?_⟩
  refine
    branch_calls_serialize oneTableConfig
      (cleanState FiniteMap.empty) p rfl ?_
  have hChecks :
      System.checks (versioningSystem oneTableConfig)
          (fun _ _ _ => true)
          (Pool.initial (cleanState FiniteMap.empty))
          twoBranchCalls =
        true := by
    decide +kernel
  refine
    System.run_of_checks ?_ (fun _ _ _ _ => trivial) hChecks
      hReplay
  intro i call hMember w
  have hCalls :
      (i = 0 ∧ call = .checkoutBranch "r" "dev") ∨
        i = 1 ∧ call = .createBranch "r" "dev" := by
    simpa [twoBranchCalls] using hMember
  rcases hCalls with ⟨_, hCall⟩ | ⟨_, hCall⟩
  all_goals
    rw [hCall]
    exact trivial

end BranchSerial

end Versioning
