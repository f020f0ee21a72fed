import Deltix.Concurrency.Footprints
import Deltix.Versioning.BranchSerial
import Deltix.Versioning.CommitGraph
import Deltix.Versioning.FastForward

/-
  The history of a branch while imports, recorded pushes,
  branch calls and merges interleave.

  Nobody takes a commit away from a branch.  Only a deletion
  of the branch does, and `main` is never deleted.

  Key definitions include:
    * `Contains`
    * `KeepsBranch`
    * `branchStays`

  Key theorems include:
    * `keepsBranch_run`
    * `only_serveCall`
    * `branch_only_grows`
-/

------------------------------------------------------------
-- The Commits Of A Branch
------------------------------------------------------------

namespace Versioning

namespace BranchHistory

open FastForward Relational

variable {config : DoltConfig} {choice : DoltChoice}
variable {repo next last : DoltRepo} {branch : String}
variable {hash name : String} {answer : Except String Unit}

/- The commit is on the branch. -/
def Contains
    (repo : DoltRepo)
    (branch hash : String) : Prop :=
  ∃ head, repo.heads branch = some head ∧
    repo.Reaches head.hash hash

/- No recorded commit changes, and none leaves the branch. -/
structure KeepsBranch
    (branch : String)
    (repo next : DoltRepo) : Prop where
  history : repo.KeepsHistory next
  contains :
    ∀ hash, Contains repo branch hash →
      Contains next branch hash

theorem KeepsBranch.refl
    (branch : String)
    (repo : DoltRepo) :
    KeepsBranch branch repo repo :=
  ⟨.refl repo, fun _ hContains => hContains⟩

theorem KeepsBranch.trans
    (hFirst : KeepsBranch branch repo next)
    (hSecond : KeepsBranch branch next last) :
    KeepsBranch branch repo last where
  history := hFirst.history.trans hSecond.history
  contains := fun hash hContains =>
    hSecond.contains hash (hFirst.contains hash hContains)

/- A path stays while the history grows. -/
theorem reaches_of_keeps
    {ancestor : String}
    (hKeeps : repo.KeepsHistory next)
    (hReaches : repo.Reaches hash ancestor) :
    next.Reaches hash ancestor := by
  induction hReaches with
  | refl => exact .refl
  | @tail middle parent _ hStep ih =>
      cases hFind : repo.commits.find? middle with
      | none =>
          rw [parentsIn_of_none hFind] at hStep
          cases hStep
      | some commit =>
          rw [parentsIn_of_find? hFind] at hStep
          apply ih.tail
          rw [parentsIn_of_find? (hKeeps _ _ hFind)]
          exact hStep

/- The head stays, or moves to where it can be reached. -/
theorem keepsBranch_of_heads
    (hKeeps : repo.KeepsHistory next)
    (hHeads :
      ∀ head, repo.heads branch = some head →
        ∃ later, next.heads branch = some later ∧
          next.Reaches later.hash head.hash) :
    KeepsBranch branch repo next := by
  refine ⟨hKeeps, ?_⟩
  intro hash hContains
  rcases hContains with ⟨head, hHead, hReaches⟩
  rcases hHeads head hHead with ⟨later, hLater, hPath⟩
  refine ⟨later, hLater, ?_⟩
  have hThere : next.Reaches head.hash hash :=
    reaches_of_keeps hKeeps hReaches
  exact hPath.trans hThere

theorem keepsBranch_of_same
    (hKeeps : repo.KeepsHistory next)
    (hHeads : next.heads branch = repo.heads branch) :
    KeepsBranch branch repo next := by
  apply keepsBranch_of_heads hKeeps
  intro head hHead
  refine ⟨head, ?_, .refl⟩
  rw [hHeads]
  exact hHead

/- A commit with the head among its parents replaces it. -/
theorem keepsBranch_record
    {commit : Commit}
    (hRecord : repo.record commit = some next)
    (hParents :
      ∀ head, repo.heads repo.checkedOut = some head →
        head.hash ∈ commit.parents) :
    KeepsBranch branch repo next := by
  have hKeeps := DoltRepo.keeps_record hRecord
  have hFind := (DoltRepo.head_of_record hRecord).2
  rcases DoltRepo.record_cases hRecord with ⟨_, _, _, hNext⟩
  by_cases hBranch : branch = repo.checkedOut
  · apply keepsBranch_of_heads hKeeps
    intro head hHead
    refine ⟨commit, ?_, ?_⟩
    · rw [hNext, hBranch]
      exact Function.update_self ..
    · apply Relation.ReflTransGen.single
      rw [parentsIn_of_find? hFind]
      rw [hBranch] at hHead
      exact hParents head hHead
  · apply keepsBranch_of_same hKeeps
    rw [hNext]
    exact Function.update_of_ne hBranch ..

------------------------------------------------------------
-- What An Invocation Does To A Branch
------------------------------------------------------------

/- The invocation does not delete the branch, and a text
   leaves the branches where they are. -/
def Spared
    (config : DoltConfig)
    (branch : String) : DoltStatement → Prop
  | .deleteBranch other => other ≠ branch
  | .sql text => LeavesBranches config text
  | _ => True

theorem heads_of_checkout
    (hCheckout : repo.checkout name = (answer, next)) :
    next.heads = repo.heads := by
  rcases DoltRepo.checkout_cases hCheckout with
    ⟨_, _, hSame⟩ | ⟨_, hMoved | hReset⟩
  · rw [hSame]
  · rcases hMoved with ⟨_, _, ⟨_, hNext⟩ | ⟨_, hNext⟩⟩
    · rw [hNext]
    · rw [hNext]
      rfl
  · rcases hReset with ⟨_, _, _, hNext⟩
    rw [hNext]
    rfl

theorem heads_of_modifyTable
    {change : Table → Except String String}
    (hModify : repo.modifyTable name change = (answer, next)) :
    next.heads = repo.heads := by
  rcases DoltRepo.modifyTable_cases hModify with
    ⟨_, _, hSame⟩ | ⟨_, _, _, _, _, hNext⟩
  · rw [hSame]
  · rw [hNext]
    rfl

/- A branch that is made was not there before. -/
theorem keepsBranch_made
    {made : String}
    {head : Option Commit}
    (hKeeps : repo.KeepsHistory next)
    (hFree : repo.heads made = none)
    (hNext : next.heads = Function.update repo.heads made head) :
    KeepsBranch branch repo next := by
  apply keepsBranch_of_heads hKeeps
  intro old hOld
  have hOther : branch ≠ made := by
    intro hSame
    rw [hSame, hFree] at hOld
    cases hOld
  refine ⟨old, ?_, .refl⟩
  rw [hNext, Function.update_of_ne hOther]
  exact hOld

theorem keepsBranch_merge
    {text source : String}
    {output : MergeOutput}
    (hMerge :
      repo.merge config hash text source =
        some (output, next)) :
    KeepsBranch branch repo next := by
  have hKeeps := DoltRepo.keeps_merge hMerge
  unfold DoltRepo.merge at hMerge
  split at hMerge
  · rename_i ours theirs hOurs hTheirs
    split_ifs at hMerge with hMerging hBehind hAhead
    · cases hMerge
      exact .refl branch repo
    · cases hMerge
      exact .refl branch repo
    · unfold DoltRepo.fastForward at hMerge
      split_ifs at hMerge
      · cases hMerge
        exact .refl branch repo
      · cases hMerge
        by_cases hBranch : branch = repo.checkedOut
        · apply keepsBranch_of_heads hKeeps
          intro head hHead
          rw [hBranch, hOurs] at hHead
          cases hHead
          refine ⟨theirs, ?_, ?_⟩
          · rw [hBranch]
            exact Function.update_self ..
          · exact
              reaches_of_keeps hKeeps (isAncestor_iff.mp hAhead)
        · apply keepsBranch_of_same hKeeps
          exact Function.update_of_ne hBranch ..
    · unfold DoltRepo.mergeCommits at hMerge
      split at hMerge
      · cases hMerge
        exact keepsBranch_of_same hKeeps rfl
      · rename_i tables _
        split_ifs at hMerge
        · cases hMerge
          exact .refl branch repo
        · rw [Option.map_eq_some_iff] at hMerge
          rcases hMerge with ⟨after, hRecord, hEq⟩
          cases hEq
          have hCarried :
              KeepsBranch branch (repo.carryTo tables) next := by
            apply keepsBranch_record hRecord
            intro head hHead
            have hSame : some ours = some head := by
              rw [← hOurs]
              exact hHead
            cases hSame
            exact List.mem_cons_self
          have hFirst :
              KeepsBranch branch repo (repo.carryTo tables) :=
            keepsBranch_of_same (.refl repo) rfl
          exact hFirst.trans hCarried
  · cases hMerge
    exact .refl branch repo

/- No invocation but a deletion takes a commit away. -/
theorem keepsBranch_run
    {statement : DoltStatement}
    {answer : statement.Answer}
    (hSpared : Spared config branch statement)
    (hRun :
      statement.run config choice repo = some (answer, next)) :
    KeepsBranch branch repo next := by
  have hKeeps := DoltStatement.history_run hRun
  by_cases hReads : statement.Reads
  · rw [DoltStatement.repo_of_reads hReads hRun]
    exact .refl branch repo
  rcases DoltStatement.run_cases hRun with
    hFailed | ⟨_, hPerform⟩
  · rw [hFailed.2.2]
    exact .refl branch repo
  cases statement with
  | checkout name =>
      simp only [DoltStatement.perform, Option.some.injEq]
        at hPerform
      apply keepsBranch_of_same hKeeps
      rw [heads_of_checkout hPerform]
  | checkoutNew made =>
      simp only [DoltStatement.perform, DoltRepo.checkoutNew]
        at hPerform
      split at hPerform
      · cases hPerform
        exact .refl branch repo
      · rename_i hFree
        cases hPerform
        exact keepsBranch_made hKeeps hFree rfl
  | sql text =>
      have hNext : next = (repo.sql config text).2 := by
        simp only [DoltStatement.perform, Option.some.injEq]
          at hPerform
        rw [hPerform]
      apply keepsBranch_of_same hKeeps
      rw [hNext, hSpared repo]
  | truncate table =>
      simp only [DoltStatement.perform, Option.some.injEq]
        at hPerform
      apply keepsBranch_of_same hKeeps
      rw [heads_of_modifyTable hPerform]
  | importRows table csv =>
      simp only [DoltStatement.perform, Option.some.injEq]
        at hPerform
      apply keepsBranch_of_same hKeeps
      rw [heads_of_modifyTable hPerform]
  | createPushLog =>
      simp only [DoltStatement.perform, DoltRepo.createPushLog]
        at hPerform
      split at hPerform
      · cases hPerform
        exact .refl branch repo
      · cases hPerform
        exact keepsBranch_of_same hKeeps rfl
  | insertPush row =>
      simp only [DoltStatement.perform, Option.some.injEq]
        at hPerform
      apply keepsBranch_of_same hKeeps
      rw [heads_of_modifyTable hPerform]
  | add tables =>
      simp only [DoltStatement.perform, DoltRepo.add] at hPerform
      split at hPerform
      · cases hPerform
        exact keepsBranch_of_same hKeeps rfl
      · cases hPerform
        exact .refl branch repo
  | addAll =>
      cases hPerform
      exact keepsBranch_of_same hKeeps rfl
  | commit author message =>
      rcases DoltRepo.commit_cases hPerform with
        ⟨_, _, hSame, _⟩ | ⟨_, _, _, hRecord⟩
      · rw [hSame]
        exact .refl branch repo
      · apply keepsBranch_record hRecord
        intro head hHead
        unfold DoltRepo.nextCommit
        rw [hHead]
        exact List.mem_cons_self
  | createBranch made =>
      simp only [DoltStatement.perform, DoltRepo.createBranch]
        at hPerform
      split at hPerform
      · cases hPerform
        exact .refl branch repo
      · rename_i hFree
        cases hPerform
        exact keepsBranch_made hKeeps hFree rfl
  | deleteBranch other =>
      simp only [DoltStatement.perform, DoltRepo.deleteBranch]
        at hPerform
      split at hPerform
      · cases hPerform
        exact .refl branch repo
      · split at hPerform
        · cases hPerform
          apply keepsBranch_of_same hKeeps
          exact Function.update_of_ne (Ne.symm hSpared) ..
        · cases hPerform
          exact .refl branch repo
  | merge source => exact keepsBranch_merge hPerform
  | mergeAbort =>
      simp only [DoltStatement.perform, DoltRepo.mergeAbort]
        at hPerform
      split at hPerform
      · cases hPerform
        exact .refl branch repo
      · cases hPerform
        exact keepsBranch_of_same hKeeps rfl
  | _ => exact absurd trivial hReads

open Concurrency

variable {i : Nat}

/- The branch is not deleted. -/
def Undeleted (branch : String) : VersioningOp → Prop
  | .dolt (.deleteBranch other) => other ≠ branch
  | _ => True

theorem undeleted_importCommits
    (repoId : String)
    (commits : List ImportedCommit)
    (base : Option String)
    (target : String) :
    (importCommits repoId commits base target).Only
      (Undeleted branch) := by
  apply Async.only_mono _ (only_importCommits ..)
  intro op hImport
  cases op with
  | dolt statement =>
      cases statement with
      | deleteBranch other => exact hImport.elim
      | _ => trivial
  | _ => trivial

theorem undeleted_recordPush (params : PushCommitParams) :
    (recordPush params).Only (Undeleted branch) := by
  apply Async.only_bind (only_getRepo trivial)
  intro found
  split
  · apply Async.only_bind
    · apply Async.only_catchError
      · apply Async.only_bind Async.only_ensure
        intro _
        apply Async.only_bind Async.only_ensure
        intro _
        apply only_dolt_expect trivial
        intro created
        apply Async.only_bind (only_answered _ created)
        intro _
        apply Async.only_bind (Async.only_call.mpr trivial)
        intro pushedAt
        apply only_dolt_expect trivial
        intro inserted
        apply Async.only_bind (only_answered _ inserted)
        intro _
        apply Async.only_bind
        · exact only_addResolved trivial fun _ _ => trivial
        intro _
        apply only_dolt_expect trivial
        intro committed
        apply Async.only_bind (only_answered _ committed)
        intro _
        exact only_readCommitHash trivial
      · intro error
        exact Async.only_threw _
    · intro hash
      exact Async.only_returned _
  · exact Async.only_returned _

theorem undeleted_branchCall
    (config : VersioningConfig)
    {call : VersioningCall}
    (hBranch : BranchSerial.IsBranchCall call)
    (hCall :
      ∀ repoId, call = .deleteBranch repoId branch →
        branch ∈ protectedBranches) :
    (serveCall i call).Only (Undeleted branch) := by
  have hGuarded :
      (serveCall i call).Guarded
        (BranchSerial.branchSection config fun name =>
          name ≠ branch) i := by
    apply BranchSerial.guarded_serveCall hBranch
    intro repoId name hSame hUnprotected hName
    subst hName
    exact hUnprotected (hCall repoId hSame)
  apply only_of_guarded _ _ _ _ hGuarded
  · intro op hApart
    cases op with
    | dolt statement => exact hApart.elim
    | _ => trivial
  · trivial
  · intro op hWorks
    cases op with
    | dolt statement =>
        cases statement with
        | deleteBranch other => exact hWorks
        | _ => trivial
    | _ => exact hWorks.elim
  · trivial

theorem only_serveCall
    (config : VersioningConfig)
    {call : VersioningCall}
    (hCall :
      ∀ repoId, call = .deleteBranch repoId branch →
        branch ∈ protectedBranches) :
    (serveCall i call).Only (Undeleted branch) := by
  cases call with
  | importCommits repoId commits base target =>
      exact
        Async.only_bind
          (undeleted_importCommits repoId commits base target)
          fun _ => Async.only_returned _
  | recordPush params =>
      exact
        Async.only_bind (undeleted_recordPush params)
          fun _ => Async.only_returned _
  | _ => exact undeleted_branchCall config trivial hCall

/-
  Any calls, but no deletion of the branch, unless it is one
  that the service protects.  The texts that define imported
  tables leave the branches.
-/
def branchStays
    (config : VersioningConfig)
    (branch : String) :
    Allowed VersioningOp VersioningOp.Answer VersioningState
      VersioningCall VersioningError VersioningReturn where
  start := fun _ call _ =>
    ∀ repoId, call = .deleteBranch repoId branch →
      branch ∈ protectedBranches
  perform := fun _ op _ =>
    ∀ text, op = .dolt (.sql text) →
      LeavesBranches config.dolt text

theorem keepsBranch_exec
    {config : VersioningConfig}
    {op : VersioningOp}
    {choice : VersioningChoice}
    {s t : VersioningState}
    {answer : op.Answer}
    (hUndeleted : Undeleted branch op)
    (hTexts :
      ∀ text, op = .dolt (.sql text) →
        LeavesBranches config.dolt text)
    (hExec : op.exec config choice s = some (answer, t)) :
    KeepsBranch branch s.repo t.repo := by
  cases op with
  | dolt statement =>
      refine keepsBranch_run ?_ (exec_dolt hExec).1
      cases statement with
      | deleteBranch other => exact hUndeleted
      | sql text => exact hTexts text rfl
      | _ => exact trivial
  | _ =>
      rcases (VersioningOp.exec_frame hExec).repo with
        hSame | ⟨statement, hOp⟩
      · rw [hSame]
        exact .refl branch s.repo
      · cases hOp

/-
  Whatever interleaves and whatever fails: a commit that is
  on a branch stays there, as it was recorded, and so the
  branch stays.  For `main` no call is excluded.
-/
theorem branch_only_grows
    (config : VersioningConfig)
    (branch : String)
    (initial : VersioningState)
    (p q : VersioningPool)
    (hRun :
      (versioningSystem config).Run (branchStays config branch)
        (Pool.initial initial) p)
    (hLater :
      (versioningSystem config).Run (branchStays config branch)
        p q) :
    KeepsBranch branch p.world.state.repo
      q.world.state.repo := by
  have hServe :
      ∀ i call (w : VersioningWorld),
        (branchStays config branch).start i call w →
          ((versioningSystem config).serve i call).Only
            (Undeleted branch) := by
    intro i call w hStart
    exact only_serveCall config hStart
  refine
    kept_run
      (fun w =>
        KeepsBranch branch p.world.state.repo w.state.repo)
      ?_ hServe ?_ hRun hLater (.refl ..)
  · rintro w v ⟨hState, _⟩ hKept
    rw [hState]
    exact hKept
  · intro i op choice answer after w hUndeleted hOk hKept hExec
    exact hKept.trans (keepsBranch_exec hUndeleted hOk hExec)

/- A row is pushed, and the branch cannot be deleted. -/
def pushedThenDeleted :
    List (Label VersioningChoice VersioningCall) :=
  .start 0 (rowCall "c\nx\n") ::
    (List.replicate 11 (.resume 0 (making "c1")) ++
      .start 1 (.deleteBranch "r" "main") ::
        List.replicate 4 (.resume 1 (making "main")))

theorem branch_only_grows_pushed :
    ∃ q : VersioningPool,
      (versioningSystem oneTableConfig).replay?
            (Pool.initial (cleanState FiniteMap.empty))
            pushedThenDeleted =
          some q ∧
        (q.world.state.repo.heads "main").map Commit.hash =
          some "c1" ∧
        KeepsBranch "main" (cleanState FiniteMap.empty).repo
          q.world.state.repo := by
  have hReplay :
      ∃ q : VersioningPool,
        (versioningSystem oneTableConfig).replay?
              (Pool.initial (cleanState FiniteMap.empty))
              pushedThenDeleted =
            some q ∧
          (q.world.state.repo.heads "main").map Commit.hash =
            some "c1" :=
    ⟨_, rfl, by decide +kernel⟩
  rcases hReplay with ⟨q, hReplay, hHead⟩
  refine ⟨q, hReplay, hHead, ?_⟩
  refine
    branch_only_grows oneTableConfig "main"
      (cleanState FiniteMap.empty) (Pool.initial _) q .refl ?_
  have hChecks :
      System.checks (versioningSystem oneTableConfig)
          (fun _ _ _ => true)
          (Pool.initial (cleanState FiniteMap.empty))
          pushedThenDeleted =
        true := by
    decide +kernel
  refine System.run_of_checks ?_ ?_ hChecks hReplay
  · intro i call _ w repoId _
    exact List.mem_cons_self
  · intro i op w _ text _
    exact leavesBranches_oneTable text

end BranchHistory

end Versioning
