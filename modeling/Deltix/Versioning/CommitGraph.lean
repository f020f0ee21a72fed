import Deltix.Relational.Reachability
import Deltix.Versioning.MergeRecovery

/-
  The commit graph of a repository, and what invocations of
  the binary do to it.

  A commit that is recorded keeps its parents, so what it
  reaches stays the same while the history grows.

  Key definitions include:
    * `DoltRepo.Reaches`
    * `DoltRepo.Recorded`
    * `HistoryStep`
    * `Written`

  Key theorems include:
    * `isAncestor_iff`
    * `reaches_keeps`
    * `historyStep_of_run`
    * `recorded_written`
-/

------------------------------------------------------------
-- Reachable Commits
------------------------------------------------------------

namespace Versioning

open Relational

variable {repo next : DoltRepo}
variable {hash ancestor : String}

/- The parents of a commit, as they are recorded. -/
def parentsIn (commits : CommitTable) (hash : String) :
    List String :=
  match commits.find? hash with
  | some commit => commit.parents
  | none => []

namespace DoltRepo

/- A path along parents. -/
def Reaches (repo : DoltRepo) (hash ancestor : String) : Prop :=
  Leads (parentsIn repo.commits) hash ancestor

/- The commit is recorded. -/
def Has (repo : DoltRepo) (hash : String) : Prop :=
  (repo.commits.find? hash).isSome = true

/- Branches and parents are commits, and all have names. -/
structure Recorded (repo : DoltRepo) : Prop where
  heads : repo.HeadsRecorded
  parents :
    ∀ hash commit,
      repo.commits.find? hash = some commit →
        ∀ parent ∈ commit.parents, repo.Has parent
  named : ¬ repo.Has ""

end DoltRepo

variable {commits : CommitTable}

theorem parentsIn_of_find?
    {commit : Commit}
    (hFind : commits.find? hash = some commit) :
    parentsIn commits hash = commit.parents := by
  unfold parentsIn
  rw [hFind]

theorem parentsIn_of_none
    (hNone : commits.find? hash = none) :
    parentsIn commits hash = [] := by
  unfold parentsIn
  rw [hNone]

theorem reaches_eq_within
    (commits : CommitTable)
    (steps : Nat)
    (ancestor hash : String) :
    reaches commits steps ancestor hash =
      within (parentsIn commits) steps ancestor hash := by
  induction steps generalizing hash with
  | zero => rfl
  | succ steps ih =>
      have hSame :
          reaches commits steps ancestor =
            within (parentsIn commits) steps ancestor :=
        funext ih
      rw [reaches, within, hSame]
      cases hFind : commits.find? hash with
      | none => rw [parentsIn_of_none hFind, List.any_nil]
      | some commit => rw [parentsIn_of_find? hFind]

/- The search of the binary finds every ancestor. -/
theorem isAncestor_iff :
    repo.isAncestor ancestor hash = true ↔
      repo.Reaches hash ancestor := by
  have hRows :
      ∀ node,
        parentsIn repo.commits node ≠ [] →
          node ∈ repo.commits.rows.map Commit.hash := by
    intro node hSome
    cases hFind : repo.commits.find? node with
    | none => exact absurd (parentsIn_of_none hFind) hSome
    | some commit =>
        rcases KeyedTable.find?_eq_some_iff.mp hFind with
          ⟨hMember, hHash⟩
        rw [← hHash]
        exact List.mem_map_of_mem hMember
  have hSearch :
      within (parentsIn repo.commits)
            (repo.commits.rows.map Commit.hash).length ancestor
            hash =
          true ↔
        repo.Reaches hash ancestor :=
    within_iff_leads hRows
  rw [List.length_map] at hSearch
  unfold DoltRepo.isAncestor
  rw [reaches_eq_within]
  exact hSearch

theorem DoltRepo.KeepsHistory.has
    (hKeeps : repo.KeepsHistory next)
    (hHas : repo.Has hash) :
    next.Has hash := by
  rcases Option.isSome_iff_exists.mp hHas with ⟨commit, hFind⟩
  exact Option.isSome_iff_exists.mpr ⟨commit, hKeeps _ _ hFind⟩

theorem closed_has (hRecorded : repo.Recorded) :
    ClosedUnder (parentsIn repo.commits) {hash | repo.Has hash} := by
  intro node hNode parent hParent
  rcases Option.isSome_iff_exists.mp hNode with
    ⟨commit, hFind⟩
  rw [parentsIn_of_find? hFind] at hParent
  exact hRecorded.parents node commit hFind parent hParent

/- What a recorded commit reaches is recorded. -/
theorem DoltRepo.Reaches.has
    (hRecorded : repo.Recorded)
    (hHas : repo.Has hash)
    (hReaches : repo.Reaches hash ancestor) :
    repo.Has ancestor := by
  have hMember : ancestor ∈ {hash | repo.Has hash} :=
    Leads.mem (closed_has hRecorded) hHas hReaches
  exact hMember

/- A growing history leaves what a commit reaches. -/
theorem reaches_keeps
    (hRecorded : repo.Recorded)
    (hKeeps : repo.KeepsHistory next)
    (hHas : repo.Has hash) :
    next.Reaches hash ancestor ↔ repo.Reaches hash ancestor := by
  refine leads_congr (closed_has hRecorded) ?_ hHas
  intro node hNode
  rcases Option.isSome_iff_exists.mp hNode with
    ⟨commit, hFind⟩
  rw [parentsIn_of_find? hFind,
    parentsIn_of_find? (hKeeps _ _ hFind)]

------------------------------------------------------------
-- What An Invocation Does To The History
------------------------------------------------------------

variable {config : DoltConfig} {choice : DoltChoice}
variable {repo next : DoltRepo}
variable {name hash : String} {answer : Except String Unit}

/- Nothing is recorded and no branch moves, a branch moves to
   the head of another or goes, a commit is recorded on top of
   heads, or a text is run. -/
inductive HistoryStep
    (config : DoltConfig)
    (repo next : DoltRepo) : Prop where
  | same
      (commits : next.commits = repo.commits)
      (heads : next.heads = repo.heads)
  | moved
      (branch source : String)
      (commits : next.commits = repo.commits)
      (heads :
        next.heads =
          Function.update repo.heads branch (repo.heads source))
  | removed
      (branch : String)
      (commits : next.commits = repo.commits)
      (heads :
        next.heads = Function.update repo.heads branch none)
  | recorded
      (commit : Commit)
      (named : commit.hash ≠ "")
      (inserted :
        repo.commits.insert? commit = some next.commits)
      (heads :
        next.heads =
          Function.update repo.heads repo.checkedOut
            (some commit))
      (parents :
        ∀ parent ∈ commit.parents, ∃ branch head,
          repo.heads branch = some head ∧ head.hash = parent)
  | text
      (text : String)
      (ran : next = (repo.sql config text).2)

theorem historyStep_modifyTable
    {change : Table → Except String String}
    (hModify : repo.modifyTable name change = (answer, next)) :
    HistoryStep config repo next := by
  rcases DoltRepo.modifyTable_cases hModify with
    ⟨_, _, hSame⟩ | ⟨_, _, _, _, _, hNext⟩
  · rw [hSame]
    exact .same rfl rfl
  · rw [hNext]
    exact .same rfl rfl

theorem historyStep_checkout
    (hCheckout : repo.checkout name = (answer, next)) :
    HistoryStep config repo next := by
  rcases DoltRepo.checkout_cases hCheckout with
    ⟨_, _, hSame⟩ | ⟨_, hMoved | hReset⟩
  · rw [hSame]
    exact .same rfl rfl
  · rcases hMoved with ⟨_, _, ⟨_, hNext⟩ | ⟨_, hNext⟩⟩
    · rw [hNext]
      exact .same rfl rfl
    · rw [hNext]
      exact .same rfl rfl
  · rcases hReset with ⟨_, _, _, hNext⟩
    rw [hNext]
    exact .same rfl rfl

theorem historyStep_record
    (before : DoltRepo)
    {commit : Commit}
    (hCommits : before.commits = repo.commits)
    (hHeads : before.heads = repo.heads)
    (hBranch : before.checkedOut = repo.checkedOut)
    (hRecord : before.record commit = some next)
    (hParents :
      ∀ parent ∈ commit.parents, ∃ branch head,
        repo.heads branch = some head ∧ head.hash = parent) :
    HistoryStep config repo next := by
  rcases DoltRepo.record_cases hRecord with
    ⟨hNamed, commits, hInsert, hNext⟩
  refine .recorded commit hNamed ?_ ?_ hParents
  · rw [hNext, ← hCommits]
    exact hInsert
  · rw [hNext, ← hHeads, ← hBranch]
    rfl

theorem historyStep_commit
    {author message : String}
    (hCommit :
      repo.commit hash author message = some (answer, next)) :
    HistoryStep config repo next := by
  rcases DoltRepo.commit_cases hCommit with
    ⟨_, _, hSame, _⟩ | ⟨_, _, _, hRecord⟩
  · rw [hSame]
    exact .same rfl rfl
  · refine historyStep_record repo rfl rfl rfl hRecord ?_
    intro parent hParent
    unfold DoltRepo.nextCommit at hParent
    rw [Option.mem_toList, Option.map_eq_some_iff] at hParent
    rcases hParent with ⟨head, hHead, hHash⟩
    exact ⟨_, head, hHead, hHash⟩

theorem historyStep_merge
    {text source : String}
    {output : MergeOutput}
    (hMerge :
      repo.merge config hash text source =
        some (output, next)) :
    HistoryStep config repo next := by
  unfold DoltRepo.merge at hMerge
  split at hMerge
  · rename_i ours theirs hOurs hTheirs
    split_ifs at hMerge
    · cases hMerge
      exact .same rfl rfl
    · cases hMerge
      exact .same rfl rfl
    · unfold DoltRepo.fastForward at hMerge
      split_ifs at hMerge
      · cases hMerge
        exact .same rfl rfl
      · cases hMerge
        refine .moved repo.checkedOut source rfl ?_
        rw [hTheirs]
        rfl
    · unfold DoltRepo.mergeCommits at hMerge
      split at hMerge
      · cases hMerge
        exact .same rfl rfl
      · rename_i tables _
        split_ifs at hMerge
        · cases hMerge
          exact .same rfl rfl
        · rw [Option.map_eq_some_iff] at hMerge
          rcases hMerge with ⟨after, hRecord, hEq⟩
          cases hEq
          refine
            historyStep_record (repo.carryTo tables) rfl rfl rfl
              hRecord ?_
          intro parent hParent
          rcases List.mem_pair.mp hParent with hFirst | hSecond
          · exact ⟨_, ours, hOurs, hFirst.symm⟩
          · exact ⟨_, theirs, hTheirs, hSecond.symm⟩
  · cases hMerge
    exact .same rfl rfl

/- What any invocation does to commits and branches. -/
theorem historyStep_of_run
    {statement : DoltStatement}
    {answer : statement.Answer}
    (hRun :
      statement.run config choice repo = some (answer, next)) :
    HistoryStep config repo next := by
  by_cases hReads : statement.Reads
  · rw [DoltStatement.repo_of_reads hReads hRun]
    exact .same rfl rfl
  rcases DoltStatement.run_cases hRun with
    hFailed | ⟨_, hPerform⟩
  · rw [hFailed.2.2]
    exact .same rfl rfl
  cases statement with
  | checkout name =>
      simp only [DoltStatement.perform, Option.some.injEq]
        at hPerform
      exact historyStep_checkout hPerform
  | checkoutNew branch =>
      simp only [DoltStatement.perform, DoltRepo.checkoutNew]
        at hPerform
      split at hPerform
      · cases hPerform
        exact .same rfl rfl
      · cases hPerform
        exact .moved branch repo.checkedOut rfl rfl
  | sql text =>
      cases hPerform
      exact .text text rfl
  | truncate table =>
      simp only [DoltStatement.perform, Option.some.injEq]
        at hPerform
      exact historyStep_modifyTable hPerform
  | importRows table csv =>
      simp only [DoltStatement.perform, Option.some.injEq]
        at hPerform
      exact historyStep_modifyTable hPerform
  | createPushLog =>
      simp only [DoltStatement.perform, DoltRepo.createPushLog]
        at hPerform
      split at hPerform
      · cases hPerform
        exact .same rfl rfl
      · cases hPerform
        exact .same rfl rfl
  | insertPush row =>
      simp only [DoltStatement.perform, Option.some.injEq]
        at hPerform
      exact historyStep_modifyTable hPerform
  | add tables =>
      simp only [DoltStatement.perform, DoltRepo.add] at hPerform
      split at hPerform
      · cases hPerform
        exact .same rfl rfl
      · cases hPerform
        exact .same rfl rfl
  | addAll =>
      cases hPerform
      exact .same rfl rfl
  | commit author message => exact historyStep_commit hPerform
  | createBranch branch =>
      simp only [DoltStatement.perform, DoltRepo.createBranch]
        at hPerform
      split at hPerform
      · cases hPerform
        exact .same rfl rfl
      · cases hPerform
        exact .moved branch repo.checkedOut rfl rfl
  | deleteBranch branch =>
      simp only [DoltStatement.perform, DoltRepo.deleteBranch]
        at hPerform
      split at hPerform
      · cases hPerform
        exact .same rfl rfl
      · split at hPerform
        · cases hPerform
          exact .removed branch rfl rfl
        · cases hPerform
          exact .same rfl rfl
  | merge source => exact historyStep_merge hPerform
  | mergeAbort =>
      simp only [DoltStatement.perform, DoltRepo.mergeAbort]
        at hPerform
      split at hPerform
      · cases hPerform
        exact .same rfl rfl
      · cases hPerform
        exact .same rfl rfl
  | _ => exact absurd trivial hReads

------------------------------------------------------------
-- Histories That Grow
------------------------------------------------------------

/- A text leaves branches and parents recorded, too. -/
def DoltConfig.Records (config : DoltConfig) : Prop :=
  ∀ (text : String) (repo : DoltRepo),
    repo.Recorded → (repo.sql config text).2.Recorded

/- What others may do to a repository meanwhile: any number of
   invocations, of any kind. -/
def Written (config : DoltConfig) :
    DoltRepo → DoltRepo → Prop :=
  Relation.ReflTransGen fun repo next =>
    ∃ (statement : DoltStatement) (choice : DoltChoice)
        (answer : statement.Answer),
      statement.run config choice repo = some (answer, next)

theorem Written.keeps (hWritten : Written config repo next) :
    repo.KeepsHistory next := by
  induction hWritten with
  | refl => exact .refl repo
  | tail _ hStep ih =>
      rcases hStep with ⟨statement, choice, answer, hRun⟩
      exact ih.trans (DoltStatement.history_run hRun)

theorem recorded_of_same
    (hRecorded : repo.Recorded)
    (hCommits : next.commits = repo.commits)
    (hHeads : next.heads = repo.heads) :
    next.Recorded := by
  constructor
  · unfold DoltRepo.HeadsRecorded
    rw [hCommits, hHeads]
    exact hRecorded.heads
  · unfold DoltRepo.Has
    rw [hCommits]
    exact hRecorded.parents
  · unfold DoltRepo.Has
    rw [hCommits]
    exact hRecorded.named

/- Where branches go, if all they go to is recorded. -/
theorem recorded_of_update
    {branch : String}
    {head : Option Commit}
    (hRecorded : repo.Recorded)
    (hCommits : next.commits = repo.commits)
    (hHeads : next.heads = Function.update repo.heads branch head)
    (hHead :
      ∀ commit,
        head = some commit →
          repo.commits.find? commit.hash = some commit) :
    next.Recorded := by
  constructor
  · intro other commit hOther
    rw [hHeads] at hOther
    rw [hCommits]
    by_cases hSame : other = branch
    · rw [hSame, Function.update_self] at hOther
      exact hHead commit hOther
    · rw [Function.update_of_ne hSame] at hOther
      exact hRecorded.heads other commit hOther
  · unfold DoltRepo.Has
    rw [hCommits]
    exact hRecorded.parents
  · unfold DoltRepo.Has
    rw [hCommits]
    exact hRecorded.named

theorem recorded_historyStep
    (hRecords : config.Records)
    (hRecorded : repo.Recorded)
    (hStep : HistoryStep config repo next) :
    next.Recorded := by
  cases hStep with
  | same hCommits hHeads =>
      exact recorded_of_same hRecorded hCommits hHeads
  | moved branch source hCommits hHeads =>
      exact
        recorded_of_update hRecorded hCommits hHeads
          (hRecorded.heads source)
  | removed branch hCommits hHeads =>
      refine recorded_of_update hRecorded hCommits hHeads ?_
      intro commit hNone
      cases hNone
  | recorded commit hNamed hInserted hHeads hParents =>
      have hFind (hash : String) :
          next.commits.find? hash =
            if commit.hash = hash then some commit
            else repo.commits.find? hash :=
        KeyedTable.find?_insert? hInserted
      have hKeeps : repo.KeepsHistory next := by
        intro hash other hOther
        exact DoltRepo.find?_of_insert? hInserted hOther
      constructor
      · intro branch head hHead
        rw [hHeads] at hHead
        by_cases hSame : branch = repo.checkedOut
        · rw [hSame, Function.update_self] at hHead
          cases hHead
          rw [hFind, if_pos rfl]
        · rw [Function.update_of_ne hSame] at hHead
          exact hKeeps _ _ (hRecorded.heads branch head hHead)
      · intro hash other hOther parent hParent
        rw [hFind] at hOther
        split at hOther
        · cases hOther
          rcases hParents parent hParent with
            ⟨branch, head, hHead, hHash⟩
          rw [← hHash]
          apply hKeeps.has
          exact
            Option.isSome_iff_exists.mpr
              ⟨head, hRecorded.heads branch head hHead⟩
        · exact
            hKeeps.has
              (hRecorded.parents hash other hOther parent
                hParent)
      · unfold DoltRepo.Has
        rw [hFind, if_neg hNamed]
        exact hRecorded.named
  | text text hNext =>
      rw [hNext]
      exact hRecords text repo hRecorded

/- Whatever others do, the history stays recorded. -/
theorem recorded_written
    (hRecords : config.Records)
    (hRecorded : repo.Recorded)
    (hWritten : Written config repo next) :
    next.Recorded := by
  induction hWritten with
  | refl => exact hRecorded
  | tail _ hStep ih =>
      rcases hStep with ⟨statement, choice, answer, hRun⟩
      exact
        recorded_historyStep hRecords ih
          (historyStep_of_run hRun)

end Versioning
