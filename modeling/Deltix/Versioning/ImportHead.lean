import Deltix.Concurrency.Precedence
import Deltix.Versioning.CommitGraph
import Deltix.Versioning.ImportFrame

/-
  The head that an import commits onto: the head is checked,
  the branch is checked out, and then commits are made, each
  by an invocation of its own.

  Key definitions include:
    * `HeadStep`
    * `Checked`
    * `OnBranch`

  Key theorems include:
    * `headStep_run`
    * `precedes_checkout`
    * `precedes_check`
    * `landed_step`
-/

------------------------------------------------------------
-- Heads
------------------------------------------------------------

namespace Versioning

namespace FastForward

open Concurrency Relational

/- A text that leaves the branches where they are, as the
   definition of a table does. -/
def LeavesBranches (dolt : DoltConfig) (text : String) : Prop :=
  ∀ repo : DoltRepo, (repo.sql dolt text).2.heads = repo.heads

/- The head of the branch that is checked out. -/
def current (repo : DoltRepo) : Option Commit :=
  repo.heads repo.checkedOut

/- Branches point to commits, and these have names. -/
structure Headed (repo : DoltRepo) : Prop where
  recorded : repo.HeadsRecorded
  named :
    ∀ branch head, repo.heads branch = some head → head.hash ≠ ""

/- An invocation that has made a commit. -/
def Commits : (op : VersioningOp) → op.Answer → Prop
  | .dolt (.commit _ _), .ok _ => True
  | _, _ => False

/- An invocation that has checked something out. -/
def ChecksOut : (op : VersioningOp) → op.Answer → Prop
  | .dolt (.checkout _), .ok _ => True
  | .dolt (.checkoutNew _), .ok _ => True
  | _, _ => False

variable {dolt : DoltConfig} {choice : DoltChoice}
variable {named : String → Prop} {branch : String}
variable {repo next : DoltRepo}
variable {statement : DoltStatement}
variable {answer : Except String Unit}

/- The branches stay, the branch is checked out or created,
   or a commit is made on the branch that is checked out. -/
inductive HeadStep
    (branch : String)
    (op : VersioningOp)
    (answer : op.Answer)
    (repo next : DoltRepo) : Prop where
  | kept
      (quiet : ¬ Commits op answer)
      (heads : next.heads = repo.heads)
      (checkedOut : next.checkedOut = repo.checkedOut)
      (missing :
        ChecksOut op answer →
          repo.checkedOut = branch ∨ repo.heads branch = none)
  | moved
      (quiet : ¬ Commits op answer)
      (found : repo.heads branch ≠ none)
      (heads : next.heads = repo.heads)
      (checkedOut : next.checkedOut = branch)
  | created
      (quiet : ¬ Commits op answer)
      (free : repo.heads branch = none)
      (heads :
        next.heads =
          Function.update repo.heads branch (current repo))
      (checkedOut : next.checkedOut = branch)
  | landed
      (commits : Commits op answer)
      (made : Commit)
      (fresh : repo.commits.find? made.hash = none)
      (found : next.commits.find? made.hash = some made)
      (named : made.hash ≠ "")
      (heads :
        next.heads =
          Function.update repo.heads repo.checkedOut (some made))
      (checkedOut : next.checkedOut = repo.checkedOut)
      (parents :
        made.parents =
          ((current repo).map Commit.hash).toList)

theorem headStep_kept
    {answer : statement.Answer}
    (hCommits : ¬ Commits (.dolt statement) answer)
    (hChecksOut : ¬ ChecksOut (.dolt statement) answer)
    (hHeads : next.heads = repo.heads)
    (hCheckedOut : next.checkedOut = repo.checkedOut) :
    HeadStep branch (.dolt statement) answer repo next :=
  .kept hCommits hHeads hCheckedOut fun hHas =>
    absurd hHas hChecksOut

theorem headStep_modifyTable
    {name : String}
    {change : Table → Except String String}
    {reply : statement.Answer}
    (hCommits : ¬ Commits (.dolt statement) reply)
    (hChecksOut : ¬ ChecksOut (.dolt statement) reply)
    (hModify : repo.modifyTable name change = (answer, next)) :
    HeadStep branch (.dolt statement) reply repo next := by
  rcases DoltRepo.modifyTable_cases hModify with
    ⟨_, _, hSame⟩ | ⟨_, _, _, _, _, hNext⟩
  · rw [hSame]
    exact headStep_kept hCommits hChecksOut rfl rfl
  · rw [hNext]
    exact headStep_kept hCommits hChecksOut rfl rfl

theorem headStep_checkout
    (hCheckout : repo.checkout branch = (answer, next)) :
    HeadStep branch (.dolt (.checkout branch)) answer repo
      next := by
  have hNone :
      ¬ Commits (.dolt (.checkout branch)) answer :=
    fun hCommits => hCommits
  rcases DoltRepo.checkout_cases hCheckout with
    ⟨error, hError, hSame⟩ | ⟨_, hMoved | hReset⟩
  · rw [hSame, hError]
    exact headStep_kept (fun hNo => hNo) (fun hNo => hNo) rfl rfl
  · rcases hMoved with
      ⟨head, hHead, ⟨hHere, hNext⟩ | ⟨_, hNext⟩⟩
    · rw [hNext]
      exact .kept hNone rfl rfl fun _ => Or.inl hHere.symm
    · rw [hNext]
      refine .moved hNone ?_ rfl rfl
      rw [hHead]
      exact Option.some_ne_none head
  · rcases hReset with ⟨hMissing, _, _, hNext⟩
    rw [hNext]
    exact .kept hNone rfl rfl fun _ => Or.inr hMissing

theorem headStep_checkoutNew
    (hCheckout : repo.checkoutNew branch = (answer, next)) :
    HeadStep branch (.dolt (.checkoutNew branch)) answer repo
      next := by
  unfold DoltRepo.checkoutNew at hCheckout
  split at hCheckout
  · cases hCheckout
    exact headStep_kept (fun hNo => hNo) (fun hNo => hNo) rfl rfl
  · rename_i hFree
    cases hCheckout
    exact .created (fun hNo => hNo) hFree rfl rfl

theorem headStep_commit
    {author message hash : String}
    (hCommit :
      repo.commit hash author message = some (answer, next)) :
    HeadStep branch (.dolt (.commit author message)) answer repo
      next := by
  rcases DoltRepo.commit_cases hCommit with
    ⟨error, hError, hSame, _⟩ | ⟨hOk, _, _, hRecord⟩
  · rw [hSame, hError]
    exact headStep_kept (fun hNo => hNo) (fun hNo => hNo) rfl rfl
  · rcases DoltRepo.record_cases hRecord with
      ⟨hNamed, commits, hInsert, hNext⟩
    have hFree := (KeyedTable.insert?_eq_some_iff.mp hInsert).1
    have hFound := (DoltRepo.head_of_record hRecord).2
    rw [hOk]
    refine
      .landed trivial _ hFree hFound hNamed ?_ ?_ rfl
    · rw [hNext]
      rfl
    · rw [hNext]
      rfl

/- What an invocation of an import does to the branches. -/
theorem headStep_run
    {answer : statement.Answer}
    (hImport : ImportStatement named branch statement)
    (hSql : ∀ text, statement = .sql text → LeavesBranches dolt text)
    (hRun :
      statement.run dolt choice repo = some (answer, next)) :
    HeadStep branch (.dolt statement) answer repo next := by
  rcases DoltStatement.run_cases hRun with
    ⟨_, hAnswer, hSame⟩ | ⟨_, hPerform⟩
  · rw [hSame, hAnswer]
    cases statement with
    | _ =>
        exact
          headStep_kept (fun hNo => hNo) (fun hNo => hNo) rfl rfl
  cases statement with
  | branchHead name =>
      cases hPerform
      exact
        headStep_kept (fun hNo => hNo) (fun hNo => hNo) rfl rfl
  | latestHash =>
      have hReads : DoltStatement.latestHash.Reads := trivial
      rw [DoltStatement.repo_of_reads hReads hRun]
      exact
        headStep_kept (fun hNo => hNo) (fun hNo => hNo) rfl rfl
  | checkout name =>
      have hName : name = branch := hImport
      subst hName
      exact headStep_checkout (Option.some.inj hPerform)
  | checkoutNew name =>
      have hName : name = branch := hImport
      subst hName
      exact headStep_checkoutNew (Option.some.inj hPerform)
  | sql text =>
      cases hPerform
      refine
        headStep_kept (fun hNo => hNo) (fun hNo => hNo) ?_ rfl
      exact hSql text rfl repo
  | truncate table =>
      exact
        headStep_modifyTable (fun hNo => hNo) (fun hNo => hNo)
          (Option.some.inj hPerform)
  | importRows table csv =>
      exact
        headStep_modifyTable (fun hNo => hNo) (fun hNo => hNo)
          (Option.some.inj hPerform)
  | add tables =>
      have hAdd := Option.some.inj hPerform
      unfold DoltRepo.add at hAdd
      dsimp only at hAdd
      split at hAdd
      all_goals
        cases hAdd
        exact
          headStep_kept (fun hNo => hNo) (fun hNo => hNo) rfl rfl
  | commit author message => exact headStep_commit hPerform
  | _ => exact hImport.elim

------------------------------------------------------------
-- What An Import Does In Order
------------------------------------------------------------

def IsCommit : VersioningOp → Prop
  | .dolt (.commit _ _) => True
  | _ => False

/- The head was asked for, and the check has let it pass. -/
def Checked
    (branch base : String) :
    (op : VersioningOp) → op.Answer → Prop
  | .dolt (.branchHead name), head =>
      name = branch ∧
        (head = none ∨ head = some "" ∨ head = some base)
  | _, _ => False

variable {branch base repoId : String}
variable {commits : List ImportedCommit}
variable {hash : Option String}

theorem yields_checkoutTarget (hBranch : branch ≠ "") :
    (checkoutTarget branch).Yields ChecksOut
      fun _ => False := by
  unfold checkoutTarget
  rw [if_neg hBranch]
  intro checkout
  cases checkout with
  | ok _ => exact Or.inl trivial
  | error stderr =>
      right
      simp only [Async.bind_returned]
      split_ifs
      · intro create
        cases create with
        | ok _ => exact Or.inl trivial
        | error output => exact Or.inr trivial
      · trivial

theorem precedes_importAll
    (hBranch : branch ≠ "")
    (commits : List ImportedCommit)
    (lastCommitHash : String) :
    (importAll branch commits lastCommitHash).Precedes IsCommit
      ChecksOut := by
  induction commits generalizing lastCommitHash with
  | nil => trivial
  | cons commit rest ih =>
      unfold importAll
      split_ifs
      · exact ih lastCommitHash
      · unfold runDoltCommitImport
        simp only [Async.bind_eq, Async.bind_assoc]
        apply precedes_after
        · apply only_checkoutTarget_of
          · exact fun hNo => hNo
          · exact fun hNo => hNo
        · exact yields_checkoutTarget hBranch

/- What comes before the commits of a batch makes none. -/
theorem precedes_lookup
    {gives : (op : VersioningOp) → op.Answer → Prop}
    (hCheck :
      ((checkFastForward hash branch).bind fun _ =>
          (importAll branch commits "").bind
            fun lastCommitHash =>
              (Async.ensure (lastCommitHash ≠ "")
                  (.commitImport "import"
                    "No commits contained table data")).bind
                fun _ =>
                  .returned
                    ({ commitHash := lastCommitHash
                       repo := repoId } :
                      CommitImportResult)).Precedes
        IsCommit gives) :
    (importCommits repoId commits hash branch).Precedes IsCommit
      gives := by
  unfold importCommits
  simp only [Async.bind_eq]
  apply precedes_later
  · apply only_getRepo
    exact fun hNo => hNo
  intro found
  apply precedes_later Async.only_ensure
  intro _
  apply precedes_later Async.only_ensure
  intro _
  exact hCheck

/- A commit comes after a checkout. -/
theorem precedes_checkout
    (hBranch : branch ≠ "")
    (repoId : String)
    (commits : List ImportedCommit)
    (hash : Option String) :
    (importCommits repoId commits hash branch).Precedes IsCommit
      ChecksOut := by
  apply precedes_lookup
  apply precedes_later
  · apply only_checkFastForward
    exact fun hNo => hNo
  intro _
  apply precedes_bind
  · exact precedes_importAll hBranch commits ""
  · exact yields_any _
  intro lastCommitHash _
  apply precedes_later Async.only_ensure
  intro _
  trivial

theorem yields_checkFastForward
    (hBase : pushBase hash = some base) :
    (checkFastForward hash branch).Yields (Checked branch base)
      fun _ => False := by
  unfold checkFastForward
  rw [hBase]
  intro currentHead
  cases currentHead with
  | none => exact Or.inl ⟨rfl, Or.inl rfl⟩
  | some found =>
      by_cases hPasses : found = "" ∨ found = base
      · left
        refine ⟨rfl, ?_⟩
        rcases hPasses with hEmpty | hSame
        · rw [hEmpty]
          exact Or.inr (Or.inl rfl)
        · rw [hSame]
          exact Or.inr (Or.inr rfl)
      · right
        unfold Async.ensure
        simp only [Async.bind_returned]
        rw [if_neg (by simpa using hPasses)]
        trivial

/- A commit of a push with a base comes after the check. -/
theorem precedes_check
    (hBase : pushBase hash = some base)
    (repoId : String)
    (commits : List ImportedCommit) :
    (importCommits repoId commits hash branch).Precedes IsCommit
      (Checked branch base) := by
  apply precedes_lookup
  apply precedes_after
  · apply only_checkFastForward
    exact fun hNo => hNo
  · exact yields_checkFastForward hBase

------------------------------------------------------------
-- Where The Head Is
------------------------------------------------------------

/- The branch is checked out, unless it does not exist. -/
def OnBranch (branch : String) (repo : DoltRepo) : Prop :=
  repo.checkedOut = branch ∨ repo.heads branch = none

variable {branch : String} {op : VersioningOp}
variable {answer : op.Answer}
variable {repo next : DoltRepo} {head : Commit}

theorem not_checksOut_of_commits
    (hCommits : Commits op answer) :
    ¬ ChecksOut op answer := by
  intro hChecksOut
  unfold Commits at hCommits
  split at hCommits
  · exact hChecksOut
  · exact hCommits

theorem headed_step
    (hHeaded : Headed repo)
    (hKeeps : repo.KeepsHistory next)
    (hStep : HeadStep branch op answer repo next) :
    Headed next := by
  have hUpdate (name : String) (target : Option Commit)
      (hHeads :
        next.heads = Function.update repo.heads name target)
      (hTarget :
        ∀ commit, target = some commit →
          next.commits.find? commit.hash = some commit ∧
            commit.hash ≠ "") :
      Headed next := by
    constructor
    · intro other commit hOther
      rw [hHeads] at hOther
      by_cases hSame : other = name
      · rw [hSame, Function.update_self] at hOther
        exact (hTarget commit hOther).1
      · rw [Function.update_of_ne hSame] at hOther
        exact hKeeps _ _ (hHeaded.recorded other commit hOther)
    · intro other commit hOther
      rw [hHeads] at hOther
      by_cases hSame : other = name
      · rw [hSame, Function.update_self] at hOther
        exact (hTarget commit hOther).2
      · rw [Function.update_of_ne hSame] at hOther
        exact hHeaded.named other commit hOther
  have hSame (hHeads : next.heads = repo.heads) :
      Headed next := by
    constructor
    · intro other commit hOther
      rw [hHeads] at hOther
      exact hKeeps _ _ (hHeaded.recorded other commit hOther)
    · rw [hHeads]
      exact hHeaded.named
  cases hStep with
  | kept _ hHeads _ _ => exact hSame hHeads
  | moved _ _ hHeads _ => exact hSame hHeads
  | created _ _ hHeads _ =>
      refine hUpdate _ _ hHeads ?_
      intro commit hCommit
      constructor
      · exact hKeeps _ _ (hHeaded.recorded _ commit hCommit)
      · exact hHeaded.named _ commit hCommit
  | landed _ made _ hFound hNamed hHeads _ _ =>
      refine hUpdate _ _ hHeads ?_
      intro commit hCommit
      cases hCommit
      exact ⟨hFound, hNamed⟩

theorem onBranch_step
    (hOn : OnBranch branch repo)
    (hStep : HeadStep branch op answer repo next) :
    OnBranch branch next := by
  unfold OnBranch at hOn ⊢
  cases hStep with
  | kept _ hHeads hCheckedOut _ =>
      rw [hHeads, hCheckedOut]
      exact hOn
  | moved _ _ _ hCheckedOut => exact Or.inl hCheckedOut
  | created _ _ _ hCheckedOut => exact Or.inl hCheckedOut
  | landed _ made _ _ _ hHeads hCheckedOut _ =>
      rw [hHeads, hCheckedOut]
      by_cases hHere : repo.checkedOut = branch
      · exact Or.inl hHere
      · right
        have hElsewhere : branch ≠ repo.checkedOut :=
          fun hSame => hHere hSame.symm
        rw [Function.update_of_ne hElsewhere]
        exact hOn.resolve_left hHere

/- A checkout is one of the branch, unless there is none. -/
theorem onBranch_checkout
    (hChecksOut : ChecksOut op answer)
    (hStep : HeadStep branch op answer repo next) :
    OnBranch branch next := by
  unfold OnBranch
  cases hStep with
  | kept _ hHeads hCheckedOut hMissing =>
      rw [hHeads, hCheckedOut]
      exact hMissing hChecksOut
  | moved _ _ _ hCheckedOut => exact Or.inl hCheckedOut
  | created _ _ _ hCheckedOut => exact Or.inl hCheckedOut
  | landed hCommits _ _ _ _ _ _ _ =>
      exact absurd hChecksOut (not_checksOut_of_commits hCommits)

/- The head of the branch stays until a commit is made. -/
theorem branch_step
    (hHead : repo.heads branch = some head)
    (hQuiet : ¬ Commits op answer)
    (hStep : HeadStep branch op answer repo next) :
    next.heads branch = some head := by
  cases hStep with
  | kept _ hHeads _ _ =>
      rw [hHeads]
      exact hHead
  | moved _ _ hHeads _ =>
      rw [hHeads]
      exact hHead
  | created _ hFree _ _ =>
      rw [hFree] at hHead
      cases hHead
  | landed hCommits _ _ _ _ _ _ _ => exact absurd hCommits hQuiet

theorem current_step
    (hOn : OnBranch branch repo)
    (hQuiet : ¬ Commits op answer)
    (hStep : HeadStep branch op answer repo next) :
    current next = current repo := by
  unfold current
  cases hStep with
  | kept _ hHeads hCheckedOut _ => rw [hHeads, hCheckedOut]
  | moved _ hFound hHeads hCheckedOut =>
      rw [hHeads, hCheckedOut, hOn.resolve_right hFound]
  | created _ _ hHeads hCheckedOut =>
      rw [hHeads, hCheckedOut, Function.update_self]
      rfl
  | landed hCommits _ _ _ _ _ _ _ => exact absurd hCommits hQuiet

/- A commit is a new one, on top of the head. -/
theorem landed_step
    (hCommits : Commits op answer)
    (hStep : HeadStep branch op answer repo next) :
    next.checkedOut = repo.checkedOut ∧
      ∃ made,
        current next = some made ∧
          repo.commits.find? made.hash = none ∧
          made.parents =
            ((current repo).map Commit.hash).toList := by
  cases hStep with
  | kept hQuiet _ _ _ => exact absurd hCommits hQuiet
  | moved hQuiet _ _ _ => exact absurd hCommits hQuiet
  | created hQuiet _ _ _ => exact absurd hCommits hQuiet
  | landed _ made hFresh _ _ hHeads hCheckedOut hParents =>
      refine ⟨hCheckedOut, made, ?_, hFresh, hParents⟩
      unfold current
      rw [hHeads, hCheckedOut, Function.update_self]

end FastForward

end Versioning
