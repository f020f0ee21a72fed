import Deltix.Versioning.ImportFidelity
import Deltix.Versioning.ImportFrame

/-
  What an import that is rejected leaves behind.  Nothing is
  undone: the commits that were made stay on the branch.

  Key definitions include:
    * `Chained`
    * `Partway`

  Key theorems include:
    * `ends_runDoltCommitImport`
    * `partway_of_rejected`
    * `first_commit_stays`
-/

------------------------------------------------------------
-- Commits That Have Landed
------------------------------------------------------------

namespace Versioning

open Concurrency Relational

namespace DoltRepo

/- A branch, or the head that it would be created at. -/
def startOf (repo : DoltRepo) (branch : String) :
    Option Commit :=
  match repo.heads branch with
  | some head => some head
  | none => repo.heads repo.checkedOut

/- The branch that is imported onto. -/
def importBranch (repo : DoltRepo) (branch : String) : String :=
  if branch = "" then repo.checkedOut else branch

end DoltRepo

/- One commit for each of a list leads from head to head. -/
def Chained
    (commits : CommitTable) :
    (head : Option Commit) → List ImportedCommit →
      (last : Option Commit) → Prop
  | head, [], last => last = head
  | head, commit :: rest, last =>
      ∃ made : Commit,
        commits.find? made.hash = some made ∧
          made.parents = (head.map Commit.hash).toList ∧
          made.author = authorFlag commit.author ∧
          made.message = commit.message ∧
          Chained commits (some made) rest last

/-
  Commits of a batch have landed on the branch, which is
  checked out.  The tables that the batch does not name are
  as the checkout has taken them.
-/
structure LandedOn
    (named : String → Prop)
    (branch : String)
    (done : List ImportedCommit)
    (before after : DoltRepo) : Prop where
  checkedOut : after.checkedOut = branch
  heads : ∀ name, name ≠ branch → after.heads name = before.heads name
  chained :
    Chained after.commits (before.startOf branch) done
      (after.heads branch)
  working :
    ∀ name, ¬ named name →
      after.working.find name =
        (before.takenTo branch before.working).find name

/- Nothing was done, or some commits have landed. -/
def Partway
    (named : String → Prop)
    (branch : String)
    (done : List ImportedCommit)
    (before after : DoltRepo) : Prop :=
  after = before ∧ done = [] ∨
    LandedOn named branch done before after

/- The text of a schema changes at most its own table and
   the backing tables of full-text indexes. -/
structure DefinesOnly
    (config : DoltConfig)
    (table : ImportedTable) : Prop where
  heads :
    ∀ repo : DoltRepo,
      (repo.sql config table.schema).2.heads = repo.heads
  working :
    ∀ (repo : DoltRepo) name,
      name ≠ table.name →
        isDoltFulltextInternalTable name = false →
          (repo.sql config table.schema).2.working.find name =
            repo.working.find name

/- Every text of a batch is the schema of a table. -/
def DefineTables
    (config : DoltConfig)
    (commits : List ImportedCommit) : Prop :=
  ∀ commit ∈ commits,
    ∀ table ∈ commit.tables, DefinesOnly config table

/- The tables that the texts of a batch may change. -/
def WrittenBy
    (commits : List ImportedCommit)
    (name : String) : Prop :=
  NamedIn commits name ∨
    isDoltFulltextInternalTable name = true

/- A branch that is missing is not taken for a table. -/
def NoTable (repo : DoltRepo) (branch : String) : Prop :=
  repo.heads branch = none →
    repo.headTables.find branch = none

/- The commits of a batch that are imported. -/
def tabled (commits : List ImportedCommit) :
    List ImportedCommit :=
  commits.filter fun commit => commit.tables ≠ []

/- The invocations that have made a commit. -/
def commitsMade (steps : List VersioningTaken) : Nat :=
  steps.countP fun
    | ⟨.dolt (.commit _ _), _, _, answer, _⟩ => answer.isOk
    | _ => false

/- The step asks, or is a checkout that is refused. -/
def Asks : VersioningTaken → Prop
  | ⟨.dolt (.checkout _), _, _, answer, _⟩ =>
      answer.isOk = false
  | ⟨.dolt (.checkoutNew _), _, _, answer, _⟩ =>
      answer.isOk = false
  | ⟨.dolt statement, _, _, _, _⟩ => statement.Reads
  | _ => True

------------------------------------------------------------
-- What Is Kept Until The Commit
------------------------------------------------------------

variable {named : String → Prop} {branch : String}
variable {done : List ImportedCommit}
variable {before repo next : DoltRepo}
variable {commits : CommitTable} {head last : Option Commit}
variable {config : DoltConfig}

theorem Chained.mono
    {more : CommitTable}
    (hMore :
      ∀ hash commit,
        commits.find? hash = some commit →
          more.find? hash = some commit)
    (hLanded : Chained commits head done last) :
    Chained more head done last := by
  induction done generalizing head with
  | nil => exact hLanded
  | cons commit rest ih =>
      rcases hLanded with
        ⟨made, hMade, hParents, hAuthor, hMessage, hRest⟩
      exact
        ⟨made, hMore _ _ hMade, hParents, hAuthor, hMessage,
          ih hRest⟩

/- The last commit that has landed can be followed. -/
theorem Chained.append
    {commit : ImportedCommit}
    {made : Option Commit}
    (hLanded : Chained commits head done last)
    (hNext : Chained commits last [commit] made) :
    Chained commits head (done ++ [commit]) made := by
  induction done generalizing head with
  | nil =>
      have hSame : last = head := hLanded
      rw [hSame] at hNext
      exact hNext
  | cons first rest ih =>
      rcases hLanded with
        ⟨other, hOther, hParents, hAuthor, hMessage, hRest⟩
      exact
        ⟨other, hOther, hParents, hAuthor, hMessage, ih hRest⟩

/- What happens to a repository between two commits. -/
structure Prepared
    (named : String → Prop)
    (repo next : DoltRepo) : Prop where
  checkedOut : next.checkedOut = repo.checkedOut
  heads : next.heads = repo.heads
  working :
    ∀ name, ¬ named name →
      next.working.find name = repo.working.find name
  history : repo.KeepsHistory next

theorem Prepared.refl (repo : DoltRepo) :
    Prepared named repo repo := by
  constructor
  · rfl
  · rfl
  · intro _ _
    rfl
  · exact .refl repo

theorem Prepared.trans
    {last : DoltRepo}
    (hFirst : Prepared named repo next)
    (hSecond : Prepared named next last) :
    Prepared named repo last := by
  constructor
  · exact hSecond.checkedOut.trans hFirst.checkedOut
  · exact hSecond.heads.trans hFirst.heads
  · intro name hName
    have hNext := hSecond.working name hName
    exact hNext.trans (hFirst.working name hName)
  · exact hFirst.history.trans hSecond.history

theorem LandedOn.prepared
    (hLanded : LandedOn named branch done before repo)
    (hPrepared : Prepared named repo next) :
    LandedOn named branch done before next := by
  constructor
  · exact hPrepared.checkedOut.trans hLanded.checkedOut
  · intro name hName
    rw [hPrepared.heads]
    exact hLanded.heads name hName
  · rw [hPrepared.heads]
    exact hLanded.chained.mono hPrepared.history
  · intro name hName
    have hSame := hPrepared.working name hName
    exact hSame.trans (hLanded.working name hName)

/- The operations on the tables of a commit. -/
def PrepareOp
    (config : DoltConfig)
    (named : String → Prop) : VersioningOp → Prop
  | .scratch => True
  | .dolt (.sql text) =>
      ∀ repo : DoltRepo,
        Prepared named repo (repo.sql config text).2
  | .dolt (.truncate table) => named table
  | .dolt (.importRows table _) => named table
  | .dolt (.add _) => True
  | .dolt .latestHash => True
  | _ => False

theorem prepared_modifyTable
    {name : String}
    {change : Table → Except String String}
    {answer : Except String Unit}
    (hNamed : named name)
    (hModify : repo.modifyTable name change = (answer, next)) :
    Prepared named repo next := by
  rcases DoltRepo.modifyTable_cases hModify with
    ⟨_, _, hSame⟩ | ⟨table, data, _, _, _, hNext⟩
  · rw [hSame]
    exact .refl repo
  · rw [hNext]
    constructor
    · rfl
    · rfl
    · intro other hOther
      apply FiniteMap.find_set_of_ne
      intro hName
      rw [hName] at hOther
      exact hOther hNamed
    · exact DoltRepo.keeps_of_commits rfl

/- Running the schema of a table prepares an import. -/
def SqlPrepares
    (config : DoltConfig)
    (named : String → Prop)
    (table : ImportedTable) : Prop :=
  ∀ repo : DoltRepo,
    Prepared named repo (repo.sql config table.schema).2

theorem sqlPrepares_of_definesOnly
    {commits : List ImportedCommit}
    {table : ImportedTable}
    (hDefines : DefinesOnly config table)
    (hNamed : NamedIn commits table.name) :
    SqlPrepares config (WrittenBy commits) table := by
  intro repo
  constructor
  · rfl
  · exact hDefines.heads repo
  · intro name hName
    refine hDefines.working repo name ?_ ?_
    · intro hSame
      rw [hSame] at hName
      exact hName (Or.inl hNamed)
    · rw [← Bool.not_eq_true]
      exact fun hBacking => hName (Or.inr hBacking)
  · intro hash commit hFind
    exact DoltRepo.find?_addCommits hFind

theorem prepared_run
    {choice : DoltChoice}
    {statement : DoltStatement}
    {answer : statement.Answer}
    (hOp : PrepareOp config named (.dolt statement))
    (hRun :
      statement.run config choice repo = some (answer, next)) :
    Prepared named repo next := by
  rcases DoltStatement.run_cases hRun with
    ⟨_, _, hSame⟩ | ⟨_, hPerform⟩
  · rw [hSame]
    exact .refl repo
  cases statement with
  | sql text =>
      cases hPerform
      exact hOp repo
  | truncate table =>
      exact prepared_modifyTable hOp (Option.some.inj hPerform)
  | importRows table csv =>
      exact prepared_modifyTable hOp (Option.some.inj hPerform)
  | add tables =>
      have hAdd := Option.some.inj hPerform
      simp only [DoltRepo.add] at hAdd
      split at hAdd
      · cases hAdd
        constructor
        · rfl
        · rfl
        · intro _ _
          rfl
        · exact DoltRepo.keeps_of_commits rfl
      · cases hAdd
        exact .refl repo
  | latestHash =>
      have hReads : DoltStatement.latestHash.Reads := trivial
      rw [DoltStatement.repo_of_reads hReads hRun]
      exact .refl repo
  | _ => exact hOp.elim

variable {config : VersioningConfig} {step : VersioningTaken}
variable {choice : DoltChoice} {answer : Except String Unit}

theorem prepared_of_performed
    (hOp : PrepareOp config.dolt named step.op)
    (hExec :
      step.op.exec config step.choice step.before =
        some (step.answer, step.after)) :
    Prepared named step.before.repo step.after.repo := by
  by_cases hDolt : ∃ statement, step.op = .dolt statement
  · rcases hDolt with ⟨statement, hStatement⟩
    rcases step with ⟨op, choice, u, answer, v⟩
    subst hStatement
    exact prepared_run hOp (exec_dolt hExec).1
  · have hSame :=
      repo_of_not_dolt
        (fun statement hStatement =>
          hDolt ⟨statement, hStatement⟩)
        hExec
    rw [hSame]
    exact .refl _

/- Such an operation makes no commit. -/
theorem commitsMade_of_prepareOp
    {steps : List VersioningTaken}
    (hOps : ∀ step ∈ steps, PrepareOp config.dolt named step.op) :
    commitsMade steps = 0 := by
  rw [commitsMade, List.countP_eq_zero]
  intro step hMember hMade
  have hOp := hOps step hMember
  rcases step with ⟨op, choice, u, answer, v⟩
  cases op with
  | dolt statement =>
      cases statement with
      | commit author message => exact hOp
      | _ => cases hMade
  | _ => cases hMade

@[simp] theorem commitsMade_nil : commitsMade [] = 0 :=
  rfl

theorem commitsMade_append
    (first rest : List VersioningTaken) :
    commitsMade (first ++ rest) =
      commitsMade first + commitsMade rest :=
  List.countP_append

------------------------------------------------------------
-- The Checkout Of The Branch
------------------------------------------------------------

/- The branch that is checked out is the one asked for. -/
theorem landedOn_start
    (hOut : before.checkedOut = branch) :
    LandedOn named branch [] before before := by
  constructor
  · exact hOut
  · intro _ _
    rfl
  · show before.heads branch = before.startOf branch
    unfold DoltRepo.startOf
    cases hHead : before.heads branch with
    | some head => rfl
    | none => rw [hOut, hHead]
  · intro name _
    exact (find_takenTo_of_base (baseOf_checkedOut hOut)).symm

theorem landedOn_checkout
    {head : Commit}
    (hHead : before.heads branch = some head) :
    LandedOn named branch [] before
      ((before.carryTo head.tables).setCheckedOut branch) := by
  constructor
  · rfl
  · intro _ _
    rfl
  · show before.heads branch = before.startOf branch
    unfold DoltRepo.startOf
    rw [hHead]
  · intro name _
    unfold DoltRepo.takenTo
    rw [baseOf_of_head hHead]
    rfl

theorem landedOn_checkoutNew
    (hMissing : before.heads branch = none) :
    LandedOn named branch [] before
      ((before.setHead branch
        (before.heads before.checkedOut)).setCheckedOut
          branch) := by
  constructor
  · rfl
  · intro name hName
    exact Function.update_of_ne hName _ _
  · have hStart :
        before.startOf branch =
          before.heads before.checkedOut := by
      unfold DoltRepo.startOf
      rw [hMissing]
    rw [hStart]
    exact Function.update_self ..
  · intro name _
    have hBase := baseOf_of_missing hMissing
    exact (find_takenTo_of_base hBase).symm

/- Without a head there are no tables. -/
theorem find_headTables_of_missing
    (hMissing : repo.heads repo.checkedOut = none)
    (name : String) :
    repo.headTables.find name = none := by
  unfold DoltRepo.headTables DoltRepo.branchTables
  rw [hMissing]
  rfl

/- A checkout enters the branch, or changes nothing. -/
theorem landedOn_run_checkout
    {config : DoltConfig}
    (hTable : NoTable before branch)
    (hPartway : Partway named branch done before repo)
    (hRun :
      (DoltStatement.checkout branch).run config choice repo =
        some (answer, next)) :
    (answer.isOk = false ∧ next = repo) ∨
      answer = .ok () ∧
        LandedOn named branch done before next := by
  rcases DoltStatement.run_cases hRun with
    ⟨_, hAnswer, hSame⟩ | ⟨_, hPerform⟩
  · left
    rw [hAnswer]
    exact ⟨rfl, hSame⟩
  rcases DoltRepo.checkout_cases
      (Option.some.inj hPerform) with
    ⟨error, hAnswer, hSame⟩ | ⟨hAnswer, hMoved | hReset⟩
  · left
    rw [hAnswer]
    exact ⟨rfl, hSame⟩
  · right
    rcases hMoved with ⟨head, hHead, hSame | hOther⟩
    · rw [hSame.2]
      refine ⟨hAnswer, ?_⟩
      rcases hPartway with ⟨hStart, hDone⟩ | hLanded
      · subst hStart
        subst hDone
        exact landedOn_start hSame.1.symm
      · exact hLanded
    · rw [hOther.2]
      refine ⟨hAnswer, ?_⟩
      rcases hPartway with ⟨hStart, hDone⟩ | hLanded
      · subst hStart
        subst hDone
        exact landedOn_checkout hHead
      · exact absurd hLanded.checkedOut.symm hOther.1
  · exfalso
    rcases hReset with ⟨hMissing, table, hFound, _⟩
    rcases hPartway with ⟨hStart, _⟩ | hLanded
    · rw [hStart] at hMissing hFound
      rw [hTable hMissing] at hFound
      cases hFound
    · rw [← hLanded.checkedOut] at hMissing
      rw [find_headTables_of_missing hMissing] at hFound
      cases hFound

theorem landedOn_run_checkoutNew
    {config : DoltConfig}
    (hPartway : Partway named branch done before repo)
    (hRun :
      (DoltStatement.checkoutNew branch).run config choice
          repo =
        some (answer, next)) :
    (answer.isOk = false ∧ next = repo) ∨
      answer = .ok () ∧
        LandedOn named branch done before next := by
  rcases DoltStatement.run_cases hRun with
    ⟨_, hAnswer, hSame⟩ | ⟨_, hPerform⟩
  · left
    rw [hAnswer]
    exact ⟨rfl, hSame⟩
  have hCreate := Option.some.inj hPerform
  unfold DoltRepo.checkoutNew at hCreate
  cases hHead : repo.heads branch with
  | some head =>
      left
      rw [hHead] at hCreate
      cases hCreate
      exact ⟨rfl, rfl⟩
  | none =>
      right
      rw [hHead] at hCreate
      cases hCreate
      refine ⟨rfl, ?_⟩
      rcases hPartway with ⟨hStart, hDone⟩ | hLanded
      · subst hStart
        subst hDone
        exact landedOn_checkoutNew hHead
      · have hOut := hLanded.checkedOut
        have hSame :
            Function.update repo.heads branch
                (repo.heads repo.checkedOut) =
              repo.heads := by
          rw [hOut]
          exact Function.update_eq_self branch repo.heads
        apply hLanded.prepared
        constructor
        · exact hOut.symm
        · exact hSame
        · intro _ _
          rfl
        · exact DoltRepo.keeps_of_commits rfl

variable {config : VersioningConfig} {u : VersioningState}
variable {commit : ImportedCommit}

/- How the checkout of an import ends. -/
def EntryEnds
    {α : Type}
    (named : String → Prop)
    (branch : String)
    (done : List ImportedCommit)
    (before : DoltRepo)
    (steps : List VersioningTaken)
    (outcome : Except VersioningError α)
    (t : VersioningState) : Prop :=
  commitsMade steps = 0 ∧
    Partway named branch done before t.repo ∧
    (outcome.isOk = true →
      LandedOn named branch done before t.repo)

theorem ends_checkoutOrCreate
    (hTable : NoTable before branch)
    (hPartway : Partway named branch done before u.repo) :
    Ends (VersioningOp.exec config) (checkoutOrCreate branch) u
      (EntryEnds named branch done before) := by
  apply ends_bind
  apply ends_dolt
  intro choice answer next hRun
  have hFirst := landedOn_run_checkout hTable hPartway hRun
  cases answer with
  | ok _ =>
      rcases hFirst with ⟨hOk, _⟩ | ⟨_, hLanded⟩
      · cases hOk
      · apply ends_returned
        exact ⟨rfl, Or.inr hLanded, fun _ => hLanded⟩
  | error stderr =>
      have hSame : next = u.repo := by
        rcases hFirst with ⟨_, hSame⟩ | ⟨hOk, _⟩
        · exact hSame
        · cases hOk
      subst hSame
      dsimp only
      split_ifs
      · apply ends_bind
        apply ends_dolt
        intro choice' created last hCreate
        have hSecond := landedOn_run_checkoutNew hPartway hCreate
        apply ends_answered
        · intro value hOk
          rw [hOk] at hSecond
          rcases hSecond with ⟨hNot, _⟩ | ⟨_, hLanded⟩
          · cases hNot
          · exact ⟨rfl, Or.inr hLanded, fun _ => hLanded⟩
        · intro text hError
          rw [hError] at hSecond
          rcases hSecond with ⟨_, hSame⟩ | ⟨hOk, _⟩
          · rw [hSame]
            exact ⟨rfl, hPartway, fun hOk => nomatch hOk⟩
          · cases hOk
      · apply ends_threw
        exact ⟨rfl, hPartway, fun hOk => nomatch hOk⟩

theorem ends_checkoutTarget
    (hTable : branch ≠ "" → NoTable before branch)
    (hPartway :
      Partway named (before.importBranch branch) done before
        u.repo) :
    Ends (VersioningOp.exec config) (checkoutTarget branch) u
      (EntryEnds named (before.importBranch branch) done
        before) := by
  unfold checkoutTarget
  unfold DoltRepo.importBranch at hPartway ⊢
  by_cases hNone : branch = ""
  · rw [if_pos hNone] at hPartway ⊢
    rw [if_pos hNone]
    apply ends_returned
    have hLanded :
        LandedOn named before.checkedOut done before
          u.repo := by
      rcases hPartway with ⟨hStart, hDone⟩ | hLanded
      · rw [hStart, hDone]
        exact landedOn_start rfl
      · exact hLanded
    exact ⟨rfl, hPartway, fun _ => hLanded⟩
  · rw [if_neg hNone] at hPartway ⊢
    rw [if_neg hNone]
    exact ends_checkoutOrCreate (hTable hNone) hPartway

------------------------------------------------------------
-- The Import Of A Commit
------------------------------------------------------------

/- A commit is refused, or lands on the branch. -/
theorem landedOn_run_commit
    {choice : DoltChoice}
    {answer : Except String Unit}
    (hLanded : LandedOn named branch done before repo)
    (hRun :
      (DoltStatement.commit (authorFlag commit.author)
          commit.message).run config.dolt choice repo =
        some (answer, next)) :
    (answer.isOk = false ∧ next = repo) ∨
      answer = .ok () ∧
        LandedOn named branch (done ++ [commit]) before
          next := by
  rcases DoltStatement.run_cases hRun with
    ⟨_, hAnswer, hSame⟩ | ⟨_, hPerform⟩
  · left
    rw [hAnswer]
    exact ⟨rfl, hSame⟩
  rcases DoltRepo.commit_cases hPerform with
    ⟨error, hAnswer, hSame, _⟩ | ⟨hAnswer, _, _, hRecord⟩
  · left
    rw [hAnswer]
    exact ⟨rfl, hSame⟩
  right
  have hHistory := DoltRepo.keeps_record hRecord
  rcases DoltRepo.record_cases hRecord with
    ⟨_, commits, hInsert, hNext⟩
  have hOut := hLanded.checkedOut
  have hHead :
      next.heads branch =
        some
          (repo.nextCommit choice.hash
            (authorFlag commit.author) commit.message) := by
    rw [hNext, ← hOut]
    exact Function.update_self ..
  refine ⟨hAnswer, ?_⟩
  constructor
  · rw [hNext]
    exact hOut
  · intro name hName
    rw [← hLanded.heads name hName, hNext]
    rw [← hOut] at hName
    exact Function.update_of_ne hName _ _
  · apply (hLanded.chained.mono hHistory).append
    refine ⟨_, ?_, ?_, rfl, rfl, hHead⟩
    · rw [hNext]
      exact
        (KeyedTable.find?_insert? hInsert).trans (if_pos rfl)
    · rw [← hOut]
      rfl
  · intro name hName
    rw [← hLanded.working name hName, hNext]
    rfl

/- Before the commit, the tables are changed. -/
theorem ends_prepared
    {α : Type}
    {program : VersioningProgram α}
    (hOnly : program.Only (PrepareOp config.dolt named)) :
    Ends (VersioningOp.exec config) program u
      fun steps _ t =>
        commitsMade steps = 0 ∧
          Prepared named u.repo t.repo := by
  intro steps outcome t hSolo
  have hOps := hSolo.only hOnly
  constructor
  · exact commitsMade_of_prepareOp hOps
  · apply
      hSolo.relates fun v w => Prepared named v.repo w.repo
    · intro v
      exact .refl v.repo
    · intro _ _ _ hFirst hSecond
      exact hFirst.trans hSecond
    · intro step hMember
      exact
        prepared_of_performed (hOps step hMember)
          (hSolo.performed step hMember)

/- No commit was made, or the one that was sent. -/
def ImportEnds
    {α : Type}
    (named : String → Prop)
    (branch : String)
    (done : List ImportedCommit)
    (commit : ImportedCommit)
    (before : DoltRepo)
    (steps : List VersioningTaken)
    (outcome : Except VersioningError α)
    (t : VersioningState) : Prop :=
  (commitsMade steps = 0 ∧ outcome.isOk = false ∧
      Partway named branch done before t.repo) ∨
    commitsMade steps = 1 ∧
      LandedOn named branch (done ++ [commit]) before t.repo

theorem ImportEnds.prepend
    {α : Type}
    {first rest : List VersioningTaken}
    {outcome : Except VersioningError α}
    (hFirst : commitsMade first = 0)
    (hEnds :
      ImportEnds named branch done commit before rest outcome
        u) :
    ImportEnds named branch done commit before (first ++ rest)
      outcome u := by
  unfold ImportEnds at hEnds ⊢
  rw [commitsMade_append, hFirst, Nat.zero_add]
  exact hEnds

theorem importEnds_of_error
    {α : Type}
    {steps : List VersioningTaken}
    {error : VersioningError}
    (hNone : commitsMade steps = 0)
    (hPartway : Partway named branch done before u.repo) :
    ImportEnds named branch done commit before steps
      (.error error : Except VersioningError α) u :=
  Or.inl ⟨hNone, rfl, hPartway⟩

/- The commit, and the reading of its hash. -/
theorem ends_committed
    (hLanded : LandedOn named branch done before u.repo) :
    Ends (VersioningOp.exec config)
      (do
        let committed ←
          dolt
            (.commit (authorFlag commit.author) commit.message)
        expect "commit" committed
        readCommitHash)
      u (ImportEnds named branch done commit before) := by
  apply ends_bind
  apply ends_dolt
  intro choice committed next hRun
  have hCommit := landedOn_run_commit hLanded hRun
  apply ends_bind
  apply ends_answered
  · intro value hOk
    rw [hOk] at hCommit
    rcases hCommit with ⟨hNot, _⟩ | ⟨_, hMade⟩
    · cases hNot
    · have hOnly :
          readCommitHash.Only (PrepareOp config.dolt named) :=
        only_readCommitHash trivial
      refine ends_mono (ends_prepared hOnly) ?_
      rintro steps outcome t ⟨hNone, hPrepared⟩
      right
      constructor
      · rw [commitsMade_append, List.nil_append, hNone, hOk]
        rfl
      · exact hMade.prepared hPrepared
  · intro text hError
    rw [hError] at hCommit
    rcases hCommit with ⟨_, hSame⟩ | ⟨hOk, _⟩
    · rw [hSame, hError]
      exact importEnds_of_error rfl (Or.inr hLanded)
    · cases hOk

/- The tables, before they are added. -/
theorem only_importTables
    (hDefines :
      ∀ table ∈ commit.tables,
        SqlPrepares config.dolt named table ∧
          named table.name) :
    (Async.forEach importTable
        (importTables commit.tables)).Only
      (PrepareOp config.dolt named) := by
  apply Async.only_forEach
  intro table hMember
  have hTable := List.mem_of_mem_filter hMember
  rcases hDefines table hTable with ⟨hPrepares, hName⟩
  apply only_importTable
  · trivial
  · exact hPrepares
  · exact hName
  · exact hName

theorem ends_runDoltCommitImport
    (hTable : branch ≠ "" → NoTable before branch)
    (hDefines :
      ∀ table ∈ commit.tables,
        SqlPrepares config.dolt named table ∧
          named table.name)
    (hPartway :
      Partway named (before.importBranch branch) done before
        u.repo) :
    Ends (VersioningOp.exec config)
      (runDoltCommitImport commit branch) u
      (ImportEnds named (before.importBranch branch) done commit
        before) := by
  refine
    ends_bind_of (ends_checkoutTarget hTable hPartway) ?_ ?_
  · rintro first _ v ⟨hFirst, _, hEntered⟩
    have hLanded := hEntered rfl
    refine
      ends_bind_of
        (ends_prepared (only_importTables hDefines)) ?_ ?_
    · rintro second _ w ⟨hSecond, hPrepared⟩
      have hTables := hLanded.prepared hPrepared
      have hAdd :
          ∀ names,
            (dolt (.add names)).Only
              (PrepareOp config.dolt named) :=
        fun _ => Async.only_call.mpr trivial
      refine ends_bind_of (ends_prepared (hAdd _)) ?_ ?_
      · rintro third added x ⟨hThird, hAdded⟩
        have hStaged := hTables.prepared hAdded
        apply ends_bind
        apply ends_answered
        · intro _ _
          refine ends_mono (ends_committed hStaged) ?_
          intro rest outcome t hEnds
          apply ImportEnds.prepend hFirst
          apply ImportEnds.prepend hSecond
          apply ImportEnds.prepend hThird
          exact hEnds
        · intro text _
          apply ImportEnds.prepend hFirst
          apply ImportEnds.prepend hSecond
          apply ImportEnds.prepend hThird
          exact importEnds_of_error rfl (Or.inr hStaged)
      · rintro third error x ⟨hThird, hAdded⟩
        apply ImportEnds.prepend hFirst
        apply ImportEnds.prepend hSecond
        exact
          importEnds_of_error hThird
            (Or.inr (hTables.prepared hAdded))
    · rintro second error w ⟨hSecond, hPrepared⟩
      apply ImportEnds.prepend hFirst
      exact
        importEnds_of_error hSecond
          (Or.inr (hLanded.prepared hPrepared))
  · rintro first error v ⟨hFirst, hLeft, _⟩
    exact importEnds_of_error hFirst hLeft

/- As many commits as were made have landed, in order. -/
def BatchEnds
    {α : Type}
    (named : String → Prop)
    (branch : String)
    (done rest : List ImportedCommit)
    (before : DoltRepo)
    (steps : List VersioningTaken)
    (_ : Except VersioningError α)
    (t : VersioningState) : Prop :=
  Partway named branch (done ++ rest.take (commitsMade steps))
    before t.repo

theorem ends_importAll
    {commits : List ImportedCommit}
    (hTable : branch ≠ "" → NoTable before branch)
    (hDefines :
      ∀ commit ∈ commits,
        ∀ table ∈ commit.tables,
          SqlPrepares config.dolt named table ∧
            named table.name)
    (lastCommitHash : String)
    (hPartway :
      Partway named (before.importBranch branch) done before
        u.repo) :
    Ends (VersioningOp.exec config)
      (importAll branch commits lastCommitHash) u
      (BatchEnds named (before.importBranch branch) done
        (tabled commits) before) := by
  induction commits generalizing done lastCommitHash u with
  | nil =>
      apply ends_returned
      show Partway _ _ (done ++ []) _ _
      rw [List.append_nil]
      exact hPartway
  | cons commit rest ih =>
      have hRest :
          ∀ other ∈ rest,
            ∀ table ∈ other.tables,
              SqlPrepares config.dolt named table ∧
                named table.name :=
        fun other hMember =>
          hDefines other (List.mem_cons_of_mem _ hMember)
      have hFirst := hDefines commit List.mem_cons_self
      unfold importAll
      by_cases hNone : commit.tables = []
      · have hSkip : tabled (commit :: rest) = tabled rest := by
          simp [tabled, hNone]
        rw [if_pos hNone, hSkip]
        exact ih hRest lastCommitHash hPartway
      · have hTaken :
            tabled (commit :: rest) =
              commit :: tabled rest := by
          simp [tabled, hNone]
        rw [if_neg hNone, hTaken]
        refine
          ends_bind_of
            (ends_runDoltCommitImport hTable hFirst hPartway)
            ?_ ?_
        · intro steps commitHash v hEnds
          rcases hEnds with ⟨_, hFailed, _⟩ | ⟨hOne, hLanded⟩
          · cases hFailed
          refine
            ends_mono (ih hRest commitHash (Or.inr hLanded)) ?_
          intro more outcome t hMore
          unfold BatchEnds at hMore ⊢
          rw [commitsMade_append, hOne, Nat.add_comm,
            List.take_succ_cons, List.append_cons]
          exact hMore
        · intro steps error v hEnds
          unfold BatchEnds
          rcases hEnds with ⟨hZero, _, hLeft⟩ | ⟨hOne, hLanded⟩
          · rw [hZero, List.take_zero, List.append_nil]
            exact hLeft
          · rw [hOne, List.take_succ_cons, List.take_zero]
            exact Or.inr hLanded

------------------------------------------------------------
-- Imports That Are Rejected
------------------------------------------------------------

variable {s t : VersioningState}

/- The operations that come before the first import. -/
def LookupOp : VersioningOp → Prop
  | .getRepo _ => True
  | .dolt (.branchHead _) => True
  | _ => False

theorem ends_lookup
    {α : Type}
    {program : VersioningProgram α}
    (hOnly : program.Only LookupOp) :
    Ends (VersioningOp.exec config) program s
      fun steps _ t =>
        commitsMade steps = 0 ∧ t.repo = s.repo := by
  intro steps outcome t hSolo
  have hOps := hSolo.only hOnly
  constructor
  · rw [commitsMade, List.countP_eq_zero]
    intro step hMember hMade
    have hOp := hOps step hMember
    rcases step with ⟨op, choice, u, answer, v⟩
    cases op with
    | dolt statement =>
        cases statement with
        | commit author message => exact hOp
        | _ => cases hMade
    | _ => cases hMade
  · have hTrans :
        ∀ u v w : VersioningState,
          v.repo = u.repo → w.repo = v.repo →
            w.repo = u.repo :=
      fun _ _ _ hFirst hSecond => hSecond.trans hFirst
    apply
      hSolo.relates (fun u v => v.repo = u.repo)
        (fun _ => rfl) hTrans
    intro step hMember
    have hOp := hOps step hMember
    have hExec := hSolo.performed step hMember
    rcases step with ⟨op, choice, u, answer, v⟩
    cases op with
    | dolt statement =>
        have hReads : statement.Reads := by
          cases statement with
          | branchHead name => trivial
          | _ => exact hOp.elim
        have hRun := (exec_dolt hExec).1
        exact DoltStatement.repo_of_reads hReads hRun
    | _ =>
        apply repo_of_not_dolt _ hExec
        intro statement hDolt
        cases hDolt

/- What is looked up first makes no commit. -/
theorem batchEnds_after_lookup
    {α β : Type}
    {first : VersioningProgram α}
    {next : α → VersioningProgram β}
    {commits : List ImportedCommit}
    (hFirst : first.Only LookupOp)
    (hBefore : s.repo = before)
    (hNext :
      ∀ value u, u.repo = before →
        Ends (VersioningOp.exec config) (next value) u
          (BatchEnds named branch [] commits before)) :
    Ends (VersioningOp.exec config) (first.bind next) s
      (BatchEnds named branch [] commits before) := by
  refine ends_bind_of (ends_lookup hFirst) ?_ ?_
  · rintro steps value u ⟨hNone, hSame⟩
    refine ends_mono (hNext value u (hSame.trans hBefore)) ?_
    intro more outcome v hEnds
    unfold BatchEnds at hEnds ⊢
    rw [commitsMade_append, hNone, Nat.zero_add]
    exact hEnds
  · rintro steps error u ⟨hNone, hSame⟩
    unfold BatchEnds
    rw [hNone, List.take_zero]
    exact Or.inl ⟨hSame.trans hBefore, rfl⟩

theorem ends_importCommits
    (repoId : String)
    (commits : List ImportedCommit)
    (base : Option String)
    (branch : String)
    (hTable : branch ≠ "" → NoTable s.repo branch)
    (hDefines : DefineTables config.dolt commits) :
    Ends (VersioningOp.exec config)
      (importCommits repoId commits base branch) s
      (BatchEnds (WrittenBy commits) (s.repo.importBranch branch)
        [] (tabled commits) s.repo) := by
  have hBatch :
      ∀ commit ∈ commits,
        ∀ table ∈ commit.tables,
          SqlPrepares config.dolt (WrittenBy commits) table ∧
            WrittenBy commits table.name := by
    intro commit hCommit table hMember
    have hNamed : NamedIn commits table.name :=
      ⟨commit, hCommit, table, hMember, rfl⟩
    exact
      ⟨sqlPrepares_of_definesOnly
          (hDefines commit hCommit table hMember) hNamed,
        Or.inl hNamed⟩
  refine batchEnds_after_lookup (only_getRepo trivial) rfl ?_
  intro found u hFirst
  refine batchEnds_after_lookup Async.only_ensure hFirst ?_
  intro _ v hSecond
  refine batchEnds_after_lookup Async.only_ensure hSecond ?_
  intro _ w hThird
  refine
    batchEnds_after_lookup
      (only_checkFastForward base trivial) hThird ?_
  intro _ x hFourth
  have hStart :
      Partway (WrittenBy commits) (s.repo.importBranch branch)
        [] s.repo x.repo :=
    Or.inl ⟨hFourth, rfl⟩
  refine
    ends_bind_of (ends_importAll hTable hBatch "" hStart) ?_ ?_
  · intro steps lastCommitHash y hEnds
    apply ends_bind
    apply ends_ensure
    case hHolds =>
      intro _
      apply ends_returned
      rw [List.append_nil, List.append_nil]
      exact hEnds
    case hFails =>
      intro _
      rw [List.append_nil]
      exact hEnds
  · intro steps error y hEnds
    exact hEnds

/- Questions and refused checkouts change nothing. -/
theorem repo_of_asks
    (hOp : ImportOp named branch step.op)
    (hAsks : Asks step)
    (hExec :
      step.op.exec config step.choice step.before =
        some (step.answer, step.after)) :
    step.after.repo = step.before.repo := by
  by_cases hDolt : ∃ statement, step.op = .dolt statement
  · rcases hDolt with ⟨statement, hStatement⟩
    rcases step with ⟨op, choice, u, answer, v⟩
    subst hStatement
    have hRun := (exec_dolt hExec).1
    rcases DoltStatement.run_cases hRun with
      ⟨_, _, hSame⟩ | ⟨_, hPerform⟩
    · exact hSame
    cases statement with
    | checkout name =>
        rcases DoltRepo.checkout_cases
            (Option.some.inj hPerform) with
          ⟨_, _, hSame⟩ | ⟨hOk, _⟩
        · exact hSame
        · subst hOk
          cases hAsks
    | checkoutNew name =>
        have hCreate := Option.some.inj hPerform
        unfold DoltRepo.checkoutNew at hCreate
        split at hCreate
        · exact (congrArg Prod.snd hCreate).symm
        · have hOk : answer = .ok () :=
            (congrArg Prod.fst hCreate).symm
          subst hOk
          cases hAsks
    | _ =>
        apply DoltStatement.repo_of_reads _ hRun
        exact hAsks
  · apply repo_of_not_dolt _ hExec
    intro statement hStatement
    exact hDolt ⟨statement, hStatement⟩

/-
  A rejected import has done nothing if it only asked, or
  was refused its checkout.  Otherwise it is left on its
  branch with as many commits as were made.
-/
theorem partway_of_rejected
    (config : VersioningConfig)
    (repoId : String)
    (commits : List ImportedCommit)
    (base : Option String)
    (branch : String)
    (steps : List VersioningTaken)
    (error : VersioningError)
    (s t : VersioningState)
    (hTable : branch ≠ "" → NoTable s.repo branch)
    (hDefines : DefineTables config.dolt commits)
    (hRun :
      Solo (VersioningOp.exec config)
        (importCommits repoId commits base branch) s steps
        (.error error) t) :
    ((∀ step ∈ steps, Asks step) → t.repo = s.repo) ∧
      Partway (WrittenBy commits) (s.repo.importBranch branch)
        ((tabled commits).take (commitsMade steps)) s.repo
        t.repo := by
  constructor
  · intro hAsks
    have hOps :=
      hRun.only (only_importCommits repoId commits base branch)
    have hTrans :
        ∀ u v w : VersioningState,
          v.repo = u.repo → w.repo = v.repo →
            w.repo = u.repo :=
      fun _ _ _ hFirst hSecond => hSecond.trans hFirst
    apply
      hRun.relates (fun u v => v.repo = u.repo)
        (fun _ => rfl) hTrans
    intro step hMember
    exact
      repo_of_asks (hOps step hMember) (hAsks step hMember)
        (hRun.performed step hMember)
  · exact
      ends_importCommits repoId commits base branch hTable
        hDefines steps _ t hRun

/- A commit lands, and then a checkout fails. -/
def secondFails : List VersioningChoice :=
  List.replicate 10 ⟨⟨false, "c1", "c1"⟩, 0⟩ ++
    [⟨⟨true, "locked", ""⟩, 0⟩]

def twoImports : List ImportedCommit :=
  [rowImport, rowImport]

theorem definesOnly_oneTable (schema data : String) :
    DefinesOnly oneTable ⟨"t", schema, data⟩ := by
  constructor
  · intro repo
    unfold DoltRepo.sql oneTable
    dsimp only
    cases repo.working.find "t" with
    | none => rfl
    | some table => rfl
  · intro repo name hName _
    unfold DoltRepo.sql oneTable
    dsimp only
    cases repo.working.find "t" with
    | none => exact FiniteMap.find_set_of_ne hName
    | some table => rfl

theorem defineTables_twoImports :
    DefineTables oneTableConfig.dolt twoImports := by
  have hSame : twoImports = List.replicate 2 rowImport := rfl
  intro commit hCommit table hTable
  rw [hSame] at hCommit
  rw [List.eq_of_mem_replicate hCommit] at hTable
  rw [List.mem_singleton.mp hTable]
  exact definesOnly_oneTable ..

/- The batch is rejected, and its first commit was made. -/
theorem replay_twoImports :
    Option.any
        (fun q =>
          !q.2.1.isOk &&
            decide
              ((q.2.2.repo.heads "main").map Commit.hash =
                some "c1"))
        (solo? (VersioningOp.exec oneTableConfig)
          (importCommits "r" twoImports none "main")
          (cleanState FiniteMap.empty) secondFails) =
      true := by
  decide +kernel

theorem partway_of_secondFails :
    ∃ steps error t,
      Solo (VersioningOp.exec oneTableConfig)
          (importCommits "r" twoImports none "main")
          (cleanState FiniteMap.empty) steps (.error error)
          t ∧
        Partway (WrittenBy twoImports) "main"
          ((tabled twoImports).take (commitsMade steps))
          (cleanState FiniteMap.empty).repo t.repo := by
  have hReplay := replay_twoImports
  rw [Option.any_eq_true] at hReplay
  rcases hReplay with ⟨⟨steps, outcome, t⟩, hRun, hEnd⟩
  rw [Bool.and_eq_true] at hEnd
  cases outcome with
  | ok value => cases hEnd.1
  | error error =>
      have hSolo := solo_of_solo? hRun
      refine ⟨steps, error, t, hSolo, ?_⟩
      exact
        (partway_of_rejected oneTableConfig "r" twoImports none
          "main" steps error (cleanState FiniteMap.empty) t
          (fun _ _ => rfl) defineTables_twoImports hSolo).2

/- The head of the branch is not as it was. -/
theorem first_commit_stays :
    ∃ steps error t,
      Solo (VersioningOp.exec oneTableConfig)
          (importCommits "r" twoImports none "main")
          (cleanState FiniteMap.empty) steps (.error error)
          t ∧
        t.repo.heads "main" ≠
          (cleanState FiniteMap.empty).repo.heads "main" := by
  have hReplay := replay_twoImports
  rw [Option.any_eq_true] at hReplay
  rcases hReplay with ⟨⟨steps, outcome, t⟩, hRun, hEnd⟩
  rw [Bool.and_eq_true, decide_eq_true_eq] at hEnd
  cases outcome with
  | ok value => cases hEnd.1
  | error error =>
      refine ⟨steps, error, t, solo_of_solo? hRun, ?_⟩
      intro hSame
      have hHash := hEnd.2
      dsimp only at hHash
      rw [hSame] at hHash
      exact absurd hHash (by decide)

end Versioning
