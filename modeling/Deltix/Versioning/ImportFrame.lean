import Deltix.Versioning.CommitImport
import Deltix.Versioning.VersioningRuns

/-
  What an import leaves alone: the tables that the request
  does not name, the other branches, and the history.

  The schema of a table is a text of the client that the
  database runs, so this rests on what the texts do.

  Key definitions include:
    * `SameBeyond`
    * `TouchesOnly`
    * `Spares`

  Key theorems include:
    * `sameBeyond_run`
    * `spares_of_sameBeyond`
    * `touchesOnly_iff`
    * `schema_drops_table`
-/

------------------------------------------------------------
-- The Same Beyond What Is Named
------------------------------------------------------------

namespace Versioning

open Concurrency Relational

/- The tables of a branch, or those it would be created with. -/
def DoltRepo.baseOf
    (repo : DoltRepo)
    (branch : String) : Tables :=
  match repo.heads branch with
  | some head => head.tables
  | none => repo.headTables

/- Uncommitted tables, as a checkout of a branch takes them. -/
def DoltRepo.takenTo
    (repo : DoltRepo)
    (branch : String)
    (tables : Tables) : Tables :=
  FiniteMap.carry tables repo.headTables (repo.baseOf branch)

/-
  Two repositories are the same but for the tables that are
  named and the branch.  It does not matter which of them has
  the branch checked out.
-/
structure SameBeyond
    (named : String → Prop)
    (branch : String)
    (a b : DoltRepo) : Prop where
  heads : ∀ name, name ≠ branch → b.heads name = a.heads name
  committed :
    ∀ name, ¬ named name →
      (b.baseOf branch).find name = (a.baseOf branch).find name
  working :
    ∀ name, ¬ named name →
      (b.takenTo branch b.working).find name =
        (a.takenTo branch a.working).find name
  staged :
    ∀ name, ¬ named name →
      (b.takenTo branch b.staged).find name =
        (a.takenTo branch a.staged).find name
  merging : b.merging = a.merging

/-
  Besides, the branch that is checked out may have become the
  one that was asked for, and no commit is lost.
-/
structure TouchesOnly
    (named : String → Prop)
    (branch : String)
    (before after : DoltRepo) : Prop where
  same : SameBeyond named branch before after
  checkedOut :
    after.checkedOut = before.checkedOut ∨
      after.checkedOut = branch
  history : before.KeepsHistory after

variable {named : String → Prop} {branch : String}
variable {a b c : DoltRepo}

theorem SameBeyond.refl (a : DoltRepo) :
    SameBeyond named branch a a where
  heads _ _ := rfl
  committed _ _ := rfl
  working _ _ := rfl
  staged _ _ := rfl
  merging := rfl

theorem SameBeyond.trans
    (hFirst : SameBeyond named branch a b)
    (hSecond : SameBeyond named branch b c) :
    SameBeyond named branch a c where
  heads name hName :=
    (hSecond.heads name hName).trans (hFirst.heads name hName)
  committed name hName :=
    (hSecond.committed name hName).trans
      (hFirst.committed name hName)
  working name hName :=
    (hSecond.working name hName).trans
      (hFirst.working name hName)
  staged name hName :=
    (hSecond.staged name hName).trans
      (hFirst.staged name hName)
  merging := hSecond.merging.trans hFirst.merging

theorem SameBeyond.symm
    (hSame : SameBeyond named branch a b) :
    SameBeyond named branch b a where
  heads name hName := (hSame.heads name hName).symm
  committed name hName := (hSame.committed name hName).symm
  working name hName := (hSame.working name hName).symm
  staged name hName := (hSame.staged name hName).symm
  merging := hSame.merging.symm

/- On the branch itself nothing has to be taken along. -/
theorem find_takenTo_of_base
    {tables : Tables}
    {name : String}
    (hBase : a.baseOf branch = a.headTables) :
    (a.takenTo branch tables).find name =
      tables.find name := by
  unfold DoltRepo.takenTo
  rw [hBase]
  exact FiniteMap.carry_base name

theorem baseOf_checkedOut
    (hOut : a.checkedOut = branch) :
    a.baseOf branch = a.headTables := by
  subst hOut
  unfold DoltRepo.baseOf DoltRepo.headTables
    DoltRepo.branchTables
  cases a.heads a.checkedOut with
  | some head => rfl
  | none => rfl

theorem baseOf_of_missing
    (hMissing : a.heads branch = none) :
    a.baseOf branch = a.headTables := by
  unfold DoltRepo.baseOf
  rw [hMissing]

theorem baseOf_of_head
    {head : Commit}
    (hHead : a.heads branch = some head) :
    a.baseOf branch = head.tables := by
  unfold DoltRepo.baseOf
  rw [hHead]

------------------------------------------------------------
-- The Invocations Of An Import
------------------------------------------------------------

/- The invocations that an import makes. -/
def ImportStatement
    (named : String → Prop)
    (branch : String) : DoltStatement → Prop
  | .branchHead _ => True
  | .latestHash => True
  | .checkout name => name = branch
  | .checkoutNew name => name = branch
  | .sql _ => True
  | .truncate table => named table
  | .importRows table _ => named table
  | .add tables => ∀ table ∈ tables, named table
  | .commit _ _ => True
  | _ => False

def ImportOp
    (named : String → Prop)
    (branch : String) : VersioningOp → Prop
  | .getRepo _ => True
  | .scratch => True
  | .dolt statement => ImportStatement named branch statement
  | _ => False

/-
  What the invocations have to spare: an SQL text changes
  nothing that is not named; a checkout that is taken for one
  of a table finds that table unchanged, or it is named; and
  a commit is made on the branch, with nothing else staged.
-/
def Spares
    (config : DoltConfig)
    (named : String → Prop)
    (branch : String) : DoltStatement → DoltRepo → Prop
  | .sql text, repo =>
      SameBeyond named branch repo (repo.sql config text).2
  | .checkout name, repo =>
      repo.heads name = none →
        ∀ table,
          repo.headTables.find name = some table →
            named name ∨ repo.working.find name = some table
  | .commit _ _, repo =>
      repo.merging.isSome ∨
        (∀ name,
          repo.staged.find name = repo.headTables.find name) ∨
        repo.checkedOut = branch ∧
          ∀ name, ¬ named name →
            repo.staged.find name = repo.headTables.find name
  | _, _ => True

variable {config : DoltConfig} {choice : DoltChoice}
variable {named : String → Prop} {branch : String}
variable {repo next : DoltRepo}
variable {name : String} {answer : Except String Unit}
variable {statement : DoltStatement}

/- A change of named tables in the working set. -/
theorem sameBeyond_setTable
    {table : Table}
    (hKept : named name ∨ repo.working.find name = some table) :
    SameBeyond named branch repo (repo.setTable name table) where
  heads _ _ := rfl
  committed _ _ := rfl
  working other hOther := by
    have hSame :
        (repo.working.set name table).find other =
          repo.working.find other := by
      by_cases hName : other = name
      · subst hName
        rcases hKept with hNamed | hFound
        · exact absurd hNamed hOther
        · rw [FiniteMap.find_set_self, hFound]
      · exact FiniteMap.find_set_of_ne hName
    exact FiniteMap.carry_congr hSame rfl rfl
  staged _ _ := rfl
  merging := rfl

theorem sameBeyond_modifyTable
    {change : Table → Except String String}
    (hNamed : named name)
    (hModify : repo.modifyTable name change = (answer, next)) :
    SameBeyond named branch repo next := by
  rcases DoltRepo.modifyTable_cases hModify with
    ⟨_, _, hSame⟩ | ⟨table, data, _, _, _, hNext⟩
  · rw [hSame]
    exact .refl repo
  · rw [hNext]
    exact sameBeyond_setTable (Or.inl hNamed)

/- Named tables are staged, the others stay as they are. -/
theorem sameBeyond_add
    {tables : List String}
    (hNamed : ∀ table ∈ tables, named table)
    (hAdd : repo.add tables = (answer, next)) :
    SameBeyond named branch repo next := by
  unfold DoltRepo.add at hAdd
  dsimp only at hAdd
  split at hAdd
  · cases hAdd
    constructor
    · intro _ _
      rfl
    · intro _ _
      rfl
    · intro _ _
      rfl
    · intro name hName
      have hSame :
          (repo.stagedWith tables).find name =
            repo.staged.find name := by
        unfold DoltRepo.stagedWith
        rw [FiniteMap.find_choose, if_neg]
        intro hContains
        rw [List.contains_iff_mem] at hContains
        exact hName (hNamed name hContains)
      exact FiniteMap.carry_congr hSame rfl rfl
    · rfl
  · cases hAdd
    exact .refl repo

/- The branch's tables, with the local changes taken along. -/
theorem sameBeyond_carryTo
    {head : Commit}
    (hHead : repo.heads branch = some head) :
    SameBeyond named branch repo
      ((repo.carryTo head.tables).setCheckedOut branch) := by
  have hBase : repo.baseOf branch = head.tables :=
    baseOf_of_head hHead
  have hThere :
      ((repo.carryTo head.tables).setCheckedOut branch).baseOf
          branch =
        head.tables :=
    baseOf_of_head hHead
  have hOut :
      ((repo.carryTo head.tables).setCheckedOut branch).baseOf
          branch =
        ((repo.carryTo head.tables).setCheckedOut
          branch).headTables :=
    baseOf_checkedOut rfl
  constructor
  · intro _ _
    rfl
  · intro name _
    rw [hThere, hBase]
  · intro name _
    rw [find_takenTo_of_base hOut]
    unfold DoltRepo.takenTo
    rw [hBase]
    rfl
  · intro name _
    rw [find_takenTo_of_base hOut]
    unfold DoltRepo.takenTo
    rw [hBase]
    rfl
  · rfl

theorem sameBeyond_checkout
    (hSpares : Spares config named branch (.checkout branch) repo)
    (hCheckout : repo.checkout branch = (answer, next)) :
    SameBeyond named branch repo next := by
  rcases DoltRepo.checkout_cases hCheckout with
    ⟨_, _, hSame⟩ | ⟨_, hMoved | hReset⟩
  · rw [hSame]
    exact .refl repo
  · rcases hMoved with
      ⟨head, hHead, ⟨_, hNext⟩ | ⟨_, hNext⟩⟩
    · rw [hNext]
      exact .refl repo
    · rw [hNext]
      exact sameBeyond_carryTo hHead
  · rcases hReset with ⟨hMissing, table, hTable, hNext⟩
    rw [hNext]
    exact sameBeyond_setTable (hSpares hMissing table hTable)

/- A branch that is created has the tables at hand. -/
theorem sameBeyond_checkoutNew
    (hCheckout : repo.checkoutNew branch = (answer, next)) :
    SameBeyond named branch repo next := by
  unfold DoltRepo.checkoutNew at hCheckout
  split at hCheckout
  · cases hCheckout
    exact .refl repo
  · rename_i hMissing
    cases hCheckout
    have hBase := baseOf_of_missing hMissing
    have hTables :
        ((repo.setHead branch
            (repo.heads repo.checkedOut)).setCheckedOut
              branch).headTables =
          repo.headTables := by
      unfold DoltRepo.headTables DoltRepo.branchTables
      dsimp only [DoltRepo.setCheckedOut, DoltRepo.setHead]
      rw [Function.update_self]
    have hThere :
        ((repo.setHead branch
            (repo.heads repo.checkedOut)).setCheckedOut
              branch).baseOf branch =
          ((repo.setHead branch
            (repo.heads repo.checkedOut)).setCheckedOut
              branch).headTables :=
      baseOf_checkedOut rfl
    constructor
    · intro name hName
      exact Function.update_of_ne hName ..
    · intro name _
      rw [hThere, hTables, hBase]
    · intro name _
      rw [find_takenTo_of_base hThere,
        find_takenTo_of_base hBase]
      rfl
    · intro name _
      rw [find_takenTo_of_base hThere,
        find_takenTo_of_base hBase]
      rfl
    · rfl

/- A commit on the branch of nothing but named tables. -/
theorem sameBeyond_record
    {commit : Commit}
    (hOut : repo.checkedOut = branch)
    (hStaged :
      ∀ name, ¬ named name →
        commit.tables.find name = repo.headTables.find name)
    (hRecord : repo.record commit = some next) :
    SameBeyond named branch repo next := by
  rcases DoltRepo.record_cases hRecord with
    ⟨_, commits, _, hNext⟩
  subst hNext
  have hBase : repo.baseOf branch = repo.headTables :=
    baseOf_checkedOut hOut
  have hHead :
      ((repo.setCommits commits).setHead repo.checkedOut
          (some commit)).heads branch =
        some commit := by
    rw [← hOut]
    exact Function.update_self ..
  have hThere := baseOf_of_head hHead
  have hTables :
      ((repo.setCommits commits).setHead repo.checkedOut
          (some commit)).baseOf branch =
        ((repo.setCommits commits).setHead repo.checkedOut
          (some commit)).headTables :=
    baseOf_checkedOut hOut
  constructor
  · intro name hName
    rw [← hOut] at hName
    exact Function.update_of_ne hName ..
  · intro name hName
    rw [hThere, hBase]
    exact hStaged name hName
  · intro name _
    rw [find_takenTo_of_base hTables,
      find_takenTo_of_base hBase]
    rfl
  · intro name _
    rw [find_takenTo_of_base hTables,
      find_takenTo_of_base hBase]
    rfl
  · rfl

/- An invocation that spares the rest leaves it the same. -/
theorem sameBeyond_run
    {answer : statement.Answer}
    (hImport : ImportStatement named branch statement)
    (hSpares :
      choice.fails = false →
        Spares config named branch statement repo)
    (hRun :
      statement.run config choice repo = some (answer, next)) :
    SameBeyond named branch repo next := by
  rcases DoltStatement.run_cases hRun with
    hFailed | ⟨hFails, hPerform⟩
  · rw [hFailed.2.2]
    exact .refl repo
  have hSpared := hSpares hFails
  cases statement with
  | branchHead name =>
      have hReads : (DoltStatement.branchHead name).Reads :=
        trivial
      rw [DoltStatement.repo_of_reads hReads hRun]
      exact .refl repo
  | latestHash =>
      have hReads : DoltStatement.latestHash.Reads := trivial
      rw [DoltStatement.repo_of_reads hReads hRun]
      exact .refl repo
  | checkout name =>
      have hName : name = branch := hImport
      subst hName
      exact
        sameBeyond_checkout hSpared (Option.some.inj hPerform)
  | checkoutNew name =>
      have hName : name = branch := hImport
      subst hName
      exact sameBeyond_checkoutNew (Option.some.inj hPerform)
  | sql text =>
      have hNext : (repo.sql config text).2 = next :=
        congrArg Prod.snd (Option.some.inj hPerform)
      rw [← hNext]
      exact hSpared
  | truncate table =>
      exact
        sameBeyond_modifyTable hImport (Option.some.inj hPerform)
  | importRows table csv =>
      exact
        sameBeyond_modifyTable hImport (Option.some.inj hPerform)
  | add tables =>
      exact sameBeyond_add hImport (Option.some.inj hPerform)
  | commit author message =>
      rcases DoltRepo.commit_cases hPerform with
        ⟨_, _, hSame, _⟩ | ⟨_, hMerging, hNew, hRecord⟩
      · rw [hSame]
        exact .refl repo
      · rcases hSpared with hBusy | hNothing | ⟨hOut, hStaged⟩
        · rw [hMerging] at hBusy
          cases hBusy
        · exact absurd hNothing hNew
        · exact sameBeyond_record hOut hStaged hRecord
  | _ => exact hImport.elim

/- A commit that leaves the rest the same is one on the
   branch, of nothing but named tables. -/
theorem spares_record
    {hash author message : String}
    (hNew :
      ¬ ∀ name,
        repo.staged.find name = repo.headTables.find name)
    (hRecord :
      repo.record (repo.nextCommit hash author message) =
        some next)
    (hSame : SameBeyond named branch repo next) :
    repo.checkedOut = branch ∧
      ∀ name, ¬ named name →
        repo.staged.find name = repo.headTables.find name := by
  rcases DoltRepo.record_cases hRecord with
    ⟨_, commits, _, hNext⟩
  have hHead :
      next.heads repo.checkedOut =
        some (repo.nextCommit hash author message) := by
    rw [hNext]
    exact Function.update_self ..
  have hOut : repo.checkedOut = branch := by
    by_contra hOther
    have hBefore := hSame.heads repo.checkedOut hOther
    rw [hHead] at hBefore
    apply hNew
    intro name
    unfold DoltRepo.headTables DoltRepo.branchTables
    rw [← hBefore]
    rfl
  constructor
  · exact hOut
  · intro name hName
    have hCommitted := hSame.committed name hName
    rw [hOut] at hHead
    rw [baseOf_of_head hHead, baseOf_checkedOut hOut]
      at hCommitted
    exact hCommitted

/- An invocation that leaves the rest the same spares it. -/
theorem spares_of_sameBeyond
    {answer : statement.Answer}
    (hImport : ImportStatement named branch statement)
    (hFails : choice.fails = false)
    (hRun :
      statement.run config choice repo = some (answer, next))
    (hSame : SameBeyond named branch repo next) :
    Spares config named branch statement repo := by
  have hPerform := DoltStatement.perform_of_run hFails hRun
  cases statement with
  | sql text =>
      have hNext : (repo.sql config text).2 = next :=
        congrArg Prod.snd (Option.some.inj hPerform)
      rw [← hNext] at hSame
      exact hSame
  | checkout name =>
      have hName : name = branch := hImport
      subst hName
      intro hMissing table hTable
      by_cases hNamed : named name
      · exact Or.inl hNamed
      right
      have hNext : repo.setTable name table = next := by
        have hReset : repo.checkout name = (answer, next) :=
          Option.some.inj hPerform
        unfold DoltRepo.checkout at hReset
        rw [hMissing] at hReset
        dsimp only at hReset
        rw [hTable] at hReset
        exact congrArg Prod.snd hReset
      have hWorking := hSame.working name hNamed
      have hBase : repo.baseOf name = repo.headTables :=
        baseOf_of_missing hMissing
      have hThere :
          (repo.setTable name table).baseOf name =
            (repo.setTable name table).headTables :=
        hBase
      rw [← hNext, find_takenTo_of_base hThere,
        find_takenTo_of_base hBase] at hWorking
      rw [← hWorking]
      exact FiniteMap.find_set_self ..
  | commit author message =>
      rcases DoltRepo.commit_cases hPerform with
        ⟨_, _, _, hBusy | hNothing⟩ | ⟨_, _, hNew, hRecord⟩
      · exact Or.inl hBusy
      · exact Or.inr (Or.inl hNothing)
      · exact Or.inr (Or.inr (spares_record hNew hRecord hSame))
  | branchHead _ => trivial
  | latestHash => trivial
  | checkoutNew _ => trivial
  | truncate _ => trivial
  | importRows _ _ => trivial
  | add _ => trivial
  | _ => exact hImport.elim

------------------------------------------------------------
-- The Operations Of An Import
------------------------------------------------------------

/- A name of a table of a request. -/
def NamedIn
    (commits : List ImportedCommit)
    (name : String) : Prop :=
  ∃ commit ∈ commits,
    ∃ table ∈ commit.tables, table.name = name

variable {named : String → Prop} {branch : String}
variable {cond : VersioningOp → Prop}
variable {commits : List ImportedCommit}

theorem only_answered
    {α : Type}
    (toError : String → VersioningError)
    (answer : Except String α) :
    (answered toError answer).Only cond := by
  cases answer with
  | ok value => exact Async.only_returned value
  | error text => exact Async.only_threw _

/- An invocation whose error is thrown. -/
theorem only_dolt_expect
    {statement : DoltStatement}
    {α : Type}
    {next : statement.Answer → VersioningProgram α}
    (hOp : cond (.dolt statement))
    (hNext : ∀ answer, (next answer).Only cond) :
    ((dolt statement).bind next).Only cond := by
  apply Async.only_bind
  · exact Async.only_call.mpr hOp
  · exact hNext

theorem only_scratch
    (hScratch : cond .scratch) :
    scratch.Only cond := by
  apply Async.only_bind
  · exact Async.only_call.mpr hScratch
  · exact only_answered _

theorem only_checkoutTarget_of
    (hCheckout : cond (.dolt (.checkout branch)))
    (hCreate : cond (.dolt (.checkoutNew branch))) :
    (checkoutTarget branch).Only cond := by
  unfold checkoutTarget
  split_ifs
  · exact Async.only_returned ()
  · apply only_dolt_expect hCheckout
    intro checkout
    cases checkout with
    | ok _ => exact Async.only_returned ()
    | error stderr =>
        dsimp only
        split_ifs
        · apply only_dolt_expect hCreate
          intro create
          exact only_answered _ create
        · exact Async.only_threw _

theorem only_importTable
    {table : ImportedTable}
    (hScratch : cond .scratch)
    (hSql : cond (.dolt (.sql table.schema)))
    (hTruncate : cond (.dolt (.truncate table.name)))
    (hRows : cond (.dolt (.importRows table.name table.data))) :
    (importTable table).Only cond := by
  apply Async.only_bind Async.only_ensure
  intro _
  apply Async.only_bind
  · apply only_dolt_expect hSql
    intro create
    cases create with
    | ok _ => exact Async.only_returned ()
    | error stderr =>
        dsimp only
        split_ifs
        · apply only_dolt_expect hTruncate
          intro truncate
          exact only_answered _ truncate
        · exact Async.only_threw _
  · intro _
    split_ifs
    · exact Async.only_returned ()
    · apply Async.only_bind (only_scratch hScratch)
      intro _
      have hCleanup :
          (tryCatch scratch fun _ => return ()).Only cond := by
        apply Async.only_catchError (only_scratch hScratch)
        intro _
        exact Async.only_returned ()
      apply Async.only_bind
      · apply Async.only_catchError
        · apply Async.only_bind (only_scratch hScratch)
          intro _
          apply only_dolt_expect hRows
          intro imported
          exact only_answered _ imported
        · intro _
          apply Async.only_bind hCleanup
          intro _
          exact Async.only_threw _
      · intro _
        apply Async.only_bind hCleanup
        intro _
        exact Async.only_returned _

theorem only_readCommitHash
    (hHash : cond (.dolt .latestHash)) :
    readCommitHash.Only cond := by
  apply only_dolt_expect hHash
  intro hash
  apply Async.only_bind (only_answered _ hash)
  intro commitHash
  apply Async.only_bind Async.only_ensure
  intro _
  exact Async.only_returned commitHash

/- A condition on the operations of an import. -/
structure CoversImport
    (cond : VersioningOp → Prop)
    (commits : List ImportedCommit)
    (branch : String) : Prop where
  lookup : ∀ repoId, cond (.getRepo repoId)
  scratch : cond .scratch
  head : cond (.dolt (.branchHead branch))
  checkout : cond (.dolt (.checkout branch))
  checkoutNew : cond (.dolt (.checkoutNew branch))
  sql : ∀ text, cond (.dolt (.sql text))
  truncate :
    ∀ commit ∈ commits, ∀ table ∈ importTables commit.tables,
      cond (.dolt (.truncate table.name))
  importRows :
    ∀ commit ∈ commits, ∀ table ∈ importTables commit.tables,
      cond (.dolt (.importRows table.name table.data))
  add :
    ∀ commit ∈ commits,
      cond
        (.dolt
          (.add
            ((importTables commit.tables).map
              ImportedTable.name)))
  commit :
    ∀ author message, cond (.dolt (.commit author message))
  latestHash : cond (.dolt .latestHash)

theorem only_runDoltCommitImport
    {commit : ImportedCommit}
    (hCovers : CoversImport cond commits branch)
    (hCommit : commit ∈ commits) :
    (runDoltCommitImport commit branch).Only cond := by
  apply Async.only_bind
  · exact
      only_checkoutTarget_of hCovers.checkout
        hCovers.checkoutNew
  intro _
  apply Async.only_bind
  · apply Async.only_forEach
    intro table hTable
    apply only_importTable
    · exact hCovers.scratch
    · exact hCovers.sql table.schema
    · exact hCovers.truncate commit hCommit table hTable
    · exact hCovers.importRows commit hCommit table hTable
  intro _
  apply only_dolt_expect (hCovers.add commit hCommit)
  intro added
  apply Async.only_bind (only_answered _ added)
  intro _
  apply only_dolt_expect (hCovers.commit _ _)
  intro committed
  apply Async.only_bind (only_answered _ committed)
  intro _
  exact only_readCommitHash hCovers.latestHash

theorem only_importAll
    {rest : List ImportedCommit}
    (hCovers : CoversImport cond commits branch)
    (hRest : ∀ commit ∈ rest, commit ∈ commits)
    (lastCommitHash : String) :
    (importAll branch rest lastCommitHash).Only cond := by
  induction rest generalizing lastCommitHash with
  | nil => exact Async.only_returned lastCommitHash
  | cons commit rest ih =>
      rw [List.forall_mem_cons] at hRest
      unfold importAll
      split_ifs
      · exact ih hRest.2 lastCommitHash
      · apply Async.only_bind
        · exact only_runDoltCommitImport hCovers hRest.1
        · intro commitHash
          exact ih hRest.2 commitHash

theorem only_checkFastForward
    (base : Option String)
    (hHead : cond (.dolt (.branchHead branch))) :
    (checkFastForward base branch).Only cond := by
  unfold checkFastForward
  split
  · exact Async.only_returned ()
  · apply only_dolt_expect hHead
    intro currentHead
    cases currentHead with
    | none => exact Async.only_returned ()
    | some hash => exact Async.only_ensure

theorem only_getRepo
    {repoId : String}
    (hRepo : cond (.getRepo repoId)) :
    (getRepo repoId).Only cond := by
  apply Async.only_bind (Async.only_call.mpr hRepo)
  exact only_answered _

theorem only_importCommits_of
    (hCovers : CoversImport cond commits branch)
    (repoId : String)
    (base : Option String) :
    (importCommits repoId commits base branch).Only cond := by
  apply Async.only_bind (only_getRepo (hCovers.lookup repoId))
  intro found
  apply Async.only_bind Async.only_ensure
  intro _
  apply Async.only_bind Async.only_ensure
  intro _
  apply Async.only_bind
  · exact only_checkFastForward base hCovers.head
  intro _
  apply Async.only_bind
  · exact only_importAll hCovers (fun _ hMember => hMember) ""
  intro lastCommitHash
  apply Async.only_bind Async.only_ensure
  intro _
  exact Async.only_returned _

theorem coversImport_named
    (commits : List ImportedCommit)
    (branch : String) :
    CoversImport (ImportOp (NamedIn commits) branch) commits
      branch := by
  have hNamed :
      ∀ commit ∈ commits,
        ∀ table ∈ importTables commit.tables,
          NamedIn commits table.name := by
    intro commit hCommit table hTable
    exact
      ⟨commit, hCommit, table, (List.mem_filter.mp hTable).1,
        rfl⟩
  constructor
  case truncate => exact hNamed
  case importRows => exact hNamed
  case add =>
    intro commit hCommit name hMember
    rcases List.mem_map.mp hMember with ⟨table, hTable, hName⟩
    rw [← hName]
    exact hNamed commit hCommit table hTable
  case checkout => exact rfl
  case checkoutNew => exact rfl
  all_goals
    intros
    exact trivial

theorem only_importCommits
    (repoId : String)
    (commits : List ImportedCommit)
    (base : Option String)
    (branch : String) :
    (importCommits repoId commits base branch).Only
      (ImportOp (NamedIn commits) branch) :=
  only_importCommits_of (coversImport_named commits branch) ..

theorem only_pushCommits
    (repoId : String)
    (body : PushCommitsBody) :
    (pushCommits repoId body).Only
      (ImportOp (NamedIn body.commits) body.targetBranch) := by
  apply Async.only_bind Async.only_ensure
  intro _
  exact only_importCommits ..

------------------------------------------------------------
-- What A Push Touches
------------------------------------------------------------

/- What an invocation of a step has to spare, it spares. -/
def StepSpares
    (config : VersioningConfig)
    (named : String → Prop)
    (branch : String)
    (step : VersioningTaken) : Prop :=
  ∀ statement,
    step.op = .dolt statement →
      step.choice.fails = false →
        Spares config.dolt named branch statement
          step.before.repo

variable {config : VersioningConfig}
variable {named : String → Prop} {branch : String}
variable {step : VersioningTaken}
variable {s t : VersioningState}

/- Every step of an import leaves the history. -/
theorem keepsHistory_of_performed
    (hExec :
      step.op.exec config step.choice step.before =
        some (step.answer, step.after)) :
    step.before.repo.KeepsHistory step.after.repo := by
  rcases step with ⟨op, choice, before, answer, after⟩
  rcases (VersioningOp.exec_frame hExec).repo with
    hSame | ⟨statement, hOp⟩
  · exact DoltRepo.keeps_of_commits (congrArg _ hSame)
  · subst hOp
    exact DoltStatement.history_run (exec_dolt hExec).1

/- An import checks out no branch but its own. -/
theorem checkedOut_run
    {dolt : DoltConfig}
    {statement : DoltStatement}
    {answer : statement.Answer}
    (hImport : ImportStatement named branch statement)
    (hRun :
      statement.run dolt choice repo = some (answer, next)) :
    next.checkedOut = repo.checkedOut ∨
      next.checkedOut = branch := by
  rcases DoltStatement.run_cases hRun with
    hFailed | ⟨_, hPerform⟩
  · left
    rw [hFailed.2.2]
  cases statement with
  | branchHead name =>
      have hReads : (DoltStatement.branchHead name).Reads :=
        trivial
      left
      rw [DoltStatement.repo_of_reads hReads hRun]
  | latestHash =>
      have hReads : DoltStatement.latestHash.Reads := trivial
      left
      rw [DoltStatement.repo_of_reads hReads hRun]
  | checkout name =>
      rcases DoltRepo.checkout_cases
          (Option.some.inj hPerform) with
        ⟨_, _, hSame⟩ | ⟨_, hMoved | hReset⟩
      · left
        rw [hSame]
      · rcases hMoved with ⟨_, _, ⟨_, hNext⟩ | ⟨_, hNext⟩⟩
        · left
          rw [hNext]
        · right
          rw [hNext]
          exact hImport
      · rcases hReset with ⟨_, _, _, hNext⟩
        left
        rw [hNext]
        rfl
  | checkoutNew name =>
      have hCheckout := Option.some.inj hPerform
      unfold DoltRepo.checkoutNew at hCheckout
      split at hCheckout
      · cases hCheckout
        exact Or.inl rfl
      · cases hCheckout
        exact Or.inr hImport
  | sql text =>
      left
      cases hPerform
      rfl
  | truncate table =>
      left
      rcases DoltRepo.modifyTable_cases
          (Option.some.inj hPerform) with
        ⟨_, _, hSame⟩ | ⟨_, _, _, _, _, hNext⟩
      · rw [hSame]
      · rw [hNext]
        rfl
  | importRows table csv =>
      left
      rcases DoltRepo.modifyTable_cases
          (Option.some.inj hPerform) with
        ⟨_, _, hSame⟩ | ⟨_, _, _, _, _, hNext⟩
      · rw [hSame]
      · rw [hNext]
        rfl
  | add tables =>
      left
      have hAdd := Option.some.inj hPerform
      simp only [DoltRepo.add] at hAdd
      split at hAdd
      all_goals
        cases hAdd
        rfl
  | commit author message =>
      left
      rcases DoltRepo.commit_cases hPerform with
        ⟨_, _, hSame, _⟩ | ⟨_, _, _, hRecord⟩
      · rw [hSame]
      · rcases DoltRepo.record_cases hRecord with
          ⟨_, _, _, hNext⟩
        rw [hNext]
        rfl
  | _ => exact hImport.elim

/- A step of an import that spares the rest touches only
   what it may. -/
theorem touchesOnly_of_performed
    (hOp : ImportOp named branch step.op)
    (hExec :
      step.op.exec config step.choice step.before =
        some (step.answer, step.after))
    (hSpares : StepSpares config named branch step) :
    SameBeyond named branch step.before.repo
        step.after.repo ∧
      (step.after.repo.checkedOut =
          step.before.repo.checkedOut ∨
        step.after.repo.checkedOut = branch) := by
  by_cases hDolt : ∃ statement, step.op = .dolt statement
  · rcases hDolt with ⟨statement, hStatement⟩
    have hSpared := hSpares statement hStatement
    rcases step with ⟨op, choice, before, answer, after⟩
    subst hStatement
    have hRun := (exec_dolt hExec).1
    constructor
    · exact sameBeyond_run hOp hSpared hRun
    · exact checkedOut_run hOp hRun
  · have hSame :=
      repo_of_not_dolt
        (fun statement hStatement =>
          hDolt ⟨statement, hStatement⟩)
        hExec
    constructor
    · rw [hSame]
      exact .refl _
    · left
      rw [hSame]

theorem spares_of_performed
    (hOp : ImportOp named branch step.op)
    (hExec :
      step.op.exec config step.choice step.before =
        some (step.answer, step.after))
    (hSame :
      SameBeyond named branch step.before.repo
        step.after.repo) :
    StepSpares config named branch step := by
  intro statement hStatement hFails
  rcases step with ⟨op, choice, before, answer, after⟩
  subst hStatement
  exact
    spares_of_sameBeyond hOp hFails (exec_dolt hExec).1 hSame

/- Every operation of an import may fail, and then it leaves
   the repository as it is. -/
theorem exists_failing
    (op : VersioningOp)
    (hOp : ImportOp named branch op)
    (u : VersioningState) :
    ∃ choice answer v,
      op.exec config choice u = some (answer, v) ∧
        v.repo = u.repo := by
  cases op with
  | getRepo repoId =>
      exact ⟨⟨⟨true, "", ""⟩, 0⟩, .error "", u, rfl, rfl⟩
  | scratch =>
      exact ⟨⟨⟨true, "", ""⟩, 0⟩, .error "", u, rfl, rfl⟩
  | dolt statement =>
      refine ⟨⟨⟨true, "", ""⟩, 0⟩, statement.failure "", u, ?_,
        rfl⟩
      simp only [VersioningOp.exec]
      rw [DoltStatement.run_of_fails rfl]
      rfl
  | _ => exact hOp.elim

/- So what is left of an import may do nothing. -/
theorem exists_stop
    {Value : Type}
    {program : VersioningProgram Value}
    (hOnly : program.Only (ImportOp named branch))
    (u : VersioningState) :
    ∃ steps outcome v,
      Solo (VersioningOp.exec config) program u steps outcome
          v ∧
        v.repo = u.repo := by
  refine
    exists_solo
      (fun u v : VersioningState => v.repo = u.repo)
      ?_ ?_ exists_failing hOnly u
  · intro _
    rfl
  · intro _ _ _ hFirst hSecond
    exact hSecond.trans hFirst

/-
  A push touches only what it names, however its invocations
  fail, exactly when in none of its runs an SQL text of the
  client changes something else, a table is reset in place of
  a checkout, or leftovers are committed.
-/
theorem touchesOnly_iff
    (config : VersioningConfig)
    (repoId : String)
    (body : PushCommitsBody)
    (s : VersioningState) :
    (∀ steps outcome t,
      Solo (VersioningOp.exec config) (pushCommits repoId body) s
          steps outcome t →
        TouchesOnly (NamedIn body.commits) body.targetBranch
          s.repo t.repo) ↔
      ∀ steps outcome t,
        Solo (VersioningOp.exec config)
            (pushCommits repoId body) s steps outcome t →
          ∀ step ∈ steps,
            StepSpares config (NamedIn body.commits)
              body.targetBranch step := by
  have hOnly := only_pushCommits repoId body
  constructor
  · intro hTouches steps outcome t hSolo step hMember
    rcases List.append_of_mem hMember with ⟨first, rest, hSteps⟩
    have hStep := hSolo.only hOnly step hMember
    have hExec := hSolo.performed step hMember
    subst hSteps
    rcases hSolo.split hOnly with
      ⟨program, mid, hProgram, hLeft, hEnds⟩
    rcases hLeft.cons hProgram with
      ⟨hBefore, following, hFollowing, _, hMore⟩
    -- the run could stop right before the step
    rcases exists_stop hProgram mid with
      ⟨stopped, ended, u, hStopped, hStay⟩
    have hUntil :=
      (hTouches _ _ _ (hEnds stopped ended u hStopped)).same
    rw [hStay, ← hBefore] at hUntil
    -- or right after it
    rcases exists_stop hFollowing step.after with
      ⟨stopped', ended', v, hStopped', hStay'⟩
    have hThrough :=
      (hTouches _ _ _
        (hEnds _ _ _ (hMore stopped' ended' v hStopped'))).same
    rw [hStay'] at hThrough
    exact
      spares_of_performed hStep hExec
        (hUntil.symm.trans hThrough)
  · intro hSpares steps outcome t hSolo
    have hStep := hSolo.only hOnly
    have hExec := hSolo.performed
    have hSpared := hSpares steps outcome t hSolo
    constructor
    · apply hSolo.relates fun u v =>
        SameBeyond (NamedIn body.commits) body.targetBranch
          u.repo v.repo
      · intro u
        exact .refl u.repo
      · intro _ _ _ hFirst hSecond
        exact hFirst.trans hSecond
      · intro step hMember
        exact
          (touchesOnly_of_performed (hStep step hMember)
            (hExec step hMember) (hSpared step hMember)).1
    · apply hSolo.relates fun u v =>
        v.repo.checkedOut = u.repo.checkedOut ∨
          v.repo.checkedOut = body.targetBranch
      · intro _
        exact Or.inl rfl
      · intro u v w hFirst hSecond
        rcases hSecond with hSame | hBranch
        · rw [hSame]
          exact hFirst
        · exact Or.inr hBranch
      · intro step hMember
        exact
          (touchesOnly_of_performed (hStep step hMember)
            (hExec step hMember) (hSpared step hMember)).2
    · apply hSolo.relates fun u v =>
        u.repo.KeepsHistory v.repo
      · intro u
        exact .refl u.repo
      · intro _ _ _ hFirst hSecond
        exact hFirst.trans hSecond
      · intro step hMember
        exact keepsHistory_of_performed (hExec step hMember)

/- A text that creates one table and drops another. -/
def droppingSchema : String :=
  "CREATE TABLE t (c INT); DROP TABLE accounts;"

def droppingConfig : VersioningConfig where
  repoId := "r"
  dolt := {
    sql := fun _ repo =>
      { answer := .ok ()
        made := []
        heads := repo.heads
        working := FiniteMap.ofList [("t", ⟨"t", "c"⟩)]
        staged := repo.staged
        merging := repo.merging }
    emptied := fun _ => "c"
    loaded := fun _ csv => .ok csv
    inserted := fun _ data row => .ok (data ++ row)
    merged := fun ours _ => .merged ours.tables }

def accountsCommit : Commit where
  hash := "h"
  parents := []
  author := "a"
  message := "m"
  tables := FiniteMap.ofList [("accounts", ⟨"s", "d"⟩)]

/- A clean repository with a table of accounts. -/
def accountsState : VersioningState where
  repo := {
    commits := ⟨[accountsCommit], by decide⟩
    heads := fun branch =>
      if branch = "main" then some accountsCommit else none
    checkedOut := "main"
    working := accountsCommit.tables
    staged := accountsCommit.tables
    merging := none }
  lock := none

def droppingBody : PushCommitsBody where
  commits :=
    [⟨"m", "a", [⟨"t", droppingSchema, "c\n"⟩]⟩]
  base := none
  branch := none

/- The push of one table drops the accounts. -/
theorem schema_drops_table :
    pushCommitsBodySchema droppingBody = true ∧
      ∃ steps outcome t,
        Solo (VersioningOp.exec droppingConfig)
            (pushCommits "r" droppingBody) accountsState steps
            outcome t ∧
          ¬ TouchesOnly (NamedIn droppingBody.commits)
            droppingBody.targetBranch accountsState.repo
            t.repo := by
  constructor
  · decide
  have hReplay :
      ∃ q : List VersioningTaken ×
          Except VersioningError CommitImportResult ×
            VersioningState,
        solo? (VersioningOp.exec droppingConfig)
            (pushCommits "r" droppingBody) accountsState
            (List.replicate 6 ⟨⟨false, "c1", "c1"⟩, 0⟩) =
          some q ∧
        q.2.2.repo.checkedOut = "main" ∧
          q.2.2.repo.working.find "accounts" = none :=
    ⟨_, rfl, by decide, by decide⟩
  rcases hReplay with ⟨⟨steps, outcome, t⟩, hRun, hOut, hGone⟩
  refine ⟨steps, outcome, t, solo_of_solo? hRun, ?_⟩
  intro hTouches
  have hUnnamed : ¬ NamedIn droppingBody.commits "accounts" := by
    intro hNamed
    rcases hNamed with ⟨commit, hCommit, table, hTable, hName⟩
    rw [List.mem_singleton.mp hCommit] at hTable
    rw [List.mem_singleton.mp hTable] at hName
    revert hName
    decide
  have hWorking := hTouches.same.working "accounts" hUnnamed
  have hBefore :
      accountsState.repo.baseOf droppingBody.targetBranch =
        accountsState.repo.headTables :=
    baseOf_checkedOut rfl
  have hAfter :
      t.repo.baseOf droppingBody.targetBranch =
        t.repo.headTables :=
    baseOf_checkedOut hOut
  rw [find_takenTo_of_base hBefore,
    find_takenTo_of_base hAfter] at hWorking
  rw [hWorking] at hGone
  revert hGone
  decide

end Versioning
