import Deltix.Relational.FiniteMap
import Deltix.Relational.KeyedTable

/-
  A Dolt repository as its command line works on it: the
  commit graph, the heads of the branches, and the one
  checked-out branch with its working set and staging area.
  Each invocation of the binary is one statement.

  Key definitions include:
    * `DoltRepo`
    * `DoltConfig`
    * `DoltStatement`
    * `DoltStatement.run`

  Key theorems include:
    * `DoltStatement.repo_of_reads`
    * `DoltRepo.record_cases`
    * `DoltRepo.commit_cases`
    * `DoltStatement.history_run`
-/

------------------------------------------------------------
-- Repositories
------------------------------------------------------------

namespace Versioning

open Relational

/- A table, as `SHOW CREATE TABLE` and a CSV export print it. -/
structure Table where
  schema : String
  data : String
  deriving DecidableEq, Repr

abbrev Tables : Type :=
  FiniteMap String Table

structure Commit where
  hash : String
  parents : List String
  author : String
  message : String
  tables : Tables

abbrev CommitTable : Type :=
  KeyedTable Commit.hash

/- A merge that waits for its conflicts to be resolved. -/
structure MergeState where
  theirs : String
  preMergeWorking : Tables

/- `heads` has the commit at the head of each branch. -/
structure DoltRepo where
  commits : CommitTable
  heads : String → Option Commit
  checkedOut : String
  working : Tables
  staged : Tables
  merging : Option MergeState

/-
  What an SQL text does.  A session of its own may move
  branches and commit, but leaves the branch that the command
  line has checked out.
-/
structure SqlEffect where
  answer : Except String Unit
  made : List Commit
  heads : String → Option Commit
  working : Tables
  staged : Tables
  merging : Option MergeState

/- The tables of a merge, or those of one that is stuck. -/
inductive MergeVerdict where
  | merged (tables : Tables)
  | stuck (stdout : String) (tables : Tables)

/-
  What the binary makes of SQL and CSV texts: what a text
  does, the data of an empty table, of one reloaded from a
  CSV file and of one with a row inserted, and the merge of
  two commits.
-/
structure DoltConfig where
  sql : (text : String) → DoltRepo → SqlEffect
  emptied : (schema : String) → String
  loaded : (schema csv : String) → Except String String
  inserted : (schema data row : String) → Except String String
  merged : (ours theirs : Commit) → MergeVerdict

namespace DoltRepo

variable (repo : DoltRepo)

/- The tables at the head of a branch. -/
def branchTables (branch : String) : Tables :=
  match repo.heads branch with
  | some commit => commit.tables
  | none => FiniteMap.empty

def headTables : Tables :=
  repo.branchTables repo.checkedOut

/- Nothing is uncommitted, and no merge is in progress. -/
structure Clean : Prop where
  working :
    ∀ name, repo.working.find name = repo.headTables.find name
  staged :
    ∀ name, repo.staged.find name = repo.headTables.find name
  merging : repo.merging = none

/- Local changes that a move to other tables would lose. -/
def wouldOverwrite (next : Tables) : Bool :=
  FiniteMap.overwrites repo.working repo.headTables next

/- Move the checked-out branch's files to other tables. -/
def carryTo (next : Tables) : DoltRepo where
  commits := repo.commits
  heads := repo.heads
  checkedOut := repo.checkedOut
  working := FiniteMap.carry repo.working repo.headTables next
  staged := FiniteMap.carry repo.staged repo.headTables next
  merging := repo.merging

def setHead
    (branch : String)
    (head : Option Commit) : DoltRepo where
  commits := repo.commits
  heads := Function.update repo.heads branch head
  checkedOut := repo.checkedOut
  working := repo.working
  staged := repo.staged
  merging := repo.merging

def setCheckedOut (branch : String) : DoltRepo where
  commits := repo.commits
  heads := repo.heads
  checkedOut := branch
  working := repo.working
  staged := repo.staged
  merging := repo.merging

def setWorking (working : Tables) : DoltRepo where
  commits := repo.commits
  heads := repo.heads
  checkedOut := repo.checkedOut
  working := working
  staged := repo.staged
  merging := repo.merging

def setStaged (staged : Tables) : DoltRepo where
  commits := repo.commits
  heads := repo.heads
  checkedOut := repo.checkedOut
  working := repo.working
  staged := staged
  merging := repo.merging

def setMerging (merging : Option MergeState) : DoltRepo where
  commits := repo.commits
  heads := repo.heads
  checkedOut := repo.checkedOut
  working := repo.working
  staged := repo.staged
  merging := merging

def setCommits (commits : CommitTable) : DoltRepo where
  commits := commits
  heads := repo.heads
  checkedOut := repo.checkedOut
  working := repo.working
  staged := repo.staged
  merging := repo.merging

end DoltRepo

/- A commit reaches another along parents. -/
def reaches (commits : CommitTable) :
    Nat → (ancestor hash : String) → Bool
  | 0, ancestor, hash => ancestor = hash
  | steps + 1, ancestor, hash =>
      ancestor = hash ||
        match commits.find? hash with
        | some commit =>
            commit.parents.any (reaches commits steps ancestor)
        | none => false

/- A path need not be longer than there are commits. -/
def DoltRepo.isAncestor
    (repo : DoltRepo)
    (ancestor hash : String) : Bool :=
  reaches repo.commits repo.commits.rows.length ancestor hash

------------------------------------------------------------
-- Statements
------------------------------------------------------------

/- The invocations of the binary that the services make. -/
inductive DoltStatement where
  | branchHead (branch : String)
  | currentBranch
  | latestHash
  | foreignKeys
  | listConflicts
  | conflictRows (table : String)
  | checkout (name : String)
  | checkoutNew (branch : String)
  | sql (text : String)
  | truncate (table : String)
  | importRows (table csv : String)
  | createPushLog
  | insertPush (row : String)
  | add (tables : List String)
  | addAll
  | commit (author message : String)
  | createBranch (branch : String)
  | deleteBranch (branch : String)
  | merge (source : String)
  | mergeAbort
  deriving DecidableEq, Repr

structure MergeOutput where
  exitCode : Nat
  stdout : String
  stderr : String
  deriving DecidableEq, Repr

/- An error carries what the binary prints. -/
abbrev DoltStatement.Answer : DoltStatement → Type
  | .branchHead _ => Option String
  | .currentBranch => Except String String
  | .latestHash => Except String String
  | .foreignKeys => Except String String
  | .listConflicts => Except String String
  | .conflictRows _ => Except String String
  | .merge _ => MergeOutput
  | _ => Except String Unit

/-
  What an invocation leaves open: whether it fails, what it
  prints, and which hash a commit gets.
-/
structure DoltChoice where
  fails : Bool
  text : String
  hash : String
  deriving DecidableEq, Repr

def pushLogTable : String := "deltix_push_log"

def pushLogSchema : String :=
  "CREATE TABLE IF NOT EXISTS deltix_push_log (" ++
    "job_id VARCHAR(64) PRIMARY KEY, " ++
    "author VARCHAR(128) NOT NULL, " ++
    "checksum VARCHAR(128) NOT NULL, " ++
    "pushed_at BIGINT NOT NULL)"

def tableExists (name : String) : String :=
  "table with name " ++ name ++ " already exists"

def tableNotFound (name : String) : String :=
  "table not found: " ++ name

def noMatch (name : String) : String :=
  "error: pathspec '" ++ name ++
    "' did not match any table(s) known to dolt."

def branchExists (name : String) : String :=
  "fatal: A branch named '" ++ name ++ "' already exists."

def branchNotFound (name : String) : String :=
  "branch not found: " ++ name

def nothingToCommit : String :=
  "no changes added to commit"

def localChanges (command : String) : String :=
  "Your local changes to the following tables would be " ++
    "overwritten by " ++ command

abbrev Ran (Answer : Type) : Type :=
  Answer × DoltRepo

namespace DoltRepo

variable (config : DoltConfig) (repo : DoltRepo)

def setTable (name : String) (table : Table) : DoltRepo :=
  repo.setWorking (repo.working.set name table)

/- Change the data of a table of the working set. -/
def modifyTable
    (name : String)
    (change : Table → Except String String) :
    Ran (Except String Unit) :=
  match repo.working.find name with
  | none => (.error (tableNotFound name), repo)
  | some table =>
      match change table with
      | .error error => (.error error, repo)
      | .ok data =>
          (.ok (), repo.setTable name ⟨table.schema, data⟩)

/- Commits under hashes of their own are kept as they are. -/
def addCommits
    (commits : CommitTable)
    (made : List Commit) : CommitTable :=
  made.foldl
    (fun commits commit =>
      (commits.insert? commit).getD commits)
    commits

def sql (text : String) : Ran (Except String Unit) :=
  let effect := config.sql text repo
  (effect.answer,
    { commits := addCommits repo.commits effect.made
      heads := effect.heads
      checkedOut := repo.checkedOut
      working := effect.working
      staged := effect.staged
      merging := effect.merging })

def createPushLog : Ran (Except String Unit) :=
  match repo.working.find pushLogTable with
  | some _ => (.ok (), repo)
  | none =>
      (.ok (),
        repo.setTable pushLogTable
          ⟨pushLogSchema, config.emptied pushLogSchema⟩)

/-
  `dolt checkout`.  A name that is no branch is taken for a
  table, which is reset to its state at the head.  Local
  changes go along, unless they would be lost.
-/
def checkout (name : String) : Ran (Except String Unit) :=
  match repo.heads name with
  | some head =>
      if name = repo.checkedOut then (.ok (), repo)
      else if repo.wouldOverwrite head.tables then
        (.error (localChanges "checkout"), repo)
      else
        (.ok (),
          (repo.carryTo head.tables).setCheckedOut name)
  | none =>
      match repo.headTables.find name with
      | some table => (.ok (), repo.setTable name table)
      | none => (.error (noMatch name), repo)

def createBranch (branch : String) :
    Ran (Except String Unit) :=
  match repo.heads branch with
  | some _ => (.error (branchExists branch), repo)
  | none =>
      (.ok (),
        repo.setHead branch (repo.heads repo.checkedOut))

def checkoutNew (branch : String) :
    Ran (Except String Unit) :=
  match repo.heads branch with
  | some _ => (.error (branchExists branch), repo)
  | none =>
      (.ok (),
        (repo.setHead branch
          (repo.heads repo.checkedOut)).setCheckedOut branch)

def deleteBranch (branch : String) :
    Ran (Except String Unit) :=
  if branch = repo.checkedOut then
    (.error ("cannot delete branch '" ++ branch ++ "'"), repo)
  else
    match repo.heads branch with
    | some _ => (.ok (), repo.setHead branch none)
    | none => (.error (branchNotFound branch), repo)

/- The staging area with some tables as they are now. -/
def stagedWith (tables : List String) : Tables :=
  FiniteMap.choose repo.working repo.staged fun name =>
    tables.contains name

def add (tables : List String) : Ran (Except String Unit) :=
  let known := fun name =>
    (repo.working.find name).isSome ||
      (repo.staged.find name).isSome
  match tables.find? fun name => !known name with
  | none => (.ok (), repo.setStaged (repo.stagedWith tables))
  | some name =>
      (.error ("the table(s) " ++ name ++ " do not exist"),
        repo)

/-
  Record a commit at the head of the checked-out branch.  A
  hash is a hash, and is never used twice.
-/
def record (next : Commit) : Option DoltRepo :=
  if next.hash = "" then none
  else
    (repo.commits.insert? next).map fun commits =>
      (repo.setCommits commits).setHead repo.checkedOut
        (some next)

/- The commit of the staged tables. -/
def nextCommit (hash author message : String) : Commit where
  hash := hash
  parents :=
    ((repo.heads repo.checkedOut).map Commit.hash).toList
  author := author
  message := message
  tables := repo.staged

/- Commit the staged tables, if there is anything new. -/
def commit (hash author message : String) :
    Option (Ran (Except String Unit)) :=
  if repo.merging.isSome then
    some (.error "merge has unresolved conflicts", repo)
  else if repo.staged.same repo.headTables then
    some (.error nothingToCommit, repo)
  else
    (repo.record (repo.nextCommit hash author message)).map
      fun next => (.ok (), next)

def mergeCommit
    (hash source : String)
    (ours theirs : Commit)
    (tables : Tables) : Commit where
  hash := hash
  parents := [ours.hash, theirs.hash]
  author := ""
  message := "Merge branch '" ++ source ++ "'"
  tables := tables

/-
  Merge two commits that have diverged.  Uncommitted changes
  are no part of the merge commit.  A merge that is stuck
  leaves its tables in the working set.
-/
def mergeCommits
    (hash text source : String)
    (ours theirs : Commit) : Option (Ran MergeOutput) :=
  match config.merged ours theirs with
  | .stuck stdout tables =>
      some
        (⟨1, stdout, ""⟩,
          (repo.setWorking tables).setMerging
            (some ⟨theirs.hash, repo.working⟩))
  | .merged tables =>
      if repo.wouldOverwrite tables then
        some (⟨1, "", localChanges "merge"⟩, repo)
      else
        ((repo.carryTo tables).record
          (mergeCommit hash source ours theirs tables)).map
            fun next => (⟨0, text, ""⟩, next)

/- Move the checked-out branch forward to a commit. -/
def fastForward
    (text : String)
    (theirs : Commit) : Ran MergeOutput :=
  if repo.wouldOverwrite theirs.tables then
    (⟨1, "", localChanges "merge"⟩, repo)
  else
    (⟨0, text, ""⟩,
      (repo.carryTo theirs.tables).setHead repo.checkedOut
        (some theirs))

def merge (hash text source : String) :
    Option (Ran MergeOutput) :=
  match repo.heads repo.checkedOut, repo.heads source with
  | some ours, some theirs =>
      if repo.merging.isSome then
        some (⟨1, "", "error: Merging is not possible"⟩, repo)
      else if repo.isAncestor theirs.hash ours.hash then
        some (⟨0, text, ""⟩, repo)
      else if repo.isAncestor ours.hash theirs.hash then
        some (repo.fastForward text theirs)
      else repo.mergeCommits config hash text source ours theirs
  | _, _ => some (⟨1, "", branchNotFound source⟩, repo)

/- Go back to the working set from before the merge. -/
def mergeAbort : Ran (Except String Unit) :=
  match repo.merging with
  | none => (.error "fatal: There is no merge to abort", repo)
  | some state =>
      (.ok (),
        ((repo.setWorking state.preMergeWorking).setStaged
          state.preMergeWorking).setMerging none)

/- The latest commit by date need not be the head. -/
def latestHash (text : String) :
    Option (Ran (Except String String)) :=
  match repo.heads repo.checkedOut with
  | none => some (.error "no such branch", repo)
  | some head =>
      if repo.isAncestor text head.hash then
        some (.ok text, repo)
      else none

end DoltRepo

namespace DoltStatement

/- What a failing invocation answers. -/
def failure
    (text : String) :
    (statement : DoltStatement) → statement.Answer
  | .branchHead _ => none
  | .currentBranch => .error text
  | .latestHash => .error text
  | .foreignKeys => .error text
  | .listConflicts => .error text
  | .conflictRows _ => .error text
  | .merge _ => ⟨1, "", text⟩
  | .checkout _ => .error text
  | .checkoutNew _ => .error text
  | .sql _ => .error text
  | .truncate _ => .error text
  | .importRows _ _ => .error text
  | .createPushLog => .error text
  | .insertPush _ => .error text
  | .add _ => .error text
  | .addAll => .error text
  | .commit _ _ => .error text
  | .createBranch _ => .error text
  | .deleteBranch _ => .error text
  | .mergeAbort => .error text

/-
  Run an invocation that does not fail by itself.  What a
  query prints is left open.
-/
def perform
    (config : DoltConfig)
    (choice : DoltChoice) :
    (statement : DoltStatement) → DoltRepo →
      Option (Ran statement.Answer)
  | .branchHead branch, repo =>
      some ((repo.heads branch).map Commit.hash, repo)
  | .currentBranch, repo => some (.ok repo.checkedOut, repo)
  | .latestHash, repo => repo.latestHash choice.text
  | .foreignKeys, repo => some (.ok choice.text, repo)
  | .listConflicts, repo => some (.ok choice.text, repo)
  | .conflictRows _, repo => some (.ok choice.text, repo)
  | .checkout name, repo => some (repo.checkout name)
  | .checkoutNew branch, repo => some (repo.checkoutNew branch)
  | .sql text, repo => some (repo.sql config text)
  | .truncate table, repo =>
      some
        (repo.modifyTable table fun present =>
          .ok (config.emptied present.schema))
  | .importRows table csv, repo =>
      some
        (repo.modifyTable table fun present =>
          config.loaded present.schema csv)
  | .createPushLog, repo => some (repo.createPushLog config)
  | .insertPush row, repo =>
      some
        (repo.modifyTable pushLogTable fun present =>
          config.inserted present.schema present.data row)
  | .add tables, repo => some (repo.add tables)
  | .addAll, repo => some (.ok (), repo.setStaged repo.working)
  | .commit author message, repo =>
      repo.commit choice.hash author message
  | .createBranch branch, repo =>
      some (repo.createBranch branch)
  | .deleteBranch branch, repo =>
      some (repo.deleteBranch branch)
  | .merge source, repo =>
      repo.merge config choice.hash choice.text source
  | .mergeAbort, repo => some repo.mergeAbort

/- Run an invocation.  One that fails changes nothing. -/
def run
    (config : DoltConfig)
    (choice : DoltChoice)
    (statement : DoltStatement)
    (repo : DoltRepo) : Option (Ran statement.Answer) :=
  if choice.fails then
    some (statement.failure choice.text, repo)
  else statement.perform config choice repo

end DoltStatement

end Versioning

------------------------------------------------------------
-- What An Invocation Leaves Alone
------------------------------------------------------------

namespace Versioning

open Relational

/- The invocations that only ask. -/
def DoltStatement.Reads : DoltStatement → Prop
  | .branchHead _ => True
  | .currentBranch => True
  | .latestHash => True
  | .foreignKeys => True
  | .listConflicts => True
  | .conflictRows _ => True
  | _ => False

variable {config : DoltConfig} {choice : DoltChoice}
variable {repo next : DoltRepo}

/- No recorded commit is lost or changed. -/
def DoltRepo.KeepsHistory (repo next : DoltRepo) : Prop :=
  ∀ hash commit,
    repo.commits.find? hash = some commit →
      next.commits.find? hash = some commit

namespace DoltRepo

variable {commits : CommitTable} {commit : Commit}
variable {hash : String}

theorem KeepsHistory.refl (repo : DoltRepo) :
    repo.KeepsHistory repo :=
  fun _ _ hFind => hFind

theorem KeepsHistory.trans
    {last : DoltRepo}
    (hFirst : repo.KeepsHistory next)
    (hSecond : next.KeepsHistory last) :
    repo.KeepsHistory last :=
  fun hash commit hFind =>
    hSecond hash commit (hFirst hash commit hFind)

theorem keeps_of_commits
    (hCommits : next.commits = repo.commits) :
    repo.KeepsHistory next := by
  intro hash commit hFind
  rw [hCommits]
  exact hFind

/- A new row leaves those under other keys. -/
theorem find?_of_insert?
    {more : CommitTable}
    {made : Commit}
    (hInsert : commits.insert? made = some more)
    (hFind : commits.find? hash = some commit) :
    more.find? hash = some commit := by
  rw [KeyedTable.find?_insert? hInsert]
  have hFree := (KeyedTable.insert?_eq_some_iff.mp hInsert).1
  by_cases hHash : made.hash = hash
  · rw [hHash, hFind] at hFree
    cases hFree
  · rw [if_neg hHash]
    exact hFind

theorem find?_addCommits
    {made : List Commit}
    (hFind : commits.find? hash = some commit) :
    (addCommits commits made).find? hash = some commit := by
  unfold addCommits
  induction made generalizing commits with
  | nil => exact hFind
  | cons head rest ih =>
      rw [List.foldl_cons]
      apply ih
      cases hInsert : commits.insert? head with
      | none => exact hFind
      | some more =>
          exact find?_of_insert? hInsert hFind

theorem record_cases
    (hRecord : repo.record commit = some next) :
    commit.hash ≠ "" ∧
      ∃ commits,
        repo.commits.insert? commit = some commits ∧
          next =
            (repo.setCommits commits).setHead repo.checkedOut
              (some commit) := by
  unfold record at hRecord
  by_cases hHash : commit.hash = ""
  · rw [if_pos hHash] at hRecord
    cases hRecord
  · rw [if_neg hHash, Option.map_eq_some_iff] at hRecord
    rcases hRecord with ⟨commits, hInsert, hNext⟩
    exact ⟨hHash, commits, hInsert, hNext.symm⟩

theorem keeps_record
    (hRecord : repo.record commit = some next) :
    repo.KeepsHistory next := by
  rcases record_cases hRecord with ⟨_, commits, hInsert, hNext⟩
  subst hNext
  intro hash other hFind
  exact find?_of_insert? hInsert hFind

/- The commit is the head of the branch, and recorded. -/
theorem head_of_record
    (hRecord : repo.record commit = some next) :
    next.heads next.checkedOut = some commit ∧
      next.commits.find? commit.hash = some commit := by
  rcases record_cases hRecord with ⟨_, commits, hInsert, hNext⟩
  subst hNext
  constructor
  · exact Function.update_self ..
  · exact
      (KeyedTable.find?_insert? hInsert).trans (if_pos rfl)

/- A commit is refused, or records what is staged. -/
theorem commit_cases
    {author message : String}
    {answer : Except String Unit}
    (hCommit :
      repo.commit hash author message = some (answer, next)) :
    (∃ error,
        answer = .error error ∧ next = repo ∧
          (repo.merging.isSome ∨
            ∀ name,
              repo.staged.find name =
                repo.headTables.find name)) ∨
      answer = .ok () ∧ repo.merging = none ∧
        (¬ ∀ name,
          repo.staged.find name = repo.headTables.find name) ∧
        repo.record (repo.nextCommit hash author message) =
          some next := by
  unfold commit at hCommit
  by_cases hMerging : repo.merging.isSome = true
  · rw [if_pos hMerging] at hCommit
    cases hCommit
    exact Or.inl ⟨_, rfl, rfl, Or.inl hMerging⟩
  · rw [if_neg hMerging] at hCommit
    by_cases hSame : repo.staged.same repo.headTables = true
    · rw [if_pos hSame] at hCommit
      cases hCommit
      exact Or.inl ⟨_, rfl, rfl,
        Or.inr (FiniteMap.same_iff.mp hSame)⟩
    · rw [if_neg hSame, Option.map_eq_some_iff] at hCommit
      rcases hCommit with ⟨after, hRecord, hEq⟩
      cases hEq
      right
      refine ⟨rfl, ?_, ?_, hRecord⟩
      · exact Option.not_isSome_iff_eq_none.mp hMerging
      · intro hAll
        exact hSame (FiniteMap.same_iff.mpr hAll)

end DoltRepo

namespace DoltStatement

variable {statement : DoltStatement}
variable {answer : statement.Answer}

theorem run_of_fails
    (hFails : choice.fails = true) :
    statement.run config choice repo =
      some (statement.failure choice.text, repo) := by
  unfold run
  rw [if_pos hFails]

theorem perform_of_run
    (hFails : choice.fails = false)
    (hRun :
      statement.run config choice repo = some (answer, next)) :
    statement.perform config choice repo =
      some (answer, next) := by
  unfold run at hRun
  rw [hFails] at hRun
  exact hRun

/- An invocation either failed or was performed. -/
theorem run_cases
    (hRun :
      statement.run config choice repo = some (answer, next)) :
    (choice.fails = true ∧
        answer = statement.failure choice.text ∧
        next = repo) ∨
      choice.fails = false ∧
        statement.perform config choice repo =
          some (answer, next) := by
  cases hFails : choice.fails with
  | true =>
      rw [run_of_fails hFails] at hRun
      cases hRun
      exact Or.inl ⟨rfl, rfl, rfl⟩
  | false =>
      exact Or.inr ⟨rfl, perform_of_run hFails hRun⟩

theorem repo_of_reads
    (hReads : statement.Reads)
    (hRun :
      statement.run config choice repo = some (answer, next)) :
    next = repo := by
  rcases run_cases hRun with hFailed | hPerformed
  · exact hFailed.2.2
  · have hPerform := hPerformed.2
    cases statement with
    | latestHash =>
        simp only [perform, DoltRepo.latestHash] at hPerform
        split at hPerform
        · cases hPerform
          rfl
        · split at hPerform
          · cases hPerform
            rfl
          · cases hPerform
    | branchHead branch =>
        cases hPerform
        rfl
    | currentBranch =>
        cases hPerform
        rfl
    | foreignKeys =>
        cases hPerform
        rfl
    | listConflicts =>
        cases hPerform
        rfl
    | conflictRows table =>
        cases hPerform
        rfl
    | _ => exact hReads.elim

end DoltStatement

namespace DoltRepo

variable {name : String}
variable {change : Table → Except String String}
variable {answer : Except String Unit}

theorem modifyTable_cases
    (hModify : repo.modifyTable name change = (answer, next)) :
    (∃ error, answer = .error error ∧ next = repo) ∨
      ∃ table data,
        answer = .ok () ∧
          repo.working.find name = some table ∧
          change table = .ok data ∧
          next = repo.setTable name ⟨table.schema, data⟩ := by
  unfold modifyTable at hModify
  split at hModify
  · cases hModify
    exact Or.inl ⟨_, rfl, rfl⟩
  · rename_i table hTable
    split at hModify
    · cases hModify
      exact Or.inl ⟨_, rfl, rfl⟩
    · rename_i data hData
      cases hModify
      exact Or.inr ⟨table, data, rfl, hTable, hData, rfl⟩

theorem commits_modifyTable
    (hModify : repo.modifyTable name change = (answer, next)) :
    next.commits = repo.commits := by
  rcases modifyTable_cases hModify with
    ⟨_, _, hSame⟩ | ⟨_, _, _, _, _, hNext⟩
  · rw [hSame]
  · rw [hNext]
    rfl

/- A checkout moves to a branch, or resets a table. -/
theorem checkout_cases
    (hCheckout : repo.checkout name = (answer, next)) :
    (∃ error, answer = .error error ∧ next = repo) ∨
      answer = .ok () ∧
        ((∃ head,
            repo.heads name = some head ∧
              ((name = repo.checkedOut ∧ next = repo) ∨
                name ≠ repo.checkedOut ∧
                  next =
                    (repo.carryTo head.tables).setCheckedOut
                      name)) ∨
          repo.heads name = none ∧
            ∃ table,
              repo.headTables.find name = some table ∧
                next = repo.setTable name table) := by
  unfold checkout at hCheckout
  cases hHead : repo.heads name with
  | some head =>
      rw [hHead] at hCheckout
      dsimp only at hCheckout
      by_cases hSame : name = repo.checkedOut
      · rw [if_pos hSame] at hCheckout
        cases hCheckout
        exact Or.inr ⟨rfl, Or.inl
          ⟨head, rfl, Or.inl ⟨hSame, rfl⟩⟩⟩
      · rw [if_neg hSame] at hCheckout
        split at hCheckout
        · cases hCheckout
          exact Or.inl ⟨_, rfl, rfl⟩
        · cases hCheckout
          exact Or.inr ⟨rfl, Or.inl
            ⟨head, rfl, Or.inr ⟨hSame, rfl⟩⟩⟩
  | none =>
      rw [hHead] at hCheckout
      dsimp only at hCheckout
      split at hCheckout
      · rename_i table hTable
        cases hCheckout
        exact Or.inr ⟨rfl, Or.inr ⟨rfl, table, hTable, rfl⟩⟩
      · cases hCheckout
        exact Or.inl ⟨_, rfl, rfl⟩

theorem commits_checkout
    (hCheckout : repo.checkout name = (answer, next)) :
    next.commits = repo.commits := by
  rcases checkout_cases hCheckout with
    ⟨_, _, hSame⟩ | ⟨_, hMoved | hReset⟩
  · rw [hSame]
  · rcases hMoved with ⟨_, _, ⟨_, hNext⟩ | ⟨_, hNext⟩⟩
    · rw [hNext]
    · rw [hNext]
      rfl
  · rcases hReset with ⟨_, _, _, hNext⟩
    rw [hNext]
    rfl

theorem keeps_merge
    {hash text source : String}
    {output : MergeOutput}
    (hMerge :
      repo.merge config hash text source =
        some (output, next)) :
    repo.KeepsHistory next := by
  unfold merge at hMerge
  split at hMerge
  · rename_i ours theirs _ _
    split_ifs at hMerge
    · cases hMerge
      exact .refl repo
    · cases hMerge
      exact .refl repo
    · unfold fastForward at hMerge
      split_ifs at hMerge
      · cases hMerge
        exact .refl repo
      · cases hMerge
        exact keeps_of_commits rfl
    · unfold mergeCommits at hMerge
      split at hMerge
      · cases hMerge
        exact keeps_of_commits rfl
      · split_ifs at hMerge
        · cases hMerge
          exact .refl repo
        · rw [Option.map_eq_some_iff] at hMerge
          rcases hMerge with ⟨after, hRecord, hEq⟩
          cases hEq
          intro hash' commit hFind
          exact keeps_record hRecord hash' commit hFind
  · cases hMerge
    exact .refl repo

end DoltRepo

namespace DoltStatement

variable {statement : DoltStatement}
variable {answer : statement.Answer}

theorem history_run
    (hRun :
      statement.run config choice repo = some (answer, next)) :
    repo.KeepsHistory next := by
  by_cases hReads : statement.Reads
  · rw [repo_of_reads hReads hRun]
    exact .refl repo
  rcases run_cases hRun with hFailed | hPerformed
  · rw [hFailed.2.2]
    exact .refl repo
  have hPerform := hPerformed.2
  cases statement with
  | checkout name =>
      simp only [perform, Option.some.injEq] at hPerform
      exact
        DoltRepo.keeps_of_commits
          (DoltRepo.commits_checkout hPerform)
  | checkoutNew branch =>
      simp only [perform, DoltRepo.checkoutNew] at hPerform
      split at hPerform
      all_goals
        cases hPerform
        exact DoltRepo.keeps_of_commits rfl
  | sql text =>
      cases hPerform
      intro hash commit hFind
      exact DoltRepo.find?_addCommits hFind
  | truncate table =>
      simp only [perform, Option.some.injEq] at hPerform
      exact
        DoltRepo.keeps_of_commits
          (DoltRepo.commits_modifyTable hPerform)
  | importRows table csv =>
      simp only [perform, Option.some.injEq] at hPerform
      exact
        DoltRepo.keeps_of_commits
          (DoltRepo.commits_modifyTable hPerform)
  | createPushLog =>
      simp only [perform, DoltRepo.createPushLog] at hPerform
      split at hPerform
      all_goals
        cases hPerform
        exact DoltRepo.keeps_of_commits rfl
  | insertPush row =>
      simp only [perform, Option.some.injEq] at hPerform
      exact
        DoltRepo.keeps_of_commits
          (DoltRepo.commits_modifyTable hPerform)
  | add tables =>
      simp only [perform, DoltRepo.add] at hPerform
      split at hPerform
      all_goals
        cases hPerform
        exact DoltRepo.keeps_of_commits rfl
  | addAll =>
      cases hPerform
      exact DoltRepo.keeps_of_commits rfl
  | commit author message =>
      rcases DoltRepo.commit_cases hPerform with
        ⟨_, _, hSame, _⟩ | ⟨_, _, _, hRecord⟩
      · rw [hSame]
        exact .refl repo
      · exact DoltRepo.keeps_record hRecord
  | createBranch branch =>
      simp only [perform, DoltRepo.createBranch] at hPerform
      split at hPerform
      all_goals
        cases hPerform
        exact DoltRepo.keeps_of_commits rfl
  | deleteBranch branch =>
      simp only [perform, DoltRepo.deleteBranch] at hPerform
      split at hPerform
      · cases hPerform
        exact .refl repo
      · split at hPerform
        all_goals
          cases hPerform
          exact DoltRepo.keeps_of_commits rfl
  | merge source => exact DoltRepo.keeps_merge hPerform
  | mergeAbort =>
      simp only [perform, DoltRepo.mergeAbort] at hPerform
      split at hPerform
      all_goals
        cases hPerform
        exact DoltRepo.keeps_of_commits rfl
  | _ => exact absurd trivial hReads

end DoltStatement

end Versioning
