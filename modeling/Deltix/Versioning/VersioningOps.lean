import Deltix.Concurrency.Async
import Deltix.Versioning.Conflicts
import Deltix.Versioning.Dolt
import Mathlib.Data.List.Infix

/-
  The shared state of the versioning services of one
  repository, and the operations their calls await.  The
  mutex that they share is a lock here; `KeyedLock` is about
  the chain of promises that it stands for.

  Key definitions include:
    * `VersioningState`
    * `VersioningOp`
    * `VersioningOp.exec`
    * `VersioningProgram`

  Key theorems include:
    * `VersioningOp.exec_frame`
-/

------------------------------------------------------------
-- Errors
------------------------------------------------------------

namespace Versioning

/- `command` is what was run, `stderr` what it printed. -/
inductive VersioningError where
  | repoNotFound (repoId : String)
  | commitImport (command stderr : String)
  | nonFastForward (base currentHead : String)
  | unsafeTable (name : String)
  | doltFailed (command stderr : String)
  | noCommitHash
  | noLatestHash
  | conflictQueryFailed (table stderr : String)
  | conflictTableUnnamed
  | unsafeTableName (name : String)
  | unexpectedShape (kind value : String)
  | commitFailed (message : String)
  | invalidBranchName (name : String)
  | unsafeBranchName (name : String)
  | branchAlreadyExists (message : String)
  | branchNotFound (message : String)
  | protectedBranch (message : String)
  | mergeConflict
      (conflicts : List MergeConflictTable)
      (sourceBranch targetBranch : String)
  | mergeFailed (message : String)
  | invalidBody
  | store (reason : String)
  | file (reason : String)
  deriving DecidableEq, Repr

def VersioningError.message : VersioningError → String
  | .repoNotFound repoId => "Repo not found: " ++ repoId
  | .commitImport command stderr =>
      "dolt " ++ command ++ " failed during commit import: " ++
        (if stderr = "" then "(no stderr)" else stderr)
  | .nonFastForward _ _ =>
      "Remote rejected the push: the remote branch has " ++
        "advanced. Run `deltix pull` first, then push again."
  | .unsafeTable name =>
      "Refusing to import: table name \"" ++ name ++
        "\" has an unexpected shape"
  | .doltFailed command stderr =>
      "dolt " ++ command ++ " failed: " ++ stderr
  | .noCommitHash =>
      "Could not determine new commit hash after dolt commit"
  | .noLatestHash =>
      "Could not determine latest commit hash from dolt_log"
  | .conflictQueryFailed table stderr =>
      "dolt conflict detail query failed for " ++ table ++
        ": " ++ stderr
  | .conflictTableUnnamed =>
      "Unexpected dolt_conflicts row without table name"
  | .unsafeTableName name => "Unsafe table name: " ++ name
  | .unexpectedShape kind value =>
      "Refusing to commit: " ++ kind ++ " \"" ++ value ++
        "\" has an unexpected shape"
  | .commitFailed message => message
  | .invalidBranchName name =>
      "Invalid branch name \"" ++ name ++ "\": must match " ++
        "/^[A-Za-z0-9_][A-Za-z0-9_.\\-/]\x7b0,127\x7d$/ and " ++
        "must not contain spaces, shell metacharacters, or " ++
        "path traversal sequences"
  | .unsafeBranchName name => "Unsafe branch name: " ++ name
  | .branchAlreadyExists message => message
  | .branchNotFound message => message
  | .protectedBranch message => message
  | .mergeConflict _ sourceBranch targetBranch =>
      "Merge conflict while merging \"" ++ sourceBranch ++
        "\" into \"" ++ targetBranch ++ "\""
  | .mergeFailed message => message
  | .invalidBody => "Invalid request body"
  | .store reason => reason
  | .file reason => reason

/- Two letters outside ASCII have one inside in lower case. -/
def lowerOf (char : Char) : List Char :=
  if char.toNat = 0x212A then ['k']
  else if char.toNat = 0x130 then ['i', Char.ofNat 0x307]
  else [char.toLower]

/- `text.toLowerCase().includes(part)` -/
def includesLower (text part : String) : Bool :=
  part.toList <:+: text.toList.flatMap lowerOf

/- The id under which the repository is provisioned. -/
structure VersioningConfig where
  repoId : String
  dolt : DoltConfig

/- `lock` is the task inside `runExclusive`, if any. -/
structure VersioningState where
  repo : DoltRepo
  lock : Option Nat

/- `scratch` is a call on the temporary file of an import. -/
inductive VersioningOp where
  | getRepo (repoId : String)
  | now
  | scratch
  | dolt (statement : DoltStatement)
  | acquire (task : Nat)
  | release

abbrev VersioningOp.Answer : VersioningOp → Type
  | .getRepo _ => Except String Bool
  | .now => Nat
  | .scratch => Except String Unit
  | .dolt statement => statement.Answer
  | .acquire _ => Unit
  | .release => Unit

structure VersioningChoice extends DoltChoice where
  now : Nat

/-
  Run an operation.  A task waits at the mutex until no
  other is inside; who enters next is left open.
-/
def VersioningOp.exec
    (config : VersioningConfig) :
    (op : VersioningOp) → VersioningChoice →
      VersioningState → Option (op.Answer × VersioningState)
  | .getRepo repoId, choice, s =>
      if choice.fails then some (.error choice.text, s)
      else some (.ok (repoId = config.repoId), s)
  | .now, choice, s => some (choice.now, s)
  | .scratch, choice, s =>
      if choice.fails then some (.error choice.text, s)
      else some (.ok (), s)
  | .dolt statement, choice, s =>
      (statement.run config.dolt choice.toDoltChoice
        s.repo).map fun result =>
          (result.1, { s with repo := result.2 })
  | .acquire task, _, s =>
      if s.lock = none then
        some ((), { s with lock := some task })
      else none
  | .release, _, s => some ((), { s with lock := none })

variable {config : VersioningConfig} {op : VersioningOp}
variable {choice : VersioningChoice} {s t : VersioningState}
variable {answer : op.Answer}

/- Only the binary touches the repository, and only the
   mutex the lock. -/
structure Framed
    (op : VersioningOp)
    (s t : VersioningState) : Prop where
  repo :
    t.repo = s.repo ∨ ∃ statement, op = .dolt statement
  lock :
    t.lock = s.lock ∨ op = .release ∨
      ∃ task, op = .acquire task ∧ s.lock = none ∧
        t.lock = some task

theorem VersioningOp.exec_frame
    (hExec : op.exec config choice s = some (answer, t)) :
    Framed op s t := by
  cases op with
  | getRepo repoId =>
      simp only [exec] at hExec
      split at hExec
      all_goals
        cases hExec
        exact ⟨Or.inl rfl, Or.inl rfl⟩
  | now =>
      cases hExec
      exact ⟨Or.inl rfl, Or.inl rfl⟩
  | scratch =>
      simp only [exec] at hExec
      split at hExec
      all_goals
        cases hExec
        exact ⟨Or.inl rfl, Or.inl rfl⟩
  | dolt statement =>
      simp only [exec, Option.map_eq_some_iff] at hExec
      rcases hExec with ⟨result, _, hEq⟩
      cases hEq
      exact ⟨Or.inr ⟨statement, rfl⟩, Or.inl rfl⟩
  | acquire task =>
      simp only [exec] at hExec
      split at hExec
      · rename_i hFree
        cases hExec
        exact ⟨Or.inl rfl,
          Or.inr (Or.inr ⟨task, rfl, hFree, rfl⟩)⟩
      · cases hExec
  | release =>
      cases hExec
      exact ⟨Or.inl rfl, Or.inr (Or.inl rfl)⟩

/- An invocation that was answered ran on the repository. -/
theorem exec_dolt
    {statement : DoltStatement}
    {reply : statement.Answer}
    (hExec :
      (VersioningOp.dolt statement).exec config choice s =
        some (reply, t)) :
    statement.run config.dolt choice.toDoltChoice s.repo =
        some (reply, t.repo) ∧
      t.lock = s.lock := by
  simp only [VersioningOp.exec, Option.map_eq_some_iff]
    at hExec
  rcases hExec with ⟨⟨first, second⟩, hRun, hEq⟩
  cases hEq
  exact ⟨hRun, rfl⟩

open Concurrency

abbrev VersioningProgram (α : Type) : Type :=
  Async VersioningOp VersioningOp.Answer VersioningError α

def perform (op : VersioningOp) :
    VersioningProgram op.Answer :=
  Async.call op

/- Run the binary. -/
def dolt (statement : DoltStatement) :
    VersioningProgram statement.Answer :=
  perform (.dolt statement)

/- Continue with an answer, or throw what was printed. -/
def answered
    {α : Type}
    (toError : String → VersioningError) :
    Except String α → VersioningProgram α
  | .ok answer => .returned answer
  | .error text => .threw (toError text)

def now : VersioningProgram Nat := perform .now

/- A call on a temporary file. -/
def scratch : VersioningProgram Unit :=
  (perform .scratch).bind (answered .file)

/- `store.get(repoId)`, if it is a repository. -/
def getRepo (repoId : String) : VersioningProgram Bool :=
  (perform (.getRepo repoId)).bind (answered .store)

/-
  `runExclusive` of the mutex that the services share, with
  a lock in place of the chain of promises.  `KeyedLock`
  shows of the chain that one action of a repository runs at
  a time, and that a call ends as its own action did.  The
  chain lets calls in as they were made; the lock lets in any
  call that waits, so its runs include those of the chain.
-/
def runExclusive
    {α : Type}
    (i : Nat)
    (action : VersioningProgram α) : VersioningProgram α := do
  perform (.acquire i)
  action.andFinally (perform .release)

end Versioning
