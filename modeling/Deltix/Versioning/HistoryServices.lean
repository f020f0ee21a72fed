import Deltix.Concurrency.Solo
import Deltix.Versioning.CommitLog
import Deltix.Versioning.RowChanges

/-
  The services that only read the directory of a repository:
  the list of branches, the log and the differences.

  Key definitions include:
    * `HistoryOp`
    * `listBranches`
    * `LogService.listCommits`
    * `DiffService.read`

  Key theorems include:
    * `runWith_listCommits`
-/

------------------------------------------------------------
-- Operations
------------------------------------------------------------

namespace Versioning

open Concurrency

/- The lookup of the repository, and the queries. -/
inductive HistoryOp where
  | getRepo (repoId : String)
  | branchNames
  | currentBranch
  | readLog (branchName : Option String) (limit : Nat)
  | diffSummary (fromRef toRef : String)
  | diffDetail (fromRef toRef tableName : String)
  deriving DecidableEq, Repr

/- A query answers what it prints, or its error. -/
abbrev HistoryOp.Answer : HistoryOp → Type
  | .getRepo _ => Except String Bool
  | _ => Except String String

/- What a query prints is left open. -/
structure HistoryChoice where
  fails : Bool
  text : String
  deriving DecidableEq, Repr

def HistoryOp.exec
    (repoId : String) :
    (op : HistoryOp) → HistoryChoice → Unit →
      Option (op.Answer × Unit)
  | .getRepo asked, choice, s =>
      if choice.fails then some (.error choice.text, s)
      else some (.ok (asked = repoId), s)
  | .branchNames, choice, s => some (printed choice, s)
  | .currentBranch, choice, s => some (printed choice, s)
  | .readLog _ _, choice, s => some (printed choice, s)
  | .diffSummary _ _, choice, s => some (printed choice, s)
  | .diffDetail _ _ _, choice, s => some (printed choice, s)
where
  printed (choice : HistoryChoice) : Except String String :=
    if choice.fails then .error choice.text
    else .ok choice.text

abbrev HistoryProgram (Error α : Type) : Type :=
  Async HistoryOp HistoryOp.Answer Error α

/- Continue with an answer, or throw what it says. -/
def answeredOr
    {Error α : Type}
    (toError : String → Error) :
    Except String α → HistoryProgram Error α
  | .ok value => .returned value
  | .error text => .threw (toError text)

/- `result.stderr.toString().trim()` -/
def trimStdErr (stderr : String) : String :=
  String.ofList (Text.trimChars stderr.toList)

/- `requireRepo` of the three services. -/
def requireRecord
    {Error : Type}
    (notFound : Error)
    (storeFailed : String → Error)
    (repoId : String) : HistoryProgram Error Unit := do
  Async.ensure (validRepoId repoId) notFound
  let answer ← Async.call (HistoryOp.getRepo repoId)
  let found ← answeredOr storeFailed answer
  Async.ensure found notFound

structure BranchSummary where
  name : String
  isCurrent : Bool
  deriving DecidableEq, Repr

/- The lines below the header. -/
def branchLines (stdout : String) : List String :=
  (((Text.split '\n' (Text.trimChars stdout.toList)).filter
      fun line => line ≠ []).drop 1).map fun line =>
    String.ofList (Text.trimChars line)

def runDoltListBranches :
    HistoryProgram VersioningError (List BranchSummary) := do
  let listed ← Async.call HistoryOp.branchNames
  let stdout ←
    answeredOr
      (fun stderr => .doltFailed "branch list" stderr) listed
  let current ← Async.call HistoryOp.currentBranch
  let currentBranch ←
    answeredOr
      (fun stderr =>
        .doltFailed "current branch lookup" stderr) current
  return (branchLines stdout).map fun name =>
    { name := name, isCurrent := name = currentBranch }

def listBranches (repoId : String) :
    HistoryProgram VersioningError (List BranchSummary) := do
  requireRecord (.repoNotFound repoId) .store repoId
  tryCatch runDoltListBranches fun error =>
    throw (translateError error)

/- `BranchService.current` -/
def current (repoId : String) : VersioningProgram String := do
  requireRepo repoId
  translateErrors readCurrentBranchName

/- Only the errors of the commands are translated. -/
def LogError.translated
    (translateError : String → LogError) :
    LogError → LogError
  | .command message => translateError message
  | error => error

namespace LogService

/- `runDoltReadLog`, whose query goes to the binary. -/
def readCommits
    (branchName : Option String)
    (limit : Nat) :
    HistoryProgram LogError (List LogCommitEntry) :=
  match branchName.filter fun name =>
      !DoltLogCli.acceptsSafeName name with
  | some name =>
      throw (.command ("Unsafe branch name: " ++ name))
  | none => do
      let answer ←
        Async.call (HistoryOp.readLog branchName limit)
      let stdout ←
        answeredOr
          (fun stderr =>
            .command
              ("dolt log query failed: " ++
                trimStdErr stderr)) answer
      answeredOr .command (readLog stdout)

def assertBranch (branch : Option String) :
    HistoryProgram LogError Unit :=
  match branch.filter fun name => !acceptsName name with
  | some name => throw (.invalidBranchName name)
  | none => return ()

def listCommits
    (repoId : String)
    (branch : Option String)
    (limit : Option Int) :
    HistoryProgram LogError (List LogCommitEntry) := do
  requireRecord (.repoNotFound repoId) .command repoId
  let branch := branch.filter fun name => name ≠ ""
  assertBranch branch
  let limit ← Async.ofExcept (normalizeLimit limit)
  tryCatch (readCommits branch limit) fun error =>
    throw (error.translated translateError)

end LogService

end Versioning

namespace Versioning

open Concurrency

structure DiffTableSummary where
  table : String
  diffType : String
  dataChange : Bool
  schemaChange : Bool
  changes : List DiffRowChange
  deriving DecidableEq, Repr

structure DiffResult where
  fromRef : String
  toRef : String
  tables : List DiffTableSummary
  deriving DecidableEq, Repr

namespace DoltDiffCli

def assertSafeRef (ref : String) :
    HistoryProgram LogError Unit :=
  Async.ensure (acceptsSafeRef ref)
    (.command ("Unsafe ref: " ++ ref))

/- `row.to_table_name || row.from_table_name` -/
def tableNameOf (row : CsvRow) : String :=
  let after := row.getD "to_table_name"
  if after ≠ "" then after else row.getD "from_table_name"

def readTable
    (fromRef toRef : String)
    (row : CsvRow) :
    HistoryProgram LogError DiffTableSummary := do
  let tableName := tableNameOf row
  Async.ensure (tableName ≠ "")
    (.command
      "Unexpected dolt_diff_summary row without table name")
  Async.ensure (safeTableRe tableName)
    (.command ("Unsafe table name: " ++ tableName))
  let answer ←
    Async.call (HistoryOp.diffDetail fromRef toRef tableName)
  let stdout ←
    answeredOr
      (fun stderr =>
        .command
          ("dolt diff detail query failed for " ++ tableName ++
            ": " ++ trimStdErr stderr)) answer
  let changes ←
    answeredOr .command
      ((parseCsv stdout).mapM buildRowChange)
  return {
    table := tableName
    diffType := (row.get? "diff_type").getD "modified"
    dataChange := row.get? "data_change" = some "true"
    schemaChange := row.get? "schema_change" = some "true"
    changes := changes }

def readTables (fromRef toRef : String) :
    List CsvRow →
      HistoryProgram LogError (List DiffTableSummary)
  | [] => return []
  | row :: rest => do
      let table ← readTable fromRef toRef row
      let tables ← readTables fromRef toRef rest
      return table :: tables

def runDoltReadDiff (fromRef toRef : String) :
    HistoryProgram LogError DiffResult := do
  assertSafeRef fromRef
  assertSafeRef toRef
  let answer ←
    Async.call (HistoryOp.diffSummary fromRef toRef)
  let stdout ←
    answeredOr
      (fun stderr =>
        .command
          ("dolt diff summary query failed: " ++
            trimStdErr stderr)) answer
  let tables ← readTables fromRef toRef (parseCsv stdout)
  return { fromRef := fromRef, toRef := toRef, tables := tables }

end DoltDiffCli

namespace DiffService

def translateError (message : String) : LogError :=
  if includesLower message "not found" ||
      includesLower message "unknown branch" ||
      includesLower message "branch not found" then
    .branchNotFound message
  else if includesLower message "unsafe ref" ||
      includesLower message "commit" ||
      includesLower message "hash" then
    .invalidCommitReference message
  else .command message

def assertRef (ref : String) :
    HistoryProgram LogError Unit :=
  Async.ensure (acceptsRef ref)
    (.invalidCommitReference
      ("Invalid commit reference \"" ++ ref ++ "\": expected " ++
        "a safe branch name or a 32-character lowercase Dolt " ++
        "commit hash"))

def read (repoId fromRef toRef : String) :
    HistoryProgram LogError DiffResult := do
  assertRef fromRef
  assertRef toRef
  requireRecord (.repoNotFound repoId) .command repoId
  tryCatch (DoltDiffCli.runDoltReadDiff fromRef toRef)
    fun error => throw (error.translated translateError)

end DiffService

end Versioning

namespace Versioning

open Concurrency

/- Answers that only depend on the question. -/
def HistoryOp.answering
    (provisioned : String → Bool)
    (query : HistoryOp → Except String String) :
    (op : HistoryOp) → Unit → Unit → Option (op.Answer × Unit)
  | .getRepo repoId, _, s => some (.ok (provisioned repoId), s)
  | .branchNames, _, s => some (query .branchNames, s)
  | .currentBranch, _, s => some (query .currentBranch, s)
  | .readLog branchName limit, _, s =>
      some (query (.readLog branchName limit), s)
  | .diffSummary fromRef toRef, _, s =>
      some (query (.diffSummary fromRef toRef), s)
  | .diffDetail fromRef toRef tableName, _, s =>
      some (query (.diffDetail fromRef toRef tableName), s)

/- A log is the answer to its statement. -/
def logAnswers
    (dolt : String → Except String String) :
    HistoryOp → Except String String
  | .readLog branchName limit => dolt (logQuery branchName limit)
  | _ => .error ""

variable {provisioned : String → Bool}
variable {dolt : String → Except String String}

theorem runWith_readCommits
    (branchName : Option String)
    (limit : Nat) :
    runWith
        (HistoryOp.answering provisioned (logAnswers dolt)) ()
        (LogService.readCommits branchName limit) () =
      some
        ((runDoltReadLog dolt branchName limit).mapError
          .command, ()) := by
  unfold LogService.readCommits runDoltReadLog
  cases branchName.filter fun name =>
      !DoltLogCli.acceptsSafeName name with
  | some name => rfl
  | none =>
      simp only [Async.bind_eq, Async.call, Async.bind_await,
        Async.bind_returned, runWith, HistoryOp.answering,
        logAnswers]
      cases dolt (logQuery branchName limit) with
      | error stderr => rfl
      | ok stdout =>
          simp only [answeredOr, Async.bind_returned]
          cases readLog stdout with
          | error message => rfl
          | ok commits => rfl

theorem runWith_requireRecord
    (repoId : String) :
    runWith
        (HistoryOp.answering provisioned (logAnswers dolt)) ()
        (requireRecord (LogError.repoNotFound repoId) .command
          repoId) () =
      some
        (if !validRepoId repoId || !provisioned repoId then
          .error (.repoNotFound repoId)
        else .ok (), ()) := by
  unfold requireRecord
  cases validRepoId repoId with
  | false => rfl
  | true =>
      simp only [Async.bind_eq, Async.ensure, if_true,
        Async.bind_returned, Async.call, Async.bind_await,
        runWith, HistoryOp.answering, answeredOr]
      cases provisioned repoId with
      | false => rfl
      | true => rfl

/- The service is the function that reads the log. -/
theorem runWith_listCommits
    (repoId : String)
    (branch : Option String)
    (limit : Option Int) :
    runWith
        (HistoryOp.answering provisioned (logAnswers dolt)) ()
        (LogService.listCommits repoId branch limit) () =
      some
        (LogService.list provisioned dolt repoId branch limit,
          ()) := by
  unfold LogService.listCommits LogService.list
  rw [Async.bind_eq, runWith_bind, runWith_requireRecord]
  split_ifs
  · rfl
  simp only []
  cases hName :
      (branch.filter fun name => name ≠ "").filter fun name =>
        !LogService.acceptsName name with
  | some name =>
      simp only [LogService.assertBranch, hName]
      rfl
  | none =>
      simp only [LogService.assertBranch, hName]
      cases LogService.normalizeLimit limit with
      | error error => rfl
      | ok limit =>
          simp only [Async.bind_eq, Async.ofExcept,
            Async.pure_eq_returned, Async.bind_returned,
            Async.tryCatch_eq]
          rw [runWith_catchError, runWith_readCommits]
          cases runDoltReadLog dolt
              (branch.filter fun name => name ≠ "") limit with
          | error message => rfl
          | ok commits => rfl

end Versioning
