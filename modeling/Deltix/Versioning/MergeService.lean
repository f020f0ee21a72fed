import Deltix.Versioning.RepoServices

/-
  Merges.  One with conflicts reports them and is aborted.

  Key definitions include:
    * `runDoltMerge`
    * `runDoltReadConflicts`
    * `merge`
-/

------------------------------------------------------------
-- Merges
------------------------------------------------------------

namespace Versioning

open Concurrency

inductive MergeStatus where
  | upToDate
  | merged (commitHash : String) (fastForward : Bool)
  deriving DecidableEq, Repr

structure MergeResult where
  status : MergeStatus
  targetBranch : String
  sourceBranch : String
  message : String
  deriving DecidableEq, Repr

/- Merges do not ask whether something already exists. -/
def translateMergeError (error : VersioningError) :
    VersioningError :=
  let message := error.message
  if
      includesLower message "not found" ||
        includesLower message "unknown branch" then
    .branchNotFound message
  else error

def translateMergeErrors
    {α : Type}
    (operation : VersioningProgram α) : VersioningProgram α :=
  tryCatch operation fun error =>
    throw (translateMergeError error)

def assertSafeBranchName (branchName : String) :
    VersioningProgram Unit :=
  Async.ensure (acceptsBranchName branchName)
    (.unsafeBranchName branchName)

/- Check the target out, unless it already is. -/
def checkoutMergeTarget :
    Option String → VersioningProgram Unit
  | none => return ()
  | some targetBranch => do
      assertSafeBranchName targetBranch
      let currentBranch ← readCurrentBranchName
      if currentBranch = targetBranch then return ()
      else do
        assertSafeBranchName targetBranch
        runDoltCheckoutBranch targetBranch

def runDoltMerge
    (sourceBranch : String)
    (targetBranch : Option String) :
    VersioningProgram MergeOutput := do
  assertSafeBranchName sourceBranch
  checkoutMergeTarget targetBranch
  let _ ← readCurrentBranchName
  dolt (.merge sourceBranch)

def runDoltLatestCommitHash : VersioningProgram String := do
  let hash ← dolt .latestHash
  let commitHash ← expect "log lookup" hash
  Async.ensure
    (commitHash ≠ "" && commitHash ≠ "commit_hash")
    .noLatestHash
  return commitHash

def combinedOutput (result : MergeOutput) : String :=
  result.stdout ++ "\n" ++ result.stderr

/- How a merge that has succeeded is reported. -/
def reportMerge
    (sourceBranch intendedTarget : String)
    (result : MergeOutput) :
    VersioningProgram MergeResult :=
  if includesLower (combinedOutput result) "up to date" then
    return {
      status := .upToDate
      targetBranch := intendedTarget
      sourceBranch := sourceBranch
      message :=
        if result.stdout = "" then "Already up to date."
        else result.stdout }
  else do
    let commitHash ← runDoltLatestCommitHash
    return {
      status :=
        .merged commitHash
          (includesLower (combinedOutput result)
            "fast-forward")
      targetBranch := intendedTarget
      sourceBranch := sourceBranch
      message :=
        if result.stdout = "" then
          "Merge completed successfully."
        else result.stdout }

def readConflictTable
    (tableName : String)
    (expectedCount : Option String) :
    VersioningProgram MergeConflictTable := do
  Async.ensure (safeTableRe tableName)
    (.unsafeTableName tableName)
  let detail ← dolt (.conflictRows tableName)
  let stdout ←
    answered (.conflictQueryFailed tableName) detail
  let conflicts := (parseCsv stdout).map buildConflictRow
  return {
    table := tableName
    count :=
      match expectedCount with
      | some text => .written text
      | none => .counted conflicts.length
    conflicts := conflicts }

/- Read the tables that a summary of the conflicts names. -/
def readConflictTables :
    List CsvRow → List MergeConflictTable →
      VersioningProgram (List MergeConflictTable)
  | [], tables => return tables
  | row :: rest, tables =>
      match row.get? "table" with
      | none => throw .conflictTableUnnamed
      | some tableName =>
          if tableName = "" then throw .conflictTableUnnamed
          else do
            let table ←
              readConflictTable tableName
                (row.get? "num_conflicts")
            readConflictTables rest (tables ++ [table])

def runDoltReadConflicts :
    VersioningProgram (List MergeConflictTable) := do
  let summary ← dolt .listConflicts
  let stdout ← expect "conflicts query" summary
  readConflictTables (parseCsv stdout) []

def runDoltMergeAbort : VersioningProgram Unit := do
  let aborted ← dolt .mergeAbort
  expect "merge --abort" aborted

/- A merge with conflicts is aborted. -/
def rejectMerge
    (sourceBranch intendedTarget : String)
    (result : MergeOutput) :
    VersioningProgram MergeResult :=
  if includesLower (combinedOutput result) "conflict" then do
    let conflicts ← runDoltReadConflicts
    runDoltMergeAbort
    throw
      (.mergeConflict conflicts sourceBranch intendedTarget)
  else
    throw
      (.mergeFailed
        (if result.stderr ≠ "" then result.stderr
        else if result.stdout ≠ "" then result.stdout
        else "dolt merge failed"))

def intendedTarget :
    Option String → VersioningProgram String
  | some targetBranch => return targetBranch
  | none => translateMergeErrors readCurrentBranchName

def mergeExclusive
    (sourceBranch : String)
    (targetBranch : Option String) :
    VersioningProgram MergeResult := do
  let target ← intendedTarget targetBranch
  let result ←
    translateMergeErrors
      (runDoltMerge sourceBranch targetBranch)
  if result.exitCode = 0 then
    reportMerge sourceBranch target result
  else rejectMerge sourceBranch target result

def assertTarget : Option String → VersioningProgram Unit
  | some targetBranch => assertBranchName targetBranch
  | none => return ()

/- An empty name is no name. -/
def namedTarget (targetBranch : Option String) :
    Option String :=
  targetBranch.filter fun branch => branch ≠ ""

def merge
    (i : Nat)
    (repoId sourceBranch : String)
    (targetBranch : Option String) :
    VersioningProgram MergeResult := do
  assertBranchName sourceBranch
  assertTarget (namedTarget targetBranch)
  requireRepo repoId
  runExclusive i
    (mergeExclusive sourceBranch (namedTarget targetBranch))

end Versioning
