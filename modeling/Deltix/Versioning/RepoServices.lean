import Deltix.Versioning.CommitImport

/-
  Two more services that work on the directory of a
  repository: the commit that a gRPC push records, and the
  branches, which run inside a mutex.

  Key definitions include:
    * `recordPush`
    * `createBranch`
    * `checkoutBranch`
    * `deleteBranch`
-/

------------------------------------------------------------
-- Recorded Pushes
------------------------------------------------------------

namespace Versioning

open Concurrency

structure PushCommitParams where
  repo : String
  username : String
  jobId : String
  checksum : String
  resolvedTables : Option (List String)
  deriving DecidableEq, Repr

/- A hexadecimal digit, in lower case. -/
def isHexDigit (c : Char) : Bool :=
  c.isDigit || ('a' ≤ c && c ≤ 'f')

/- `/^[0-9a-fA-F-]{36}$/` -/
def uuidRe (value : String) : Bool :=
  value.toList.length = 36 &&
    value.toList.all fun c => isHexDigit c.toLower || c = '-'

/- `/^[0-9a-f]{64}$/` -/
def hexRe (value : String) : Bool :=
  value.toList.length = 64 && value.toList.all isHexDigit

/- The values of the row that a push leaves. -/
def pushRow
    (params : PushCommitParams)
    (pushedAt : Nat) : String :=
  "'" ++ params.jobId ++ "', '" ++
    sanitizeAuthorName params.username ++ "', '" ++
    params.checksum ++ "', " ++ toString pushedAt

/- Without tables to add, everything is added. -/
def addResolved (tables : Option (List String)) :
    VersioningProgram Unit := do
  match tables with
  | none =>
      let added ← dolt .addAll
      expect "add" added
  | some tables =>
      if tables = [] then
        let added ← dolt .addAll
        expect "add" added
      else
        let added ← dolt (.add tables)
        expect "add" added

def pushMessage (params : PushCommitParams) : String :=
  "push: job=" ++ params.jobId ++ " checksum=" ++
    params.checksum

def runDoltCommit (params : PushCommitParams) :
    VersioningProgram String := do
  Async.ensure (uuidRe params.jobId)
    (.unexpectedShape "jobId" params.jobId)
  Async.ensure (hexRe params.checksum)
    (.unexpectedShape "checksum" params.checksum)
  let created ← dolt .createPushLog
  expect "sql (create table)" created
  let pushedAt ← now
  let inserted ← dolt (.insertPush (pushRow params pushedAt))
  expect "sql (insert)" inserted
  addResolved params.resolvedTables
  let committed ←
    dolt
      (.commit (authorFlag params.username)
        (pushMessage params))
  expect "commit" committed
  readCommitHash

def recordPush (params : PushCommitParams) :
    VersioningProgram (Option String) := do
  let found ← getRepo params.repo
  if found then
    let hash ←
      tryCatch (runDoltCommit params) fun error =>
        throw
          (.commitFailed
            ("Failed to record Dolt commit for repo \"" ++
              params.repo ++ "\": " ++ error.message))
    return some hash
  else return none

/- `/^[a-zA-Z0-9_-]{1,64}$/` -/
def validRepoId (repoId : String) : Bool :=
  0 < repoId.toList.length && repoId.toList.length ≤ 64 &&
    repoId.toList.all fun c =>
      c.isAlphanum || c = '_' || c = '-'

-- `/^[A-Za-z0-9_][A-Za-z0-9_.\-/]{0,127}$/`
def validBranch (branchName : String) : Bool :=
  match branchName.toList with
  | [] => false
  | c :: rest =>
      (c.isAlphanum || c = '_') && rest.length ≤ 127 &&
        rest.all fun d =>
          d.isAlphanum || d = '_' || d = '.' || d = '-' ||
            d = '/'

/- A valid name has no blank at its ends and no `/` first. -/
def acceptsBranchName (branchName : String) : Bool :=
  validBranch branchName &&
    !(['.', '.'] <:+: branchName.toList) &&
    !(['/'] <:+ branchName.toList)

def assertBranchName (branchName : String) :
    VersioningProgram Unit :=
  Async.ensure (acceptsBranchName branchName)
    (.invalidBranchName branchName)

def requireRepo (repoId : String) :
    VersioningProgram Unit := do
  Async.ensure (validRepoId repoId) (.repoNotFound repoId)
  let found ← getRepo repoId
  Async.ensure found (.repoNotFound repoId)

/- How the services read the errors of the binary. -/
def translateError (error : VersioningError) :
    VersioningError :=
  let message := error.message
  if includesLower message "already exists" then
    .branchAlreadyExists message
  else if
      includesLower message "not found" ||
        includesLower message "unknown branch" then
    .branchNotFound message
  else error

def translateErrors
    {α : Type}
    (operation : VersioningProgram α) : VersioningProgram α :=
  tryCatch operation fun error => throw (translateError error)

def readCurrentBranchName : VersioningProgram String := do
  let current ← dolt .currentBranch
  expect "current branch lookup" current

def runDoltCreateBranch (branchName : String) :
    VersioningProgram Unit := do
  let created ← dolt (.createBranch branchName)
  expect "branch create" created

def runDoltCheckoutBranch (branchName : String) :
    VersioningProgram Unit := do
  let checkout ← dolt (.checkout branchName)
  expect "checkout" checkout

def runDoltDeleteBranch (branchName : String) :
    VersioningProgram Unit := do
  let deleted ← dolt (.deleteBranch branchName)
  expect "branch delete" deleted

def createBranch (i : Nat) (repoId branchName : String) :
    VersioningProgram String := do
  assertBranchName branchName
  requireRepo repoId
  runExclusive i do
    translateErrors (runDoltCreateBranch branchName)
    translateErrors readCurrentBranchName

def checkoutBranch (i : Nat) (repoId branchName : String) :
    VersioningProgram String := do
  assertBranchName branchName
  requireRepo repoId
  runExclusive i do
    translateErrors (runDoltCheckoutBranch branchName)
    return branchName

def protectedBranches : List String := ["main"]

/- Neither the current branch nor `main` may be deleted. -/
def deleteChecked (branchName : String) :
    VersioningProgram Unit := do
  let currentBranch ← translateErrors readCurrentBranchName
  Async.ensure (currentBranch ≠ branchName)
    (.protectedBranch
      ("Cannot delete the currently checked-out branch \"" ++
        branchName ++ "\""))
  Async.ensure (!protectedBranches.contains branchName)
    (.protectedBranch
      ("Cannot delete protected branch \"" ++ branchName ++
        "\""))
  translateErrors (runDoltDeleteBranch branchName)

def deleteBranch (i : Nat) (repoId branchName : String) :
    VersioningProgram Unit := do
  assertBranchName branchName
  requireRepo repoId
  runExclusive i (deleteChecked branchName)

end Versioning
