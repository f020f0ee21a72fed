import Deltix.Text.Json
import Deltix.Versioning.TableName
import Deltix.Versioning.VersioningOps

/-
  The import of pushed commits: per commit the target branch
  is checked out, every table recreated and reloaded, and
  the tables added and committed.

  Key definitions include:
    * `importTable`
    * `runDoltCommitImport`
    * `importCommits`
    * `pushCommits`
-/

------------------------------------------------------------
-- Importing A Commit
------------------------------------------------------------

namespace Versioning

open Concurrency

structure ImportedTable where
  name : String
  schema : String
  data : String
  deriving DecidableEq, Repr

structure ImportedCommit where
  message : String
  author : String
  tables : List ImportedTable
  deriving DecidableEq, Repr

/- `[a-zA-Z0-9_.-]` -/
def isAuthorChar (c : Char) : Bool :=
  c.isAlphanum || c = '_' || c = '.' || c = '-'

/-
  `username.replace(/[^a-zA-Z0-9_.-]/g, '_')`, which replaces
  each code unit of a character.
-/
def sanitizeAuthorName (username : String) : String :=
  String.ofList
    (username.toList.flatMap fun c =>
      if isAuthorChar c then [c]
      else (Text.unitsOf c).map fun _ => '_')

def authorFlag (authorName : String) : String :=
  let safeAuthor := sanitizeAuthorName authorName
  safeAuthor ++ " <" ++ safeAuthor ++ "@deltix.local>"

/- The lines of a CSV file that are not empty. -/
def dataLines (data : String) : List (List Char) :=
  (Text.split '\n'
    (data.toList.filter fun c => c ≠ '\r')).filter
    fun line => line ≠ []

def isMissingBranchCheckoutError (stderr : String) : Bool :=
  "did not match any table".toList <:+: stderr.toList

/- Throw unless an invocation has succeeded. -/
def expect
    {α : Type}
    (command : String) :
    Except String α → VersioningProgram α :=
  answered (.doltFailed command)

/- A missing branch is created from the current head. -/
def checkoutOrCreate (branch : String) :
    VersioningProgram Unit := do
  let checkout ← dolt (.checkout branch)
  match checkout with
  | .ok _ => return ()
  | .error stderr =>
      if isMissingBranchCheckoutError stderr then
        let create ← dolt (.checkoutNew branch)
        expect ("checkout -b " ++ branch) create
      else
        throw (.doltFailed ("checkout " ++ branch) stderr)

/- Without a branch, the one checked out is kept. -/
def checkoutTarget (branch : String) :
    VersioningProgram Unit :=
  if branch = "" then return () else checkoutOrCreate branch

/- Create the table, or empty the one that exists. -/
def recreateTable (table : ImportedTable) :
    VersioningProgram Unit := do
  let create ← dolt (.sql table.schema)
  match create with
  | .ok _ => return ()
  | .error stderr =>
      if includesLower stderr "already exists" then
        let truncate ← dolt (.truncate table.name)
        expect ("sql (truncate " ++ table.name ++ ")") truncate
      else
        throw
          (.doltFailed ("sql (create " ++ table.name ++ ")")
            stderr)

/- The temporary file is removed in any case. -/
def reloadRows (table : ImportedTable) :
    VersioningProgram Unit := do
  scratch
  Async.andFinally
    (do
      scratch
      let imported ← dolt (.importRows table.name table.data)
      expect ("table import (" ++ table.name ++ ")") imported)
    (tryCatch scratch fun _ => return ())

def importTable (table : ImportedTable) :
    VersioningProgram Unit := do
  Async.ensure (safeTableRe table.name)
    (.unsafeTable table.name)
  recreateTable table
  if (dataLines table.data).length ≤ 1 then return ()
  else reloadRows table

/- The tables of a commit that are imported. -/
def importTables (tables : List ImportedTable) :
    List ImportedTable :=
  tables.filter fun table =>
    !isDoltFulltextInternalTable table.name

/- The hash of the commit that was made. -/
def readCommitHash : VersioningProgram String := do
  let hash ← dolt .latestHash
  let commitHash ← expect "log lookup" hash
  Async.ensure (commitHash ≠ "") .noCommitHash
  return commitHash

def runDoltCommitImport
    (commit : ImportedCommit)
    (branch : String) : VersioningProgram String := do
  checkoutTarget branch
  let imported := importTables commit.tables
  Async.forEach importTable imported
  let added ← dolt (.add (imported.map ImportedTable.name))
  expect "add" added
  let committed ←
    dolt (.commit (authorFlag commit.author) commit.message)
  expect "commit" committed
  readCommitHash

structure CommitImportResult where
  commitHash : String
  repo : String
  deriving DecidableEq, Repr

/- Import the commits that carry tables, one by one. -/
def importAll (branch : String) :
    List ImportedCommit → (lastCommitHash : String) →
      VersioningProgram String
  | [], lastCommitHash => return lastCommitHash
  | commit :: rest, lastCommitHash =>
      if commit.tables = [] then
        importAll branch rest lastCommitHash
      else do
        let commitHash ← runDoltCommitImport commit branch
        importAll branch rest commitHash

/- The base of a push, if the client sent one. -/
def pushBase : Option String → Option String
  | some hash => if hash = "" then none else some hash
  | none => none

/- Refuse a push whose base is not the current head. -/
def checkFastForward
    (base : Option String)
    (branch : String) : VersioningProgram Unit :=
  match pushBase base with
  | none => return ()
  | some base => do
      let currentHead ← dolt (.branchHead branch)
      match currentHead with
      | none => return ()
      | some currentHead =>
          Async.ensure
            (currentHead = "" ∨ currentHead = base)
            (.nonFastForward base currentHead)

def importCommits
    (repoId : String)
    (commits : List ImportedCommit)
    (base : Option String)
    (branch : String) :
    VersioningProgram CommitImportResult := do
  let found ← getRepo repoId
  Async.ensure found
    (.commitImport "lookup"
      ("Repo \"" ++ repoId ++ "\" not found"))
  Async.ensure (commits ≠ [])
    (.commitImport "validation" "No commits to import")
  checkFastForward base branch
  let lastCommitHash ← importAll branch commits ""
  Async.ensure (lastCommitHash ≠ "")
    (.commitImport "import"
      "No commits contained table data")
  return { commitHash := lastCommitHash, repo := repoId }

/- `base` is the field `from`. -/
structure PushCommitsBody where
  commits : List ImportedCommit
  base : Option String
  branch : Option String
  deriving DecidableEq, Repr

/- `z.string().min(least).max(most)` -/
def lengthWithin (least most : Nat) (text : String) : Bool :=
  let length := (Text.units text.toList).length
  least ≤ length && length ≤ most

def importedTableSchema (table : ImportedTable) : Bool :=
  lengthWithin 1 128 table.name && table.schema ≠ ""

def commitSchema (commit : ImportedCommit) : Bool :=
  lengthWithin 1 1024 commit.message &&
    lengthWithin 1 256 commit.author &&
    commit.tables.all importedTableSchema &&
    1 ≤ commit.tables.length && commit.tables.length ≤ 256

def pushCommitsBodySchema (body : PushCommitsBody) : Bool :=
  body.commits.all commitSchema &&
    1 ≤ body.commits.length && body.commits.length ≤ 100 &&
    body.branch.all (lengthWithin 1 128)

def DEFAULT_IMPORT_BRANCH : String := "main"

def PushCommitsBody.targetBranch
    (body : PushCommitsBody) : String :=
  body.branch.getD DEFAULT_IMPORT_BRANCH

/- The route, once the caller may write to the repository. -/
def pushCommits
    (repoId : String)
    (body : PushCommitsBody) :
    VersioningProgram CommitImportResult := do
  Async.ensure (pushCommitsBodySchema body) .invalidBody
  importCommits repoId body.commits body.base
    body.targetBranch

end Versioning
