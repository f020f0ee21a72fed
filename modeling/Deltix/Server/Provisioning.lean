import Deltix.Concurrency.Solo
import Deltix.Text.Json
import Deltix.Transfer.FirstPush
import Deltix.Versioning.RepoServices

/-
  The creation of a repository, by a request or by a first
  push: a directory, a repository of the binary in it, a
  record of it and a role on it, one after the other.

  Key definitions include:
    * `ProvisionState`
    * `ProvisionOp.exec`
    * `provision`
    * `postRepos`
    * `autoCreate`
    * `attempt`
    * `Vacant`
-/

------------------------------------------------------------
-- State
------------------------------------------------------------

namespace Server

namespace Provisioning

open Auth Concurrency Relational

structure RepoRecord where
  repoId : String
  doltPath : String
  createdAt : Nat
  createdBy : String
  deriving DecidableEq, Repr

abbrev RepoTable : Type :=
  KeyedTable RepoRecord.repoId

/- A directory, and whether the binary has a repository
   there. -/
inductive Directory where
  | absent
  | empty
  | initialized
  deriving DecidableEq, Repr

structure ProvisionConfig where
  doltReposRootPath : String
  legacyUsers : List LegacyUserRecord

structure ProvisionState where
  clock : Nat
  db : UserDb
  repos : RepoTable
  directories : String → Directory

def ProvisionConfig.doltPath
    (config : ProvisionConfig)
    (repoId : String) : String :=
  config.doltReposRootPath ++ "/" ++ repoId

/- How the binary has ended, and what it has written. -/
structure DoltExit where
  exitCode : Nat
  stderr : String
  deriving DecidableEq, Repr

inductive ProvisionOp where
  | now
  | users (statement : UserStatement)
  | getRepo (repoId : String)
  | createRepo (record : RepoRecord)
  | mkdir (doltPath : String)
  | doltInit (doltPath : String)

abbrev ProvisionOp.Answer : ProvisionOp → Type
  | .now => Nat
  | .users statement => Except StoreError statement.Answer
  | .getRepo _ => Except StoreError (Option RepoRecord)
  | .createRepo _ => Except StoreError Unit
  | .mkdir _ => Except String Unit
  | .doltInit _ => DoltExit

/- Whether an operation fails, with which text and code, and
   what the binary leaves behind then. -/
structure ProvisionChoice where
  fails : Bool
  text : String
  code : Nat
  leaves : Bool
  deriving DecidableEq, Repr

/- `INSERT INTO repos` -/
def insertRepo
    (record : RepoRecord)
    (repos : RepoTable) :
    Except StoreError Unit × RepoTable :=
  match repos.insert? record with
  | some after => (.ok (), after)
  | none => (.error .uniqueConstraint, repos)

def ProvisionState.setDirectory
    (s : ProvisionState)
    (path : String)
    (directory : Directory) : ProvisionState :=
  { s with
    directories := Function.update s.directories path directory }

def alreadyInitialized : DoltExit where
  exitCode := 1
  stderr := "This directory has already been initialized."

/- Run the binary.  It does not start over where it has been
   run, and one that fails may leave its files. -/
def initDirectory
    (path : String)
    (choice : ProvisionChoice)
    (s : ProvisionState) : DoltExit × ProvisionState :=
  if choice.fails then
    (⟨choice.code + 1, choice.text⟩,
      if choice.leaves then s.setDirectory path .initialized
      else s)
  else
    match s.directories path with
    | .absent => (⟨1, choice.text⟩, s)
    | .empty => (⟨0, ""⟩, s.setDirectory path .initialized)
    | .initialized => (alreadyInitialized, s)

/- `mkdir` with `recursive` -/
def makeDirectory
    (path : String)
    (s : ProvisionState) : ProvisionState :=
  match s.directories path with
  | .absent => s.setDirectory path .empty
  | _ => s

namespace ProvisionOp

def exec
    (op : ProvisionOp)
    (choice : ProvisionChoice)
    (s : ProvisionState) :
    Option (op.Answer × ProvisionState) :=
  match op with
  | .now => some (s.clock, s)
  | .users statement =>
      if choice.fails then some (.error .unavailable, s)
      else
        let result := statement.run s.db
        some (result.1, { s with db := result.2 })
  | .getRepo repoId =>
      if choice.fails then some (.error .unavailable, s)
      else some (.ok (s.repos.find? repoId), s)
  | .createRepo record =>
      if choice.fails then some (.error .unavailable, s)
      else
        let result := insertRepo record s.repos
        some (result.1, { s with repos := result.2 })
  | .mkdir path =>
      if choice.fails then some (.error choice.text, s)
      else some (.ok (), makeDirectory path s)
  | .doltInit path => some (initDirectory path choice s)

/- Run an operation that does not fail. -/
def steady
    (op : ProvisionOp)
    (choice : ProvisionChoice) :
    ProvisionState → Option (op.Answer × ProvisionState) :=
  op.exec { choice with fails := false }

end ProvisionOp

end Provisioning

end Server

namespace Server

namespace Provisioning

open Auth Concurrency Versioning

inductive ProvisionError where
  | store (error : StoreError)
  | system (message : String)
  | invalidRepoId (repoId : String)
  | alreadyProvisioned (repoId : String)
  | provisioningFailed (repoId message : String)
  | userNotFound (username : String)
  | cannotCreateRepos (username : String)
  deriving DecidableEq, Repr

def ProvisionError.message : ProvisionError → String
  | .store .uniqueConstraint => "UNIQUE constraint failed"
  | .store .foreignKeyConstraint =>
      "FOREIGN KEY constraint failed"
  | .store .unavailable => "database unavailable"
  | .system message => message
  | .invalidRepoId repoId =>
      "Invalid repoId \"" ++ repoId ++
        "\": must be 1-64 characters, " ++
        "letters/digits/dash/underscore only"
  | .alreadyProvisioned repoId =>
      "repoId \"" ++ repoId ++ "\" is already provisioned"
  | .provisioningFailed repoId message =>
      "Failed to provision Dolt repo for \"" ++ repoId ++
        "\": " ++ message
  | .userNotFound username =>
      "User " ++ username ++ " was not found"
  | .cannotCreateRepos username =>
      "User \"" ++ username ++ "\" cannot create repos — " ++
        "ask a global admin to grant canCreateRepos"

abbrev ProvisionProgram (α : Type) : Type :=
  Async ProvisionOp ProvisionOp.Answer ProvisionError α

def perform (op : ProvisionOp) : ProvisionProgram op.Answer :=
  Async.call op

/- The answer of the database, or its error thrown. -/
def answered {α : Type} :
    Except StoreError α → ProvisionProgram α
  | .ok value => .returned value
  | .error error => .threw (.store error)

def users
    (statement : UserStatement) :
    ProvisionProgram statement.Answer := do
  let answer ← perform (.users statement)
  answered answer

def getRepo (repoId : String) :
    ProvisionProgram (Option RepoRecord) := do
  let answer ← perform (.getRepo repoId)
  answered answer

def createRepo (record : RepoRecord) :
    ProvisionProgram Unit := do
  let answer ← perform (.createRepo record)
  answered answer

def mkdir (doltPath : String) : ProvisionProgram Unit := do
  let answer ← perform (.mkdir doltPath)
  match answer with
  | .ok _ => return ()
  | .error message => throw (.system message)

def exitedWith (result : DoltExit) : ProvisionError :=
  .system
    ("dolt init exited with code " ++
      toString result.exitCode ++ ": " ++ result.stderr)

def runDoltInit (doltPath : String) :
    ProvisionProgram Unit := do
  mkdir doltPath
  let result ← perform (.doltInit doltPath)
  Async.ensure (result.exitCode = 0) (exitedWith result)

variable (config : ProvisionConfig)

def provision (repoId createdBy : String) :
    ProvisionProgram RepoRecord := do
  Async.ensure (validRepoId repoId) (.invalidRepoId repoId)
  let existing ← getRepo repoId
  Async.ensure existing.isNone (.alreadyProvisioned repoId)
  let doltPath := config.doltPath repoId
  tryCatch (runDoltInit doltPath) fun error =>
    throw (.provisioningFailed repoId error.message)
  let createdAt ← perform .now
  let record : RepoRecord :=
    { repoId := repoId
      doltPath := doltPath
      createdAt := createdAt
      createdBy := createdBy }
  createRepo record
  return record

def assertUserExists (username : String) :
    ProvisionProgram Unit := do
  let user ← users (.getByUsername username)
  match user with
  | some _ => return ()
  | none =>
      Async.ensure
        (config.legacyUsers.any fun candidate =>
          candidate.username = username)
        (.userNotFound username)

def grantRepoRole
    (username repoId : String)
    (role : RepoRole)
    (grantedBy : String) : ProvisionProgram Unit := do
  assertUserExists config username
  let grantedAt ← perform .now
  users
    (.upsertRepoRole
      { username := username
        repoId := repoId
        role := role
        grantedAt := grantedAt
        grantedBy := grantedBy })

def grantRepoAdminToCreator (repoId username : String) :
    ProvisionProgram Unit :=
  grantRepoRole config username repoId .admin
    "repo-bootstrap"

def canUserCreateRepos (username : String) :
    ProvisionProgram Bool := do
  let user ← users (.getByUsername username)
  match user with
  | none => return false
  | some user =>
      return user.isGlobalAdmin || user.canCreateRepos

open Text

/- How an attempt ends that does not throw. -/
inductive Attempted where
  | created (record : RepoRecord)
  | response (status : Nat) (error : String)
  | notNeeded
  deriving DecidableEq, Repr

/- `provisionRequestSchema` -/
def parseRequest (body : Option String) : Option String :=
  body.filter fun repoId =>
    1 ≤ (js repoId).length && (js repoId).length ≤ 64

/- The response to an error of the service. -/
def refusal (error : ProvisionError) : Attempted :=
  match error with
  | .invalidRepoId _ => .response 400 error.message
  | .alreadyProvisioned _ => .response 409 error.message
  | _ => .response 500 error.message

variable (config : ProvisionConfig)

/- Create a repository and make a user its admin. -/
def provisionFor (repoId username : String) :
    ProvisionProgram Attempted := do
  let record ← provision config repoId username
  grantRepoAdminToCreator config record.repoId username
  return .created record

/- `POST /repos` -/
def postRepos (username body : Option String) :
    ProvisionProgram Attempted := do
  match username with
  | none => return .response 401 "Unauthorized"
  | some username =>
      let allowed ← canUserCreateRepos username
      if allowed then
        match parseRequest body with
        | none => return .response 400 "Invalid request body"
        | some repoId =>
            tryCatch (provisionFor config repoId username)
              fun error => return refusal error
      else return .response 403 "User cannot create repos"

/- The part of `onBeforePush` that creates repositories. -/
def autoCreate (repo username : String) :
    ProvisionProgram Attempted := do
  let existing ← getRepo repo
  if existing.isNone && validRepoId repo then
    let allowed ← canUserCreateRepos username
    Async.ensure allowed (.cannotCreateRepos username)
    provisionFor config repo username
  else return .notNeeded

inductive Caller where
  | request
  | push
  deriving DecidableEq, Repr

/- An attempt of a user to create a repository. -/
structure Attempt where
  caller : Caller
  username : String
  repoId : String
  deriving DecidableEq, Repr

def attempt (a : Attempt) : ProvisionProgram Attempted :=
  match a.caller with
  | .request => postRepos config (some a.username) (some a.repoId)
  | .push => autoCreate config a.repoId a.username

open Transfer

/- Nothing there is of a repository. -/
structure Vacant
    (config : ProvisionConfig)
    (repoId : String)
    (s : ProvisionState) : Prop where
  noRecord : s.repos.find? repoId = none
  noDirectory : s.directories (config.doltPath repoId) = .absent
  noRoles : ∀ user, roleOn s.db user repoId = none

/- The attempt has created the repository. -/
def Succeeds (outcome : Except ProvisionError Attempted) : Prop :=
  ∃ record, outcome = .ok (.created record)

/- With no step failing, anybody who may create repositories
   can create this one and becomes its admin. -/
def Retriable
    (config : ProvisionConfig)
    (repoId : String)
    (s : ProvisionState) : Prop :=
  ∀ caller username,
    FirstPush.mayCreateRepos s.db username = true →
      Ends ProvisionOp.steady
        (attempt config ⟨caller, username, repoId⟩) s
        fun _ outcome t =>
          Succeeds outcome ∧
            roleOn t.db username repoId = some .admin

/- An attempt that fails leaves nothing and can be repeated. -/
def Undone
    (config : ProvisionConfig)
    (repoId : String)
    (outcome : Except ProvisionError Attempted)
    (t : ProvisionState) : Prop :=
  ¬ Succeeds outcome →
    Vacant config repoId t ∧ Retriable config repoId t

end Provisioning

end Server
