import Deltix.Transfer.TransferOps

/-
  The ticket service: tickets are issued, consumed, renewed
  and closed, and the role behind a ticket is looked up
  again when it is consumed and when it is renewed.

  Key definitions include:
    * `sufficient`
    * `issueTicket`
    * `consumeTicket`
    * `renewTicket`
    * `closeTicket`
    * `grantRepoRole`

  Key theorems include:
    * `sufficient_push_iff`
-/

namespace Transfer

open Auth

def roleRank : RepoRole → Nat
  | .reader => 1
  | .writer => 2
  | .admin => 3

def minimumRoleForOperation : TransferOperation → RepoRole
  | .push => .writer
  | .pull => .reader

def roleText : RepoRole → String
  | .reader => "reader"
  | .writer => "writer"
  | .admin => "admin"

/- Whether a role, if any, allows an operation. -/
def sufficient
    (operation : TransferOperation) : Option RepoRole → Bool
  | some role =>
      roleRank (minimumRoleForOperation operation) ≤
        roleRank role
  | none => false

/- The role a user has on a repository. -/
def roleOn (db : UserDb) (username repo : String) :
    Option RepoRole :=
  (db.roles.find? (username, repo)).map
    RepoRoleAssignment.role

/- A grant to a user with a row goes through. -/
theorem upsertRole_grants
    {db : UserDb}
    {assignment : RepoRoleAssignment}
    (hUser : db.users.find? assignment.username ≠ none) :
    ∃ after,
      db.upsertRole assignment = (.ok (), after) ∧
        roleOn after assignment.username assignment.repoId =
          some assignment.role := by
  rcases db.upsertRole_cases assignment with
    ⟨_, hNone, _⟩ | ⟨_, roles, hGranted, hFind⟩
  · exact absurd hNone hUser
  · refine ⟨_, hGranted, ?_⟩
    unfold roleOn
    dsimp only
    rw [hFind, if_pos rfl]
    rfl

theorem sufficient_push_iff {role : Option RepoRole} :
    sufficient .push role = true ↔
      role = some .writer ∨ role = some .admin := by
  cases role with
  | none => simp [sufficient]
  | some role => cases role <;> decide

------------------------------------------------------------
-- Methods Of The Service
------------------------------------------------------------

open Concurrency

variable (config : TransferConfig)

def issueTicket
    (username : String)
    (operation : TransferOperation)
    (repo : String)
    (syncOptions : Option PushTicketSyncOptions) :
    TransferProgram Ticket := do
  let id ← perform .randomText
  let issuedAt ← now
  let current ← now
  let ticket : Ticket := {
    id := id
    username := username
    operation := operation
    repo := repo
    status := .issued
    issuedAt := issuedAt
    expiresAt := current + config.ttlSeconds * 1000
    syncOptions :=
      if operation = .push then syncOptions else none }
  tickets (.create ticket)
  return ticket

def assertRoleStillSufficient
    (username : String)
    (operation : TransferOperation)
    (repo : String) : TransferProgram Unit := do
  let role ← users (.getRepoRole username repo)
  Async.ensure (sufficient operation role) .ticketRoleRevoked

/- The look-up before the ticket is activated. -/
def preCheck
    (ticketId operation repo : String) :
    TransferProgram Unit := do
  let found ← tickets (.get ticketId)
  match found with
  | some ticket =>
      if ticket.operation.text = operation ∧
          ticket.repo = repo then
        assertRoleStillSufficient ticket.username
          ticket.operation repo
      else return ()
  | none => return ()

/- Why a ticket could not be activated. -/
def activationError
    (operation repo : String)
    (now : Nat)
    (ticket : Ticket) : TransferError :=
  if ticket.expiresAt ≤ now then .ticketExpired
  else if ticket.operation.text ≠ operation ∨
      ticket.repo ≠ repo then
    .ticketOperationMismatch
  else .ticketAlreadyConsumed

def consumeTicket
    (ticketId operation repo : String) :
    TransferProgram Ticket := do
  let current ← now
  preCheck ticketId operation repo
  let activated ←
    tickets (.activate ticketId operation repo current)
  let found ← tickets (.get ticketId)
  match found with
  | none => throw .ticketNotFound
  | some ticket =>
      if activated then return ticket
      else
        throw (activationError operation repo current ticket)

/- The look-up before the ticket is renewed. -/
def preRenew (ticketId : String) : TransferProgram Unit := do
  let found ← tickets (.get ticketId)
  match found with
  | some ticket =>
      assertRoleStillSufficient ticket.username
        ticket.operation ticket.repo
  | none => return ()

def renewTicket (ticketId : String) :
    TransferProgram Nat := do
  let current ← now
  let newExpiresAt := current + config.ttlSeconds * 1000
  preRenew ticketId
  let renewed ←
    tickets (.renew ticketId newExpiresAt current)
  if renewed then return newExpiresAt
  else
    let found ← tickets (.get ticketId)
    match found with
    | some ticket =>
        if ticket.status = .active then throw .ticketExpired
        else throw .ticketNotFound
    | none => throw .ticketNotFound

def closeTicket (ticketId : String) :
    TransferProgram Unit := do
  let closed ← tickets (.close ticketId)
  Async.ensure closed .ticketNotFound

def assertUserExists (username : String) :
    TransferProgram Unit := do
  let user ← users (.getByUsername username)
  match user with
  | some _ => return ()
  | none =>
      Async.ensure
        (config.legacyUsers.any fun candidate =>
          candidate.username = username)
        (.userNotFound username)

def grantRepoRole
    (username repoId : String)
    (role : RepoRole)
    (grantedBy : String) : TransferProgram Unit := do
  assertUserExists config username
  let grantedAt ← now
  users
    (.upsertRepoRole
      { username := username
        repoId := repoId
        role := role
        grantedAt := grantedAt
        grantedBy := grantedBy })

def revokeRepoRole (username repoId : String) :
    TransferProgram Unit := do
  let deleted ← users (.deleteRepoRole username repoId)
  Async.ensure deleted
    (.repoRoleAssignmentNotFound username repoId)

def grantRepoAdminToCreator (repoId username : String) :
    TransferProgram Unit :=
  grantRepoRole config username repoId .admin
    "repo-bootstrap"

def canUserCreateRepos (username : String) :
    TransferProgram Bool := do
  let user ← users (.getByUsername username)
  match user with
  | none => return false
  | some user =>
      return user.isGlobalAdmin || user.canCreateRepos

end Transfer
