import Deltix.Auth.AuthRouter
import Deltix.Concurrency.Solo
import Deltix.Transfer.TransferSystem

/-
  Who may do what with a repository: the role checks of the
  versioning routes, the inline one of the commit import and
  the one of the transfer tickets.

  Key definitions include:
    * `requireRepoRole`
    * `requireRepoRoleOrGlobalAdmin`
    * `pushCommitsAccess`
    * `RepoOperation`
    * `Server.passes`
    * `OnePolicy`

  Key theorems include:
    * `caller_requireRepoRoleOrGlobalAdmin`
    * `Server.passes_iff`
    * `onePolicy_iff`
-/

------------------------------------------------------------
-- Role Checks
------------------------------------------------------------

namespace Versioning

open Auth Concurrency
open Transfer (roleRank roleText)

/- Who was let through, and with which role. -/
structure RepoAccess where
  username : String
  role : RepoRole
  deriving DecidableEq, Repr

/- A check lets its caller through or answers itself. -/
abbrev RepoGate : Type :=
  AuthProgram (Except Response RepoAccess)

/- A role that is held, if it reaches the minimum. -/
def atLeast
    (minimumRole : RepoRole)
    (role : Option RepoRole) : Option RepoRole :=
  role.filter fun held => roleRank minimumRole ≤ roleRank held

def repoAccessDenied
    (username repoId : String)
    (minimumRole : RepoRole) : Response :=
  Response.error 403
    ("User " ++ username ++ " lacks " ++
      roleText minimumRole ++ " access to repo " ++ repoId)

/- The caller is the subject of the access token. -/
def requireUsername
    (caller : Option String)
    (gate : String → RepoGate) : RepoGate :=
  match caller with
  | none => .returned (.error (Response.error 401 "Unauthorized"))
  | some username => gate username

/- Global admins count as admins of every repository. -/
def requireRepoRole
    (caller : Option String)
    (repoId : String)
    (minimumRole : RepoRole) : RepoGate :=
  requireUsername caller fun username => do
    let role ← getRepoRole username repoId
    match atLeast minimumRole role with
    | some role => return .ok ⟨username, role⟩
    | none =>
        let admin ← isGlobalAdmin username
        if admin then return .ok ⟨username, .admin⟩
        else
          return .error
            (repoAccessDenied username repoId minimumRole)

/- The check before roles are listed, granted or revoked. -/
def requireRepoRoleOrGlobalAdmin
    (caller : Option String)
    (repoId : String)
    (minimumRole : RepoRole) : RepoGate :=
  requireUsername caller fun username => do
    let role ← getRepoRole username repoId
    match atLeast minimumRole role with
    | some role => return .ok ⟨username, role⟩
    | none =>
        let admin ← isGlobalAdmin username
        if admin then
          return .ok ⟨username, role.getD .admin⟩
        else
          return .error
            (repoAccessDenied username repoId minimumRole)

def authorizeRepoRequest
    (caller : Option String)
    (repoId : String)
    (minimumRole : RepoRole) : RepoGate :=
  if repoId = "" then
    .returned (.error (Response.error 400 "Missing repoId"))
  else requireRepoRole caller repoId minimumRole

/- The check that the commit import makes itself. -/
def pushCommitsAccess
    (caller : Option String)
    (repoId : String) : RepoGate :=
  requireUsername caller fun username => do
    let role ← getRepoRole username repoId
    match role.filter fun held =>
        held = .writer ∨ held = .admin with
    | some role => return .ok ⟨username, role⟩
    | none =>
        return .error
          (Response.error 403 "User lacks writer access to repo")

open Transfer (TransferConfig TransferState TransferChoice)

/- The operations on the data of a repository. -/
inductive RepoOperation where
  | pushCommits
  | merge
  | createBranch
  | checkoutBranch
  | pushTicket
  | log
  | diff
  | refs
  | pullCommits
  | pullTicket
  deriving DecidableEq, Repr

def RepoOperation.minimumRole : RepoOperation → RepoRole
  | .pushCommits => .writer
  | .merge => .writer
  | .createBranch => .writer
  | .checkoutBranch => .writer
  | .pushTicket => .writer
  | .log => .reader
  | .diff => .reader
  | .refs => .reader
  | .pullCommits => .reader
  | .pullTicket => .reader

/- A path parameter of a route that matches is not empty. -/
structure PathParam where
  text : String
  given : text ≠ ""

structure ServerConfig where
  auth : AuthConfig
  transfer : TransferConfig

/- The two contexts read one user store. -/
structure Server where
  auth : AuthState
  transfer : TransferState
  shared : transfer.db = auth.db

/-
  A caller and a repository, with what a run that nothing
  makes fail leaves open: the text that is drawn for a
  ticket, and the options in the body of its request.
-/
structure AccessRequest where
  username : String
  repo : PathParam
  sync : Option Transfer.PushTicketSyncOptions
  drawn : String
  random : Transfer.isRandomText drawn = true

def AccessRequest.choice
    (request : AccessRequest) : AuthChoice where
  fails := false
  text := request.drawn

def AccessRequest.ticketChoice
    (request : AccessRequest) : TransferChoice where
  fails := false
  text := request.drawn
  copied := none
  tables := none

namespace Server

variable (config : ServerConfig) (server : Server)
variable (request : AccessRequest)

/- A check of the versioning routes lets the caller through. -/
def admits (gate : Option String → String → RepoGate) : Bool :=
  match runWith (AuthOp.exec config.auth) request.choice
      (gate (some request.username) request.repo.text)
      server.auth with
  | some (.ok (.ok _), _) => true
  | _ => false

/- A ticket is not refused over a role. -/
def grantsTicket (operation : Transfer.TransferOperation) :
    Bool :=
  match runWith (Transfer.TransferOp.exec config.transfer)
      request.ticketChoice
      (Transfer.postPushTicket config.transfer
        (some request.username)
        (some ⟨operation, request.repo.text, request.sync⟩))
      server.transfer with
  | some (.ok (.response 403 _), _) => false
  | some _ => true
  | none => false

/- Whether an operation passes its role check. -/
def passes : RepoOperation → Bool
  | .pushCommits => server.admits config request pushCommitsAccess
  | .pushTicket => server.grantsTicket config request .push
  | .pullTicket => server.grantsTicket config request .pull
  | operation =>
      server.admits config request fun caller repoId =>
        authorizeRepoRequest caller repoId operation.minimumRole

/- The role and the flag that the user store holds. -/
def role : Option RepoRole :=
  Transfer.roleOn server.auth.db request.username
    request.repo.text

def globalAdmin : Bool :=
  ((server.auth.db.users.find? request.username).map
    UserRecord.isGlobalAdmin).getD false

/- Operations of one minimum role agree on the caller. -/
def OnePolicy : Prop :=
  ∀ operation other : RepoOperation,
    operation.minimumRole = other.minimumRole →
      server.passes config request operation =
        server.passes config request other

end Server

end Versioning

namespace Versioning

open Auth Concurrency Relational

variable {config : ServerConfig} {server : Server}
variable {request : AccessRequest}
variable {choice : AuthChoice} {s : AuthState}
variable {username repoId : String}

/- The two statements that the checks make, when neither
   fails. -/
theorem runWith_users
    {config : AuthConfig}
    {t : AuthState}
    {statement : UserStatement}
    {answer : statement.Answer}
    (hSteady : choice.fails = false)
    (hRun : statement.run s.db = (.ok answer, s.db))
    (hSame : t = s) :
    runWith (AuthOp.exec config) choice (users statement) s =
      some (.ok answer, t) := by
  subst hSame
  have hExec :
      (AuthOp.users statement).exec config choice t =
        some (.ok answer, t) := by
    simp only [AuthOp.exec, hSteady, Bool.false_eq_true,
      if_false, hRun]
  unfold users Auth.perform Async.call
  rw [Async.bind_await, runWith_await hExec]
  rfl

theorem runWith_getRepoRole
    {config : AuthConfig}
    (hSteady : choice.fails = false) :
    runWith (AuthOp.exec config) choice
        (getRepoRole username repoId) s =
      some (.ok (Transfer.roleOn s.db username repoId), s) := by
  unfold getRepoRole
  exact runWith_users hSteady rfl rfl

theorem runWith_isGlobalAdmin
    {config : AuthConfig}
    (hSteady : choice.fails = false) :
    runWith (AuthOp.exec config) choice
        (isGlobalAdmin username) s =
      some
        (.ok
          (((s.db.users.find? username).map
            UserRecord.isGlobalAdmin).getD false), s) := by
  have hFind :
      runWith (AuthOp.exec config) choice
          (users (.getByUsername username)) s =
        some (.ok (s.db.users.find? username), s) :=
    runWith_users hSteady rfl rfl
  unfold isGlobalAdmin
  rw [Async.bind_eq, runWith_bind, hFind]
  rfl

/- Either a role that is high enough or the flag of a global
   admin is enough. -/
theorem runWith_requireRepoRole
    {config : AuthConfig}
    {minimumRole : RepoRole}
    (hSteady : choice.fails = false) :
    runWith (AuthOp.exec config) choice
        (requireRepoRole (some username) repoId minimumRole) s =
      some
        (.ok
          (match atLeast minimumRole
              (Transfer.roleOn s.db username repoId) with
          | some role => .ok ⟨username, role⟩
          | none =>
              if ((s.db.users.find? username).map
                  UserRecord.isGlobalAdmin).getD false then
                .ok ⟨username, .admin⟩
              else
                .error
                  (repoAccessDenied username repoId
                    minimumRole)),
          s) := by
  unfold requireRepoRole requireUsername
  simp only [Async.bind_eq, Async.pure_eq_returned]
  rw [runWith_bind_ok (runWith_getRepoRole hSteady)]
  split
  · rfl
  · rw [runWith_bind_ok (runWith_isGlobalAdmin hSteady)]
    split
    · rfl
    · rfl

/- Whom a check lets through, or what it answers itself. -/
def RepoGate.caller
    (gate : RepoGate) :
    AuthProgram (Except Response String) :=
  gate.bind fun access => return access.map RepoAccess.username

/-
  The check that is kept apart for the roles lets through
  and turns away as the other does, with the same statements
  on the way: a global admin passes both.
-/
theorem caller_requireRepoRoleOrGlobalAdmin
    (caller : Option String)
    (repoId : String)
    (minimumRole : RepoRole) :
    (requireRepoRoleOrGlobalAdmin caller repoId
        minimumRole).caller =
      (requireRepoRole caller repoId minimumRole).caller := by
  unfold RepoGate.caller requireRepoRoleOrGlobalAdmin
    requireRepoRole
  cases caller with
  | none => rfl
  | some username =>
      dsimp only [requireUsername]
      rw [Async.bind_eq, Async.bind_eq, Async.bind_assoc,
        Async.bind_assoc]
      congr 1
      funext role
      cases atLeast minimumRole role with
      | some held => rfl
      | none =>
          dsimp only
          rw [Async.bind_eq, Async.bind_eq, Async.bind_assoc,
            Async.bind_assoc]
          congr 1
          funext admin
          cases admin with
          | true => rfl
          | false => rfl

theorem admits_authorizeRepoRequest
    (minimumRole : RepoRole) :
    server.admits config request
        (fun caller repoId =>
          authorizeRepoRequest caller repoId minimumRole) =
      ((atLeast minimumRole (server.role request)).isSome ||
        server.globalAdmin request) := by
  have hGiven := request.repo.given
  unfold Server.admits authorizeRepoRequest
  simp only [hGiven, if_false]
  rw [runWith_requireRepoRole rfl]
  unfold Server.role Server.globalAdmin
  cases hRole :
      atLeast minimumRole
        (Transfer.roleOn server.auth.db request.username
          request.repo.text) with
  | some role => rfl
  | none =>
      cases hAdmin :
          ((server.auth.db.users.find? request.username).map
            UserRecord.isGlobalAdmin).getD false with
      | true => rfl
      | false => rfl

/- A global admin gets no further here. -/
theorem admits_pushCommitsAccess :
    server.admits config request pushCommitsAccess =
      (atLeast .writer (server.role request)).isSome := by
  have hRole :
      runWith (AuthOp.exec config.auth) request.choice
          (getRepoRole request.username request.repo.text)
          server.auth =
        some (.ok (server.role request), server.auth) :=
    runWith_getRepoRole rfl
  unfold Server.admits pushCommitsAccess requireUsername
  simp only [Async.bind_eq, Async.pure_eq_returned]
  rw [runWith_bind_ok hRole]
  cases server.role request with
  | none => rfl
  | some role =>
      cases role with
      | reader => rfl
      | writer => rfl
      | admin => rfl

open Transfer (TransferOp TransferState sufficient)

theorem runWith_ticketRole
    {s : TransferState}
    {repo : String} :
    runWith (TransferOp.exec config.transfer)
        request.ticketChoice
        (Transfer.users (.getRepoRole request.username repo))
        s =
      some
        (.ok (Transfer.roleOn s.db request.username repo), s) :=
  rfl

/- Nothing blocks a request for a ticket. -/
theorem request_enabled
    {α : Type}
    (body : Transfer.TransferProgram α)
    (s : TransferState) :
    (runWith (TransferOp.exec config.transfer)
      request.ticketChoice body s).isSome := by
  have hRandom := request.random
  apply runWith_isSome
  intro op u
  simp [TransferOp.exec, AccessRequest.ticketChoice, hRandom]

theorem grantsTicket_iff
    {operation : Transfer.TransferOperation} :
    server.grantsTicket config request operation =
      sufficient operation (server.role request) := by
  have hRole :
      runWith (TransferOp.exec config.transfer)
          request.ticketChoice
          (Transfer.users
            (.getRepoRole request.username request.repo.text))
          server.transfer =
        some (.ok (server.role request), server.transfer) := by
    rw [runWith_ticketRole, server.shared]
    rfl
  unfold Server.grantsTicket Transfer.postPushTicket
    Transfer.issueForRole
  simp only [Async.bind_eq, Async.pure_eq_returned]
  rw [runWith_bind_ok hRole]
  cases hSufficient :
      sufficient operation (server.role request) with
  | false => rfl
  | true =>
      have hEnds :
          (runWith (TransferOp.exec config.transfer)
            request.ticketChoice
            (Transfer.issueTicket config.transfer
              request.username operation request.repo.text
              request.sync)
            server.transfer).isSome :=
        request_enabled _ _
      rw [if_pos rfl, runWith_bind]
      rcases Option.isSome_iff_exists.mp hEnds with
        ⟨⟨outcome, t⟩, hIssue⟩
      rw [hIssue]
      cases outcome with
      | ok ticket => rfl
      | error error => rfl

end Versioning

------------------------------------------------------------
-- One Policy
------------------------------------------------------------

namespace Versioning

open Auth Transfer

variable {config : ServerConfig} {server : Server}
variable {request : AccessRequest}

theorem atLeast_writer_isSome (role : Option RepoRole) :
    (atLeast .writer role).isSome = sufficient .push role := by
  cases role with
  | none => rfl
  | some role => cases role <;> rfl

theorem atLeast_reader_isSome (role : Option RepoRole) :
    (atLeast .reader role).isSome = sufficient .pull role := by
  cases role with
  | none => rfl
  | some role => cases role <;> rfl

/- Whether the check of an operation heeds the flag. -/
def RepoOperation.heedsGlobalAdmin : RepoOperation → Bool
  | .pushCommits => false
  | .pushTicket => false
  | .pullTicket => false
  | _ => true

/- What an operation demands of the user store. -/
theorem Server.passes_iff (operation : RepoOperation) :
    server.passes config request operation =
      ((atLeast operation.minimumRole
            (server.role request)).isSome ||
        (operation.heedsGlobalAdmin &&
          server.globalAdmin request)) := by
  cases operation with
  | pushCommits =>
      rw [Server.passes, admits_pushCommitsAccess]
      simp [RepoOperation.minimumRole,
        RepoOperation.heedsGlobalAdmin]
  | pushTicket =>
      rw [Server.passes, grantsTicket_iff]
      simp [RepoOperation.minimumRole,
        RepoOperation.heedsGlobalAdmin, atLeast_writer_isSome]
  | pullTicket =>
      rw [Server.passes, grantsTicket_iff]
      simp [RepoOperation.minimumRole,
        RepoOperation.heedsGlobalAdmin, atLeast_reader_isSome]
  | _ =>
      rw [Server.passes, admits_authorizeRepoRequest]
      · simp [RepoOperation.heedsGlobalAdmin]
      all_goals exact nofun

/- Who may write may do all of it. -/
theorem atLeast_of_writes
    {role : Option RepoRole}
    (operation : RepoOperation)
    (hWrites : sufficient .push role = true) :
    (atLeast operation.minimumRole role).isSome = true := by
  rcases sufficient_push_iff.mp hWrites with hRole | hRole
  · subst hRole
    cases operation <;> rfl
  · subst hRole
    cases operation <;> rfl

/- The operations agree on everyone but the global admins
   whose own role would not let them write. -/
theorem onePolicy_iff
    (config : ServerConfig)
    (server : Server)
    (request : AccessRequest) :
    server.OnePolicy config request ↔
      (server.globalAdmin request = true →
        sufficient .push (server.role request) = true) := by
  unfold Server.OnePolicy
  simp only [Server.passes_iff]
  constructor
  · intro hAgree hAdmin
    have hSame := hAgree .pushCommits .merge rfl
    simpa [RepoOperation.minimumRole,
      RepoOperation.heedsGlobalAdmin, hAdmin,
      atLeast_writer_isSome] using hSame
  · intro hWrites operation other hMinimum
    rw [hMinimum]
    cases hAdmin : server.globalAdmin request with
    | false => simp
    | true =>
        have hSome :
            (atLeast other.minimumRole
              (server.role request)).isSome = true :=
          atLeast_of_writes other (hWrites hAdmin)
        simp [hSome]

/- A global admin without a role on any repository. -/
def rootOnly : UserDb where
  users :=
    { rows :=
        [ { username := "root"
            passwordHash := ""
            createdAt := 0
            createdBy := "setup-wizard"
            active := true
            lastLoginAt := none
            isGlobalAdmin := true
            canCreateRepos := true } ]
      distinct := by simp }
  roles := Relational.KeyedTable.empty
  foreignKeys := false

def ownerless : Server where
  auth :=
    { clock := 0
      db := rootOnly
      sessions := Relational.KeyedTable.empty
      rateLimiter :=
        { maxAttempts := 5
          windowMs := 60000
          attempts := fun _ => none } }
  transfer :=
    { withRole .writer with db := rootOnly }
  shared := rfl

def rootOnR : AccessRequest where
  username := "root"
  repo := ⟨"r", by decide⟩
  sync := none
  drawn := "ticket"
  random := by decide

def plainServer : ServerConfig where
  auth :=
    { accessTokenTtlSeconds := 900
      sessionTtlSeconds := 3600
      bootstrapAdminConfigured := false
      legacySeedUsers := []
      verifies := fun _ _ => false
      verifies_empty := fun _ => rfl }
  transfer := smallConfig

/- It may merge into `r`, but not push to it. -/
theorem ownerless_disagrees :
    ownerless.passes plainServer rootOnR .merge = true ∧
      ownerless.passes plainServer rootOnR .pushCommits =
        false ∧
      ownerless.passes plainServer rootOnR .pullCommits =
        true ∧
      ownerless.passes plainServer rootOnR .pullTicket =
        false ∧
      ¬ ownerless.OnePolicy plainServer rootOnR := by
  refine
    ⟨by decide, by decide, by decide, by decide, ?_⟩
  intro hAgree
  have hSame := hAgree .merge .pushCommits rfl
  revert hSame
  decide

end Versioning
