import Deltix.Auth.LoginRateLimiter
import Deltix.Auth.SessionStore
import Deltix.Concurrency.RelyGuarantee

/-
  The authentication service: its methods as computations
  over the statements of the two stores, the clock, the
  login limiter, and the cryptographic calls it makes.

  Key definitions include:
    * `AuthConfig`
    * `AuthState`
    * `AuthOp`
    * `AuthOp.exec`
    * `login`
    * `refresh`
    * `deactivateUser`
    * `deleteUser`
    * `AuthCall`
    * `authSystem`

  Key theorems include:
    * `AuthOp.exec_frame`
-/

namespace Auth

/- The error classes of the service. -/
inductive AuthError where
  | invalidCredentials
  | tooManyLoginAttempts (retryAfterMs : Nat)
  | sessionNotFound
  | sessionExpired
  | userInactive (username : String)
  | userAlreadyExists (username : String)
  | userNotFound (username : String)
  | userHasActiveSessions (username : String)
  | setupAlreadyConfigured (message : String)
  | repoRoleAssignmentNotFound (username repoId : String)
  | store (error : StoreError)
  | crypto (reason : String)
  deriving DecidableEq, Repr

def AuthError.message : AuthError → String
  | .invalidCredentials => "Invalid username or password"
  | .tooManyLoginAttempts retryAfterMs =>
      "Too many login attempts, retry after " ++
        toString retryAfterMs ++ "ms"
  | .sessionNotFound => "Session not found or already revoked"
  | .sessionExpired =>
      "Session has expired due to inactivity"
  | .userInactive username =>
      "User " ++ username ++ " is deactivated"
  | .userAlreadyExists username =>
      "User " ++ username ++ " already exists"
  | .userNotFound username =>
      "User " ++ username ++ " was not found"
  | .userHasActiveSessions username =>
      "User " ++ username ++ " still has active sessions"
  | .setupAlreadyConfigured message => message
  | .repoRoleAssignmentNotFound username repoId =>
      "Repo role assignment not found for user " ++
        username ++ " on repo " ++ repoId
  | .store .uniqueConstraint => "UNIQUE constraint failed"
  | .store .foreignKeyConstraint =>
      "FOREIGN KEY constraint failed"
  | .store .unavailable => "database unavailable"
  | .crypto reason => reason

structure LoginResult where
  username : String
  accessToken : String
  refreshToken : String
  expiresInSeconds : Nat
  isGlobalAdmin : Bool
  canCreateRepos : Bool
  deriving DecidableEq, Repr

structure CreateUserInput where
  username : String
  password : String
  createdBy : String
  isGlobalAdmin : Option Bool
  canCreateRepos : Option Bool
  deriving DecidableEq, Repr

structure UserSummary where
  username : String
  createdAt : Nat
  createdBy : String
  active : Bool
  lastLoginAt : Option Nat
  activeSessions : Nat
  isGlobalAdmin : Bool
  canCreateRepos : Bool
  deriving DecidableEq, Repr

structure SetupStatus where
  eligible : Bool
  reason : String
  deriving DecidableEq, Repr

------------------------------------------------------------
-- Operations
------------------------------------------------------------

open Concurrency Relational

/-
  What the service is configured with.  The password hash
  function is the runtime's; it accepts no password for an
  empty hash.
-/
structure AuthConfig where
  accessTokenTtlSeconds : Nat
  sessionTtlSeconds : Nat
  bootstrapAdminConfigured : Bool
  legacySeedUsers : List LegacyUserRecord
  verifies : String → String → Bool
  verifies_empty : ∀ password, verifies password "" = false

structure AuthState where
  clock : Nat
  db : UserDb
  sessions : SessionTable
  rateLimiter : LoginRateLimiter

/-
  What the service does in one atomic step.  `elapse` is the
  passing of time.
-/
inductive AuthOp where
  | now
  | elapse (ms : Nat)
  | users (statement : UserStatement)
  | sessions (statement : SessionStatement)
  | admitAttempt (username : String)
  | verifyPassword (plainPassword hash : String)
  | hashPassword (plainPassword : String)
  | issueAccessToken (username : String)
  | randomBytes

abbrev AuthOp.Answer : AuthOp → Type
  | .now => Nat
  | .elapse _ => Unit
  | .users statement => Except StoreError statement.Answer
  | .sessions statement => Except StoreError statement.Answer
  | .admitAttempt _ => Except Nat Unit
  | .verifyPassword _ _ => Bool
  | .hashPassword _ => String
  | .issueAccessToken _ => Except String String
  | .randomBytes => String

/-
  What a step leaves open: whether a call fails, and the
  text that a random or cryptographic call yields.
-/
structure AuthChoice where
  fails : Bool
  text : String

namespace AuthOp

/- Run an operation. -/
def exec
    (config : AuthConfig) :
    (op : AuthOp) → AuthChoice → AuthState →
      Option (op.Answer × AuthState)
  | .now, _, s => some (s.clock, s)
  | .elapse ms, _, s =>
      some ((), { s with clock := s.clock + ms })
  | .users statement, choice, s =>
      if choice.fails then some (.error .unavailable, s)
      else
        let result := statement.run s.db
        some (result.1, { s with db := result.2 })
  | .sessions statement, choice, s =>
      if choice.fails then some (.error .unavailable, s)
      else
        let result := statement.run s.sessions
        some (result.1, { s with sessions := result.2 })
  | .admitAttempt username, _, s =>
      match s.rateLimiter.assertAllowed username s.clock with
      | .error retryAfterMs => some (.error retryAfterMs, s)
      | .ok limiter =>
          some (.ok (),
            { s with
              rateLimiter :=
                limiter.recordAttempt username s.clock })
  | .verifyPassword plainPassword hash, _, s =>
      some (config.verifies plainPassword hash, s)
  | .hashPassword _, choice, s => some (choice.text, s)
  | .issueAccessToken _, choice, s =>
      if choice.fails then some (.error choice.text, s)
      else some (.ok choice.text, s)
  | .randomBytes, choice, s => some (choice.text, s)

/- Run an operation that does not fail. -/
def steady
    (config : AuthConfig)
    (op : AuthOp)
    (choice : AuthChoice) :
    AuthState → Option (op.Answer × AuthState) :=
  op.exec config { choice with fails := false }

end AuthOp

section ExecCases

variable {config : AuthConfig} {op : AuthOp}
variable {choice : AuthChoice} {s t : AuthState}
variable {answer : op.Answer}

/- An operation that is no statement only changes the clock
   and the limiter. -/
theorem AuthOp.exec_frame
    (hExec : op.exec config choice s = some (answer, t)) :
    s.clock ≤ t.clock ∧
      (t.db = s.db ∨
        ∃ statement, op = .users statement ∧
          t.db = (statement.run s.db).2) ∧
      (t.sessions = s.sessions ∨
        ∃ statement, op = .sessions statement ∧
          t.sessions = (statement.run s.sessions).2) := by
  cases op with
  | elapse ms =>
      cases hExec
      exact ⟨Nat.le_add_right s.clock ms,
        Or.inl rfl, Or.inl rfl⟩
  | users statement =>
      by_cases hFails : choice.fails = true
      · simp only [exec, hFails, if_true, Option.some.injEq,
          Prod.mk.injEq] at hExec
        rw [← hExec.2]
        exact ⟨le_refl _, Or.inl rfl, Or.inl rfl⟩
      · simp only [exec, hFails, Bool.false_eq_true, if_false,
          Option.some.injEq, Prod.mk.injEq] at hExec
        rw [← hExec.2]
        exact ⟨le_refl _, Or.inr ⟨statement, rfl, rfl⟩,
          Or.inl rfl⟩
  | sessions statement =>
      by_cases hFails : choice.fails = true
      · simp only [exec, hFails, if_true, Option.some.injEq,
          Prod.mk.injEq] at hExec
        rw [← hExec.2]
        exact ⟨le_refl _, Or.inl rfl, Or.inl rfl⟩
      · simp only [exec, hFails, Bool.false_eq_true, if_false,
          Option.some.injEq, Prod.mk.injEq] at hExec
        rw [← hExec.2]
        exact ⟨le_refl _, Or.inl rfl,
          Or.inr ⟨statement, rfl, rfl⟩⟩
  | admitAttempt username =>
      cases hAllowed :
          s.rateLimiter.assertAllowed username s.clock with
      | error retryAfterMs =>
          simp only [exec, hAllowed, Option.some.injEq,
            Prod.mk.injEq] at hExec
          rw [← hExec.2]
          exact ⟨le_refl _, Or.inl rfl, Or.inl rfl⟩
      | ok limiter =>
          simp only [exec, hAllowed, Option.some.injEq,
            Prod.mk.injEq] at hExec
          rw [← hExec.2]
          exact ⟨le_refl _, Or.inl rfl, Or.inl rfl⟩
  | issueAccessToken username =>
      by_cases hFails : choice.fails = true
      · simp only [exec, hFails, if_true, Option.some.injEq,
          Prod.mk.injEq] at hExec
        rw [← hExec.2]
        exact ⟨le_refl _, Or.inl rfl, Or.inl rfl⟩
      · simp only [exec, hFails, Bool.false_eq_true, if_false,
          Option.some.injEq, Prod.mk.injEq] at hExec
        rw [← hExec.2]
        exact ⟨le_refl _, Or.inl rfl, Or.inl rfl⟩
  | _ =>
      cases hExec
      exact ⟨le_refl _, Or.inl rfl, Or.inl rfl⟩

end ExecCases

/- A method of the service. -/
abbrev AuthProgram (α : Type) : Type :=
  Async AuthOp AuthOp.Answer AuthError α

/- Await an operation. -/
def perform (op : AuthOp) : AuthProgram op.Answer :=
  Async.call op

/- Await a statement of the user store. -/
def users
    (statement : UserStatement) :
    AuthProgram statement.Answer :=
  (perform (.users statement)).bind fun
    | .ok answer => .returned answer
    | .error error => .threw (.store error)

/- Await a statement of the session store. -/
def sessions
    (statement : SessionStatement) :
    AuthProgram statement.Answer :=
  (perform (.sessions statement)).bind fun
    | .ok answer => .returned answer
    | .error error => .threw (.store error)

def now : AuthProgram Nat := perform .now

variable (config : AuthConfig)

def createSession (username : String) :
    AuthProgram String := do
  let refreshToken ← perform .randomBytes
  let expiresAt ← now
  let createdAt ← now
  sessions
    (.create refreshToken username createdAt
      (expiresAt + config.sessionTtlSeconds * 1000))
  return refreshToken

/- The session of a token, unless it is gone or expired. -/
def activeSession (refreshToken : String) :
    AuthProgram StoredSession := do
  let session ← sessions (.get refreshToken)
  match session with
  | none => throw .sessionNotFound
  | some session =>
      let current ← now
      if session.expiresAt < current then
        throw .sessionExpired
      else
        return session

def assertActive (refreshToken : String) :
    AuthProgram Unit := do
  let _ ← activeSession refreshToken
  return ()

def usernameFor (refreshToken : String) :
    AuthProgram String := do
  let session ← activeSession refreshToken
  return session.username

def keepAlive (refreshToken : String) :
    AuthProgram Unit := do
  assertActive refreshToken
  let current ← now
  sessions
    (.touch refreshToken
      (current + config.sessionTtlSeconds * 1000))

/- The hash that is compared when no user was found. -/
def DUMMY_HASH_FOR_TIMING_PARITY : String :=
  "$argon2id$v=19$m=65536,t=2,p=1" ++
    "$AAAAAAAAAAAAAAAAAAAAAA" ++
    "$AAAAAAAAAAAAAAAAAAAAAAAAAAAAAAAAAAAAAAAAAAA"

def verifyCredentials
    (username plainPassword : String)
    (candidates : List UserRecord) :
    AuthProgram String := do
  let user :=
    candidates.find? fun candidate =>
      candidate.username = username
  let hashToCompare :=
    match user with
    | some user => user.passwordHash
    | none => DUMMY_HASH_FOR_TIMING_PARITY
  let isValid ←
    perform (.verifyPassword plainPassword hashToCompare)
  match user with
  | some user =>
      if isValid then return user.username
      else throw .invalidCredentials
  | none => throw .invalidCredentials

def issueAccessToken (username : String) :
    AuthProgram String :=
  (perform (.issueAccessToken username)).bind fun
    | .ok token => .returned token
    | .error reason => .threw (.crypto reason)

------------------------------------------------------------
-- Methods Of The Service
------------------------------------------------------------

/-
  The record a login is checked against.  The source leaves
  `canCreateRepos` undefined in the two records it makes up.
-/
def findUserForLogin (username : String) :
    AuthProgram UserRecord := do
  let dbUser ← users (.getByUsername username)
  match dbUser with
  | some user => return user
  | none =>
      let legacyUser :=
        config.legacySeedUsers.find? fun candidate =>
          candidate.username = username
      match legacyUser with
      | some legacyUser =>
          return {
            username := legacyUser.username
            passwordHash := legacyUser.passwordHash
            createdAt := 0
            createdBy := "legacy-env"
            active := true
            lastLoginAt := none
            isGlobalAdmin := false
            canCreateRepos := false }
      | none =>
          return {
            username := username
            passwordHash := ""
            createdAt := 0
            createdBy := "unknown"
            active := true
            lastLoginAt := none
            isGlobalAdmin := false
            canCreateRepos := false }

def login (username password : String) :
    AuthProgram LoginResult := do
  let admitted ← perform (.admitAttempt username)
  match admitted with
  | .error retryAfterMs =>
      throw (.tooManyLoginAttempts retryAfterMs)
  | .ok () =>
      let user ← findUserForLogin config username
      Async.ensure user.active (.userInactive username)
      let authenticatedUsername ←
        verifyCredentials username password [user]
      let lastLoginAt ← now
      let _ ←
        users
          (.updateLastLogin authenticatedUsername lastLoginAt)
      let accessToken ←
        issueAccessToken authenticatedUsername
      let refreshToken ←
        createSession config authenticatedUsername
      return {
        username := authenticatedUsername
        accessToken := accessToken
        refreshToken := refreshToken
        expiresInSeconds := config.accessTokenTtlSeconds
        isGlobalAdmin := user.isGlobalAdmin
        canCreateRepos := user.canCreateRepos }

def refresh (refreshToken : String) :
    AuthProgram LoginResult := do
  let username ← usernameFor refreshToken
  keepAlive config refreshToken
  let accessToken ← issueAccessToken username
  let user ← users (.getByUsername username)
  return {
    username := username
    accessToken := accessToken
    refreshToken := refreshToken
    expiresInSeconds := config.accessTokenTtlSeconds
    isGlobalAdmin :=
      (user.map UserRecord.isGlobalAdmin).getD false
    canCreateRepos :=
      (user.map UserRecord.canCreateRepos).getD false }

def logout (refreshToken : String) : AuthProgram Unit :=
  sessions (.revoke refreshToken)

def buildUserRecord
    (username password createdBy : String)
    (isGlobalAdmin canCreateRepos : Bool) :
    AuthProgram UserRecord := do
  let passwordHash ← perform (.hashPassword password)
  let createdAt ← now
  return {
    username := username
    passwordHash := passwordHash
    createdAt := createdAt
    createdBy := createdBy
    active := true
    lastLoginAt := none
    isGlobalAdmin := isGlobalAdmin
    canCreateRepos := canCreateRepos }

def createUser (input : CreateUserInput) :
    AuthProgram UserRecord := do
  let existing ← users (.getByUsername input.username)
  Async.ensure existing.isNone
    (.userAlreadyExists input.username)
  let record ←
    buildUserRecord input.username input.password
      input.createdBy (input.isGlobalAdmin.getD false)
      (input.canCreateRepos.getD true)
  users (.create record)
  return record

/- Sessions are counted for the users one after another. -/
def listUsers : AuthProgram (List UserSummary) := do
  let records ← users .list
  summarise records
where
  summarise :
      List UserRecord → AuthProgram (List UserSummary)
    | [] => return []
    | user :: rest => do
        let current ← now
        let activeSessions ←
          sessions
            (.countActiveSessionsForUser user.username
              current)
        let summaries ← summarise rest
        return {
          username := user.username
          createdAt := user.createdAt
          createdBy := user.createdBy
          active := user.active
          lastLoginAt := user.lastLoginAt
          activeSessions := activeSessions
          isGlobalAdmin := user.isGlobalAdmin
          canCreateRepos := user.canCreateRepos } ::
            summaries

/- Throw unless a statement has updated its user. -/
def requireUser (username : String) (updated : Bool) :
    AuthProgram Unit :=
  Async.ensure updated (.userNotFound username)

def deactivateUser (username : String) :
    AuthProgram Unit := do
  let updated ← users (.setActive username false)
  requireUser username updated

def reactivateUser (username : String) :
    AuthProgram Unit := do
  let updated ← users (.setActive username true)
  requireUser username updated

def deleteUser (username : String) :
    AuthProgram Unit := do
  let current ← now
  let activeSessions ←
    sessions (.countActiveSessionsForUser username current)
  Async.ensure (activeSessions = 0)
    (.userHasActiveSessions username)
  let deleted ← users (.delete username)
  requireUser username deleted

def setGlobalAdmin
    (username : String)
    (isGlobalAdmin : Bool) :
    AuthProgram Unit := do
  let updated ←
    users (.setGlobalAdmin username isGlobalAdmin)
  requireUser username updated

def setCanCreateRepos
    (username : String)
    (canCreateRepos : Bool) :
    AuthProgram Unit := do
  let updated ←
    users (.setCanCreateRepos username canCreateRepos)
  requireUser username updated

def isGlobalAdmin (username : String) :
    AuthProgram Bool := do
  let user ← users (.getByUsername username)
  return (user.map UserRecord.isGlobalAdmin).getD false

def getSetupStatus : AuthProgram SetupStatus := do
  if config.bootstrapAdminConfigured then
    return {
      eligible := false
      reason := "bootstrap_env_configured" }
  else
    let count ← users .count
    if count = 0 then
      return { eligible := true, reason := "not_configured" }
    else
      return { eligible := false, reason := "users_exist" }

def setupAlreadyConfiguredMessage : String :=
  "Initial admin setup is no longer available"

def setupFirstAdmin (username password : String) :
    AuthProgram UserRecord := do
  let status ← getSetupStatus config
  Async.ensure status.eligible
    (.setupAlreadyConfigured setupAlreadyConfiguredMessage)
  let record ←
    buildUserRecord username password "setup-wizard" true true
  let created ← users (.tryCreateFirstUser record)
  if created then return record
  else
    throw
      (.setupAlreadyConfigured setupAlreadyConfiguredMessage)

def ensureBootstrapAdmin :
    Option (String × String) → AuthProgram Unit
  | none => return ()
  | some (username, password) => do
      let count ← users .count
      if count > 0 then
        let existing ← users (.getByUsername username)
        match existing with
        | some user =>
            if user.isGlobalAdmin then return ()
            else
              let _ ← users (.setGlobalAdmin username true)
              return ()
        | none => return ()
      else
        let record ←
          buildUserRecord username password "bootstrap-env"
            true true
        let created ← users (.tryCreateFirstUser record)
        if created then return ()
        else
          throw
            (.setupAlreadyConfigured
              ("Bootstrap admin could not be created " ++
                "because setup already completed"))

def getRepoRole (username repoId : String) :
    AuthProgram (Option RepoRole) :=
  users (.getRepoRole username repoId)

def listRepoRoles (repoId : String) :
    AuthProgram (List RepoRoleAssignment) :=
  users (.listRepoRoles repoId)

/- Throw unless a name has a row or is a legacy user. -/
def assertUserExists (username : String) :
    AuthProgram Unit := do
  let user ← users (.getByUsername username)
  match user with
  | some _ => return ()
  | none =>
      Async.ensure
        (config.legacySeedUsers.any fun candidate =>
          candidate.username = username)
        (.userNotFound username)

def grantRepoRole
    (username repoId : String)
    (role : RepoRole)
    (grantedBy : String) :
    AuthProgram RepoRoleAssignment := do
  assertUserExists config username
  let grantedAt ← now
  let assignment : RepoRoleAssignment := {
    username := username
    repoId := repoId
    role := role
    grantedAt := grantedAt
    grantedBy := grantedBy }
  users (.upsertRepoRole assignment)
  return assignment

def revokeRepoRole (username repoId : String) :
    AuthProgram Unit := do
  let deleted ← users (.deleteRepoRole username repoId)
  Async.ensure deleted
    (.repoRoleAssignmentNotFound username repoId)

def grantRepoAdminToCreator (repoId username : String) :
    AuthProgram RepoRoleAssignment :=
  grantRepoRole config username repoId .admin "repo-bootstrap"

/- Recovery of a repository on which nobody has a role. -/
def backfillOrphanedRepoAdmin
    (repoId bootstrapAdminUsername : String) :
    AuthProgram (Option RepoRoleAssignment) := do
  let existingRoles ← listRepoRoles repoId
  if existingRoles.length > 0 then return none
  else
    let bootstrapAdmin ←
      users (.getByUsername bootstrapAdminUsername)
    match bootstrapAdmin with
    | none => return none
    | some _ =>
        let assignment ←
          grantRepoRole config bootstrapAdminUsername repoId
            .admin "orphaned-repo-backfill"
        return some assignment

/- The calls that run concurrently, and time. -/
inductive AuthCall where
  | login (username password : String)
  | refresh (refreshToken : String)
  | keepAlive (refreshToken : String)
  | logout (refreshToken : String)
  | createUser (input : CreateUserInput)
  | listUsers
  | deactivateUser (username : String)
  | reactivateUser (username : String)
  | deleteUser (username : String)
  | setGlobalAdmin (username : String) (isGlobalAdmin : Bool)
  | setCanCreateRepos
      (username : String)
      (canCreateRepos : Bool)
  | setupFirstAdmin (username password : String)
  | ensureBootstrapAdmin
      (credentials : Option (String × String))
  | elapse (ms : Nat)

/- What a call returns. -/
inductive AuthReturn where
  | done
  | loggedIn (result : LoginResult)
  | user (record : UserRecord)
  | users (summaries : List UserSummary)

/- The method behind each call. -/
def serveCall (config : AuthConfig) :
    AuthCall → AuthProgram AuthReturn
  | .login username password => do
      let result ← login config username password
      return .loggedIn result
  | .refresh refreshToken => do
      let result ← refresh config refreshToken
      return .loggedIn result
  | .keepAlive refreshToken => do
      keepAlive config refreshToken
      return .done
  | .logout refreshToken => do
      logout refreshToken
      return .done
  | .createUser input => do
      let record ← createUser input
      return .user record
  | .listUsers => do
      let summaries ← listUsers
      return .users summaries
  | .deactivateUser username => do
      deactivateUser username
      return .done
  | .reactivateUser username => do
      reactivateUser username
      return .done
  | .deleteUser username => do
      deleteUser username
      return .done
  | .setGlobalAdmin username isGlobalAdmin => do
      setGlobalAdmin username isGlobalAdmin
      return .done
  | .setCanCreateRepos username canCreateRepos => do
      setCanCreateRepos username canCreateRepos
      return .done
  | .setupFirstAdmin username password => do
      let record ← setupFirstAdmin config username password
      return .user record
  | .ensureBootstrapAdmin credentials => do
      ensureBootstrapAdmin credentials
      return .done
  | .elapse ms => do
      perform (.elapse ms)
      return .done

/- The service under concurrent calls. -/
def authSystem (config : AuthConfig) :
    System AuthOp AuthOp.Answer AuthState AuthChoice AuthCall
      AuthError AuthReturn where
  serve := fun _ => serveCall config
  exec := AuthOp.exec config

end Auth
