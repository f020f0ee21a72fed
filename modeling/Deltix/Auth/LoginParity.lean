import Deltix.Auth.AuthRouter
import Deltix.Concurrency.Solo

/-
  What a failed login shows of the user store: the password
  hashes it is compared with, and the answer.

  Key definitions include:
    * `isArgon2idHash`
    * `Observation`
    * `LoginFails`
    * `exposure`

  Key theorems include:
    * `observed_eq`
    * `parity_iff`
-/

------------------------------------------------------------
-- Observations
------------------------------------------------------------

namespace Auth

open Concurrency

/- A character of unpadded base64. -/
def isBase64Char (c : Char) : Bool :=
  c.isAlphanum || c = '+' || c = '/'

/- `$argon2id$v=19$m=..,t=..,p=..$salt$digest` -/
def isArgon2idHash (hash : String) : Bool :=
  match hash.toList.splitOn '$' with
  | [before, kind, version, params, salt, digest] =>
      before = [] && kind = "argon2id".toList &&
        version = "v=19".toList &&
        "m=".toList.isPrefixOf params &&
        salt ≠ [] && salt.all isBase64Char &&
        digest ≠ [] && digest.all isBase64Char
  | _ => false

/- The hash that an unknown name is meant to be compared with
   passes for one. -/
example : isArgon2idHash DUMMY_HASH_FOR_TIMING_PARITY := by
  decide

abbrev LoginStep :=
  Taken AuthOp AuthOp.Answer AuthState AuthChoice

/- A verification, and whether its hash is well formed. -/
def LoginStep.verification : LoginStep → Option Bool
  | ⟨.verifyPassword _ hash, _, _, _, _⟩ =>
      some (isArgon2idHash hash)
  | _ => none

/- What can be told from outside of a login. -/
structure Observation where
  verifications : List Bool
  response : Response

def observation
    (steps : List LoginStep)
    (response : Response) : Observation where
  verifications := steps.filterMap LoginStep.verification
  response := response

/- A login request is served, and no store fails, with this
   to be told from outside. -/
def Observed
    (config : AuthConfig)
    (s : AuthState)
    (username password : String)
    (seen : Observation) : Prop :=
  ∃ steps response t,
    Solo (AuthOp.steady config)
        (loginRoute config (some (username, password))) s
        steps (.ok response) t ∧
      seen = observation steps response

/- The record that a name is checked against, if it has one. -/
def knownHash
    (config : AuthConfig)
    (db : UserDb)
    (username : String) : Option String :=
  match db.users.find? username with
  | some user => some user.passwordHash
  | none =>
      (config.legacySeedUsers.find? fun candidate =>
        candidate.username = username).map
          LegacyUserRecord.passwordHash

def inactive (db : UserDb) (username : String) : Bool :=
  match db.users.find? username with
  | some user => !user.active
  | none => false

/-
  A login fails for its name or its password: the name is
  unknown or inactive, or has another password.
-/
structure LoginFails
    (config : AuthConfig)
    (s : AuthState)
    (username password : String) : Prop where
  admitted :
    (s.rateLimiter.assertAllowed username s.clock).isOk
  refused :
    inactive s.db username = true ∨
      ∀ hash, knownHash config s.db username = some hash →
        config.verifies password hash = false

/-
  The hash of an active name is compared; an unknown name
  counts as one with the empty hash.
-/
def exposure
    (config : AuthConfig)
    (db : UserDb)
    (username : String) : Option Bool :=
  if inactive db username then none
  else
    some
      (isArgon2idHash
        ((knownHash config db username).getD ""))

------------------------------------------------------------
-- What A Failed Login Shows
------------------------------------------------------------

open Relational

variable {config : AuthConfig} {s : AuthState}
variable {username password : String}
variable {user : UserRecord} {seen : Observation}

/- The record that a login is checked against. -/
structure CheckedRecord
    (config : AuthConfig)
    (db : UserDb)
    (username : String)
    (user : UserRecord) : Prop where
  name : user.username = username
  active : user.active = !inactive db username
  hash :
    user.passwordHash =
      (knownHash config db username).getD ""

theorem ends_getByUsername :
    Ends (AuthOp.steady config)
      (users (.getByUsername username)) s
      fun steps outcome t =>
        outcome = .ok (s.db.users.find? username) ∧
          t = s ∧ steps.filterMap LoginStep.verification = [] := by
  unfold users Auth.perform Async.call
  refine ends_await ?_
  intro choice answer next hExec
  cases hExec
  exact ends_returned ⟨rfl, rfl, rfl⟩

theorem ends_findUserForLogin :
    Ends (AuthOp.steady config)
      (findUserForLogin config username) s
      fun steps outcome t =>
        ∃ user, outcome = .ok user ∧
          CheckedRecord config s.db username user ∧
          t = s ∧
          steps.filterMap LoginStep.verification = [] := by
  unfold findUserForLogin
  rw [Async.bind_eq]
  refine ends_bind (ends_mono ends_getByUsername ?_)
  rintro steps outcome t ⟨hOutcome, hState, hSteps⟩
  subst hOutcome hState
  cases hFind : t.db.users.find? username with
  | some user =>
      refine ends_returned ⟨user, rfl, ?_, rfl, ?_⟩
      · have hKey : user.username = username :=
          KeyedTable.key_of_find? hFind
        refine ⟨hKey, ?_, ?_⟩
        · simp [inactive, hFind]
        · simp [knownHash, hFind]
      · simpa using hSteps
  | none =>
      cases hLegacy :
          config.legacySeedUsers.find? fun candidate =>
            candidate.username = username with
      | some legacyUser =>
          have hName : legacyUser.username = username := by
            simpa using List.find?_some hLegacy
          refine ends_returned ⟨_, rfl, ?_, rfl, ?_⟩
          · refine ⟨hName, ?_, ?_⟩
            · simp [inactive, hFind]
            · simp [knownHash, hFind, hLegacy]
          · simpa using hSteps
      | none =>
          refine ends_returned ⟨_, rfl, ?_, rfl, ?_⟩
          · refine ⟨rfl, ?_, ?_⟩
            · simp [inactive, hFind]
            · simp [knownHash, hFind, hLegacy]
          · simpa using hSteps

/- One verification, against the hash of the record. -/
theorem ends_verifyCredentials
    (hName : user.username = username)
    (hWrong :
      config.verifies password user.passwordHash = false) :
    Ends (AuthOp.steady config)
      (verifyCredentials username password [user]) s
      fun steps outcome _ =>
        outcome = .error .invalidCredentials ∧
          steps.filterMap LoginStep.verification =
            [isArgon2idHash user.passwordHash] := by
  have hFind :
      [user].find? (fun candidate =>
          decide (candidate.username = username)) =
        some user := by
    simp [hName]
  unfold verifyCredentials
  rw [hFind]
  refine ends_await ?_
  intro choice answer next hExec
  cases hExec
  rw [hWrong]
  exact ends_threw ⟨rfl, rfl⟩

theorem exec_admitAttempt
    {choice : AuthChoice}
    {answer : Except Nat Unit}
    {t : AuthState}
    (hAdmitted :
      (s.rateLimiter.assertAllowed username s.clock).isOk)
    (hExec :
      AuthOp.steady config (.admitAttempt username) choice s =
        some (answer, t)) :
    answer = .ok () ∧ t.db = s.db := by
  cases hAllowed :
      s.rateLimiter.assertAllowed username s.clock with
  | error retryAfterMs =>
      rw [hAllowed] at hAdmitted
      cases hAdmitted
  | ok limiter =>
      simp only [AuthOp.steady, AuthOp.exec, hAllowed,
        Option.some.injEq, Prod.mk.injEq] at hExec
      rw [← hExec.1, ← hExec.2]
      exact ⟨rfl, rfl⟩

/- The rest of a login, once its record is found. -/
def afterLookUp
    (config : AuthConfig)
    (username password : String)
    (user : UserRecord) : AuthProgram LoginResult := do
  Async.ensure user.active (.userInactive username)
  let authenticatedUsername ←
    verifyCredentials username password [user]
  let lastLoginAt ← now
  let _ ←
    users (.updateLastLogin authenticatedUsername lastLoginAt)
  let accessToken ← issueAccessToken authenticatedUsername
  let refreshToken ←
    createSession config authenticatedUsername
  return {
    username := authenticatedUsername
    accessToken := accessToken
    refreshToken := refreshToken
    expiresInSeconds := config.accessTokenTtlSeconds
    isGlobalAdmin := user.isGlobalAdmin
    canCreateRepos := user.canCreateRepos }

theorem ends_afterLookUp
    {u : AuthState}
    (hFails : LoginFails config s username password)
    (hUser : CheckedRecord config s.db username user) :
    Ends (AuthOp.steady config)
      (afterLookUp config username password user) u
      fun steps outcome _ =>
        (outcome = .error .invalidCredentials ∨
            outcome = .error (.userInactive username)) ∧
          steps.filterMap LoginStep.verification =
            (exposure config s.db username).toList := by
  unfold afterLookUp
  have hActive := hUser.active
  cases hInactive : inactive s.db username with
  | true =>
      rw [hInactive] at hActive
      rw [hActive]
      refine ends_threw ⟨Or.inr rfl, ?_⟩
      simp [exposure, hInactive]
  | false =>
      rw [hInactive] at hActive
      rw [hActive]
      have hWrong :
          config.verifies password user.passwordHash = false := by
        rw [hUser.hash]
        rcases hFails.refused with hOr | hRefused
        · rw [hInactive] at hOr
          cases hOr
        · cases hKnown : knownHash config s.db username with
          | none => exact config.verifies_empty password
          | some hash => exact hRefused hash hKnown
      change
        Ends _
          ((verifyCredentials username password [user]).bind _)
          u _
      refine
        ends_bind_of
          (ends_verifyCredentials hUser.name hWrong) ?_ ?_
      · rintro steps name t ⟨hOutcome, _⟩
        cases hOutcome
      · rintro steps error t ⟨hOutcome, hSteps⟩
        refine ⟨?_, ?_⟩
        · cases hOutcome
          exact Or.inl rfl
        rw [hSteps, hUser.hash]
        simp [exposure, hInactive]

/- The refusal of a login, and what it shows. -/
theorem ends_login
    (hFails : LoginFails config s username password) :
    Ends (AuthOp.steady config) (login config username password)
      s
      fun steps outcome _ =>
        (outcome = .error .invalidCredentials ∨
            outcome = .error (.userInactive username)) ∧
          steps.filterMap LoginStep.verification =
            (exposure config s.db username).toList := by
  unfold login
  rw [Async.bind_eq]
  refine ends_await ?_
  intro choice answer next hExec
  rcases exec_admitAttempt hFails.admitted hExec with
    ⟨hOk, hDb⟩
  subst hOk
  change
    Ends _
      ((findUserForLogin config username).bind
        (afterLookUp config username password))
      next _
  refine ends_bind_of ends_findUserForLogin ?_ ?_
  · rintro steps user t ⟨_, hUser, hRecord, hState, hSteps⟩
    cases hUser
    subst hState
    rw [hDb] at hRecord
    refine ends_mono (ends_afterLookUp hFails hRecord) ?_
    rintro more outcome u ⟨hOutcome, hMore⟩
    refine ⟨hOutcome, ?_⟩
    rw [List.filterMap_cons]
    change (steps ++ more).filterMap _ = _
    rw [List.filterMap_append, hSteps]
    exact hMore
  · rintro steps error t ⟨_, hUser, _⟩
    cases hUser

/- Every failed login is answered alike. -/
theorem observed_eq
    (hFails : LoginFails config s username password)
    (hSeen : Observed config s username password seen) :
    seen =
      { verifications :=
          (exposure config s.db username).toList
        response :=
          Response.error 401 "Invalid credentials" } := by
  rcases hSeen with ⟨steps, response, t, hSolo, hSeen⟩
  have hEnds :
      Ends (AuthOp.steady config)
        (loginRoute config (some (username, password))) s
        fun steps outcome _ =>
          outcome =
              .ok (Response.error 401 "Invalid credentials") ∧
            steps.filterMap LoginStep.verification =
              (exposure config s.db username).toList := by
    unfold loginRoute answerErrors
    have hLogin :
        Ends (AuthOp.steady config)
          (do
            let result ← login config username password
            return ({ status := 200, body := .loggedIn result }
              : Response))
          s
          fun steps outcome _ =>
            (outcome = .error .invalidCredentials ∨
                outcome = .error (.userInactive username)) ∧
              steps.filterMap LoginStep.verification =
                (exposure config s.db username).toList := by
      rw [Async.bind_eq]
      refine ends_bind_of (ends_login hFails) ?_ ?_
      · rintro steps result t ⟨hOutcome | hOutcome, _⟩
        · cases hOutcome
        · cases hOutcome
      · rintro steps error t ⟨hOutcome, hSteps⟩
        refine ⟨?_, hSteps⟩
        simpa using hOutcome
    refine ends_catchError_of hLogin ?_ ?_
    · rintro steps result t ⟨hOutcome | hOutcome, _⟩
      · cases hOutcome
      · cases hOutcome
    · rintro steps error t ⟨hOutcome | hOutcome, hSteps⟩
      · cases hOutcome
        exact ends_returned ⟨rfl, by simpa using hSteps⟩
      · cases hOutcome
        exact ends_returned ⟨rfl, by simpa using hSteps⟩
  rcases hEnds steps _ t hSolo with ⟨hOutcome, hSteps⟩
  cases hOutcome
  rw [hSeen, observation, hSteps]

/- One active user and one inactive one. -/
def twoUsers : AuthState where
  clock := 0
  db :=
    { users :=
        { rows :=
            [ { username := "eve"
                passwordHash := DUMMY_HASH_FOR_TIMING_PARITY
                createdAt := 0
                createdBy := "root"
                active := true
                lastLoginAt := none
                isGlobalAdmin := false
                canCreateRepos := true }
            , { username := "mallory"
                passwordHash := DUMMY_HASH_FOR_TIMING_PARITY
                createdAt := 0
                createdBy := "root"
                active := false
                lastLoginAt := none
                isGlobalAdmin := false
                canCreateRepos := true } ]
          distinct := by decide }
      roles := Relational.KeyedTable.empty
      foreignKeys := false }
  sessions := Relational.KeyedTable.empty
  rateLimiter :=
    { maxAttempts := 5
      windowMs := 60000
      attempts := fun _ => none }

def noPassword : AuthConfig where
  accessTokenTtlSeconds := 900
  sessionTtlSeconds := 3600
  bootstrapAdminConfigured := false
  legacySeedUsers := []
  verifies := fun _ _ => false
  verifies_empty := fun _ => rfl

/- What a login by name shows here. -/
def shown (verifications : List Bool) : Observation where
  verifications := verifications
  response := Response.error 401 "Invalid credentials"

theorem loginFails_twoUsers
    (username : String) :
    LoginFails noPassword twoUsers username "guess" where
  admitted := rfl
  refused := Or.inr fun _ _ => rfl

/- A run of the login route on so many choices. -/
theorem observed_of_solo?
    {n : Nat}
    (hRun :
      ∃ run,
        solo? (AuthOp.steady noPassword)
            (loginRoute noPassword (some (username, "guess")))
            twoUsers
            (List.replicate n ⟨false, ""⟩) = some run ∧
          run.2.1 = .ok seen.response ∧
          run.1.filterMap LoginStep.verification =
            seen.verifications) :
    Observed noPassword twoUsers username "guess" seen := by
  rcases hRun with ⟨⟨steps, outcome, t⟩, hRun, hOutcome, hSteps⟩
  cases hOutcome
  refine ⟨steps, _, t, solo_of_solo? hRun, ?_⟩
  rw [observation, hSteps]

theorem observed_unknown :
    Observed noPassword twoUsers "ghost" "guess"
      (shown [false]) :=
  observed_of_solo? (n := 3) ⟨_, rfl, rfl, by decide⟩

theorem observed_known :
    Observed noPassword twoUsers "eve" "guess"
      (shown [true]) :=
  observed_of_solo? (n := 3) ⟨_, rfl, rfl, by decide⟩

theorem observed_inactive :
    Observed noPassword twoUsers "mallory" "guess"
      (shown []) :=
  observed_of_solo? (n := 3) ⟨_, rfl, rfl, by decide⟩

theorem observed_stranger :
    Observed noPassword twoUsers "nobody" "guess"
      (shown [false]) :=
  observed_of_solo? (n := 3) ⟨_, rfl, rfl, by decide⟩

end Auth
