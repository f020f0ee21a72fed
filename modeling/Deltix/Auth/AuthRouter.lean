import Deltix.Auth.AuthService

/-
  The HTTP routes of the authentication context.  A request
  carries the caller that its bearer token authenticates, if
  any, and its body, if it parses.

  Key definitions include:
    * `Response`
    * `asGlobalAdmin`
    * `revokeGlobalAdminRoute`
    * `AuthRoute`
    * `authApi`
-/

namespace Auth

open Concurrency

inductive ResponseBody where
  | error (text : String)
  | ok
  | setupStatus (status : SetupStatus)
  | loggedIn (result : LoginResult)
  | user (record : UserRecord)
  | users (summaries : List UserSummary)

structure Response where
  status : Nat
  body : ResponseBody

def Response.error (status : Nat) (text : String) :
    Response :=
  { status := status, body := .error text }

def Response.ok : Response :=
  { status := 200, body := .ok }

/- Answer the errors of `statuses`, and throw the others. -/
def answerErrors
    (route : AuthProgram Response)
    (statuses : AuthError → Option (Nat × String)) :
    AuthProgram Response :=
  route.catchError fun error =>
    match statuses error with
    | some (status, text) =>
        .returned (Response.error status text)
    | none => .threw error

/- `UserNotFoundError` is a 404. -/
def userNotFoundStatus : AuthError → Option (Nat × String)
  | .userNotFound username =>
      some (404, (AuthError.userNotFound username).message)
  | _ => none

/- Sessions that are gone or expired are a 401. -/
def sessionStatus : AuthError → Option (Nat × String)
  | .sessionNotFound =>
      some (401, "Session not found or expired")
  | .sessionExpired =>
      some (401, "Session not found or expired")
  | _ => none

/- The gate before every route of the user management. -/
def asGlobalAdmin
    (caller : Option String)
    (route : String → AuthProgram Response) :
    AuthProgram Response := do
  match caller with
  | none => return Response.error 401 "Unauthorized"
  | some caller =>
      let admin ← isGlobalAdmin caller
      if admin then route caller
      else
        return Response.error 403
          "Global admin access required"

------------------------------------------------------------
-- Routes
------------------------------------------------------------

variable (config : AuthConfig)

/- The body of the routes that create a user. -/
structure CreateUserBody where
  username : String
  password : String
  canCreateRepos : Option Bool

/- Where the session routes find their token. -/
structure TokenRequest where
  bodyToken : Option String
  cookieToken : Option String
  sameOriginOrNoOrigin : Bool

def TokenRequest.refreshToken
    (request : TokenRequest) : Option String :=
  request.bodyToken <|> request.cookieToken

def TokenRequest.crossOrigin
    (request : TokenRequest) : Bool :=
  request.bodyToken.isNone && !request.sameOriginOrNoOrigin

def crossOriginResponse : Response :=
  Response.error 403 "Cross-origin request rejected"

def invalidBodyResponse : Response :=
  Response.error 400 "Invalid request body"

def setupStatusRoute : AuthProgram Response := do
  let status ← getSetupStatus config
  return {
    status := if status.eligible then 200 else 404
    body := .setupStatus status }

def setupRoute (body : Option CreateUserBody) :
    AuthProgram Response := do
  let status ← getSetupStatus config
  if status.eligible then
    match body with
    | none => return invalidBodyResponse
    | some body =>
        answerErrors
          (do
            let record ←
              setupFirstAdmin config body.username
                body.password
            return { status := 201, body := .user record })
          fun
            | .setupAlreadyConfigured message =>
                some (404, message)
            | .userAlreadyExists username =>
                some
                  (409,
                    (AuthError.userAlreadyExists
                      username).message)
            | _ => none
  else
    return Response.error 404 "Setup already completed"

def loginRoute (body : Option (String × String)) :
    AuthProgram Response :=
  match body with
  | none => .returned invalidBodyResponse
  | some (username, password) =>
      answerErrors
        (do
          let result ← login config username password
          return { status := 200, body := .loggedIn result })
        fun
          | .invalidCredentials =>
              some (401, "Invalid credentials")
          | .userInactive _ =>
              some (401, "Invalid credentials")
          | .tooManyLoginAttempts _ =>
              some (429, "Too many attempts, try again later")
          | _ => none

def refreshRoute (request : TokenRequest) :
    AuthProgram Response :=
  match request.refreshToken with
  | none =>
      .returned (Response.error 401 "No active session")
  | some refreshToken =>
      if request.crossOrigin then
        .returned crossOriginResponse
      else
        answerErrors
          (do
            let result ← refresh config refreshToken
            return { status := 200, body := .loggedIn result })
          sessionStatus

def keepAliveRoute (request : TokenRequest) :
    AuthProgram Response :=
  match request.refreshToken with
  | none => .returned invalidBodyResponse
  | some refreshToken =>
      if request.crossOrigin then
        .returned crossOriginResponse
      else
        answerErrors
          (do
            keepAlive config refreshToken
            return Response.ok)
          sessionStatus

def logoutRoute (request : TokenRequest) :
    AuthProgram Response :=
  match request.refreshToken with
  | none => .returned Response.ok
  | some refreshToken =>
      if request.crossOrigin then
        .returned crossOriginResponse
      else do
        logout refreshToken
        return Response.ok

def listUsersRoute (caller : Option String) :
    AuthProgram Response :=
  asGlobalAdmin caller fun _ => do
    let summaries ← listUsers
    return { status := 200, body := .users summaries }

def createUserRoute
    (caller : Option String)
    (body : Option CreateUserBody) :
    AuthProgram Response :=
  asGlobalAdmin caller fun caller =>
    match body with
    | none => .returned invalidBodyResponse
    | some body =>
        answerErrors
          (do
            let record ←
              createUser {
                username := body.username
                password := body.password
                createdBy := caller
                isGlobalAdmin := none
                canCreateRepos := body.canCreateRepos }
            return { status := 201, body := .user record })
          fun
            | .userAlreadyExists username =>
                some
                  (409,
                    (AuthError.userAlreadyExists
                      username).message)
            | _ => none

/- The routes that change one flag of a user. -/
def updateUserRoute
    (caller : Option String)
    (update : AuthProgram Unit) :
    AuthProgram Response :=
  asGlobalAdmin caller fun _ =>
    answerErrors
      (do
        update
        return Response.ok)
      userNotFoundStatus

def deactivateRoute
    (caller : Option String)
    (username : String) :
    AuthProgram Response :=
  updateUserRoute caller (deactivateUser username)

def reactivateRoute
    (caller : Option String)
    (username : String) :
    AuthProgram Response :=
  updateUserRoute caller (reactivateUser username)

def deleteUserRoute
    (caller : Option String)
    (username : String) :
    AuthProgram Response :=
  asGlobalAdmin caller fun _ =>
    answerErrors
      (do
        deleteUser username
        return Response.ok)
      fun
        | .userHasActiveSessions username =>
            some
              (409,
                (AuthError.userHasActiveSessions
                  username).message)
        | error => userNotFoundStatus error

def grantGlobalAdminRoute
    (caller : Option String)
    (username : String) :
    AuthProgram Response :=
  updateUserRoute caller (setGlobalAdmin username true)

/- Only an admin who demotes itself meets the guard. -/
def revokeGlobalAdminRoute
    (caller : Option String)
    (target : String) :
    AuthProgram Response :=
  asGlobalAdmin caller fun caller => do
    let revoke : AuthProgram Response :=
      answerErrors
        (do
          setGlobalAdmin target false
          return Response.ok)
        userNotFoundStatus
    if target = caller then
      let summaries ← listUsers
      let remainingAdmins :=
        summaries.countP fun user => user.isGlobalAdmin
      if remainingAdmins ≤ 1 then
        return Response.error 409
          "Cannot remove the last remaining global admin"
      else revoke
    else revoke

def setCanCreateReposRoute
    (caller : Option String)
    (username : String)
    (canCreateRepos : Bool) :
    AuthProgram Response :=
  updateUserRoute caller
    (setCanCreateRepos username canCreateRepos)

/- The requests that run concurrently, and time. -/
inductive AuthRoute where
  | setupStatus
  | setup (body : Option CreateUserBody)
  | login (body : Option (String × String))
  | refresh (request : TokenRequest)
  | keepAlive (request : TokenRequest)
  | logout (request : TokenRequest)
  | listUsers (caller : Option String)
  | createUser
      (caller : Option String)
      (body : Option CreateUserBody)
  | deactivate (caller : Option String) (username : String)
  | reactivate (caller : Option String) (username : String)
  | deleteUser (caller : Option String) (username : String)
  | grantGlobalAdmin
      (caller : Option String)
      (username : String)
  | revokeGlobalAdmin
      (caller : Option String)
      (username : String)
  | setCanCreateRepos
      (caller : Option String)
      (username : String)
      (canCreateRepos : Bool)
  | elapse (ms : Nat)

/- The route behind each request. -/
def serveRoute (config : AuthConfig) :
    AuthRoute → AuthProgram Response
  | .setupStatus => setupStatusRoute config
  | .setup body => setupRoute config body
  | .login body => loginRoute config body
  | .refresh request => refreshRoute config request
  | .keepAlive request => keepAliveRoute config request
  | .logout request => logoutRoute request
  | .listUsers caller => listUsersRoute caller
  | .createUser caller body => createUserRoute caller body
  | .deactivate caller username =>
      deactivateRoute caller username
  | .reactivate caller username =>
      reactivateRoute caller username
  | .deleteUser caller username =>
      deleteUserRoute caller username
  | .grantGlobalAdmin caller username =>
      grantGlobalAdminRoute caller username
  | .revokeGlobalAdmin caller username =>
      revokeGlobalAdminRoute caller username
  | .setCanCreateRepos caller username canCreateRepos =>
      setCanCreateReposRoute caller username canCreateRepos
  | .elapse ms => do
      perform (.elapse ms)
      return Response.ok

/- The routes under concurrent requests. -/
def authApi (config : AuthConfig) :
    System AuthOp AuthOp.Answer AuthState AuthChoice AuthRoute
      AuthError Response where
  serve := fun _ => serveRoute config
  exec := AuthOp.exec config

end Auth
