import Deltix.Concurrency.Tasks
import Deltix.Storage.NasSync
import Deltix.Transfer.GrpcServer

/-
  The transfer system: tickets are issued and closed over
  HTTP, pushes, pulls and heartbeats arrive over gRPC, roles
  are granted and revoked, and the worker syncs jobs to the
  NAS, all of them interleaved.

  Key definitions include:
    * `TransferCall`
    * `serveCall`
    * `transferSystem`
    * `NoPushes`
-/

namespace Transfer

open Auth Concurrency Storage

variable (config : TransferConfig)

structure IssueTicketBody where
  operation : TransferOperation
  repo : String
  sync : Option PushTicketSyncOptions
  deriving DecidableEq, Repr

/- What a request is answered with. -/
inductive TransferReturn where
  | done
  | response (status : Nat) (error : String)
  | ticket (ticket : Ticket)
  | pushed (reply : Option PushReply)
  | pulled (reply : Except GrpcStatus Content)
  | beaten (reply : Except GrpcStatus Nat)
  | processed (eligible : Bool)
  | jobs (jobs : List TransferJob)

def unauthorized : TransferReturn :=
  .response 401 "Unauthorized"

def invalidBody : TransferReturn :=
  .response 400 "Invalid request body"

def lacksRole
    (username : String)
    (operation : TransferOperation)
    (repo : String) : TransferReturn :=
  .response 403
    ("User " ++ username ++ " lacks " ++
      roleText (minimumRoleForOperation operation) ++
      " access to repo " ++ repo)

/- Issue a ticket if the role of the caller allows it. -/
def issueForRole
    (username : String)
    (body : IssueTicketBody) :
    TransferProgram TransferReturn := do
  let role ← users (.getRepoRole username body.repo)
  if sufficient body.operation role then
    let ticket ←
      issueTicket config username body.operation body.repo
        body.sync
    return .ticket ticket
  else
    return lacksRole username body.operation body.repo

/-
  `POST /push/ticket`.  The caller is the subject of the
  access token and the body what the schema accepts of it.
-/
def postPushTicket :
    Option String → Option IssueTicketBody →
      TransferProgram TransferReturn
  | none, _ => return unauthorized
  | some _, none => return invalidBody
  | some username, some body =>
      issueForRole config username body

def closeAnswer : TransferError →
    TransferProgram TransferReturn
  | .ticketNotFound =>
      return .response 404 "Ticket not found or not active"
  | error => throw error

/- `POST /auth/session-close` -/
def postSessionClose :
    Option String → Option String →
      TransferProgram TransferReturn
  | none, _ => return unauthorized
  | some _, none => return invalidBody
  | some _, some ticketId =>
      tryCatch
        (do
          closeTicket ticketId
          return .done)
        closeAnswer

/-
  What may happen at any time.  `users` is a statement of
  another call of the user context, and `elapse` time.
-/
inductive TransferCall where
  | postPushTicket
      (caller : Option String)
      (body : Option IssueTicketBody)
  | postSessionClose
      (caller : Option String)
      (ticketId : Option String)
  | push (messages : List PushMessage) (ends : Bool)
  | pushError (stream : Nat)
  | pushCancelled (stream : Nat)
  | pull (ticketId repo : String)
  | heartbeat (ticketId : String)
  | grantRepoRole
      (username repoId : String)
      (role : RepoRole)
      (grantedBy : String)
  | revokeRepoRole (username repoId : String)
  | users (statement : UserStatement)
  | processNext
  | retryDeadLetter (jobId : String)
  | listDeadLetter
  | elapse (ms : Nat)

def serveCall
    (config : TransferConfig)
    (i : Nat) :
    TransferCall → TransferProgram TransferReturn
  | .postPushTicket caller body =>
      postPushTicket config caller body
  | .postSessionClose caller ticketId =>
      postSessionClose caller ticketId
  | .push messages ends => do
      let reply ← push config i messages ends
      return .pushed reply
  | .pushError stream => do
      pushError stream
      return .done
  | .pushCancelled stream => do
      pushCancelled stream
      return .done
  | .pull ticketId repo => do
      let reply ← pull config ticketId repo
      return .pulled reply
  | .heartbeat ticketId => do
      let reply ← heartbeat config ticketId
      return .beaten reply
  | .grantRepoRole username repoId role grantedBy => do
      grantRepoRole config username repoId role grantedBy
      return .done
  | .revokeRepoRole username repoId => do
      revokeRepoRole username repoId
      return .done
  | .users statement => do
      let _ ← Transfer.users statement
      return .done
  | .processNext => do
      let eligible ← processNext config
      return .processed eligible
  | .retryDeadLetter jobId => do
      let requeued ← retryDeadLetter jobId
      return .processed requeued
  | .listDeadLetter => do
      let listed ← listDeadLetter
      return .jobs listed
  | .elapse ms => do
      perform (.elapse ms)
      return .done

def transferSystem (config : TransferConfig) :
    System TransferOp TransferOp.Answer TransferState
      TransferChoice TransferCall TransferError
      TransferReturn where
  serve := serveCall config
  exec := TransferOp.exec config

abbrev TransferEvent :=
  Event TransferOp TransferOp.Answer TransferState
    TransferCall TransferError TransferReturn

abbrev TransferWorld :=
  World TransferOp TransferOp.Answer TransferState
    TransferCall TransferError TransferReturn

abbrev TransferPool :=
  Pool TransferOp TransferOp.Answer TransferState
    TransferCall TransferError TransferReturn

open Relational

/- No push is in progress. -/
def NoPushes (s : TransferState) : Prop :=
  ∀ i, s.pushes i = PushSession.initial

/- The hash of a file here is its length. -/
def smallConfig : TransferConfig where
  ttlSeconds := 60
  maxRetries := 3
  backoffBaseMs := 1000
  backoffMaxMs := 60000
  stagingRootPath := "/staging"
  nasRootPath := "/nas"
  legacyUsers := []
  sha256 := fun content => toString content.length

/- One user with a role on one repository. -/
def oneRole (role : RepoRole) : RoleTable where
  rows :=
    [ { username := "eve"
        repoId := "r"
        role := role
        grantedAt := 0
        grantedBy := "root" } ]
  distinct := by simp

def withRole (role : RepoRole) : TransferState where
  clock := 0
  db :=
    { users := KeyedTable.empty
      roles := oneRole role
      foreignKeys := false }
  tickets := KeyedTable.empty
  jobs := KeyedTable.empty
  repos := ["r"]
  files := fun _ => none
  pushes := fun _ => PushSession.initial

def draw (text : String) : TransferChoice where
  fails := false
  text := text
  copied := none
  tables := none

/- A writer that has been issued a ticket for pushing. -/
def writerWithTicket : TransferState :=
  { withRole .writer with
    tickets :=
      { rows :=
          [ { id := "t"
              username := "eve"
              operation := .push
              repo := "r"
              status := .issued
              issuedAt := 0
              expiresAt := 60000
              syncOptions := none } ]
        distinct := by simp } }

/- One byte has been pushed to `r` and waits for its sync. -/
def oneStaged : TransferState :=
  { withRole .writer with
    jobs :=
      { rows :=
          [ { id := "job"
              repo := "r"
              stagingPath := "/staging/r/upload.staging"
              checksum := "1"
              status := .staged
              retryCount := 0
              maxRetries := 3
              nextRetryAt := 0
              createdAt := 0
              updatedAt := 0
              lastError := none } ]
        distinct := by simp }
    files := fun path =>
      if path = "/staging/r/upload.staging" then some [7]
      else none }

end Transfer
