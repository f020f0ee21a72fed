import Deltix.Transfer.TicketService

/-
  The gRPC server: the push stream with its message queue,
  the pull stream and the heartbeat.

  A push is handed the messages of its stream in order and
  works through them one after another; cancellation and
  stream errors reach its session from outside the queue.

  Key definitions include:
    * `processMessage`
    * `finish`
    * `push`
    * `pull`
    * `heartbeat`
-/

------------------------------------------------------------
-- Messages Of A Push
------------------------------------------------------------

namespace Transfer

open Auth Concurrency Storage

/- Run a program whose errors are ignored. -/
def quietly (program : TransferProgram Unit) :
    TransferProgram Unit :=
  tryCatch program fun _ => return ()

structure PushSessionResult where
  jobId : String
  checksum : String
  bytesReceived : Nat
  deriving DecidableEq, Repr

/- What the callback of a push is called with. -/
inductive PushReply where
  | done (result : PushSessionResult)
  | refused (status : GrpcStatus)
  deriving DecidableEq, Repr

def removeStaging : Removal → TransferProgram Unit
  | some path => files (.rm path)
  | none => return ()

/- `markAborted`, from the await of `handler.abort` on. -/
def finishAbort
    (stream : Nat)
    (status : GrpcStatus)
    (removal : Removal) :
    TransferProgram (Option PushReply) := do
  removeStaging removal
  let ended ← session stream .isEnded
  if ended then return some (.refused status)
  else return none

def markAborted
    (stream : Nat)
    (status : GrpcStatus) :
    TransferProgram (Option PushReply) := do
  let marked ← session stream (.markAborted status)
  match marked with
  | .already => return none
  | .aborting removal => finishAbort stream status removal

/- `onHeader`, from the call of `consumeTicket` on. -/
def onHeader
    (stream : Nat)
    (header : PushHeader) : TransferProgram Unit := do
  let ticket ←
    tryCatch
      (consumeTicket header.ticketId header.operation
        header.repo)
      fun error =>
        throw
          (.pushSessionAborted
            ("ticket rejected: " ++ error.message))
  let path ← session stream (.ticketConsumed header ticket)
  files (.mkdir (dirname path))
  session stream .openSink

/- How a message is taken, whatever its kind. -/
def receive
    (stream : Nat) :
    PushMessage → TransferProgram Received
  | .header header => session stream (.header header)
  | .chunk data => session stream (.chunk data)
  | .empty => session stream .empty

def afterReceived
    (stream : Nat) :
    Received → TransferProgram Unit
  | .ignored => return ()
  | .accepted => return ()
  | .aborting status removal => do
      let _ ← finishAbort stream status removal
      return ()
  | .rejected reason => throw (.pushSessionAborted reason)
  | .failed => throw (.sink "write failed")
  | .consuming header => onHeader stream header

def dispatchMessage
    (stream : Nat)
    (message : PushMessage) : TransferProgram Unit := do
  let received ← receive stream message
  afterReceived stream received

/- Only the errors of a session are shown to the client. -/
def processingMessage : TransferError → String
  | .pushSessionAborted reason =>
      (TransferError.pushSessionAborted reason).message
  | _ => "Internal error"

def processMessage
    (stream : Nat)
    (message : PushMessage) : TransferProgram Unit :=
  tryCatch (dispatchMessage stream message) fun error => do
    let _ ←
      markAborted stream
        ⟨.permissionDenied, processingMessage error⟩
    return ()

------------------------------------------------------------
-- The End Of A Push
------------------------------------------------------------

variable (config : TransferConfig)

/- Letters, digits, dash and underscore, 1 to 64 of them. -/
def isProvisionable (repoId : String) : Bool :=
  0 < repoId.toList.length ∧ repoId.toList.length ≤ 64 ∧
    repoId.toList.all fun c =>
      c.isAlphanum || c = '-' || c = '_'

structure PushPreparation where
  repo : String
  username : String
  stagingPath : String
  dryRun : Bool
  resolvedTables : Option (List String)
  deriving DecidableEq, Repr

def cannotCreateRepos (username : String) : TransferError :=
  .pushSessionAborted
    ("User \"" ++ username ++ "\" cannot create repos — " ++
      "ask a global admin to grant canCreateRepos")

/- The first push to a repository creates it. -/
def autoCreateRepo (repo username : String) :
    TransferProgram Unit := do
  let existing ← repos (.get repo)
  if !existing && isProvisionable repo then
    let allowed ← canUserCreateRepos username
    Async.ensure allowed (cannotCreateRepos username)
    repos (.provision repo username)
    grantRepoAdminToCreator config repo username
  else return ()

/- The tables a push covers, if its repository is known. -/
def validateSync
    (started : PushFinish)
    (dryRun : Bool) :
    TransferProgram (Option (List String)) := do
  let shouldValidateSync ← repos (.get started.repo)
  if shouldValidateSync then
    repos
      (.validatePushOptions started.repo
        (started.syncOptions.bind PushTicketSyncOptions.mode)
        (started.syncOptions.bind
          PushTicketSyncOptions.tables)
        dryRun)
  else return none

/- The hook that the server installs. -/
def onBeforePush (started : PushFinish) :
    TransferProgram PushPreparation := do
  autoCreateRepo config started.repo started.username
  let dryRun :=
    (started.syncOptions.bind
      PushTicketSyncOptions.dryRun).getD false
  let resolvedTables ← validateSync started dryRun
  return {
    repo := started.repo
    username := started.username
    stagingPath := started.stagingPath
    dryRun := dryRun
    resolvedTables := resolvedTables }

/- The row that a push leaves for the sync worker. -/
def stagedJob
    (jobId : String)
    (started : PushFinish)
    (preparation : PushPreparation) : TransferJob where
  id := jobId
  repo := preparation.repo
  stagingPath := preparation.stagingPath
  checksum := config.sha256 started.hashed
  status := .staged
  retryCount := 0
  maxRetries := config.maxRetries
  nextRetryAt := 0
  createdAt := started.now
  updatedAt := started.now
  lastError := none

/- `finish`, after its hook has returned. -/
def commitPush
    (started : PushFinish)
    (preparation : PushPreparation) :
    TransferProgram PushSessionResult := do
  let checksum := config.sha256 started.hashed
  if preparation.dryRun then
    quietly (closeTicket started.ticketId)
    return {
      jobId := "dry-run"
      checksum := checksum
      bytesReceived := started.bytesReceived }
  else
    let jobId ← perform .randomText
    jobs (.create (stagedJob config jobId started preparation))
    quietly (closeTicket started.ticketId)
    quietly
      (repos
        (.recordPush preparation.repo preparation.username
          jobId checksum preparation.resolvedTables))
    return {
      jobId := jobId
      checksum := checksum
      bytesReceived := started.bytesReceived }

def finish (started : PushFinish) :
    TransferProgram PushSessionResult := do
  let preparation ← onBeforePush config started
  commitPush config started preparation

/- `finishSuccessfully`, for a `finish` that got started. -/
def finishSuccessfully
    (stream : Nat)
    (started : PushFinish) :
    TransferProgram (Option PushReply) :=
  tryCatch
    (do
      let result ← finish config started
      return some (.done result))
    fun error =>
      markAborted stream ⟨.internal, error.message⟩

def finalizeStream (stream : Nat) :
    TransferProgram (Option PushReply) := do
  let ended ← session stream .finalize
  match ended with
  | .answered pending => return pending.map .refused
  | .aborting status removal =>
      finishAbort stream status removal
  | .rejected reason =>
      markAborted stream
        ⟨.internal,
          (TransferError.pushSessionAborted reason).message⟩
  | .finishing started =>
      finishSuccessfully config stream started

/- A whole push, up to its end if the client sends one. -/
def push
    (stream : Nat)
    (messages : List PushMessage)
    (ends : Bool) :
    TransferProgram (Option PushReply) := do
  Async.forEach (processMessage stream) messages
  if ends then finalizeStream config stream
  else return none

/- `call.on('error')` -/
def pushError (stream : Nat) : TransferProgram Unit := do
  let removal ← session stream .error
  removeStaging removal

/- `call.on('cancelled')` -/
def pushCancelled (stream : Nat) : TransferProgram Unit := do
  let removal ← session stream .cancelled
  removeStaging removal

/- The file that a pull of a repository reads. -/
def pullPath (repo : String) : String :=
  join [config.nasRootPath, repo, "repo.dolt"]

/- The synced file, whose ticket is closed in any case. -/
def readSynced (ticketId repo : String) :
    TransferProgram Content := do
  tryCatch (files (.stat (pullPath config repo)))
    fun _ => do
      quietly (closeTicket ticketId)
      throw (.pullNotFound repo)
  let content ←
    tryCatch (files (.readFile (pullPath config repo)))
      fun error => do
        quietly (closeTicket ticketId)
        throw error
  quietly (closeTicket ticketId)
  return content

def stream (ticketId repo : String) :
    TransferProgram Content := do
  let _ ←
    tryCatch (consumeTicket ticketId "pull" repo)
      fun error =>
        throw
          (.pullSessionAborted
            ("ticket rejected: " ++ error.message))
  readSynced config ticketId repo

def pullStatus : TransferError → GrpcStatus
  | .pullNotFound repo =>
      ⟨.notFound, (TransferError.pullNotFound repo).message⟩
  | .pullSessionAborted reason =>
      ⟨.permissionDenied,
        (TransferError.pullSessionAborted reason).message⟩
  | _ => ⟨.internal, "Internal error"⟩

def pull (ticketId repo : String) :
    TransferProgram (Except GrpcStatus Content) :=
  tryCatch
    (do
      let content ← stream config ticketId repo
      return .ok content)
    fun error => return .error (pullStatus error)

def heartbeat (ticketId : String) :
    TransferProgram (Except GrpcStatus Nat) :=
  tryCatch
    (do
      let newExpiresAt ← renewTicket config ticketId
      return .ok newExpiresAt)
    fun error =>
      return .error ⟨.permissionDenied, error.message⟩

end Transfer
