import Deltix.Storage.Files
import Deltix.Transfer.TicketStore

/-
  The state of one push stream: the variables of its gRPC
  call and the fields of its `PushSessionHandler`, and the
  stretches of code that run on them between two awaits.

  Key definitions include:
    * `PushSession`
    * `SessionStep`
    * `SessionStep.run`

  Key theorems include:
    * `PushSession.finalizeStream_finishing`
    * `SessionStep.identity_run`
-/

------------------------------------------------------------
-- Sessions
------------------------------------------------------------

namespace Transfer

open Storage

inductive GrpcCode where
  | failedPrecondition
  | permissionDenied
  | internal
  | notFound
  deriving DecidableEq, Repr

structure GrpcStatus where
  code : GrpcCode
  message : String
  deriving DecidableEq, Repr

/- The first message of a push, as the client wrote it. -/
structure PushHeader where
  ticketId : String
  operation : String
  repo : String
  deriving DecidableEq, Repr

/- A message with neither field is dropped. -/
inductive PushMessage where
  | header (header : PushHeader)
  | chunk (data : Content)
  | empty
  deriving DecidableEq, Repr

/- The writer of the staging file. -/
structure FileSink where
  written : Content
  ended : Bool
  deriving DecidableEq, Repr

def FileSink.end (sink : FileSink) : FileSink :=
  { sink with ended := true }

def FileSink.write
    (sink : FileSink)
    (data : Content) : FileSink :=
  if sink.ended then sink
  else { sink with written := sink.written ++ data }

/- `hashed` is what the running hash has been fed. -/
structure PushSession where
  headerReceived : Bool
  aborted : Bool
  pendingAbort : Option GrpcStatus
  streamEnded : Bool
  hashed : Content
  bytesReceived : Nat
  ticketId : Option String
  username : Option String
  repo : Option String
  syncOptions : Option PushTicketSyncOptions
  stagingFilePath : Option String
  fileSink : Option FileSink
  closed : Bool
  deriving DecidableEq, Repr

def PushSession.initial : PushSession where
  headerReceived := false
  aborted := false
  pendingAbort := none
  streamEnded := false
  hashed := []
  bytesReceived := 0
  ticketId := none
  username := none
  repo := none
  syncOptions := none
  stagingFilePath := none
  fileSink := none
  closed := false

/- What `finish` has collected before it awaits anything. -/
structure PushFinish where
  ticketId : String
  repo : String
  stagingPath : String
  username : String
  syncOptions : Option PushTicketSyncOptions
  hashed : Content
  bytesReceived : Nat
  now : Nat
  deriving DecidableEq, Repr

/- The staging file that an abort has to remove. -/
abbrev Removal :=
  Option String

/- How the code goes on with a message. -/
inductive Received where
  | ignored
  | aborting (status : GrpcStatus) (removal : Removal)
  | rejected (reason : String)
  | failed
  | consuming (header : PushHeader)
  | accepted
  deriving DecidableEq, Repr

/- How the code goes on at the end of the stream. -/
inductive Ended where
  | answered (pending : Option GrpcStatus)
  | aborting (status : GrpcStatus) (removal : Removal)
  | rejected (reason : String)
  | finishing (finish : PushFinish)
  deriving DecidableEq, Repr

/- Whether an abort was under way before. -/
inductive MarkedAborted where
  | already
  | aborting (removal : Removal)
  deriving DecidableEq, Repr

------------------------------------------------------------
-- The Code Between Two Awaits
------------------------------------------------------------

namespace PushSession

/- A string that is neither missing nor empty. -/
def given : Option String → Option String
  | some text => if text = "" then none else some text
  | none => none

/- `PushSessionHandler.abort`, up to its `rm`. -/
def abort (session : PushSession) :
    Removal × PushSession :=
  if session.closed then (none, session)
  else
    (session.stagingFilePath,
      { session with
        closed := true
        fileSink := session.fileSink.map FileSink.end })

/- `markAborted`, up to the await of `handler.abort`. -/
def markAborted
    (status : GrpcStatus)
    (session : PushSession) :
    MarkedAborted × PushSession :=
  if session.aborted then (.already, session)
  else
    let result :=
      { session with
        aborted := true
        pendingAbort := some status }.abort
    (.aborting result.1, result.2)

/- An abort that the code between two awaits begins itself;
   an abort already under way leaves nothing to remove. -/
def fail
    (status : GrpcStatus)
    (session : PushSession) :
    Removal × PushSession :=
  match session.markAborted status with
  | (.already, next) => (none, next)
  | (.aborting removal, next) => (removal, next)

def headerAlreadySent : GrpcStatus :=
  ⟨.failedPrecondition, "Header already sent"⟩

def chunkBeforeHeader : GrpcStatus :=
  ⟨.failedPrecondition, "Chunk received before header"⟩

def endedBeforeHeader : GrpcStatus :=
  ⟨.failedPrecondition,
    "Stream ended before a header was sent"⟩

/- `processHeader`, up to the await of `consumeTicket`. -/
def processHeader
    (header : PushHeader)
    (session : PushSession) :
    Received × PushSession :=
  if session.aborted then (.ignored, session)
  else if session.headerReceived then
    let result := session.fail headerAlreadySent
    (.aborting headerAlreadySent result.1, result.2)
  else
    let next := { session with headerReceived := true }
    match given session.ticketId with
    | some _ =>
        (.rejected "Header already received for this session",
          next)
    | none => (.consuming header, next)

/-
  `processChunk`.  A write may throw, and to a sink that was
  ended it leaves the file as it is.
-/
def processChunk
    (fails : Bool)
    (data : Content)
    (session : PushSession) :
    Received × PushSession :=
  if session.aborted then (.ignored, session)
  else if !session.headerReceived then
    let result := session.fail chunkBeforeHeader
    (.aborting chunkBeforeHeader result.1, result.2)
  else
    match session.fileSink with
    | none =>
        (.rejected "Received a data chunk before the header",
          session)
    | some sink =>
        if fails then (.failed, session)
        else
          (.accepted,
            { session with
              fileSink := some (sink.write data)
              hashed := session.hashed ++ data
              bytesReceived :=
                session.bytesReceived + data.length })

/-
  `finish`, up to the await of `onBeforePush`.  Ending the
  sink may throw; the session is closed by then.
-/
def beginFinish
    (now : Nat)
    (fails : Bool)
    (session : PushSession) :
    Ended × PushSession :=
  if session.closed then
    (.rejected "Session already finished", session)
  else
    match given session.ticketId, given session.repo,
        given session.stagingFilePath, session.fileSink,
        given session.username with
    | some ticketId, some repo, some stagingPath, some sink,
        some username =>
        if fails then
          (.rejected "end failed",
            { session with closed := true })
        else
          (.finishing
            { ticketId := ticketId
              repo := repo
              stagingPath := stagingPath
              username := username
              syncOptions := session.syncOptions
              hashed := session.hashed
              bytesReceived := session.bytesReceived
              now := now },
            { session with
              closed := true
              fileSink := some sink.end })
    | _, _, _, _, _ =>
        (.rejected
          ("finish() called before a valid header " ++
            "was received"),
          session)

/- `finalizeStream`, up to its first await. -/
def finalizeStream
    (now : Nat)
    (fails : Bool)
    (session : PushSession) :
    Ended × PushSession :=
  let ended := { session with streamEnded := true }
  if ended.aborted then (.answered ended.pendingAbort, ended)
  else if !ended.headerReceived then
    let result := ended.fail endedBeforeHeader
    (.aborting endedBeforeHeader result.1, result.2)
  else ended.beginFinish now fails

/- `onHeader`, after `consumeTicket` has returned. -/
def ticketConsumed
    (header : PushHeader)
    (ticket : Ticket)
    (stagingFilePath : String)
    (session : PushSession) : PushSession :=
  { session with
    username := some ticket.username
    syncOptions := ticket.syncOptions
    ticketId := some header.ticketId
    repo := some header.repo
    stagingFilePath := some stagingFilePath }

end PushSession

/- The steps of a stream on its session. -/
inductive SessionStep where
  | header (header : PushHeader)
  | chunk (data : Content)
  | empty
  | ticketConsumed (header : PushHeader) (ticket : Ticket)
  | openSink
  | markAborted (status : GrpcStatus)
  | isEnded
  | finalize
  | error
  | cancelled

namespace SessionStep

abbrev Answer : SessionStep → Type
  | .header _ => Received
  | .chunk _ => Received
  | .empty => Received
  | .ticketConsumed _ _ => String
  | .openSink => Unit
  | .markAborted _ => MarkedAborted
  | .isEnded => Bool
  | .finalize => Ended
  | .error => Removal
  | .cancelled => Removal

/-
  Run a step at a time.  `uuid` is the random name of the
  staging file, and `fails` makes the sink throw.
-/
def run
    (stagingRootPath uuid : String)
    (now : Nat)
    (fails : Bool) :
    (step : SessionStep) → PushSession →
      step.Answer × PushSession
  | .header sent, session => session.processHeader sent
  | .chunk data, session =>
      session.processChunk fails data
  | .empty, session => (.ignored, session)
  | .ticketConsumed sent ticket, session =>
      let path :=
        join [stagingRootPath, sent.repo,
          uuid ++ ".staging"]
      (path, session.ticketConsumed sent ticket path)
  | .openSink, session =>
      ((),
        { session with
          fileSink := some { written := [], ended := false } })
  | .markAborted status, session =>
      session.markAborted status
  | .isEnded, session => (session.streamEnded, session)
  | .finalize, session => session.finalizeStream now fails
  | .error, session => session.abort
  | .cancelled, session =>
      { session with aborted := true }.abort

end SessionStep

end Transfer

------------------------------------------------------------
-- What The Steps Leave Alone
------------------------------------------------------------

namespace Transfer

open Storage

/- The fields that only a consumed ticket sets. -/
structure PushSession.SameIdentity
    (session other : PushSession) : Prop where
  ticketId : other.ticketId = session.ticketId
  username : other.username = session.username
  repo : other.repo = session.repo
  stagingFilePath :
    other.stagingFilePath = session.stagingFilePath

namespace PushSession

theorem SameIdentity.refl (session : PushSession) :
    session.SameIdentity session :=
  ⟨rfl, rfl, rfl, rfl⟩

variable (session : PushSession)

theorem abort_identity :
    session.SameIdentity session.abort.2 := by
  unfold abort
  split
  · exact .refl session
  · exact ⟨rfl, rfl, rfl, rfl⟩

theorem markAborted_identity
    (status : GrpcStatus) :
    session.SameIdentity (session.markAborted status).2 := by
  unfold markAborted
  split
  · exact .refl session
  · have hAbort :=
      abort_identity
        { session with
          aborted := true
          pendingAbort := some status }
    exact ⟨hAbort.ticketId, hAbort.username, hAbort.repo,
        hAbort.stagingFilePath⟩

theorem fail_identity
    (status : GrpcStatus) :
    session.SameIdentity (session.fail status).2 := by
  have hMarked := markAborted_identity session status
  unfold fail
  split
  · rename_i next hEq
    rw [hEq] at hMarked
    exact hMarked
  · rename_i removal next hEq
    rw [hEq] at hMarked
    exact hMarked

theorem processHeader_identity
    (header : PushHeader) :
    session.SameIdentity
      (session.processHeader header).2 := by
  unfold processHeader
  split
  · exact .refl session
  · split
    · exact fail_identity session _
    · dsimp only
      split
      · exact ⟨rfl, rfl, rfl, rfl⟩
      · exact ⟨rfl, rfl, rfl, rfl⟩

theorem processChunk_identity
    (fails : Bool)
    (data : Content) :
    session.SameIdentity
      (session.processChunk fails data).2 := by
  unfold processChunk
  split
  · exact .refl session
  · split
    · exact fail_identity session _
    · split
      · exact .refl session
      · split
        · exact .refl session
        · exact ⟨rfl, rfl, rfl, rfl⟩

theorem beginFinish_identity
    (now : Nat)
    (fails : Bool) :
    session.SameIdentity
      (session.beginFinish now fails).2 := by
  unfold beginFinish
  split
  · exact .refl session
  · split
    · split
      · exact ⟨rfl, rfl, rfl, rfl⟩
      · exact ⟨rfl, rfl, rfl, rfl⟩
    · exact .refl session

theorem finalizeStream_identity
    (now : Nat)
    (fails : Bool) :
    session.SameIdentity
      (session.finalizeStream now fails).2 := by
  unfold finalizeStream
  dsimp only
  split
  · exact ⟨rfl, rfl, rfl, rfl⟩
  · split
    · have hFail :=
        fail_identity { session with streamEnded := true }
          endedBeforeHeader
      exact ⟨hFail.ticketId, hFail.username, hFail.repo,
        hFail.stagingFilePath⟩
    · have hFinish :=
        beginFinish_identity
          { session with streamEnded := true } now fails
      exact ⟨hFinish.ticketId, hFinish.username,
        hFinish.repo, hFinish.stagingFilePath⟩

variable {session}
variable {now : Nat} {fails : Bool} {finish : PushFinish}

theorem eq_some_of_given
    {field : Option String}
    {text : String}
    (hText : given field = some text) :
    field = some text := by
  unfold given at hText
  cases field with
  | none => cases hText
  | some value =>
      by_cases hEmpty : value = ""
      · simp [hEmpty] at hText
      · simpa [hEmpty] using hText

/- What `finish` has collected is what the handler holds. -/
theorem beginFinish_finishing
    (hFinish :
      (session.beginFinish now fails).1 =
        .finishing finish) :
    session.ticketId = some finish.ticketId ∧
      session.repo = some finish.repo ∧
      session.username = some finish.username := by
  unfold beginFinish at hFinish
  split at hFinish
  · cases hFinish
  · split at hFinish
    · rename_i hTicket hRepo _ _ hUser
      split at hFinish
      · cases hFinish
      · cases hFinish
        exact ⟨eq_some_of_given hTicket,
          eq_some_of_given hRepo, eq_some_of_given hUser⟩
    · cases hFinish

theorem finalizeStream_finishing
    (hFinish :
      (session.finalizeStream now fails).1 =
        .finishing finish) :
    session.ticketId = some finish.ticketId ∧
      session.repo = some finish.repo ∧
      session.username = some finish.username := by
  unfold finalizeStream at hFinish
  dsimp only at hFinish
  split at hFinish
  · cases hFinish
  · split at hFinish
    · cases hFinish
    · have hHeld := beginFinish_finishing hFinish
      exact hHeld

end PushSession

namespace SessionStep

variable {session : PushSession}
variable {stagingRootPath uuid : String}
variable {now : Nat} {fails : Bool}

/- Only a consumed ticket gives a session its identity. -/
theorem identity_run
    {step : SessionStep}
    (hStep :
      ∀ sent ticket, step ≠ .ticketConsumed sent ticket) :
    session.SameIdentity
      (step.run stagingRootPath uuid now fails session).2 := by
  cases step with
  | header sent =>
      exact PushSession.processHeader_identity session sent
  | chunk data =>
      exact
        PushSession.processChunk_identity session fails data
  | empty => exact .refl session
  | ticketConsumed sent ticket =>
      exact absurd rfl (hStep sent ticket)
  | openSink => exact ⟨rfl, rfl, rfl, rfl⟩
  | markAborted status =>
      exact PushSession.markAborted_identity session status
  | isEnded => exact .refl session
  | finalize =>
      exact PushSession.finalizeStream_identity session now fails
  | error => exact PushSession.abort_identity session
  | cancelled =>
      have hAbort :=
        PushSession.abort_identity
          { session with aborted := true }
      exact ⟨hAbort.ticketId, hAbort.username, hAbort.repo,
        hAbort.stagingFilePath⟩

end SessionStep

end Transfer
