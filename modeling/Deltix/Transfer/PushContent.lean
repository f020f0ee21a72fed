import Deltix.Transfer.NasPaths

/-
  What the steps of a push stream do to the content of its
  session: to what it has hashed and counted, to its sink,
  and to the flags that stop it.

  Key definitions include:
    * `afterHeader`
    * `Intact`
    * `WindsDown`
    * `SessionStep.disturbs`

  Key theorems include:
    * `processHeader_cases`
    * `processChunk_cases`
    * `finalizeStream_cases`
    * `removal_closes`
-/

------------------------------------------------------------
-- The Content Of A Push
------------------------------------------------------------

namespace Transfer

open Storage

/- The data of the chunks, in order. -/
def chunks : List PushMessage → Content
  | [] => []
  | .chunk data :: rest => data ++ chunks rest
  | _ :: rest => chunks rest

/- The data of the chunks that follow the first header. -/
def afterHeader : List PushMessage → Content
  | [] => []
  | .header _ :: rest => chunks rest
  | _ :: rest => afterHeader rest

/- Whether a message is a header. -/
def PushMessage.isHeader : PushMessage → Bool
  | .header _ => true
  | _ => false

/- The data of one message. -/
def PushMessage.data : PushMessage → Content
  | .chunk data => data
  | _ => []

variable {messages done : List PushMessage}
variable {message : PushMessage}

theorem chunks_append :
    chunks (done ++ [message]) =
      chunks done ++ message.data := by
  induction done with
  | nil => cases message <;> simp [chunks, PushMessage.data]
  | cons first rest ih =>
      cases first <;> simp [chunks, ih]

theorem afterHeader_append_of_any
    (hAny : done.any PushMessage.isHeader = true) :
    afterHeader (done ++ [message]) =
      afterHeader done ++ message.data := by
  induction done with
  | nil => simp at hAny
  | cons first rest ih =>
      cases first with
      | header header =>
          simpa [afterHeader] using chunks_append
      | chunk data =>
          simpa [afterHeader] using
            ih (by simpa [PushMessage.isHeader] using hAny)
      | empty =>
          simpa [afterHeader] using
            ih (by simpa [PushMessage.isHeader] using hAny)

theorem afterHeader_append_of_none
    (hNone : done.any PushMessage.isHeader = false)
    (messages : List PushMessage) :
    afterHeader (done ++ messages) = afterHeader messages := by
  induction done with
  | nil => rfl
  | cons first rest ih =>
      cases first with
      | header header => simp [PushMessage.isHeader] at hNone
      | chunk data =>
          simpa [afterHeader] using
            ih (by simpa [PushMessage.isHeader] using hNone)
      | empty =>
          simpa [afterHeader] using
            ih (by simpa [PushMessage.isHeader] using hNone)

theorem afterHeader_of_none
    (hNone : done.any PushMessage.isHeader = false) :
    afterHeader done = [] := by
  rw [← List.append_nil done, afterHeader_append_of_none hNone]
  rfl

/- The message that is no chunk of a push adds nothing. -/
theorem afterHeader_concat_of_none
    (hNone : done.any PushMessage.isHeader = false) :
    afterHeader (done ++ [message]) = [] := by
  rw [afterHeader_append_of_none hNone]
  cases message <;> rfl

/- A session that has taken in the messages processed so
   far. -/
structure Intact
    (done : List PushMessage)
    (session : PushSession) : Prop where
  hashed : session.hashed = afterHeader done
  bytes : session.bytesReceived = session.hashed.length
  sink :
    ∀ sink, session.fileSink = some sink →
      sink.ended = false → sink.written = session.hashed
  header :
    session.headerReceived = done.any PushMessage.isHeader

theorem intact_initial : Intact [] PushSession.initial where
  hashed := rfl
  bytes := rfl
  sink := fun _ hSink => by cases hSink
  header := rfl

section Intact

variable {session : PushSession}

/- A first header starts the content. -/
theorem Intact.with_header
    (hIntact : Intact done session)
    (hUnsent : session.headerReceived = false)
    (sent : PushHeader) :
    session.hashed = [] ∧
      Intact (done ++ [.header sent])
        { session with headerReceived := true } := by
  have hNone : done.any PushMessage.isHeader = false :=
    hIntact.header.symm.trans hUnsent
  have hEmpty : session.hashed = [] :=
    hIntact.hashed.trans (afterHeader_of_none hNone)
  refine ⟨hEmpty, ?_, hIntact.bytes, hIntact.sink, ?_⟩
  · rw [afterHeader_concat_of_none hNone]
    exact hEmpty
  · simp [PushMessage.isHeader]

/- A chunk after it adds its data. -/
theorem Intact.with_chunk
    {sink : FileSink}
    (hIntact : Intact done session)
    (hReceived : session.headerReceived = true)
    (hSink : session.fileSink = some sink)
    (data : Content) :
    Intact (done ++ [.chunk data])
      { session with
        fileSink := some (sink.write data)
        hashed := session.hashed ++ data
        bytesReceived :=
          session.bytesReceived + data.length } := by
  have hAny : done.any PushMessage.isHeader = true :=
    hIntact.header.symm.trans hReceived
  refine ⟨?_, ?_, ?_, ?_⟩
  · rw [afterHeader_append_of_any hAny, ← hIntact.hashed]
    rfl
  · simp [hIntact.bytes]
  · intro other hOther hOpen
    rw [Option.some.injEq] at hOther
    subst hOther
    unfold FileSink.write at hOpen ⊢
    by_cases hEnded : sink.ended = true
    · rw [if_pos hEnded, hEnded] at hOpen
      cases hOpen
    · rw [if_neg hEnded]
      rw [Bool.not_eq_true] at hEnded
      simp [hIntact.sink sink hSink hEnded]
  · simp [hReceived, hAny]

/- An empty message adds nothing. -/
theorem Intact.with_empty
    (hIntact : Intact done session) :
    Intact (done ++ [.empty]) session := by
  refine ⟨?_, hIntact.bytes, hIntact.sink, ?_⟩
  · rw [hIntact.hashed]
    cases hAny : done.any PushMessage.isHeader with
    | true =>
        rw [afterHeader_append_of_any hAny]
        simp [PushMessage.data]
    | false =>
        rw [afterHeader_concat_of_none hAny,
          afterHeader_of_none hAny]
  · simp [hIntact.header, PushMessage.isHeader]

end Intact

/- The session takes nothing in any more: at most it is
   stopped, and its sink is ended. -/
structure WindsDown (session other : PushSession) : Prop where
  closed : session.closed = true → other.closed = true
  aborted : session.aborted = true → other.aborted = true
  headerReceived :
    other.headerReceived = session.headerReceived
  hashed : other.hashed = session.hashed
  bytesReceived : other.bytesReceived = session.bytesReceived
  identity : session.SameIdentity other
  fileSink :
    other.fileSink = session.fileSink ∨
      (other.fileSink = session.fileSink.map FileSink.end ∧
        other.closed = true)

namespace WindsDown

variable {session other third : PushSession}
variable {done : List PushMessage}

theorem refl (session : PushSession) :
    WindsDown session session where
  closed := id
  aborted := id
  headerReceived := rfl
  hashed := rfl
  bytesReceived := rfl
  identity := .refl session
  fileSink := Or.inl rfl

theorem trans
    (hFirst : WindsDown session other)
    (hSecond : WindsDown other third) :
    WindsDown session third where
  closed := fun h => hSecond.closed (hFirst.closed h)
  aborted := fun h => hSecond.aborted (hFirst.aborted h)
  headerReceived :=
    hSecond.headerReceived.trans hFirst.headerReceived
  hashed := hSecond.hashed.trans hFirst.hashed
  bytesReceived :=
    hSecond.bytesReceived.trans hFirst.bytesReceived
  identity :=
    { ticketId :=
        hSecond.identity.ticketId.trans
          hFirst.identity.ticketId
      username :=
        hSecond.identity.username.trans
          hFirst.identity.username
      repo := hSecond.identity.repo.trans hFirst.identity.repo
      stagingFilePath :=
        hSecond.identity.stagingFilePath.trans
          hFirst.identity.stagingFilePath }
  fileSink := by
    rcases hSecond.fileSink with hSame | ⟨hEnds, hClosed⟩
    · rcases hFirst.fileSink with hSame' | ⟨hEnds', hClosed'⟩
      · exact Or.inl (hSame.trans hSame')
      · exact
          Or.inr ⟨hSame.trans hEnds', hSecond.closed hClosed'⟩
    · refine Or.inr ⟨hEnds.trans ?_, hClosed⟩
      rcases hFirst.fileSink with hSame' | ⟨hEnds', _⟩
      · rw [hSame']
      · rw [hEnds', Option.map_map]
        rfl

/- It keeps what it has taken in. -/
theorem intact
    (hWinds : WindsDown session other)
    (hIntact : Intact done session) :
    Intact done other where
  hashed := hWinds.hashed.trans hIntact.hashed
  bytes := by
    rw [hWinds.bytesReceived, hWinds.hashed]
    exact hIntact.bytes
  sink := by
    intro sink hSink hOpen
    rw [hWinds.hashed]
    rcases hWinds.fileSink with hSame | ⟨hEnds, _⟩
    · rw [hSame] at hSink
      exact hIntact.sink sink hSink hOpen
    · rw [hEnds] at hSink
      rcases Option.map_eq_some_iff.mp hSink with
        ⟨open_, _, rfl⟩
      cases hOpen
  header := hWinds.headerReceived.trans hIntact.header

/- What was written stays written. -/
theorem written
    (hWinds : WindsDown session other)
    {sink : FileSink}
    (hSink : other.fileSink = some sink) :
    ∃ open_,
      session.fileSink = some open_ ∧
        sink.written = open_.written ∧
        (open_.ended = true → sink.ended = true) := by
  rcases hWinds.fileSink with hSame | ⟨hEnds, _⟩
  · exact ⟨sink, hSame ▸ hSink, rfl, id⟩
  · rw [hEnds] at hSink
    rcases Option.map_eq_some_iff.mp hSink with
      ⟨open_, hOpen, rfl⟩
    exact ⟨open_, hOpen, rfl, fun _ => rfl⟩

/- Only a closed session has an ended sink. -/
theorem ended
    (hWinds : WindsDown session other)
    (hBefore :
      ∀ sink, session.fileSink = some sink →
        sink.ended = true → session.closed = true)
    (sink : FileSink)
    (hSink : other.fileSink = some sink)
    (hEnded : sink.ended = true) :
    other.closed = true := by
  rcases hWinds.fileSink with hSame | ⟨_, hClosed⟩
  · rw [hSame] at hSink
    exact hWinds.closed (hBefore sink hSink hEnded)
  · exact hClosed

end WindsDown

end Transfer

------------------------------------------------------------
-- The Steps
------------------------------------------------------------

namespace Transfer

open Storage

namespace PushSession

variable (session : PushSession)

theorem abort_winds :
    WindsDown session session.abort.2 := by
  unfold abort
  by_cases hClosed : session.closed = true
  · rw [if_pos hClosed]
    exact .refl session
  · rw [if_neg hClosed]
    exact
      { closed := fun _ => rfl
        aborted := id
        headerReceived := rfl
        hashed := rfl
        bytesReceived := rfl
        identity := ⟨rfl, rfl, rfl, rfl⟩
        fileSink := Or.inr ⟨rfl, rfl⟩ }

theorem abort_closed : session.abort.2.closed = true := by
  unfold abort
  by_cases hClosed : session.closed = true
  · rw [if_pos hClosed]
    exact hClosed
  · rw [if_neg hClosed]

theorem abort_aborted :
    session.abort.2.aborted = session.aborted := by
  unfold abort
  by_cases hClosed : session.closed = true
  · rw [if_pos hClosed]
  · rw [if_neg hClosed]

/- A session that is only marked as aborted. -/
theorem winds_marked
    (pending : Option GrpcStatus)
    (streamEnded : Bool) :
    WindsDown session
      { session with
        aborted := true
        pendingAbort := pending
        streamEnded := streamEnded } where
  closed := id
  aborted := fun _ => rfl
  headerReceived := rfl
  hashed := rfl
  bytesReceived := rfl
  identity := ⟨rfl, rfl, rfl, rfl⟩
  fileSink := Or.inl rfl

theorem winds_ended :
    WindsDown session { session with streamEnded := true } where
  closed := id
  aborted := id
  headerReceived := rfl
  hashed := rfl
  bytesReceived := rfl
  identity := ⟨rfl, rfl, rfl, rfl⟩
  fileSink := Or.inl rfl

variable (status : GrpcStatus)

/- Marking a session as aborted aborts it, if it was not
   aborted before. -/
theorem markAborted_cases :
    (session.aborted = true ∧
        session.markAborted status = (.already, session)) ∨
      (session.aborted = false ∧
        ∃ removal next,
          session.markAborted status =
              (.aborting removal, next) ∧
            WindsDown session next ∧
            next.aborted = true ∧
            next.closed = true) := by
  unfold markAborted
  by_cases hAborted : session.aborted = true
  · rw [if_pos hAborted]
    exact Or.inl ⟨hAborted, rfl⟩
  · rw [if_neg hAborted]
    refine
      Or.inr ⟨Bool.not_eq_true _ ▸ hAborted, _, _, rfl, ?_, ?_,
        ?_⟩
    · exact
        (winds_marked session (some status)
          session.streamEnded).trans (abort_winds _)
    · rw [abort_aborted]
    · exact abort_closed _

theorem fail_spec
    (hAborted : session.aborted = false) :
    WindsDown session (session.fail status).2 ∧
      (session.fail status).2.aborted = true ∧
      (session.fail status).2.closed = true := by
  unfold fail
  rcases markAborted_cases session status with
    ⟨hAlready, _⟩ | ⟨_, removal, next, hEq, hNext⟩
  · rw [hAborted] at hAlready
    cases hAlready
  · rw [hEq]
    exact hNext

/- How a session takes a header. -/
theorem processHeader_cases (header : PushHeader) :
    (session.aborted = true ∧
        session.processHeader header = (.ignored, session)) ∨
      (∃ status removal next,
        session.processHeader header =
            (.aborting status removal, next) ∧
          WindsDown session next ∧
          next.aborted = true ∧
          next.closed = true) ∨
      (session.aborted = false ∧
        session.headerReceived = false ∧
        (session.processHeader header).2 =
            { session with headerReceived := true } ∧
        ((session.processHeader header).1 =
            .consuming header ∨
          ∃ reason,
            (session.processHeader header).1 =
              .rejected reason)) := by
  unfold processHeader
  by_cases hAborted : session.aborted = true
  · rw [if_pos hAborted]
    exact Or.inl ⟨hAborted, rfl⟩
  · rw [if_neg hAborted]
    rw [Bool.not_eq_true] at hAborted
    by_cases hReceived : session.headerReceived = true
    · rw [if_pos hReceived]
      exact
        Or.inr (Or.inl
          ⟨_, _, _, rfl,
            fail_spec session headerAlreadySent hAborted⟩)
    · rw [if_neg hReceived]
      rw [Bool.not_eq_true] at hReceived
      refine Or.inr (Or.inr ⟨hAborted, hReceived, ?_⟩)
      dsimp only
      cases given session.ticketId with
      | none => exact ⟨rfl, Or.inl rfl⟩
      | some ticketId => exact ⟨rfl, Or.inr ⟨_, rfl⟩⟩

/- How it takes a chunk. -/
theorem processChunk_cases (fails : Bool) (data : Content) :
    (session.aborted = true ∧
        session.processChunk fails data =
          (.ignored, session)) ∨
      (∃ status removal next,
        session.processChunk fails data =
            (.aborting status removal, next) ∧
          WindsDown session next ∧
          next.aborted = true ∧
          next.closed = true) ∨
      ((session.processChunk fails data).2 = session ∧
        ((∃ reason,
            (session.processChunk fails data).1 =
              .rejected reason) ∨
          (session.processChunk fails data).1 = .failed)) ∨
      (session.aborted = false ∧
        session.headerReceived = true ∧
        ∃ sink,
          session.fileSink = some sink ∧
            session.processChunk fails data =
              (.accepted,
                { session with
                  fileSink := some (sink.write data)
                  hashed := session.hashed ++ data
                  bytesReceived :=
                    session.bytesReceived +
                      data.length })) := by
  unfold processChunk
  by_cases hAborted : session.aborted = true
  · rw [if_pos hAborted]
    exact Or.inl ⟨hAborted, rfl⟩
  · rw [if_neg hAborted]
    rw [Bool.not_eq_true] at hAborted
    cases hReceived : session.headerReceived with
    | false =>
        exact
          Or.inr (Or.inl
            ⟨_, _, _, rfl,
              fail_spec session chunkBeforeHeader hAborted⟩)
    | true =>
        refine Or.inr (Or.inr ?_)
        cases hSink : session.fileSink with
        | none => exact Or.inl ⟨rfl, Or.inl ⟨_, rfl⟩⟩
        | some sink =>
            cases fails with
            | true => exact Or.inl ⟨rfl, Or.inr rfl⟩
            | false =>
                exact Or.inr ⟨hAborted, rfl, sink, rfl, rfl⟩

/- What the end of a stream makes of its session, and what
   `finish` has collected when it goes on. -/
theorem beginFinish_cases (now : Nat) (fails : Bool) :
    (WindsDown session (session.beginFinish now fails).2 ∧
        ∃ reason,
          (session.beginFinish now fails).1 =
            .rejected reason) ∨
      (session.closed = false ∧
        ∃ started sink,
          (session.beginFinish now fails).1 =
              .finishing started ∧
            session.fileSink = some sink ∧
            session.stagingFilePath =
              some started.stagingPath ∧
            session.ticketId = some started.ticketId ∧
            started.hashed = session.hashed ∧
            started.bytesReceived = session.bytesReceived ∧
            (session.beginFinish now fails).2 =
              { session with
                closed := true
                fileSink := some sink.end }) := by
  unfold beginFinish
  by_cases hClosed : session.closed = true
  · rw [if_pos hClosed]
    exact Or.inl ⟨.refl session, _, rfl⟩
  · rw [if_neg hClosed]
    rw [Bool.not_eq_true] at hClosed
    split
    · rename_i ticketId repo path sink username hTicket hRepo
        hPath hSink hUser
      cases fails with
      | true =>
          have hCloses :
              WindsDown session
                { session with closed := true } :=
            { closed := fun _ => rfl
              aborted := id
              headerReceived := rfl
              hashed := rfl
              bytesReceived := rfl
              identity := ⟨rfl, rfl, rfl, rfl⟩
              fileSink := Or.inl rfl }
          exact Or.inl ⟨hCloses, _, rfl⟩
      | false =>
          exact
            Or.inr
              ⟨hClosed, _, sink, rfl, hSink,
                eq_some_of_given hPath,
                eq_some_of_given hTicket, rfl, rfl, rfl⟩
    · exact Or.inl ⟨.refl session, _, rfl⟩

theorem finalizeStream_of_aborted
    (now : Nat)
    (fails : Bool)
    (hAborted : session.aborted = true) :
    session.finalizeStream now fails =
      (.answered session.pendingAbort,
        { session with streamEnded := true }) :=
  if_pos hAborted

theorem finalizeStream_of_unsent
    (now : Nat)
    (fails : Bool)
    (hAborted : session.aborted = false)
    (hReceived : session.headerReceived = false) :
    session.finalizeStream now fails =
      (.aborting endedBeforeHeader
          ({ session with streamEnded := true }.fail
            endedBeforeHeader).1,
        ({ session with streamEnded := true }.fail
          endedBeforeHeader).2) := by
  unfold finalizeStream
  simp [hAborted, hReceived]

theorem finalizeStream_of_sent
    (now : Nat)
    (fails : Bool)
    (hAborted : session.aborted = false)
    (hReceived : session.headerReceived = true) :
    session.finalizeStream now fails =
      { session with streamEnded := true }.beginFinish
        now fails := by
  unfold finalizeStream
  simp [hAborted, hReceived]

theorem finalizeStream_cases (now : Nat) (fails : Bool) :
    WindsDown session (session.finalizeStream now fails).2 ∧
      ((session.aborted = true ∧
          ∃ pending,
            (session.finalizeStream now fails).1 =
              .answered pending) ∨
        (∃ status removal,
          (session.finalizeStream now fails).1 =
              .aborting status removal ∧
            (session.finalizeStream now fails).2.aborted =
              true ∧
            (session.finalizeStream now fails).2.closed =
              true) ∨
        (∃ reason,
          (session.finalizeStream now fails).1 =
            .rejected reason) ∨
        (session.aborted = false ∧
          session.closed = false ∧
          ∃ started sink,
            (session.finalizeStream now fails).1 =
                .finishing started ∧
              session.fileSink = some sink ∧
              session.stagingFilePath =
                some started.stagingPath ∧
              session.ticketId = some started.ticketId ∧
              started.hashed = session.hashed ∧
              started.bytesReceived =
                session.bytesReceived ∧
              (session.finalizeStream now fails).2.closed =
                true ∧
              (session.finalizeStream now fails).2.fileSink =
                some sink.end)) := by
  by_cases hAborted : session.aborted = true
  · rw [finalizeStream_of_aborted session now fails hAborted]
    exact ⟨winds_ended session, Or.inl ⟨hAborted, _, rfl⟩⟩
  · rw [Bool.not_eq_true] at hAborted
    by_cases hReceived : session.headerReceived = true
    · rw [finalizeStream_of_sent session now fails hAborted
        hReceived]
      rcases
          beginFinish_cases
            { session with streamEnded := true } now fails with
        ⟨hWinds, hRejected⟩ |
          ⟨hClosed, started, sink, hFinishing, hSink, hPath,
            hTicket, hHashed, hBytes, hNext⟩
      · exact
          ⟨(winds_ended session).trans hWinds,
            Or.inr (Or.inr (Or.inl hRejected))⟩
      · rw [hNext]
        constructor
        · exact
            { closed := fun _ => rfl
              aborted := id
              headerReceived := rfl
              hashed := rfl
              bytesReceived := rfl
              identity := ⟨rfl, rfl, rfl, rfl⟩
              fileSink :=
                Or.inr
                  ⟨(congrArg (Option.map FileSink.end)
                      hSink).symm, rfl⟩ }
        · exact
            Or.inr (Or.inr (Or.inr
              ⟨hAborted, hClosed, started, sink, hFinishing,
                hSink, hPath, hTicket, hHashed, hBytes, rfl,
                rfl⟩))
    · rw [Bool.not_eq_true] at hReceived
      rw [finalizeStream_of_unsent session now fails hAborted
        hReceived]
      have hFail :=
        fail_spec { session with streamEnded := true }
          endedBeforeHeader hAborted
      exact
        ⟨(winds_ended session).trans hFail.1,
          Or.inr (Or.inl ⟨_, _, rfl, hFail.2⟩)⟩

end PushSession

end Transfer

------------------------------------------------------------
-- What Every Step Keeps
------------------------------------------------------------

namespace Transfer

open Storage

def Received.aborts : Received → Bool
  | .aborting _ _ => true
  | _ => false

def Ended.aborts : Ended → Bool
  | .aborting _ _ => true
  | _ => false

/- A cancellation, an error of the stream, or an abort. -/
def SessionStep.disturbs :
    (step : SessionStep) → step.Answer → Bool
  | .error, _ => true
  | .cancelled, _ => true
  | .markAborted _, _ => true
  | .header _, answer => Received.aborts answer
  | .chunk _, answer => Received.aborts answer
  | .finalize, answer => Ended.aborts answer
  | .empty, _ => false
  | .ticketConsumed _ _, _ => false
  | .openSink, _ => false
  | .isEnded, _ => false

/- The steps of a header and of a chunk. -/
def SessionStep.TakesIn : SessionStep → Prop
  | .header _ => True
  | .chunk _ => True
  | .ticketConsumed _ _ => True
  | .openSink => True
  | _ => False

namespace SessionStep

variable {stagingRootPath uuid : String} {now : Nat}
variable {fails : Bool} {session : PushSession}

theorem error_winds :
    WindsDown session
      (SessionStep.error.run stagingRootPath uuid now fails
        session).2 :=
  session.abort_winds

theorem cancelled_winds :
    WindsDown session
      (SessionStep.cancelled.run stagingRootPath uuid now
        fails session).2 :=
  (PushSession.winds_marked session session.pendingAbort
    session.streamEnded).trans (PushSession.abort_winds _)

theorem markAborted_winds (status : GrpcStatus) :
    WindsDown session
      ((SessionStep.markAborted status).run stagingRootPath
        uuid now fails session).2 := by
  rcases session.markAborted_cases status with
    ⟨_, hEq⟩ | ⟨_, removal, next, hEq, hNext⟩
  · simp only [run, hEq]
    exact .refl session
  · simp only [run, hEq]
    exact hNext.1

/- How any step changes a session: it winds down, it takes a
   header or a chunk, it gets its identity or its sink. -/
inductive Change (session : PushSession) :
    SessionStep → PushSession → Prop where
  | winds
      {step : SessionStep}
      {next : PushSession}
      (winds : WindsDown session next) :
      Change session step next
  | header
      (sent : PushHeader) :
      session.aborted = false →
        Change session (.header sent)
          { session with headerReceived := true }
  | chunk
      (data : Content)
      (sink : FileSink) :
      session.aborted = false →
      session.headerReceived = true →
      session.fileSink = some sink →
        Change session (.chunk data)
          { session with
            fileSink := some (sink.write data)
            hashed := session.hashed ++ data
            bytesReceived :=
              session.bytesReceived + data.length }
  | identity
      (sent : PushHeader)
      (ticket : Ticket)
      (path : String) :
      Change session (.ticketConsumed sent ticket)
        (session.ticketConsumed sent ticket path)
  | sink :
      Change session .openSink
        { session with
          fileSink := some { written := [], ended := false } }

theorem change_run (step : SessionStep) :
    Change session step
      (step.run stagingRootPath uuid now fails session).2 := by
  cases step with
  | header sent =>
      rcases session.processHeader_cases sent with
        ⟨_, hEq⟩ | ⟨_, _, next, hEq, hNext⟩ |
          ⟨hAborted, _, hEq, _⟩
      · simp only [run, hEq]
        exact .winds (.refl session)
      · simp only [run, hEq]
        exact .winds hNext.1
      · simp only [run, hEq]
        exact .header sent hAborted
  | chunk data =>
      rcases session.processChunk_cases fails data with
        ⟨_, hEq⟩ | ⟨_, _, next, hEq, hNext⟩ | ⟨hEq, _⟩ |
          ⟨hAborted, hReceived, sink, hSink, hEq⟩
      · simp only [run, hEq]
        exact .winds (.refl session)
      · simp only [run, hEq]
        exact .winds hNext.1
      · simp only [run, hEq]
        exact .winds (.refl session)
      · simp only [run, hEq]
        exact .chunk data sink hAborted hReceived hSink
  | empty => exact .winds (.refl session)
  | ticketConsumed sent ticket =>
      exact .identity sent ticket _
  | openSink => exact .sink
  | markAborted status => exact .winds (markAborted_winds status)
  | isEnded => exact .winds (.refl session)
  | finalize =>
      exact .winds (session.finalizeStream_cases now fails).1
  | error => exact .winds error_winds
  | cancelled => exact .winds cancelled_winds

namespace Change

variable {step : SessionStep} {next : PushSession}

theorem closed
    (hChange : Change session step next)
    (hClosed : session.closed = true) :
    next.closed = true := by
  cases hChange with
  | winds hWinds => exact hWinds.closed hClosed
  | _ => exact hClosed

theorem aborted
    (hChange : Change session step next)
    (hAborted : session.aborted = true) :
    next.aborted = true := by
  cases hChange with
  | winds hWinds => exact hWinds.aborted hAborted
  | _ => exact hAborted

/- Only a closed session has an ended sink. -/
theorem ended
    (hChange : Change session step next)
    (hBefore :
      ∀ sink, session.fileSink = some sink →
        sink.ended = true → session.closed = true)
    (sink : FileSink)
    (hSink : next.fileSink = some sink)
    (hEnded : sink.ended = true) :
    next.closed = true := by
  cases hChange with
  | winds hWinds =>
      exact hWinds.ended hBefore sink hSink hEnded
  | header sent => exact hBefore sink hSink hEnded
  | chunk data open_ _ _ hOpen =>
      rw [Option.some.injEq] at hSink
      subst hSink
      apply hBefore open_ hOpen
      unfold FileSink.write at hEnded
      by_cases hDone : open_.ended = true
      · exact hDone
      · rw [if_neg hDone] at hEnded
        exact hEnded
  | identity sent ticket path =>
      exact hBefore sink hSink hEnded
  | sink =>
      rw [Option.some.injEq] at hSink
      subst hSink
      cases hEnded

/- A sink that has ended stays ended, unless a new one is
   opened. -/
theorem staysEnded
    (hChange : Change session step next)
    (hStep : step ≠ .openSink)
    (hBefore :
      ∀ sink, session.fileSink = some sink →
        sink.ended = true)
    (sink : FileSink)
    (hSink : next.fileSink = some sink) :
    sink.ended = true := by
  cases hChange with
  | winds hWinds =>
      rcases hWinds.written hSink with ⟨open_, hOpen, _, hEnds⟩
      exact hEnds (hBefore open_ hOpen)
  | header sent => exact hBefore sink hSink
  | chunk data open_ _ _ hOpen =>
      rw [Option.some.injEq] at hSink
      subst hSink
      unfold FileSink.write
      rw [if_pos (hBefore open_ hOpen)]
      exact hBefore open_ hOpen
  | identity sent ticket path => exact hBefore sink hSink
  | sink => exact absurd rfl hStep

end Change

/- A disturbed session is stopped. -/
theorem disturbs_run
    (step : SessionStep)
    (hDisturbs :
      step.disturbs
          (step.run stagingRootPath uuid now fails
            session).1 =
        true) :
    (step.run stagingRootPath uuid now fails
          session).2.aborted =
        true ∨
      (step.run stagingRootPath uuid now fails
          session).2.closed =
        true := by
  cases step with
  | header sent =>
      rcases session.processHeader_cases sent with
        ⟨_, hEq⟩ | ⟨_, _, next, hEq, hNext⟩ |
          ⟨_, _, _, hAnswer⟩
      · simp only [run, disturbs, hEq, Received.aborts] at hDisturbs
        cases hDisturbs
      · simp only [run, hEq]
        exact Or.inl hNext.2.1
      · rcases hAnswer with hAnswer | ⟨_, hAnswer⟩
        · simp only [run, disturbs, hAnswer, Received.aborts]
            at hDisturbs
          cases hDisturbs
        · simp only [run, disturbs, hAnswer, Received.aborts]
            at hDisturbs
          cases hDisturbs
  | chunk data =>
      rcases session.processChunk_cases fails data with
        ⟨_, hEq⟩ | ⟨_, _, next, hEq, hNext⟩ |
          ⟨_, hAnswer⟩ | ⟨_, _, sink, _, hEq⟩
      · simp only [run, disturbs, hEq, Received.aborts]
          at hDisturbs
        cases hDisturbs
      · simp only [run, hEq]
        exact Or.inl hNext.2.1
      · rcases hAnswer with ⟨_, hAnswer⟩ | hAnswer
        · simp only [run, disturbs, hAnswer, Received.aborts]
            at hDisturbs
          cases hDisturbs
        · simp only [run, disturbs, hAnswer, Received.aborts]
            at hDisturbs
          cases hDisturbs
      · simp only [run, disturbs, hEq, Received.aborts]
          at hDisturbs
        cases hDisturbs
  | empty => cases hDisturbs
  | ticketConsumed sent ticket => cases hDisturbs
  | openSink => cases hDisturbs
  | markAborted status =>
      rcases session.markAborted_cases status with
        ⟨hAborted, hEq⟩ | ⟨_, removal, next, hEq, hNext⟩
      · simp only [run, hEq]
        exact Or.inl hAborted
      · simp only [run, hEq]
        exact Or.inl hNext.2.1
  | isEnded => cases hDisturbs
  | finalize =>
      rcases (session.finalizeStream_cases now fails).2 with
        ⟨_, _, hAnswer⟩ | ⟨_, _, _, hNext⟩ | ⟨_, hAnswer⟩ |
          ⟨_, _, _, _, hAnswer, _⟩
      · simp only [run, disturbs, hAnswer, Ended.aborts]
          at hDisturbs
        cases hDisturbs
      · exact Or.inl hNext.1
      · simp only [run, disturbs, hAnswer, Ended.aborts]
          at hDisturbs
        cases hDisturbs
      · simp only [run, disturbs, hAnswer, Ended.aborts]
          at hDisturbs
        cases hDisturbs
  | error => exact Or.inr session.abort_closed
  | cancelled => exact Or.inr (PushSession.abort_closed _)

end SessionStep

/- What ending a sink writes, and where. -/
theorem flush_cases
    (before after : PushSession)
    (files : Files) :
    flush before after files = files ∨
      ∃ open_ sink path,
        before.fileSink = some open_ ∧
          open_.ended = false ∧
          after.fileSink = some sink ∧
          sink.ended = true ∧
          after.stagingFilePath = some path ∧
          flush before after files =
            Function.update files path
              (some sink.written) := by
  unfold flush
  cases hBefore : before.fileSink with
  | none => exact Or.inl rfl
  | some open_ =>
      cases hAfter : after.fileSink with
      | none => exact Or.inl rfl
      | some sink =>
          cases hPath : after.stagingFilePath with
          | none => exact Or.inl rfl
          | some path =>
              dsimp only
              by_cases hEnds :
                  (sink.ended && !open_.ended) = true
              · rw [if_pos hEnds]
                rw [Bool.and_eq_true,
                  Bool.not_eq_true'] at hEnds
                exact
                  Or.inr
                    ⟨open_, sink, path, rfl, hEnds.2, rfl,
                      hEnds.1, rfl, rfl⟩
              · rw [if_neg hEnds]
                exact Or.inl rfl

open NasPaths

variable (session : PushSession)

/- A session whose staging file is to be removed was open,
   and is closed. -/
def ClosesFor
    (removal : Removal)
    (session next : PushSession) : Prop :=
  ∀ path, removal = some path →
    session.closed = false ∧ next.closed = true

theorem PushSession.abort_closes :
    ClosesFor session.abort.1 session session.abort.2 := by
  intro path hRemoval
  refine ⟨?_, session.abort_closed⟩
  unfold PushSession.abort at hRemoval
  by_cases hClosed : session.closed = true
  · rw [if_pos hClosed] at hRemoval
    cases hRemoval
  · exact Bool.not_eq_true _ ▸ hClosed

theorem PushSession.markAborted_closes
    (status : GrpcStatus) :
    ClosesFor (session.markAborted status).1.removal session
      (session.markAborted status).2 := by
  unfold PushSession.markAborted
  by_cases hAborted : session.aborted = true
  · rw [if_pos hAborted]
    intro path hRemoval
    cases hRemoval
  · rw [if_neg hAborted]
    exact
      PushSession.abort_closes
        { session with
          aborted := true
          pendingAbort := some status }

theorem PushSession.fail_closes (status : GrpcStatus) :
    ClosesFor (session.fail status).1 session
      (session.fail status).2 := by
  have hMarked := session.markAborted_closes status
  unfold PushSession.fail
  split
  · intro path hRemoval
    cases hRemoval
  · rename_i hEq
    rw [hEq] at hMarked
    exact hMarked

theorem removal_closes
    {stagingRootPath uuid : String}
    {now : Nat}
    {fails : Bool}
    (step : SessionStep) :
    ClosesFor
      (step.removal
        (step.run stagingRootPath uuid now fails session).1)
      session
      (step.run stagingRootPath uuid now fails session).2 := by
  cases step with
  | header sent =>
      simp only [SessionStep.run, SessionStep.removal]
      unfold PushSession.processHeader
      split
      · intro path hRemoval
        cases hRemoval
      · split
        · exact session.fail_closes _
        · intro path hRemoval
          dsimp only at hRemoval
          split at hRemoval <;> cases hRemoval
  | chunk data =>
      simp only [SessionStep.run, SessionStep.removal]
      unfold PushSession.processChunk
      split
      · intro path hRemoval
        cases hRemoval
      · split
        · exact session.fail_closes _
        · intro path hRemoval
          split at hRemoval
          · cases hRemoval
          · split at hRemoval <;> cases hRemoval
  | empty =>
      intro path hRemoval
      cases hRemoval
  | ticketConsumed sent ticket =>
      intro path hRemoval
      cases hRemoval
  | openSink =>
      intro path hRemoval
      cases hRemoval
  | markAborted status => exact session.markAborted_closes status
  | isEnded =>
      intro path hRemoval
      cases hRemoval
  | finalize =>
      simp only [SessionStep.run, SessionStep.removal]
      unfold PushSession.finalizeStream
      dsimp only
      split
      · intro path hRemoval
        cases hRemoval
      · split
        · exact
            PushSession.fail_closes
              { session with streamEnded := true } _
        · intro path hRemoval
          unfold PushSession.beginFinish at hRemoval
          split at hRemoval
          · cases hRemoval
          · split at hRemoval
            · split at hRemoval <;> cases hRemoval
            · cases hRemoval
  | error => exact session.abort_closes
  | cancelled =>
      exact
        PushSession.abort_closes { session with aborted := true }

end Transfer
