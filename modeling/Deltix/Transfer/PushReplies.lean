import Deltix.Transfer.PushQueue

/-
  How often a push stream is answered: once, unless an error
  leads to an abort whose removal of the staging file fails.

  Key definitions include:
    * `Idle`
    * `Settles`
    * `AnsweredOnce`

  Key theorems include:
    * `ends_replyMessage`
    * `ends_finalizeStream`
    * `ends_pushReplies`
    * `answered_once_iff`
-/

------------------------------------------------------------
-- Messages
------------------------------------------------------------

namespace Transfer

namespace PushReplies

open Auth Concurrency Storage

variable {config : TransferConfig} {stream : Nat}
variable {session : PushSession}
variable {op : TransferOp} {next : PushSession}
variable {first rest : List StreamTaken}

theorem aside_of_tame
    (hTame : Tame op) :
    Aside stream op := by
  rintro step rfl
  exact hTame

theorem unmarked_of_tame
    (hTame : Tame op) :
    ¬ Marks stream op := by
  rintro ⟨status, rfl⟩
  exact hTame

/- A session that has just had its header. -/
structure Headed (session : PushSession) : Prop
    extends Idle session where
  received : session.headerReceived = true

theorem Headed.of_eq
    (hHeaded : Headed session)
    (hEnded : next.streamEnded = session.streamEnded)
    (hAborted : next.aborted = session.aborted)
    (hPending : next.pendingAbort = session.pendingAbort)
    (hReceived :
      next.headerReceived = session.headerReceived) :
    Headed next := by
  constructor
  · constructor
    · rw [hEnded]
      exact hHeaded.unended
    · rw [hAborted, hPending]
      exact hHeaded.pending
    · rw [hReceived, hHeaded.received]
      intro hFresh
      cases hFresh
  · rw [hReceived]
    exact hHeaded.received

theorem ends_onHeader
    (header : PushHeader)
    (hHeaded : Headed session) :
    Ends (amid config stream) (onHeader stream header)
      session fun _ _ next => Headed next := by
  have hConsume :
      (tryCatch
        (consumeTicket header.ticketId header.operation
          header.repo)
        fun error =>
          (throw
            (.pushSessionAborted
              ("ticket rejected: " ++ error.message)) :
            TransferProgram Ticket)).Only (Aside stream) :=
    Async.only_catchError
      (Async.only_mono (fun _ => aside_of_tame)
        (tame_consumeTicket _ _ _))
      fun _ => trivial
  unfold onHeader
  simp only [Async.bind_eq]
  refine ends_bind_of (ends_aside hConsume) ?_ ?_
  · rintro _ ticket u ⟨hSame, _⟩
    subst hSame
    apply ends_step
    intro found path v hRun
    have hGiven : Headed v := by
      cases hRun
      exact hHeaded.of_eq rfl rfl rfl rfl
    have hMkdir :
        (Transfer.files (.mkdir (dirname path))).Only
          (Aside stream) := by
      apply only_files
      intro step hOp
      cases hOp
    refine ends_bind_of (ends_aside hMkdir) ?_ ?_
    · rintro _ _ w ⟨hSame, _⟩
      subst hSame
      apply ends_call
      intro found answer next hExec
      cases amid_session hExec
      exact hGiven.of_eq rfl rfl rfl rfl
    · rintro _ _ w ⟨hSame, _⟩
      subst hSame
      exact hGiven
  · rintro _ error u ⟨hSame, _⟩
    subst hSame
    exact hHeaded

theorem fail_snd (status : GrpcStatus) :
    (session.fail status).2 =
      (session.markAborted status).2 := by
  unfold PushSession.fail
  split
  · rename_i hEq
    rw [hEq]
  · rename_i hEq
    rw [hEq]

theorem idle_processHeader
    (header : PushHeader)
    (hIdle : Idle session) :
    Idle (session.processHeader header).2 ∧
      ∀ other,
        (session.processHeader header).1 = .consuming other →
          Headed (session.processHeader header).2 := by
  have hHeaded :
      Headed { session with headerReceived := true } := by
    refine ⟨⟨hIdle.unended, hIdle.pending, ?_⟩, rfl⟩
    intro hFresh
    cases hFresh
  unfold PushSession.processHeader
  split
  · exact ⟨hIdle, fun other hOther => by cases hOther⟩
  · split
    · refine ⟨?_, fun other hOther => by cases hOther⟩
      dsimp only
      rw [fail_snd]
      exact idle_markAborted hIdle
    · dsimp only
      split
      · exact
          ⟨hHeaded.toIdle,
            fun other hOther => by cases hOther⟩
      · exact ⟨hHeaded.toIdle, fun _ _ => hHeaded⟩

theorem idle_processChunk
    (fails : Bool)
    (data : Content)
    (hIdle : Idle session) :
    Idle (session.processChunk fails data).2 ∧
      ∀ other,
        (session.processChunk fails data).1 ≠
          .consuming other := by
  unfold PushSession.processChunk
  split
  · exact ⟨hIdle, fun other hOther => by cases hOther⟩
  · split
    · refine ⟨?_, fun other hOther => by cases hOther⟩
      dsimp only
      rw [fail_snd]
      exact idle_markAborted hIdle
    · split
      · exact ⟨hIdle, fun other hOther => by cases hOther⟩
      · split
        · exact ⟨hIdle, fun other hOther => by cases hOther⟩
        · refine ⟨?_, fun other hOther => by cases hOther⟩
          exact ⟨hIdle.unended, hIdle.pending, hIdle.fresh⟩

/- Only a stream that has ended is told of its abort. -/
theorem ends_replyReceived
    (received : Received)
    (hIdle : Idle session)
    (hHeader :
      ∀ header, received = .consuming header →
        Headed session) :
    Ends (amid config stream) (replyReceived stream received)
      session
      fun _ outcome next =>
        Idle next ∧
          ∀ reply, outcome = .ok reply → reply = none := by
  cases received with
  | ignored =>
      apply ends_returned
      exact ⟨hIdle, fun _ hReply => by cases hReply; rfl⟩
  | accepted =>
      apply ends_returned
      exact ⟨hIdle, fun _ hReply => by cases hReply; rfl⟩
  | rejected reason =>
      apply ends_threw
      exact ⟨hIdle, fun _ hReply => by cases hReply⟩
  | failed =>
      apply ends_threw
      exact ⟨hIdle, fun _ hReply => by cases hReply⟩
  | aborting status removal =>
      refine ends_mono (ends_finishAbort status removal) ?_
      rintro steps outcome next ⟨hSame, _, hEnd⟩
      subst hSame
      refine ⟨hIdle, ?_⟩
      intro reply hReply
      rcases hEnd with ⟨hOutcome, _⟩ | ⟨_, _, _, hError, _⟩
      · rw [hOutcome, hIdle.unended] at hReply
        cases hReply
        rfl
      · rw [hError] at hReply
        cases hReply
  | consuming header =>
      show Ends _ ((onHeader stream header).bind _) _ _
      refine
        ends_bind_of
          (ends_onHeader header (hHeader header rfl)) ?_ ?_
      · intro _ _ u hHeaded
        apply ends_returned
        exact
          ⟨hHeaded.toIdle,
            fun _ hReply => by cases hReply; rfl⟩
      · intro _ _ u hHeaded
        exact
          ⟨hHeaded.toIdle, fun _ hReply => by cases hReply⟩

theorem begins_receive
    {step : SessionStep}
    {found : Found}
    {answer : step.Answer}
    (rest : List StreamTaken) :
    Begins
      (⟨.session stream step, found, session, answer, next⟩ ::
        rest) := by
  intro first hFirst
  cases hFirst
  apply not_failedRemoval
  intro path hOp
  cases hOp

theorem ends_dispatchReply
    (message : PushMessage)
    (hIdle : Idle session) :
    Ends (amid config stream) (dispatchReply stream message)
      session
      fun steps outcome next =>
        Idle next ∧ Begins steps ∧
          ∀ reply, outcome = .ok reply → reply = none := by
  unfold dispatchReply receive
  rw [Async.bind_eq]
  cases message with
  | header header =>
      apply ends_step
      intro found received next hRun
      have hBoth := idle_processHeader header hIdle
      rw [show session.processHeader header = (received, next)
        from hRun] at hBoth
      refine
        ends_mono
          (ends_replyReceived received hBoth.1 hBoth.2) ?_
      rintro steps outcome u ⟨hThere, hNone⟩
      exact ⟨hThere, begins_receive steps, hNone⟩
  | chunk data =>
      apply ends_step
      intro found received next hRun
      have hBoth :=
        idle_processChunk found.choice.fails data hIdle
      rw [show session.processChunk found.choice.fails data =
        (received, next) from hRun] at hBoth
      refine
        ends_mono
          (ends_replyReceived received hBoth.1
            fun header hOther => absurd hOther (hBoth.2 header))
          ?_
      rintro steps outcome u ⟨hThere, hNone⟩
      exact ⟨hThere, begins_receive steps, hNone⟩
  | empty =>
      apply ends_step
      intro found received next hRun
      cases hRun
      apply ends_returned
      exact
        ⟨hIdle, begins_receive [],
          fun _ hReply => by cases hReply; rfl⟩

/- No message marks the stream before an error is caught. -/
theorem unmarked_dispatchReply (message : PushMessage) :
    (dispatchReply stream message).Only
      fun op => ¬ Marks stream op := by
  have hStep :
      ∀ step : SessionStep,
        (∀ status, step ≠ .markAborted status) →
          (Transfer.session stream step).Only
            fun op => ¬ Marks stream op := by
    intro step hOther
    apply Async.only_call.mpr
    rintro ⟨status, hOp⟩
    cases hOp
    exact hOther status rfl
  have hFiles :
      ∀ statement : FileStatement,
        (Transfer.files statement).Only
          fun op => ¬ Marks stream op := by
    intro statement
    apply only_files
    rintro ⟨status, hOp⟩
    cases hOp
  unfold dispatchReply
  apply Async.only_bind
  · cases message with
    | header header => exact hStep _ (fun _ hEq => by cases hEq)
    | chunk data => exact hStep _ (fun _ hEq => by cases hEq)
    | empty => exact hStep _ (fun _ hEq => by cases hEq)
  · intro received
    cases received with
    | ignored => trivial
    | accepted => trivial
    | rejected reason => trivial
    | failed => trivial
    | aborting status removal =>
        apply Async.only_bind
        · cases removal with
          | none => trivial
          | some path => exact hFiles _
        · intro _
          apply Async.only_bind
          · exact hStep _ (fun _ hEq => by cases hEq)
          · intro ended
            cases ended <;> trivial
    | consuming header =>
        apply Async.only_bind
        · apply Async.only_bind
          · exact
              Async.only_catchError
                (Async.only_mono (fun _ => unmarked_of_tame)
                  (tame_consumeTicket _ _ _))
                fun _ => trivial
          · intro ticket
            apply Async.only_bind
            · exact hStep _ (fun _ hEq => by cases hEq)
            · intro path
              apply Async.only_bind (hFiles _)
              intro _
              exact hStep _ (fun _ hEq => by cases hEq)
        · intro _
          trivial

theorem begins_append
    (hFirst : Begins first)
    (hRest : Begins rest) :
    Begins (first ++ rest) := by
  cases first with
  | nil => exact hRest
  | cons head tail => exact hFirst

/- A message that does not reject the queue goes by without
   a reply. -/
theorem ends_replyMessage
    (message : PushMessage)
    (hIdle : Idle session) :
    Ends (amid config stream) (replyMessage stream message)
      session
      fun steps outcome next =>
        Begins steps ∧
          ((outcome = .ok none ∧ Idle next ∧
              steps.IsChain (Disposes stream)) ∨
            ∃ error,
              outcome = .error error ∧
                ¬ steps.IsChain (Disposes stream)) := by
  have hDispatch :
      Ends (amid config stream) (dispatchReply stream message)
        session
        fun steps outcome next =>
          (Idle next ∧ Begins steps ∧
            ∀ reply, outcome = .ok reply → reply = none) ∧
            ∀ taken ∈ steps, ¬ Marks stream taken.op := by
    intro steps outcome next hSolo
    constructor
    · exact ends_dispatchReply message hIdle _ _ _ hSolo
    · exact hSolo.only (unmarked_dispatchReply message)
  unfold replyMessage
  refine ends_catchError_of hDispatch ?_ ?_
  · rintro steps reply u ⟨⟨hThere, hBegins, hNone⟩, hUnmarked⟩
    rw [hNone reply rfl]
    exact
      ⟨hBegins, Or.inl
        ⟨rfl, hThere, disposes_unmarked hUnmarked⟩⟩
  · rintro steps error u ⟨⟨hThere, hBegins, _⟩, hUnmarked⟩
    refine ends_mono (ends_markAborted _) ?_
    rintro more outcome next ⟨hNext, hMore, hEnd⟩
    refine ⟨begins_append hBegins hMore, ?_⟩
    rcases hEnd with
      ⟨hOutcome, hRest⟩ | ⟨reason, hError, hStuck⟩
    · left
      refine ⟨?_, ?_, disposes_after hUnmarked hRest⟩
      · rw [hOutcome, hThere.unended, Bool.and_false]
        rfl
      · rw [hNext]
        exact idle_markAborted hThere
    · right
      refine ⟨reason, hError, ?_⟩
      intro hAll
      exact hStuck hAll.right_of_append

------------------------------------------------------------
-- The End Of The Stream
------------------------------------------------------------

/- A job has been created. -/
def Created (steps : List StreamTaken) : Prop :=
  ∃ job found before after,
    (⟨.jobs (.create job), found, before, .ok (), after⟩ :
      StreamTaken) ∈ steps

/- Whether the ticket was for a push that is only checked. -/
def dryRun (session : PushSession) : Bool :=
  (session.syncOptions.bind
    PushTicketSyncOptions.dryRun).getD false

theorem created_append
    (hCreated : Created rest) :
    Created (first ++ rest) := by
  rcases hCreated with ⟨job, found, before, after, hMember⟩
  exact
    ⟨job, found, before, after,
      List.mem_append_right first hMember⟩

theorem ends_create (job : TransferJob) :
    Ends (amid config stream) (Transfer.jobs (.create job))
      session
      fun steps outcome _ =>
        ∀ value, outcome = .ok value → Created steps := by
  unfold Transfer.jobs perform Async.call
  rw [Async.bind_await]
  apply ends_await
  intro found answer next hExec
  cases answer with
  | ok value =>
      apply ends_returned
      intro _ _
      exact ⟨job, found, session, next, List.mem_cons_self⟩
  | error error =>
      apply ends_threw
      intro _ hOutcome
      cases hOutcome

theorem ends_commitPush
    (started : PushFinish)
    (preparation : PushPreparation) :
    Ends (amid config stream)
      (commitPush config started preparation) session
      fun steps outcome _ =>
        ∀ result, outcome = .ok result →
          Created steps ∨ preparation.dryRun = true := by
  unfold commitPush
  dsimp only
  split
  · rename_i hDry
    intro steps outcome next _ result _
    exact Or.inr hDry
  · simp only [Async.bind_eq]
    refine ends_bind_of (ends_any _ _) ?_ ?_
    · intro first jobId u _
      refine ends_bind_of (ends_create _) ?_ ?_
      · intro second value v hCreated
        have hThere := hCreated value rfl
        refine ends_mono (ends_any _ _) ?_
        intro more outcome next _ result _
        left
        apply created_append
        rcases hThere with
          ⟨job, found, before, after, hMember⟩
        exact
          ⟨job, found, before, after,
            List.mem_append_left more hMember⟩
      · intro _ _ _ _ result hResult
        cases hResult
    · intro _ _ _ _ result hResult
      cases hResult

theorem ends_onBeforePush (started : PushFinish) :
    Ends (amid config stream) (onBeforePush config started)
      session
      fun _ outcome _ =>
        ∀ preparation, outcome = .ok preparation →
          preparation.dryRun =
            (started.syncOptions.bind
              PushTicketSyncOptions.dryRun).getD false := by
  unfold onBeforePush
  simp only [Async.bind_eq]
  refine ends_bind_of (ends_any _ _) ?_ ?_
  · intro _ _ u _
    refine ends_bind_of (ends_any _ _) ?_ ?_
    · intro _ resolvedTables v _
      apply ends_returned
      intro preparation hPreparation
      cases hPreparation
      rfl
    · intro _ _ _ _ _ hPreparation
      cases hPreparation
  · intro _ _ _ _ _ hPreparation
    cases hPreparation

theorem aside_finish (started : PushFinish) :
    (finish config started).Only (Aside stream) := by
  have hCalm :
      ∀ op, Calm op → Aside stream op :=
    fun _ hCalm => aside_of_tame (tame_of_calm hCalm)
  have hClose :
      (quietly (closeTicket started.ticketId)).Only
        (Aside stream) :=
    only_quietly
      (Async.only_mono (fun _ => aside_of_tame)
        (tame_closeTicket _))
  apply Async.only_bind
  · exact
      Async.only_mono
        (fun _ hPrepares => hCalm _ (calm_of_prepares hPrepares))
        (prepares_onBeforePush started)
  · intro preparation
    unfold commitPush
    dsimp only
    split
    · exact Async.only_bind hClose fun _ => trivial
    · apply Async.only_bind
      · exact Async.only_call.mpr (hCalm _ trivial)
      · intro jobId
        apply Async.only_bind
        · apply only_jobs
          intro step hOp
          cases hOp
        · intro _
          apply Async.only_bind hClose
          intro _
          exact Async.only_bind
            (only_quietly (only_repos (hCalm _ trivial)))
            fun _ => trivial

theorem ends_finish (started : PushFinish) :
    Ends (amid config stream) (finish config started) session
      fun steps outcome next =>
        next = session ∧
          (∀ taken ∈ steps, ¬ Marks stream taken.op) ∧
          ∀ result, outcome = .ok result →
            Created steps ∨
              (started.syncOptions.bind
                PushTicketSyncOptions.dryRun).getD false =
                  true := by
  have hResult :
      Ends (amid config stream) (finish config started)
        session
        fun steps outcome _ =>
          ∀ result, outcome = .ok result →
            Created steps ∨
              (started.syncOptions.bind
                PushTicketSyncOptions.dryRun).getD false =
                  true := by
    unfold finish
    rw [Async.bind_eq]
    refine ends_bind_of (ends_onBeforePush started) ?_ ?_
    · intro steps preparation u hDry
      refine
        ends_mono (ends_commitPush started preparation) ?_
      intro more outcome next hEnd result hOutcome
      rcases hEnd result hOutcome with hCreated | hTrue
      · exact Or.inl (created_append hCreated)
      · rw [hDry preparation rfl] at hTrue
        exact Or.inr hTrue
    · intro _ _ _ _ _ hOutcome
      cases hOutcome
  intro steps outcome next hSolo
  have hAside :=
    ends_aside (aside_finish started) steps outcome next hSolo
  refine ⟨hAside.1, ?_, hResult steps outcome next hSolo⟩
  rintro taken hTaken ⟨status, hOp⟩
  exact hAside.2 taken hTaken _ hOp

theorem fail_running
    (session : PushSession)
    (status : GrpcStatus)
    (hRunning : session.aborted = false) :
    session.fail status =
      { session with
        aborted := true
        pendingAbort := some status }.abort := by
  unfold PushSession.fail PushSession.markAborted
  rw [hRunning]
  rfl

theorem finalizeStream_cases
    (now : Nat)
    (fails : Bool)
    (hIdle : Idle session) :
    (∃ status,
      (session.finalizeStream now fails).1 =
        .answered (some status)) ∨
    ((session.finalizeStream now fails).1 =
        .aborting PushSession.endedBeforeHeader none ∧
      (session.finalizeStream now fails).2.streamEnded =
        true) ∨
    (((∃ reason,
          (session.finalizeStream now fails).1 =
            .rejected reason) ∨
        ∃ started,
          (session.finalizeStream now fails).1 =
              .finishing started ∧
            started.syncOptions =
              (session.finalizeStream now
                fails).2.syncOptions) ∧
      (session.finalizeStream now fails).2.streamEnded =
          true ∧
        (session.finalizeStream now fails).2.aborted =
          false) := by
  unfold PushSession.finalizeStream
  dsimp only
  split
  · rename_i hAborted
    rcases hIdle.pending hAborted with ⟨status, hPending⟩
    exact Or.inl ⟨status, by rw [hPending]⟩
  · rename_i hRunning
    have hRunning' := Bool.eq_false_iff.mpr hRunning
    split
    · rename_i hNoHeader
      have hPath : session.stagingFilePath = none := by
        apply hIdle.fresh
        simpa using hNoHeader
      refine Or.inr (Or.inl ?_)
      rw [fail_running { session with streamEnded := true } _
        hRunning']
      unfold PushSession.abort
      dsimp only
      rw [hPath]
      split
      · exact ⟨rfl, rfl⟩
      · exact ⟨rfl, rfl⟩
    · refine Or.inr (Or.inr ?_)
      unfold PushSession.beginFinish
      split
      · exact ⟨Or.inl ⟨_, rfl⟩, rfl, hRunning'⟩
      · split
        · split
          · exact ⟨Or.inl ⟨_, rfl⟩, rfl, hRunning'⟩
          · exact ⟨Or.inr ⟨_, rfl, rfl⟩, rfl, hRunning'⟩
        · exact ⟨Or.inl ⟨_, rfl⟩, rfl, hRunning'⟩

/- What becomes of a stream that has to be told of its end. -/
def Settles
    (stream : Nat)
    (dryRun : Bool)
    (steps : List StreamTaken)
    (outcome : Except TransferError (Option PushReply)) :
    Prop :=
  (∃ reply,
      outcome = .ok (some reply) ∧
        steps.IsChain (Disposes stream) ∧
        ∀ result, reply = .done result →
          Created steps ∨ dryRun = true) ∨
    ∃ error,
      outcome = .error error ∧
        ¬ steps.IsChain (Disposes stream)

theorem settles_append
    {dryRun : Bool}
    {outcome : Except TransferError (Option PushReply)}
    (hUnmarked :
      ∀ taken ∈ first, ¬ Marks stream taken.op)
    (hSettles : Settles stream dryRun rest outcome) :
    Settles stream dryRun (first ++ rest) outcome := by
  rcases hSettles with
    ⟨reply, hOutcome, hRest, hDone⟩ | ⟨error, hError, hStuck⟩
  · left
    refine
      ⟨reply, hOutcome, disposes_after hUnmarked hRest, ?_⟩
    intro result hResult
    rcases hDone result hResult with hCreated | hDry
    · exact Or.inl (created_append hCreated)
    · exact Or.inr hDry
  · right
    refine ⟨error, hError, ?_⟩
    intro hAll
    exact hStuck hAll.right_of_append

theorem ends_settle
    (status : GrpcStatus)
    (hEnded : session.streamEnded = true)
    (hRunning : session.aborted = false) :
    Ends (amid config stream) (markAborted stream status)
      session
      fun steps outcome _ =>
        ∀ dryRun, Settles stream dryRun steps outcome := by
  refine ends_mono (ends_markAborted status) ?_
  rintro steps outcome next ⟨_, _, hEnd⟩ dryRun
  rw [hRunning, hEnded] at hEnd
  rcases hEnd with ⟨hOutcome, hChain⟩ | hStuck
  · left
    refine ⟨.refused status, hOutcome, hChain, ?_⟩
    intro result hResult
    cases hResult
  · exact Or.inr hStuck

theorem ends_finishSuccessfully
    (started : PushFinish)
    (hOptions : started.syncOptions = session.syncOptions)
    (hEnded : session.streamEnded = true)
    (hRunning : session.aborted = false) :
    Ends (amid config stream)
      (finishSuccessfully config stream started) session
      fun steps outcome next =>
        Settles stream (dryRun next) steps outcome := by
  have hBody :
      Ends (amid config stream)
        ((finish config started).bind fun result =>
          .returned (some (PushReply.done result))) session
        fun steps outcome next =>
          next = session ∧
            (∀ taken ∈ steps, ¬ Marks stream taken.op) ∧
            ∀ reply, outcome = .ok reply →
              ∃ result,
                reply = some (.done result) ∧
                  (Created steps ∨ dryRun session = true) := by
    refine ends_bind_of (ends_finish started) ?_ ?_
    · rintro steps result u ⟨hSame, hUnmarked, hDone⟩
      rw [hOptions] at hDone
      apply ends_returned
      rw [List.append_nil]
      refine ⟨hSame, hUnmarked, ?_⟩
      intro reply hReply
      cases hReply
      exact ⟨result, rfl, hDone result rfl⟩
    · rintro steps error u ⟨hSame, hUnmarked, _⟩
      exact
        ⟨hSame, hUnmarked, fun _ hReply => by cases hReply⟩
  unfold finishSuccessfully
  refine ends_catchError_of hBody ?_ ?_
  · rintro steps reply u ⟨hSame, hUnmarked, hDone⟩
    rcases hDone reply rfl with ⟨result, hReply, hRight⟩
    subst hReply
    left
    refine ⟨_, rfl, disposes_unmarked hUnmarked, ?_⟩
    intro _ _
    rw [hSame]
    exact hRight
  · rintro steps error u ⟨hSame, hUnmarked, _⟩
    subst hSame
    refine ends_mono (ends_settle _ hEnded hRunning) ?_
    intro more outcome next hSettles
    exact settles_append hUnmarked (hSettles _)

/- The end is answered unless it rejects the queue. -/
theorem ends_finalizeStream
    (hIdle : Idle session) :
    Ends (amid config stream) (finalizeStream config stream)
      session
      fun steps outcome next =>
        Begins steps ∧
          Settles stream (dryRun next) steps outcome := by
  unfold finalizeStream
  rw [Async.bind_eq]
  apply ends_step
  intro found ended next hRun
  let first : StreamTaken :=
    ⟨.session stream .finalize, found, session, ended, next⟩
  have hUnmarked :
      ∀ taken ∈ [first], ¬ Marks stream taken.op := by
    intro taken hTaken
    rw [List.mem_singleton] at hTaken
    subst hTaken
    rintro ⟨status, hOp⟩
    cases hOp
  have hCases :=
    finalizeStream_cases found.found.clock found.choice.fails
      hIdle
  rw [show session.finalizeStream found.found.clock
    found.choice.fails = (ended, next) from hRun] at hCases
  dsimp only at hCases
  rcases hCases with
    ⟨status, hEnded⟩ | ⟨hEnded, hOver⟩ |
      ⟨hEnded, hOver, hRunning⟩
  · subst hEnded
    apply ends_returned
    refine
      ⟨begins_receive [], Or.inl
        ⟨_, rfl, disposes_unmarked hUnmarked, ?_⟩⟩
    intro result hResult
    cases hResult
  · subst hEnded
    refine ends_mono (ends_finishAbort _ _) ?_
    rintro steps outcome u ⟨_, _, hEnd⟩
    refine ⟨begins_receive steps, Or.inl ?_⟩
    rcases hEnd with ⟨hOutcome, hRemoved⟩ | ⟨_, _, hNone, _⟩
    · rw [hOver] at hOutcome
      refine ⟨_, hOutcome, disposes_removed hRemoved, ?_⟩
      intro result hResult
      cases hResult
    · exact absurd rfl hNone
  · rcases hEnded with
      ⟨reason, hRejected⟩ | ⟨started, hStarted, hOptions⟩
    · subst hRejected
      refine ends_mono (ends_settle _ hOver hRunning) ?_
      intro steps outcome u hSettles
      exact
        ⟨begins_receive steps,
          settles_append hUnmarked (hSettles _)⟩
    · subst hStarted
      refine
        ends_mono
          (ends_finishSuccessfully started hOptions hOver
            hRunning) ?_
      intro steps outcome u hSettles
      exact
        ⟨begins_receive steps,
          settles_append hUnmarked hSettles⟩

------------------------------------------------------------
-- One Answer
------------------------------------------------------------

/- A step that rejects is the last one of the queue. -/
theorem ends_queue_cons
    {step : TransferProgram (Option PushReply)}
    {rest : List (TransferProgram (Option PushReply))}
    {mid :
      List StreamTaken →
        Except TransferError (Option PushReply) →
          PushSession → Prop}
    {post :
      List StreamTaken → List PushReply → PushSession → Prop}
    (hStep : Ends (amid config stream) step session mid)
    (hReturned :
      ∀ steps reply u, mid steps (.ok reply) u →
        Ends (amid config stream) (queue rest) u
          fun more outcome next =>
            ∃ replies,
              outcome = .ok replies ∧
                post (steps ++ more) (reply.toList ++ replies)
                  next)
    (hThrew :
      ∀ steps error u, mid steps (.error error) u →
        post steps [] u) :
    Ends (amid config stream) (queue (step :: rest)) session
      fun steps outcome next =>
        ∃ replies, outcome = .ok replies ∧
          post steps replies next := by
  have hSettled :
      Ends (amid config stream)
        ((step.bind fun reply => .returned (some reply)
            ).catchError fun _ => .returned none) session
        fun steps outcome next =>
          (∃ reply,
              outcome = .ok (some reply) ∧
                mid steps (.ok reply) next) ∨
            (outcome = .ok none ∧
              ∃ error, mid steps (.error error) next) := by
    apply ends_catchError
    apply ends_bind
    refine ends_mono hStep ?_
    intro steps outcome u hMid
    cases outcome with
    | ok reply =>
        apply ends_returned
        rw [List.append_nil]
        exact Or.inl ⟨reply, rfl, hMid⟩
    | error error =>
        apply ends_returned
        rw [List.append_nil]
        exact Or.inr ⟨rfl, error, hMid⟩
  unfold queue
  simp only [Async.bind_eq]
  refine ends_bind_of hSettled ?_ ?_
  · rintro steps settled u
      (⟨reply, hReply, hMid⟩ | ⟨hNone, error, hMid⟩)
    · cases hReply
      refine
        ends_bind_of (hReturned steps reply u hMid) ?_ ?_
      · rintro more replies v ⟨others, hSame, hPost⟩
        cases hSame
        apply ends_returned
        rw [List.append_nil]
        exact ⟨_, rfl, hPost⟩
      · rintro _ _ _ ⟨_, hError, _⟩
        cases hError
    · cases hNone
      apply ends_returned
      rw [List.append_nil]
      exact ⟨[], rfl, hThrew steps error u hMid⟩
  · rintro _ _ _ (⟨_, hError, _⟩ | ⟨hError, _⟩)
    · cases hError
    · cases hError

/- What the callback of a whole stream is called with. -/
structure Replies
    (stream : Nat)
    (steps : List StreamTaken)
    (replies : List PushReply)
    (next : PushSession) : Prop where
  begins : Begins steps
  answers :
    (∃ reply,
        replies = [reply] ∧
          steps.IsChain (Disposes stream) ∧
          ∀ result, reply = .done result →
            Created steps ∨ dryRun next = true) ∨
      (replies = [] ∧ ¬ steps.IsChain (Disposes stream))

theorem ends_pushReplies
    (messages : List PushMessage)
    (hIdle : Idle session) :
    Ends (amid config stream)
      (pushReplies config stream messages) session
      fun steps outcome next =>
        ∃ replies, outcome = .ok replies ∧
          Replies stream steps replies next := by
  unfold pushReplies
  induction messages generalizing session with
  | nil =>
      refine ends_queue_cons (ends_finalizeStream hIdle) ?_ ?_
      · rintro steps reply u ⟨hBegins, hSettles⟩
        apply ends_returned
        refine ⟨[], rfl, ?_⟩
        rw [List.append_nil, List.append_nil]
        refine ⟨hBegins, ?_⟩
        rcases hSettles with
          ⟨only, hReply, hChain, hDone⟩ | ⟨_, hError, _⟩
        · cases hReply
          exact Or.inl ⟨only, rfl, hChain, hDone⟩
        · cases hError
      · rintro steps error u ⟨hBegins, hSettles⟩
        refine ⟨hBegins, ?_⟩
        rcases hSettles with
          ⟨_, hReply, _⟩ | ⟨_, _, hStuck⟩
        · cases hReply
        · exact Or.inr ⟨rfl, hStuck⟩
  | cons message rest ih =>
      refine
        ends_queue_cons (ends_replyMessage message hIdle) ?_ ?_
      · rintro steps reply u ⟨hBegins, hEnd⟩
        rcases hEnd with
          ⟨hNone, hThere, hChain⟩ | ⟨_, hError, _⟩
        · cases hNone
          refine ends_mono (ih hThere) ?_
          rintro more outcome next ⟨replies, hReplies, hRest⟩
          refine ⟨replies, hReplies, ?_, ?_⟩
          · exact begins_append hBegins hRest.begins
          · rcases hRest.answers with
              ⟨only, hOnly, hMore, hDone⟩ | ⟨hEmpty, hStuck⟩
            · left
              refine
                ⟨only, hOnly,
                  disposes_append hChain hMore hRest.begins,
                  ?_⟩
              intro result hResult
              rcases hDone result hResult with hCreated | hDry
              · exact Or.inl (created_append hCreated)
              · exact Or.inr hDry
            · right
              refine ⟨hEmpty, ?_⟩
              intro hAll
              exact hStuck hAll.right_of_append
        · cases hError
      · rintro steps error u ⟨hBegins, hEnd⟩
        refine ⟨hBegins, ?_⟩
        rcases hEnd with ⟨hOk, _⟩ | ⟨_, _, hStuck⟩
        · cases hOk
        · exact Or.inr ⟨rfl, hStuck⟩

theorem idle_initial : Idle PushSession.initial where
  unended := rfl
  pending := by
    intro hAborted
    cases hAborted
  fresh := fun _ => rfl

/- The callback is called once, and with an error unless a
   job was created or the push was only checked. -/
def AnsweredOnce
    (steps : List StreamTaken)
    (replies : List PushReply)
    (session : PushSession) : Prop :=
  ∃ reply,
    replies = [reply] ∧
      (¬ Created steps → dryRun session = false →
        ∃ status, reply = .refused status)

/-
  However it goes: a push is answered once exactly if no
  removal of its staging file fails that an error led to.
-/
theorem answered_once_iff
    (config : TransferConfig)
    (stream : Nat)
    (messages : List PushMessage)
    (steps : List StreamTaken)
    (outcome : Except TransferError (List PushReply))
    (session : PushSession)
    (hRun :
      Solo (amid config stream)
        (pushReplies config stream messages)
        PushSession.initial steps outcome session) :
    ∃ replies,
      outcome = .ok replies ∧
        (AnsweredOnce steps replies session ↔
          steps.IsChain (Disposes stream)) := by
  rcases ends_pushReplies messages idle_initial _ _ _ hRun with
    ⟨replies, hReplies, hAnswers⟩
  refine ⟨replies, hReplies, ?_⟩
  rcases hAnswers.answers with
    ⟨reply, hOnly, hChain, hDone⟩ | ⟨hEmpty, hStuck⟩
  · refine iff_of_true ⟨reply, hOnly, ?_⟩ hChain
    intro hNoJob hReal
    cases reply with
    | refused status => exact ⟨status, rfl⟩
    | done result =>
        rcases hDone result rfl with hCreated | hDry
        · exact absurd hCreated hNoJob
        · rw [hReal] at hDry
          cases hDry
  · refine iff_of_false ?_ hStuck
    rintro ⟨reply, hOnly, _⟩
    rw [hEmpty] at hOnly
    cases hOnly

def oneChunk : List PushMessage :=
  [.header ⟨"t", "push", "r"⟩, .chunk [1]]

def isRemoval : TransferOp → Bool
  | .files (.rm _) => true
  | _ => false

theorem disposes_of_none
    {steps : List StreamTaken}
    (hNone :
      ∀ taken ∈ steps, isRemoval taken.op = false) :
    steps.IsChain (Disposes stream) := by
  cases steps with
  | nil => exact .nil
  | cons head tail =>
      apply disposes_removed
      intro taken hTaken
      apply not_failedRemoval
      intro path hOp
      have hOther :=
        hNone taken (List.mem_cons_of_mem _ hTaken)
      rw [hOp] at hOther
      cases hOther

def replied
    (run :
      List
          (Taken TransferOp TransferOp.Answer TransferState
            TransferChoice) ×
        Except TransferError (List PushReply) ×
          TransferState) : Bool :=
  run.1.all (fun taken => !isRemoval taken.op) &&
    match run.2.1 with
    | .ok [.done _] => true
    | _ => false

/- A push that goes well is answered once. -/
theorem answered_once_iff_well :
    ∃ steps replies session,
      Solo (amid smallConfig 0)
          (pushReplies smallConfig 0 oneChunk)
          PushSession.initial steps (.ok replies) session ∧
        AnsweredOnce steps replies session := by
  have hReplied :
      (solo? (TransferOp.exec smallConfig)
        (pushReplies smallConfig 0 oneChunk)
        writerWithTicket
        (List.replicate 30 (draw "upload"))).any replied =
          true := by
    decide +kernel
  rw [Option.any_eq_true] at hReplied
  rcases hReplied with ⟨⟨steps, outcome, t⟩, hRun, hReplied⟩
  have hSolo := Solo.amid 0 (solo_of_solo? hRun)
  rcases answered_once_iff smallConfig 0 oneChunk _ _ _ hSolo
    with ⟨replies, hOutcome, hIff⟩
  rw [hOutcome] at hSolo
  refine ⟨_, replies, _, hSolo, hIff.mpr ?_⟩
  apply disposes_of_none
  intro taken hTaken
  rcases List.mem_map.mp hTaken with ⟨step, hStep, hSame⟩
  subst hSame
  unfold replied at hReplied
  rw [Bool.and_eq_true, List.all_eq_true] at hReplied
  have hOther : isRemoval step.op = false := by
    simpa using hReplied.1 step hStep
  exact hOther

def failing : TransferChoice where
  fails := true
  text := "EIO"
  copied := none
  tables := none

def silent
    (run :
      List
          (Taken TransferOp TransferOp.Answer TransferState
            TransferChoice) ×
        Except TransferError (List PushReply) ×
          TransferState) : Bool :=
  match run.2.1 with
  | .ok [] => true
  | _ => false

/- The chunk cannot be written, nor the file removed: the
   callback is never called. -/
theorem unanswered_push :
    ∃ steps session,
      Solo (amid smallConfig 0)
          (pushReplies smallConfig 0 oneChunk)
          PushSession.initial steps (.ok []) session ∧
        ¬ AnsweredOnce steps [] session := by
  have hSilent :
      (solo? (TransferOp.exec smallConfig)
        (pushReplies smallConfig 0 oneChunk)
        writerWithTicket
        (List.replicate 9 (draw "upload") ++
          [failing, draw "", failing])).any silent = true := by
    decide +kernel
  rw [Option.any_eq_true] at hSilent
  rcases hSilent with ⟨⟨steps, outcome, t⟩, hRun, hSilent⟩
  have hSolo := Solo.amid 0 (solo_of_solo? hRun)
  have hOutcome : outcome = .ok [] := by
    unfold silent at hSilent
    dsimp only at hSilent
    split at hSilent
    · rfl
    · cases hSilent
  rw [hOutcome] at hSolo
  refine ⟨_, _, hSolo, ?_⟩
  rintro ⟨reply, hOnly, _⟩
  cases hOnly

end PushReplies

end Transfer
