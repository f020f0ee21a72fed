import Deltix.Concurrency.Disturbed
import Deltix.Transfer.Footprint
import Mathlib.Data.List.Chain

/-
  The queue of a push stream.  Each message and the end of
  the stream is a step of a chain of promises: a step that
  rejects keeps all later ones from running, and nobody is
  told.

  The other calls may do what they like between two
  operations of the stream, but to its session.

  Key definitions include:
    * `queue`
    * `pushReplies`
    * `amid`
    * `Disposes`

  Key theorems include:
    * `processMessage_eq`
    * `Solo.amid`
    * `ends_finishAbort`
    * `ends_markAborted`
-/

------------------------------------------------------------
-- The Queue
------------------------------------------------------------

namespace Transfer

namespace PushReplies

open Auth Concurrency Storage

/- The steps of a queue, with the calls of the callback. -/
def queue :
    List (TransferProgram (Option PushReply)) →
      TransferProgram (List PushReply)
  | [] => return []
  | step :: rest => do
      let settled ←
        tryCatch
          (do
            let reply ← step
            return some reply)
          fun _ => return none
      match settled with
      | none => return []
      | some reply => do
          let replies ← queue rest
          return reply.toList ++ replies

/- `afterReceived`, with what the client is told. -/
def replyReceived
    (stream : Nat) :
    Received → TransferProgram (Option PushReply)
  | .aborting status removal =>
      finishAbort stream status removal
  | received => do
      afterReceived stream received
      return none

def dispatchReply
    (stream : Nat)
    (message : PushMessage) :
    TransferProgram (Option PushReply) := do
  let received ← receive stream message
  replyReceived stream received

def replyMessage
    (stream : Nat)
    (message : PushMessage) :
    TransferProgram (Option PushReply) :=
  tryCatch (dispatchReply stream message) fun error =>
    markAborted stream
      ⟨.permissionDenied, processingMessage error⟩

/- The calls of the callback in a push that is ended. -/
def pushReplies
    (config : TransferConfig)
    (stream : Nat)
    (messages : List PushMessage) :
    TransferProgram (List PushReply) :=
  queue
    (messages.map (replyMessage stream) ++
      [finalizeStream config stream])

variable {α β : Type}

theorem catchError_discard
    (program : TransferProgram α)
    (handler : TransferError → TransferProgram α) :
    (program.catchError handler).bind (fun _ => .returned ()) =
      (program.bind fun _ => .returned ()).catchError
        fun error =>
          (handler error).bind fun _ => .returned () := by
  induction program with
  | returned value => rfl
  | threw error => rfl
  | await op resume ih =>
      simp only [Async.catchError_await, Async.bind_await, ih]

theorem bind_discard
    (program : TransferProgram Unit) :
    program.bind (fun _ => .returned ()) = program := by
  induction program with
  | returned value => rfl
  | threw error => rfl
  | await op resume ih =>
      simp only [Async.bind_await, ih]

/- Apart from the replies, this is how a message is
   processed. -/
theorem processMessage_eq
    (stream : Nat)
    (message : PushMessage) :
    processMessage stream message =
      (replyMessage stream message).bind
        fun _ => .returned () := by
  unfold replyMessage processMessage
  simp only [Async.tryCatch_eq, Async.bind_eq,
    Async.pure_eq_returned]
  rw [catchError_discard]
  congr 1
  unfold dispatchMessage dispatchReply
  simp only [Async.bind_eq]
  rw [Async.bind_assoc]
  congr 1
  funext received
  cases received with
  | aborting status removal => rfl
  | _ =>
      unfold replyReceived
      simp only [Async.bind_eq, Async.pure_eq_returned]
      rw [Async.bind_assoc]
      simp only [Async.bind_returned, bind_discard]

------------------------------------------------------------
-- A Stream Among Other Calls
------------------------------------------------------------

abbrev Found : Type :=
  Disturbance TransferState TransferChoice

abbrev StreamTaken : Type :=
  Taken TransferOp TransferOp.Answer PushSession Found

/-
  An operation finds whatever the other calls have left, and
  the session as the stream itself has left it.
-/
def amid
    (config : TransferConfig)
    (stream : Nat)
    (op : TransferOp)
    (found : Found)
    (session : PushSession) :
    Option (op.Answer × PushSession) :=
  (op.exec config found.choice
      { found.found with
        pushes :=
          Function.update found.found.pushes stream
            session }).map
    fun result => (result.1, result.2.pushes stream)

/- A run without other calls. -/
def alone
    (stream : Nat)
    (step :
      Taken TransferOp TransferOp.Answer TransferState
        TransferChoice) : StreamTaken where
  op := step.op
  choice := ⟨step.choice, step.before⟩
  before := step.before.pushes stream
  answer := step.answer
  after := step.after.pushes stream

theorem Solo.amid
    {config : TransferConfig}
    {α : Type}
    {program : TransferProgram α}
    {s t : TransferState}
    {steps :
      List
        (Taken TransferOp TransferOp.Answer TransferState
          TransferChoice)}
    {outcome : Except TransferError α}
    (stream : Nat)
    (hSolo :
      Solo (TransferOp.exec config) program s steps outcome
        t) :
    Solo (amid config stream) program (s.pushes stream)
      (steps.map (alone stream)) outcome
      (t.pushes stream) := by
  induction hSolo with
  | returned value s => exact .returned value _
  | threw error s => exact .threw error _
  | @await op _ choice answer s next _ _ _ hExec _ ih =>
      have hTaken :
          PushReplies.amid config stream op ⟨choice, s⟩
              (s.pushes stream) =
            some (answer, next.pushes stream) := by
        unfold PushReplies.amid
        dsimp only
        rw [Function.update_eq_self, hExec]
        rfl
      exact .await hTaken ih

variable {config : TransferConfig} {stream : Nat}
variable {session next : PushSession} {found : Found}
variable {step : SessionStep}

/- The stream takes a step of its own. -/
theorem amid_session
    {answer : step.Answer}
    (hExec :
      amid config stream (.session stream step) found
        session = some (answer, next)) :
    step.run config.stagingRootPath found.choice.text
        found.found.clock found.choice.fails session =
      (answer, next) := by
  unfold amid at hExec
  rcases Option.map_eq_some_iff.mp hExec with
    ⟨⟨reply, after⟩, hTaken, hSame⟩
  have hRun := (TransferOp.exec_eq_some_iff.mp hTaken).2
  cases hSame
  cases hRun
  simp

/- The operations that step no session of the stream. -/
def Aside (stream : Nat) (op : TransferOp) : Prop :=
  ∀ step, op ≠ .session stream step

theorem amid_aside
    {op : TransferOp}
    {answer : op.Answer}
    (hAside : Aside stream op)
    (hExec :
      amid config stream op found session =
        some (answer, next)) :
    next = session := by
  unfold amid at hExec
  rcases Option.map_eq_some_iff.mp hExec with
    ⟨⟨reply, after⟩, hTaken, hSame⟩
  have hNext : after.pushes stream = next :=
    congrArg Prod.snd hSame
  rcases TransferOp.exec_pushes hTaken with
    hPushes | ⟨other, step, hOp, hPushes⟩
  · rw [← hNext, hPushes]
    simp
  · have hNe : stream ≠ other := by
      rintro rfl
      exact hAside step hOp
    rw [← hNext, hPushes, Function.update_of_ne hNe]
    simp

theorem ends_step
    {α : Type}
    {rest : step.Answer → TransferProgram α}
    {post :
      List StreamTaken → Except TransferError α →
        PushSession → Prop}
    (hRest :
      ∀ found answer next,
        step.run config.stagingRootPath found.choice.text
            found.found.clock found.choice.fails session =
          (answer, next) →
          Ends (amid config stream) (rest answer) next
            fun steps =>
              post
                (⟨.session stream step, found, session,
                  answer, next⟩ :: steps)) :
    Ends (amid config stream)
      ((Transfer.session stream step).bind rest) session
      post := by
  unfold Transfer.session perform Async.call
  rw [Async.bind_await]
  apply ends_await
  intro found answer next hExec
  exact hRest found answer next (amid_session hExec)

theorem ends_aside
    {α : Type}
    {program : TransferProgram α}
    (hOnly : program.Only (Aside stream)) :
    Ends (amid config stream) program session
      fun steps _ next =>
        next = session ∧
          ∀ taken ∈ steps, Aside stream taken.op := by
  intro steps outcome next hSolo
  have hSteps := hSolo.only hOnly
  refine ⟨?_, hSteps⟩
  refine
    hSolo.relates (fun before after => after = before)
      (fun _ => rfl)
      (fun _ _ _ hFirst hNext => hNext.trans hFirst) ?_
  intro taken hTaken
  exact
    amid_aside (hSteps taken hTaken)
      (hSolo.performed taken hTaken)

def Marks (stream : Nat) (op : TransferOp) : Prop :=
  ∃ status, op = .session stream (.markAborted status)

/- The staging file could not be removed. -/
def FailedRemoval (taken : StreamTaken) : Prop :=
  ∃ path found before reason after,
    taken =
      ⟨.files (.rm path), found, before, .error reason, after⟩

/- An abort that a caught error begins removes its file. -/
def Disposes
    (stream : Nat)
    (marked removal : StreamTaken) : Prop :=
  Marks stream marked.op → ¬ FailedRemoval removal

/- The first operation is no failing removal. -/
def Begins (steps : List StreamTaken) : Prop :=
  ∀ first ∈ steps.head?, ¬ FailedRemoval first

variable {stream : Nat}
variable {first rest steps : List StreamTaken}
variable {marked taken removal : StreamTaken}

theorem not_failedRemoval
    (hOther : ∀ path, taken.op ≠ .files (.rm path)) :
    ¬ FailedRemoval taken := by
  rintro ⟨path, found, before, reason, after, hTaken⟩
  apply hOther path
  rw [hTaken]

theorem disposes_append
    (hFirst : first.IsChain (Disposes stream))
    (hRest : rest.IsChain (Disposes stream))
    (hBegins : Begins rest) :
    (first ++ rest).IsChain (Disposes stream) := by
  apply hFirst.append hRest
  intro marked _ removal hRemoval _
  exact hBegins removal hRemoval

/- Before the first abort nothing can go wrong. -/
theorem disposes_after
    (hUnmarked :
      ∀ taken ∈ first, ¬ Marks stream taken.op)
    (hRest : rest.IsChain (Disposes stream)) :
    (first ++ rest).IsChain (Disposes stream) := by
  induction first with
  | nil => exact hRest
  | cons head tail ih =>
      rw [List.cons_append, List.isChain_cons]
      constructor
      · intro next _ hMarks
        exact absurd hMarks (hUnmarked head List.mem_cons_self)
      · apply ih
        intro taken hTaken
        exact hUnmarked taken (List.mem_cons_of_mem _ hTaken)

theorem disposes_unmarked
    (hUnmarked :
      ∀ taken ∈ steps, ¬ Marks stream taken.op) :
    steps.IsChain (Disposes stream) := by
  have hChain := disposes_after hUnmarked .nil
  rw [List.append_nil] at hChain
  exact hChain

theorem disposes_removed
    (hRemoved : ∀ taken ∈ steps, ¬ FailedRemoval taken) :
    (marked :: steps).IsChain (Disposes stream) := by
  induction steps generalizing marked with
  | nil => exact .singleton _
  | cons head tail ih =>
      rw [List.isChain_cons_cons]
      constructor
      · intro _
        exact hRemoved head List.mem_cons_self
      · apply ih
        intro taken hTaken
        exact hRemoved taken (List.mem_cons_of_mem _ hTaken)

theorem not_disposes
    (hMarks : Marks stream marked.op)
    (hFailed : FailedRemoval removal) :
    ¬ [marked, removal].IsChain (Disposes stream) := by
  intro hChain
  rw [List.isChain_cons_cons] at hChain
  exact hChain.1 hMarks hFailed

------------------------------------------------------------
-- Aborts
------------------------------------------------------------

variable {status : GrpcStatus}

/- A stream that has not ended yet. -/
structure Idle (session : PushSession) : Prop where
  unended : session.streamEnded = false
  pending :
    session.aborted = true →
      ∃ status, session.pendingAbort = some status
  fresh :
    session.headerReceived = false →
      session.stagingFilePath = none

theorem markAborted_streamEnded :
    (session.markAborted status).2.streamEnded =
      session.streamEnded := by
  unfold PushSession.markAborted PushSession.abort
  split
  · rfl
  · dsimp only
    split <;> rfl

theorem markAborted_already
    (hAlready :
      (session.markAborted status).1 = .already) :
    session.aborted = true := by
  unfold PushSession.markAborted at hAlready
  split at hAlready
  · assumption
  · cases hAlready

theorem markAborted_aborting
    {removal : Removal}
    (hAborting :
      (session.markAborted status).1 = .aborting removal) :
    session.aborted = false := by
  unfold PushSession.markAborted at hAborting
  split at hAborting
  · cases hAborting
  · rename_i hRunning
    exact Bool.eq_false_iff.mpr hRunning

theorem idle_markAborted
    (hIdle : Idle session) :
    Idle (session.markAborted status).2 := by
  unfold PushSession.markAborted
  split
  · exact hIdle
  · unfold PushSession.abort
    dsimp only
    split
    · exact
        ⟨hIdle.unended, fun _ => ⟨status, rfl⟩,
          hIdle.fresh⟩
    · exact
        ⟨hIdle.unended, fun _ => ⟨status, rfl⟩,
          hIdle.fresh⟩

theorem ends_rm (path : String) :
    Ends (amid config stream)
      (Transfer.files (.rm path)) session
      fun steps outcome next =>
        next = session ∧
          ∃ taken,
            steps = [taken] ∧
              taken.op = .files (.rm path) ∧
              ((outcome = .ok () ∧ ¬ FailedRemoval taken) ∨
                ∃ error,
                  outcome = .error error ∧
                    FailedRemoval taken) := by
  unfold Transfer.files perform Async.call
  rw [Async.bind_await]
  apply ends_await
  intro found answer next hExec
  have hAside : Aside stream (.files (.rm path)) := by
    intro step hOp
    cases hOp
  have hSame : next = session := amid_aside hAside hExec
  cases answer with
  | ok value =>
      apply ends_returned
      refine ⟨hSame, _, rfl, rfl, Or.inl ⟨rfl, ?_⟩⟩
      rintro ⟨_, _, _, _, _, hTaken⟩
      cases hTaken
  | error reason =>
      apply ends_threw
      exact
        ⟨hSame, _, rfl, rfl, Or.inr
          ⟨_, rfl, path, found, session, reason, next, rfl⟩⟩

theorem ends_isEnded (status : GrpcStatus) :
    Ends (amid config stream)
      ((Transfer.session stream .isEnded).bind fun ended =>
        if ended then
          .returned (some (PushReply.refused status))
        else .returned none) session
      fun steps outcome next =>
        next = session ∧
          (∀ taken ∈ steps, ¬ Marks stream taken.op) ∧
          outcome =
              .ok
                (if session.streamEnded then
                  some (.refused status)
                else none) ∧
            ∀ taken ∈ steps, ¬ FailedRemoval taken := by
  apply ends_step
  intro found ended next hRun
  cases hRun
  have hReturned :
      (if session.streamEnded then
          .returned (some (PushReply.refused status))
        else .returned none :
          TransferProgram (Option PushReply)) =
        .returned
          (if session.streamEnded then
            some (.refused status)
          else none) := by
    cases session.streamEnded <;> rfl
  rw [hReturned]
  apply ends_returned
  refine ⟨rfl, ?_, rfl, ?_⟩
  · intro taken hTaken
    rw [List.mem_singleton] at hTaken
    subst hTaken
    rintro ⟨status, hOp⟩
    cases hOp
  · intro taken hTaken
    rw [List.mem_singleton] at hTaken
    subst hTaken
    apply not_failedRemoval
    intro path hOp
    cases hOp

/- Without a removal that fails, an abort is told to the
   client if the stream has ended. -/
theorem ends_finishAbort
    (status : GrpcStatus)
    (removal : Removal) :
    Ends (amid config stream)
      (finishAbort stream status removal) session
      fun steps outcome next =>
        next = session ∧
          (∀ taken ∈ steps, ¬ Marks stream taken.op) ∧
          ((outcome =
                .ok
                  (if session.streamEnded then
                    some (.refused status)
                  else none) ∧
              ∀ taken ∈ steps, ¬ FailedRemoval taken) ∨
            ∃ error taken,
              removal ≠ none ∧ outcome = .error error ∧
                steps = [taken] ∧ FailedRemoval taken) := by
  cases removal with
  | none =>
      refine ends_mono (ends_isEnded status) ?_
      rintro steps outcome next
        ⟨hSame, hUnmarked, hOutcome, hRemoved⟩
      exact ⟨hSame, hUnmarked, Or.inl ⟨hOutcome, hRemoved⟩⟩
  | some path =>
      unfold finishAbort
      rw [Async.bind_eq]
      refine ends_bind_of (ends_rm path) ?_ ?_
      · rintro steps _ u ⟨hSame, taken, hSteps, hOp, hEnd⟩
        subst hSame hSteps
        rcases hEnd with ⟨_, hRemoved⟩ | ⟨_, hError, _⟩
        · refine ends_mono (ends_isEnded status) ?_
          rintro rest outcome next
            ⟨hSame, hUnmarked, hOutcome, hRest⟩
          refine ⟨hSame, ?_, Or.inl ⟨hOutcome, ?_⟩⟩
          · intro other hOther
            rcases List.mem_cons.mp hOther with hFirst | hLater
            · rw [hFirst, hOp]
              rintro ⟨status, hMarks⟩
              cases hMarks
            · exact hUnmarked other hLater
          · intro other hOther
            rcases List.mem_cons.mp hOther with hFirst | hLater
            · rw [hFirst]
              exact hRemoved
            · exact hRest other hLater
        · cases hError
      · rintro steps error u ⟨hSame, taken, hSteps, hOp, hEnd⟩
        rcases hEnd with ⟨hOk, _⟩ | ⟨other, hError, hFailed⟩
        · cases hOk
        · refine
            ⟨hSame, ?_, Or.inr
              ⟨error, taken, Option.some_ne_none path, rfl,
                hSteps, hFailed⟩⟩
          intro step hStep
          rw [hSteps, List.mem_singleton] at hStep
          rw [hStep, hOp]
          rintro ⟨status, hMarks⟩
          cases hMarks

/-
  An abort begun by an error that was caught rejects exactly
  if its removal fails, and tells the client of it if the
  stream has ended.
-/
theorem ends_markAborted (status : GrpcStatus) :
    Ends (amid config stream) (markAborted stream status)
      session
      fun steps outcome next =>
        next = (session.markAborted status).2 ∧
          Begins steps ∧
          ((outcome =
                .ok
                  (if !session.aborted && session.streamEnded
                    then some (.refused status)
                  else none) ∧
              steps.IsChain (Disposes stream)) ∨
            ∃ error,
              outcome = .error error ∧
                ¬ steps.IsChain (Disposes stream)) := by
  unfold markAborted
  rw [Async.bind_eq]
  apply ends_step
  intro found marked next hRun
  have hMarked : (session.markAborted status).1 = marked :=
    congrArg Prod.fst hRun
  have hNext : (session.markAborted status).2 = next :=
    congrArg Prod.snd hRun
  have hBegins :
      ∀ rest,
        Begins
          (⟨.session stream (.markAborted status), found,
            session, marked, next⟩ :: rest) := by
    intro rest first hFirst
    cases hFirst
    apply not_failedRemoval
    intro path hOp
    cases hOp
  cases marked with
  | already =>
      have hAborted := markAborted_already hMarked
      apply ends_returned
      refine
        ⟨hNext.symm, hBegins [], Or.inl ⟨?_, .singleton _⟩⟩
      rw [hAborted]
      rfl
  | aborting removal =>
      have hRunning := markAborted_aborting hMarked
      have hEnded : next.streamEnded = session.streamEnded := by
        rw [← hNext]
        exact markAborted_streamEnded
      refine ends_mono (ends_finishAbort status removal) ?_
      rintro steps outcome u ⟨hSame, _, hEnd⟩
      refine ⟨hSame.trans hNext.symm, hBegins steps, ?_⟩
      rcases hEnd with
        ⟨hOutcome, hRemoved⟩ |
          ⟨error, taken, _, hError, hSteps, hFailed⟩
      · refine Or.inl ⟨?_, disposes_removed hRemoved⟩
        rw [hOutcome, hEnded, hRunning]
        rfl
      · refine Or.inr ⟨error, hError, ?_⟩
        rw [hSteps]
        exact not_disposes ⟨status, rfl⟩ hFailed

end PushReplies

end Transfer
