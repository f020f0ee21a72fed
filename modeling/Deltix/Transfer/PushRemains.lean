import Deltix.Transfer.PushInvariant

/-
  What a push stream leaves when it ends without a job, and
  the steps after which it leaves neither a staging file nor
  an active ticket.

  Key definitions include:
    * `CleansUp`
    * `CleanStep`
    * `RemainsInv`
    * `Owes`

  Key theorems include:
    * `SessionStep.closes_run`
    * `remainsInv_perform`
-/

------------------------------------------------------------
-- What Closes A Session
------------------------------------------------------------

namespace Transfer

open Storage

namespace SessionStep

/- The states in which a step aborts the session. -/
def mayAbort : SessionStep → PushSession → Bool
  | .header _, session =>
      !session.aborted && session.headerReceived
  | .chunk _, session =>
      !session.aborted && !session.headerReceived
  | .finalize, session =>
      !session.aborted && !session.headerReceived
  | .markAborted _, session => !session.aborted
  | .error, _ => true
  | .cancelled, _ => true
  | .empty, _ => false
  | .ticketConsumed _ _, _ => false
  | .openSink, _ => false
  | .isEnded, _ => false

/- The end of the stream, unless it aborts the session. -/
def finishes : (step : SessionStep) → step.Answer → Bool
  | .finalize, answer => !Ended.aborts answer
  | .header _, _ => false
  | .chunk _, _ => false
  | .markAborted _, _ => false
  | .error, _ => false
  | .cancelled, _ => false
  | .empty, _ => false
  | .ticketConsumed _ _, _ => false
  | .openSink, _ => false
  | .isEnded, _ => false

/- An abort of an open session: it asks for the removal of
   the staging file, and the sink is ended. -/
def Aborts
    (removal : Removal)
    (session next : PushSession) : Prop :=
  removal = session.stagingFilePath ∧
    next.fileSink = session.fileSink.map FileSink.end

end SessionStep

namespace PushSession

variable (session : PushSession)

theorem abort_open
    (hOpen : session.closed = false) :
    SessionStep.Aborts session.abort.1 session
      session.abort.2 := by
  unfold abort
  rw [hOpen]
  exact ⟨rfl, rfl⟩

theorem markAborted_open
    (status : GrpcStatus)
    (hOpen : session.closed = false)
    (hAborted : session.aborted = false) :
    SessionStep.Aborts
      (session.markAborted status).1.removal session
      (session.markAborted status).2 := by
  have hAbort :=
    abort_open
      { session with
        aborted := true
        pendingAbort := some status } hOpen
  unfold markAborted
  rw [hAborted]
  exact hAbort

theorem fail_open
    (status : GrpcStatus)
    (hOpen : session.closed = false)
    (hAborted : session.aborted = false) :
    SessionStep.Aborts (session.fail status).1 session
      (session.fail status).2 := by
  have hMarked :=
    session.markAborted_open status hOpen hAborted
  unfold fail
  split
  · rename_i next hEq
    rw [hEq] at hMarked
    exact hMarked
  · rename_i removal next hEq
    rw [hEq] at hMarked
    exact hMarked

/- What is aborted is closed. -/
theorem fail_closed
    (status : GrpcStatus)
    (hAborted : session.aborted = false) :
    (session.fail status).2.closed = true :=
  (session.fail_spec status hAborted).2.2

/- `finish` goes by the options of its ticket. -/
theorem finalizeStream_syncOptions
    {now : Nat}
    {fails : Bool}
    {started : PushFinish}
    (hFinish :
      (session.finalizeStream now fails).1 =
        .finishing started) :
    started.syncOptions = session.syncOptions := by
  unfold finalizeStream at hFinish
  dsimp only at hFinish
  split at hFinish
  · cases hFinish
  · split at hFinish
    · cases hFinish
    · unfold beginFinish at hFinish
      split at hFinish
      · cases hFinish
      · split at hFinish
        · split at hFinish
          · cases hFinish
          · cases hFinish
            rfl
        · cases hFinish

end PushSession

namespace SessionStep

variable {stagingRootPath uuid : String} {now : Nat}
variable {fails : Bool} {session : PushSession}

/- A step closes an open session by finishing or aborting
   it. -/
theorem closes_run
    (step : SessionStep)
    (hOpen : session.closed = false)
    (hClosed :
      (step.run stagingRootPath uuid now fails
          session).2.closed = true) :
    step.finishes
        (step.run stagingRootPath uuid now fails session).1 =
      true ∨
      (step.mayAbort session = true ∧
        Aborts
          (step.removal
            (step.run stagingRootPath uuid now fails
              session).1)
          session
          (step.run stagingRootPath uuid now fails
            session).2) := by
  cases step with
  | header sent =>
      simp only [run, removal, mayAbort] at hClosed ⊢
      unfold PushSession.processHeader at hClosed ⊢
      by_cases hAborted : session.aborted = true
      · rw [if_pos hAborted] at hClosed
        rw [hOpen] at hClosed
        cases hClosed
      · rw [if_neg hAborted] at hClosed ⊢
        rw [Bool.not_eq_true] at hAborted
        by_cases hReceived : session.headerReceived = true
        · rw [if_pos hReceived]
          refine Or.inr ⟨by simp [hAborted, hReceived], ?_⟩
          exact session.fail_open _ hOpen hAborted
        · rw [if_neg hReceived] at hClosed
          dsimp only at hClosed
          split at hClosed
          · rw [hOpen] at hClosed
            cases hClosed
          · rw [hOpen] at hClosed
            cases hClosed
  | chunk data =>
      simp only [run, removal, mayAbort] at hClosed ⊢
      rcases session.processChunk_cases fails data with
        ⟨_, hEq⟩ | ⟨_, _, _, hEq, _⟩ | ⟨hEq, _⟩ |
          ⟨_, _, sink, _, hEq⟩
      · rw [hEq, hOpen] at hClosed
        cases hClosed
      · unfold PushSession.processChunk at hEq ⊢
        by_cases hAborted : session.aborted = true
        · rw [if_pos hAborted] at hEq
          cases hEq
        · rw [if_neg hAborted] at hEq ⊢
          rw [Bool.not_eq_true] at hAborted
          cases hReceived : session.headerReceived with
          | false =>
              exact
                Or.inr
                  ⟨by simp [hAborted],
                    session.fail_open _ hOpen hAborted⟩
          | true =>
              rw [hReceived] at hEq
              simp only [Bool.not_true, Bool.false_eq_true,
                if_false] at hEq
              split at hEq
              · cases hEq
              · split at hEq <;> cases hEq
      · rw [hEq, hOpen] at hClosed
        cases hClosed
      · rw [hEq] at hClosed
        rw [hOpen] at hClosed
        cases hClosed
  | empty =>
      rw [show (run stagingRootPath uuid now fails .empty
        session).2 = session from rfl, hOpen] at hClosed
      cases hClosed
  | ticketConsumed sent ticket =>
      have hKept : session.closed = true := hClosed
      rw [hOpen] at hKept
      cases hKept
  | openSink =>
      have hKept : session.closed = true := hClosed
      rw [hOpen] at hKept
      cases hKept
  | markAborted status =>
      simp only [run, removal, mayAbort] at hClosed ⊢
      by_cases hAborted : session.aborted = true
      · unfold PushSession.markAborted at hClosed
        rw [if_pos hAborted, hOpen] at hClosed
        cases hClosed
      · rw [Bool.not_eq_true] at hAborted
        refine Or.inr ⟨by simp [hAborted], ?_⟩
        exact session.markAborted_open status hOpen hAborted
  | isEnded =>
      have hKept : session.closed = true := hClosed
      rw [hOpen] at hKept
      cases hKept
  | finalize =>
      simp only [run, removal, mayAbort, finishes] at hClosed ⊢
      by_cases hAborted : session.aborted = true
      · rw [session.finalizeStream_of_aborted now fails
          hAborted] at hClosed
        rw [hOpen] at hClosed
        cases hClosed
      · rw [Bool.not_eq_true] at hAborted
        cases hReceived : session.headerReceived with
        | false =>
            rw [session.finalizeStream_of_unsent now fails
              hAborted hReceived]
            refine Or.inr ⟨by simp [hAborted], ?_⟩
            exact
              PushSession.fail_open
                { session with streamEnded := true } _ hOpen
                hAborted
        | true =>
            left
            rw [session.finalizeStream_of_sent now fails
              hAborted hReceived]
            rcases
                PushSession.beginFinish_cases
                  { session with streamEnded := true } now
                  fails with
              ⟨_, _, hEq⟩ | ⟨_, _, _, hEq, _⟩
            · rw [hEq]
              rfl
            · rw [hEq]
              rfl
  | error =>
      exact Or.inr ⟨rfl, session.abort_open hOpen⟩
  | cancelled =>
      exact
        Or.inr
          ⟨rfl,
            PushSession.abort_open
              { session with aborted := true } hOpen⟩

/- What is aborted is closed. -/
theorem aborted_run
    (step : SessionStep)
    (hBefore : session.aborted = true → session.closed = true)
    (hAborted :
      (step.run stagingRootPath uuid now fails
          session).2.aborted = true) :
    (step.run stagingRootPath uuid now fails
        session).2.closed = true := by
  cases step with
  | header sent =>
      simp only [run] at hAborted ⊢
      rcases session.processHeader_cases sent with
        ⟨_, hEq⟩ | ⟨_, _, next, hEq, hNext⟩ | ⟨_, _, hEq, _⟩
      · rw [hEq] at hAborted ⊢
        exact hBefore hAborted
      · rw [hEq]
        exact hNext.2.2
      · rw [hEq] at hAborted ⊢
        exact hBefore hAborted
  | chunk data =>
      simp only [run] at hAborted ⊢
      rcases session.processChunk_cases fails data with
        ⟨_, hEq⟩ | ⟨_, _, next, hEq, hNext⟩ | ⟨hEq, _⟩ |
          ⟨_, _, sink, _, hEq⟩
      · rw [hEq] at hAborted ⊢
        exact hBefore hAborted
      · rw [hEq]
        exact hNext.2.2
      · rw [hEq] at hAborted ⊢
        exact hBefore hAborted
      · rw [hEq] at hAborted ⊢
        exact hBefore hAborted
  | empty => exact hBefore hAborted
  | ticketConsumed sent ticket => exact hBefore hAborted
  | openSink => exact hBefore hAborted
  | markAborted status =>
      simp only [run] at hAborted ⊢
      rcases session.markAborted_cases status with
        ⟨_, hEq⟩ | ⟨_, _, next, hEq, hNext⟩
      · rw [hEq] at hAborted ⊢
        exact hBefore hAborted
      · rw [hEq]
        exact hNext.2.2
  | isEnded => exact hBefore hAborted
  | finalize =>
      simp only [run] at hAborted ⊢
      by_cases hStopped : session.aborted = true
      · rw [session.finalizeStream_of_aborted now fails
          hStopped]
        exact hBefore hStopped
      · rw [Bool.not_eq_true] at hStopped
        cases hReceived : session.headerReceived with
        | false =>
            rw [session.finalizeStream_of_unsent now fails
              hStopped hReceived]
            exact
              PushSession.fail_closed
                { session with streamEnded := true } _ hStopped
        | true =>
            rw [session.finalizeStream_of_sent now fails
              hStopped hReceived] at hAborted
            unfold PushSession.beginFinish at hAborted
            exfalso
            have hKept : session.aborted = true := by
              split at hAborted
              · exact hAborted
              · split at hAborted
                · split at hAborted
                  · exact hAborted
                  · exact hAborted
                · exact hAborted
            rw [hStopped] at hKept
            cases hKept
  | error =>
      exact session.abort_closed
  | cancelled => exact PushSession.abort_closed _

/- A step that finishes asks for no removal. -/
theorem removal_of_finishes
    {step : SessionStep}
    {answer : step.Answer}
    (hFinishes : step.finishes answer = true) :
    step.removal answer = none := by
  cases step with
  | finalize =>
      cases answer with
      | aborting status removal => cases hFinishes
      | _ => rfl
  | _ => cases hFinishes

end SessionStep

end Transfer

namespace Transfer

namespace PushCleanup

open Auth Concurrency Relational Storage NasPaths
open PushIntegrity (Pushes Created Activated namesUnique)

/- A task that aborts a stream because of an error or a
   cancellation. -/
def Cancels
    (j k : Nat)
    (trace : List TransferEvent) : Prop :=
  .started j (.pushError k) ∈ trace ∨
    .started j (.pushCancelled k) ∈ trace

def Ended (j : Nat) (trace : List TransferEvent) : Prop :=
  ∃ outcome, .finished j outcome ∈ trace

/- Nothing of a stream is in progress any more: it was ended
   or stopped, and all its tasks have ended. -/
structure Over
    (i : Nat)
    (ends : Bool)
    (trace : List TransferEvent) : Prop where
  push : Ended i trace
  aborts : ∀ j, Cancels j i trace → Ended j trace
  stopped : ends = true ∨ ∃ j, Cancels j i trace

/- A task has removed a file, or failed to. -/
def Removed
    (j : Nat)
    (path : String)
    (trace : List TransferEvent) : Prop :=
  ∃ before after,
    .performed j (.files (.rm path)) (.ok ()) before after ∈
      trace

def NotRemoved
    (j : Nat)
    (path : String)
    (trace : List TransferEvent) : Prop :=
  ∃ error before after,
    .performed j (.files (.rm path)) (.error error) before
      after ∈ trace

/- No file is left that the stream has opened, unless its
   removal itself has failed. -/
def LeavesNoFile (i : Nat) (w : TransferWorld) : Prop :=
  ∀ sink path,
    (w.state.pushes i).fileSink = some sink →
      (w.state.pushes i).stagingFilePath = some path →
        (∀ j, ¬ NotRemoved j path w.trace) →
          sink.ended = true ∧ w.state.files path = none

/- No ticket that the stream has activated is active. -/
def LeavesNoTicket (i : Nat) (w : TransferWorld) : Prop :=
  ∀ ticketId ticket,
    Activated i ticketId w.trace →
      w.state.tickets.find? ticketId = some ticket →
        ticket.status ≠ .active

/- Every stream that ends without a job cleans up. -/
def CleansUp (w : TransferWorld) : Prop :=
  ∀ i messages ends,
    Pushes i messages ends w.trace → Over i ends w.trace →
      (∀ job, ¬ Created i job w.trace) →
        LeavesNoFile i w ∧ LeavesNoTicket i w

/- `finish` has closed the session. -/
def Finishes (i : Nat) (event : TransferEvent) : Prop :=
  ∃ (step : SessionStep) (answer : step.Answer)
    (before after : TransferState),
    event = .performed i (.session i step) answer before after ∧
      step.finishes answer = true ∧
      (before.pushes i).closed = false ∧
      (after.pushes i).closed = true

def Finalized
    (i : Nat)
    (trace : List TransferEvent) : Prop :=
  ∃ event ∈ trace, Finishes i event

/-
  A step after which its stream can clean up: a ticket is
  activated, and a sink opened, for an open session only; a
  session is aborted when no ticket of its stream is active;
  `finish` begins for no dry run, and does not fail.
-/
structure CleanStep
    (i : Nat)
    (op : TransferOp)
    (w : TransferWorld) : Prop where
  activates :
    ∀ ticketId operation repo now,
      op = .tickets (.activate ticketId operation repo now) →
        (w.state.pushes i).closed = false
  opens :
    ∀ k, op = .session k .openSink →
      (w.state.pushes k).closed = false
  aborts :
    ∀ k step, op = .session k step →
      (w.state.pushes k).closed = false →
        step.mayAbort (w.state.pushes k) = true →
          LeavesNoTicket k w
  begins :
    ∀ k, op = .session k .finalize →
      (w.state.pushes k).aborted = false →
        (w.state.pushes k).closed = false →
          ((w.state.pushes k).syncOptions.bind
            PushTicketSyncOptions.dryRun).getD false = false
  fails :
    ∀ k status, op = .session k (.markAborted status) →
      ¬ Finalized k w.trace

/- The names of the staging files are unique, and every step
   lets its stream clean up. -/
def cleanSteps : TransferAllowed where
  start := fun _ _ _ => True
  perform := fun i op w =>
    namesUnique.perform i op w ∧ CleanStep i op w

/- A task has been asked to remove the staging file of a
   stream. -/
def Asks
    (j k : Nat)
    (path : String)
    (event : TransferEvent) : Prop :=
  ∃ (step : SessionStep) (answer : step.Answer)
    (before after : TransferState),
    event = .performed j (.session k step) answer before after ∧
      step.removal answer = some path

def Asked
    (j k : Nat)
    (path : String)
    (trace : List TransferEvent) : Prop :=
  ∃ event ∈ trace, Asks j k path event

/- A task has tried every removal it was asked for. -/
def Settled (j : Nat) (trace : List TransferEvent) : Prop :=
  ∀ k path, Asked j k path trace →
    Removed j path trace ∨ NotRemoved j path trace

/- How a task ends. -/
def EndsWell
    (event : TransferEvent)
    (older : List TransferEvent) : Prop :=
  ∀ j outcome, event = .finished j outcome →
    Settled j older ∧
      ∀ messages ends, Pushes j messages ends older →
        (∃ job, Created j job older) ∨ ¬ Finalized j older

structure RemainsInv (w : TransferWorld) : Prop where
  unique : StartsOnce w.trace
  sealed_ :
    ∀ k, (w.state.pushes k).closed = true →
      ¬ Finalized k w.trace → LeavesNoTicket k w
  ended :
    ∀ k sink, (w.state.pushes k).closed = true →
      ¬ Finalized k w.trace →
        (w.state.pushes k).fileSink = some sink →
          sink.ended = true
  asked :
    ∀ k sink path, (w.state.pushes k).closed = true →
      ¬ Finalized k w.trace →
        (w.state.pushes k).fileSink = some sink →
          (w.state.pushes k).stagingFilePath = some path →
            ∃ j, Asked j k path w.trace ∧
              (j = k ∨ Cancels j k w.trace)
  held :
    ∀ j k path, Asked j k path w.trace →
      (w.state.pushes k).closed = true ∧
        (w.state.pushes k).stagingFilePath = some path ∧
        ¬ Finalized k w.trace
  asker :
    ∀ j path, Removed j path w.trace →
      OnNas path ∨ ∃ k, Asked j k path w.trace
  gone :
    ∀ j path, Removed j path w.trace →
      OnNas path ∨ w.state.files path = none
  finalized :
    ∀ k, Finalized k w.trace →
      (w.state.pushes k).closed = true
  aborted :
    ∀ k, (w.state.pushes k).aborted = true →
      (w.state.pushes k).closed = true
  sinks :
    ∀ k sink, (w.state.pushes k).fileSink = some sink →
      ∃ path, (w.state.pushes k).stagingFilePath = some path
  paths :
    ∀ k, (w.state.pushes k).headerReceived = false →
      (w.state.pushes k).stagingFilePath = none
  stopped :
    ∀ j messages, Ended j w.trace →
      Pushes j messages true w.trace →
        (∃ job, Created j job w.trace) ∨
          (w.state.pushes j).closed = true
  cancelled :
    ∀ j k, Ended j w.trace → Cancels j k w.trace →
      (w.state.pushes k).closed = true
  ends : Throughout EndsWell w.trace

/- While a task waits, the others only let its session wind
   down, and open no session again. -/
structure RemainsRely (i : Nat) (w v : TransferWorld) :
    Prop where
  winds : WindsDown (w.state.pushes i) (v.state.pushes i)
  closed :
    ∀ k, (w.state.pushes k).closed = true →
      (v.state.pushes k).closed = true

def remainsContract : TransferContract where
  inv := RemainsInv
  rely := RemainsRely
  rely_refl := fun _ _ =>
    { winds := .refl _
      closed := fun _ hClosed => hClosed }
  rely_trans := fun _ _ _ _ hFirst hSecond =>
    { winds := hFirst.winds.trans hSecond.winds
      closed := fun k hClosed =>
        hSecond.closed k (hFirst.closed k hClosed) }

/- What a task owes before an operation. -/
def Owes
    (i : Nat)
    (op : TransferOp)
    (w : TransferWorld) : Prop :=
  match op with
  | .files statement =>
      ∀ path ∈ statement.writes,
        OnNas path ∨
          (statement = .rm path ∧
            ∃ k, Asked i k path w.trace)
  | .session k .error => Cancels i k w.trace
  | .session k .cancelled => Cancels i k w.trace
  | .session k (.ticketConsumed _ _) =>
      k = i ∧
        (w.state.pushes i).headerReceived = true ∧
        (w.state.pushes i).stagingFilePath = none
  | .session k .openSink =>
      k = i ∧
        (w.state.pushes i).headerReceived = true ∧
        ∃ path,
          (w.state.pushes i).stagingFilePath = some path
  | .session k _ => k = i
  | _ => True

------------------------------------------------------------
-- What An Operation Closes
------------------------------------------------------------

open PushIntegrity

variable {config : TransferConfig} {op : TransferOp}
variable {choice : TransferChoice} {answer : op.Answer}
variable {after : TransferState} {w : TransferWorld}
variable {i j k : Nat} {path : String}
variable {sink : FileSink} {step : SessionStep}

/- What happened before an operation happened. -/
theorem Asked.perform
    (hAsked : Asked j k path w.trace) :
    Asked j k path (w.perform i op answer after).trace := by
  rcases hAsked with ⟨event, hEvent, hAsks⟩
  exact ⟨event, List.mem_cons_of_mem _ hEvent, hAsks⟩

theorem Finalized.perform
    (hFinalized : Finalized k w.trace) :
    Finalized k (w.perform i op answer after).trace := by
  rcases hFinalized with ⟨event, hEvent, hFinishes⟩
  exact ⟨event, List.mem_cons_of_mem _ hEvent, hFinishes⟩

theorem Cancels.perform
    (hCancels : Cancels j k w.trace) :
    Cancels j k (w.perform i op answer after).trace := by
  rcases hCancels with hError | hCancelled
  · exact Or.inl (List.mem_cons_of_mem _ hError)
  · exact Or.inr (List.mem_cons_of_mem _ hCancelled)

/- No operation ends a task, or starts one. -/
theorem ended_perform :
    Ended j (w.perform i op answer after).trace ↔
      Ended j w.trace := by
  constructor
  · rintro ⟨outcome, hMember⟩
    rcases List.mem_cons.mp hMember with hNew | hOld
    · cases hNew
    · exact ⟨outcome, hOld⟩
  · rintro ⟨outcome, hMember⟩
    exact ⟨outcome, List.mem_cons_of_mem _ hMember⟩

theorem cancels_perform :
    Cancels j k (w.perform i op answer after).trace ↔
      Cancels j k w.trace := by
  constructor
  · rintro (hError | hCancelled)
    · rcases List.mem_cons.mp hError with hNew | hOld
      · cases hNew
      · exact Or.inl hOld
    · rcases List.mem_cons.mp hCancelled with hNew | hOld
      · cases hNew
      · exact Or.inr hOld
  · exact Cancels.perform

/- An operation that closes an open session finishes its
   stream, or aborts it. -/
theorem newly_closed
    (hExec :
      op.exec config choice w.state = some (answer, after))
    (hOpen : (w.state.pushes k).closed = false)
    (hClosed : (after.pushes k).closed = true) :
    ∃ (step : SessionStep) (reply : step.Answer),
      op = .session k step ∧
        (.performed i op answer w.state after :
            TransferEvent) =
          .performed i (.session k step) reply w.state after ∧
        (step.finishes reply = true ∨
          (step.mayAbort (w.state.pushes k) = true ∧
            SessionStep.Aborts (step.removal reply)
              (w.state.pushes k) (after.pushes k))) := by
  rcases TransferOp.exec_pushes hExec with
    hSame | ⟨stream, step, rfl, hPushes⟩
  · rw [hSame, hOpen] at hClosed
    cases hClosed
  · by_cases hStream : k = stream
    · subst hStream
      refine ⟨step, answer, rfl, rfl, ?_⟩
      have hSession := exec_session hExec
      rw [hSession.2] at hClosed
      have hCloses := SessionStep.closes_run step hOpen hClosed
      rw [hSession.1] at hCloses
      rw [hSession.2]
      exact hCloses
    · rw [hPushes, Function.update_of_ne hStream,
        hOpen] at hClosed
      cases hClosed

/- So it is aborted, when `finish` has not closed it. -/
theorem newly_aborted
    (hOwes : Owes i op w)
    (hExec :
      op.exec config choice w.state = some (answer, after))
    (hOpen : (w.state.pushes k).closed = false)
    (hClosed : (after.pushes k).closed = true)
    (hNot :
      ¬ Finalized k (w.perform i op answer after).trace) :
    ∃ (step : SessionStep) (reply : step.Answer),
      op = .session k step ∧
        (.performed i op answer w.state after :
            TransferEvent) =
          .performed i (.session k step) reply w.state after ∧
        step.mayAbort (w.state.pushes k) = true ∧
        SessionStep.Aborts (step.removal reply)
          (w.state.pushes k) (after.pushes k) := by
  rcases newly_closed (i := i) hExec hOpen hClosed with
    ⟨step, reply, rfl, hEvent, hFinishes | hAborts⟩
  · exfalso
    have hSelf : k = i := by
      cases step with
      | finalize => exact hOwes
      | _ => cases hFinishes
    subst hSelf
    exact
      hNot
        ⟨_, List.mem_cons_self, step, reply, w.state, after,
          hEvent, hFinishes, hOpen, hClosed⟩
  · exact ⟨step, reply, rfl, hEvent, hAborts⟩

/- The session was closed before, or it is aborted now. -/
theorem closed_cases
    (hOwes : Owes i op w)
    (hExec :
      op.exec config choice w.state = some (answer, after))
    (hClosed : (after.pushes k).closed = true)
    (hNot :
      ¬ Finalized k (w.perform i op answer after).trace) :
    ((w.state.pushes k).closed = true ∧
        ¬ Finalized k w.trace) ∨
      ((w.state.pushes k).closed = false ∧
        ∃ (step : SessionStep) (reply : step.Answer),
          op = .session k step ∧
            (.performed i op answer w.state after :
                TransferEvent) =
              .performed i (.session k step) reply w.state
                after ∧
            step.mayAbort (w.state.pushes k) = true ∧
            SessionStep.Aborts (step.removal reply)
              (w.state.pushes k) (after.pushes k)) := by
  by_cases hBefore : (w.state.pushes k).closed = true
  · exact Or.inl ⟨hBefore, fun hOld => hNot hOld.perform⟩
  · rw [Bool.not_eq_true] at hBefore
    exact
      Or.inr
        ⟨hBefore,
          newly_aborted hOwes hExec hBefore hClosed hNot⟩

------------------------------------------------------------
-- Operations Keep The Invariant
------------------------------------------------------------

/- No other operation than an activation activates. -/
theorem activated_cases
    {ticketId : String}
    (hActivated :
      Activated k ticketId
        (w.perform i op answer after).trace) :
    Activated k ticketId w.trace ∨
      (k = i ∧
        ∃ operation repo now,
          op =
            .tickets
              (.activate ticketId operation repo now)) := by
  rcases hActivated with ⟨event, hEvent, hActivates⟩
  rcases List.mem_cons.mp hEvent with rfl | hOld
  · rcases hActivates with
      ⟨operation, repo, now, before, later, hEq⟩
    cases hEq
    exact Or.inr ⟨rfl, operation, repo, now, rfl⟩
  · exact Or.inl ⟨event, hOld, hActivates⟩

/- No ticket of an aborted stream becomes active. -/
theorem sealed_perform
    (hInv : RemainsInv w)
    (hPush : PushInv config w)
    (hOk : CleanStep i op w)
    (hOwes : Owes i op w)
    (hExec :
      op.exec config choice w.state = some (answer, after))
    (hClosed : (after.pushes k).closed = true)
    (hNot :
      ¬ Finalized k (w.perform i op answer after).trace) :
    LeavesNoTicket k (w.perform i op answer after) := by
  intro ticketId ticket hActivated hFind hActive
  rcases activated_cases hActivated with
    hOld | ⟨rfl, operation, repo, now, rfl⟩
  · have hBefore : LeavesNoTicket k w := by
      rcases closed_cases hOwes hExec hClosed hNot with
        ⟨hWas, hNone⟩ | ⟨hOpen, step, _, hOp, _, hMay, _⟩
      · exact hInv.sealed_ k hWas hNone
      · exact hOk.aborts k step hOp hOpen hMay
    rcases hPush.spent k ticketId hOld with
      ⟨row, hRow, hSpent⟩
    rcases moved_exec hExec hRow with ⟨later, hLater, hMove⟩
    have hSame : later = ticket :=
      Option.some.inj (hLater.symm.trans hFind)
    rw [hSame] at hMove
    exact
      ne_active_of_move hMove hSpent
        (hBefore ticketId row hOld hRow) hActive
  · have hOpen := hOk.activates ticketId operation repo now rfl
    rcases pushes_exec hExec k with
      hSame | ⟨step, hStep, _⟩
    · rw [hSame, hOpen] at hClosed
      cases hClosed
    · cases hStep

/- The sink of an aborted stream is ended. -/
theorem ended_sink_perform
    (hInv : RemainsInv w)
    (hOk : CleanStep i op w)
    (hOwes : Owes i op w)
    (hExec :
      op.exec config choice w.state = some (answer, after))
    (hClosed : (after.pushes k).closed = true)
    (hNot :
      ¬ Finalized k (w.perform i op answer after).trace)
    (hSink : (after.pushes k).fileSink = some sink) :
    sink.ended = true := by
  rcases closed_cases hOwes hExec hClosed hNot with
    ⟨hWas, hNone⟩ | ⟨_, step, reply, _, _, _, _, hEnds⟩
  · rcases pushes_exec hExec k with
      hSame | ⟨step, rfl, hChange⟩
    · rw [hSame] at hSink
      exact hInv.ended k sink hWas hNone hSink
    · refine
        hChange.staysEnded ?_
          (fun open_ hOpen =>
            hInv.ended k open_ hWas hNone hOpen)
          sink hSink
      rintro rfl
      have hOpen := hOk.opens k rfl
      rw [hWas] at hOpen
      cases hOpen
  · rw [hEnds] at hSink
    rcases Option.map_eq_some_iff.mp hSink with
      ⟨open_, _, rfl⟩
    rfl

/- A closed session keeps its staging file, and gets no new
   sink. -/
theorem sink_before
    (hInv : RemainsInv w)
    (hOk : CleanStep i op w)
    (hOwes : Owes i op w)
    (hExec :
      op.exec config choice w.state = some (answer, after))
    (hClosed : (w.state.pushes k).closed = true)
    (hSink : (after.pushes k).fileSink = some sink)
    (hPath : (after.pushes k).stagingFilePath = some path) :
    (∃ open_, (w.state.pushes k).fileSink = some open_) ∧
      (w.state.pushes k).stagingFilePath = some path := by
  rcases pushes_exec hExec k with
    hSame | ⟨step, rfl, hChange⟩
  · rw [hSame] at hSink hPath
    exact ⟨⟨sink, hSink⟩, hPath⟩
  · generalize after.pushes k = next at hChange hSink hPath
    cases hChange with
    | winds hWinds =>
        rw [hWinds.identity.stagingFilePath] at hPath
        rcases hWinds.written hSink with ⟨open_, hOpen, _⟩
        exact ⟨⟨open_, hOpen⟩, hPath⟩
    | header sent => exact ⟨⟨sink, hSink⟩, hPath⟩
    | chunk data open_ _ _ hOpen => exact ⟨⟨open_, hOpen⟩, hPath⟩
    | identity sent ticket given =>
        exfalso
        rcases hOwes with ⟨rfl, _, hNone⟩
        rcases hInv.sinks k sink hSink with ⟨other, hOther⟩
        rw [hNone] at hOther
        cases hOther
    | sink =>
        exfalso
        have hOpen := hOk.opens k rfl
        rw [hClosed] at hOpen
        cases hOpen

/- The task that aborts a stream is its push or a
   cancellation of it. -/
theorem owner_of_session
    (hOwes : Owes i (.session k step) w) :
    i = k ∨ Cancels i k w.trace := by
  cases step with
  | error => exact Or.inr hOwes
  | cancelled => exact Or.inr hOwes
  | ticketConsumed sent ticket => exact Or.inl hOwes.1.symm
  | openSink => exact Or.inl hOwes.1.symm
  | header sent =>
      have hSelf : k = i := hOwes
      exact Or.inl hSelf.symm
  | chunk data =>
      have hSelf : k = i := hOwes
      exact Or.inl hSelf.symm
  | empty =>
      have hSelf : k = i := hOwes
      exact Or.inl hSelf.symm
  | markAborted status =>
      have hSelf : k = i := hOwes
      exact Or.inl hSelf.symm
  | isEnded =>
      have hSelf : k = i := hOwes
      exact Or.inl hSelf.symm
  | finalize =>
      have hSelf : k = i := hOwes
      exact Or.inl hSelf.symm

theorem mayAbort_identity
    {session : PushSession}
    (hMay : step.mayAbort session = true)
    (sent : PushHeader)
    (ticket : Ticket) :
    step ≠ .ticketConsumed sent ticket := by
  rintro rfl
  cases hMay

/- Someone was asked to remove the file of an aborted
   stream. -/
theorem asked_perform
    (hInv : RemainsInv w)
    (hOk : CleanStep i op w)
    (hOwes : Owes i op w)
    (hExec :
      op.exec config choice w.state = some (answer, after))
    (hClosed : (after.pushes k).closed = true)
    (hNot :
      ¬ Finalized k (w.perform i op answer after).trace)
    (hSink : (after.pushes k).fileSink = some sink)
    (hPath : (after.pushes k).stagingFilePath = some path) :
    ∃ j,
      Asked j k path (w.perform i op answer after).trace ∧
        (j = k ∨
          Cancels j k (w.perform i op answer after).trace) := by
  rcases closed_cases hOwes hExec hClosed hNot with
    ⟨hWas, hNone⟩ | ⟨_, step, reply, rfl, hEvent, hMay, hAborts⟩
  · rcases sink_before hInv hOk hOwes hExec hWas hSink hPath
      with ⟨⟨open_, hOpen⟩, hBefore⟩
    rcases hInv.asked k open_ path hWas hNone hOpen hBefore with
      ⟨j, hAsked, hTask⟩
    refine ⟨j, hAsked.perform, ?_⟩
    rcases hTask with hSelf | hCancels
    · exact Or.inl hSelf
    · exact Or.inr hCancels.perform
  · have hSame :
        (after.pushes k).stagingFilePath =
          (w.state.pushes k).stagingFilePath := by
      rw [(exec_session hExec).2]
      exact
        (SessionStep.identity_run
          (mayAbort_identity hMay)).stagingFilePath
    rw [hSame] at hPath
    refine
      ⟨i,
        ⟨_, List.mem_cons_self, step, reply, w.state, after,
          hEvent, hAborts.1.trans hPath⟩,
        ?_⟩
    rcases owner_of_session hOwes with hSelf | hCancels
    · exact Or.inl hSelf
    · exact Or.inr hCancels.perform

------------------------------------------------------------
-- Removals
------------------------------------------------------------

theorem finalized_cases
    (hFinalized :
      Finalized k (w.perform i op answer after).trace) :
    Finalized k w.trace ∨
      ((w.state.pushes k).closed = false ∧
        (after.pushes k).closed = true ∧
        ∃ (step : SessionStep) (reply : step.Answer),
          op = .session k step ∧
            HEq answer reply ∧
            step.finishes reply = true) := by
  rcases hFinalized with ⟨event, hEvent, hFinishes⟩
  rcases List.mem_cons.mp hEvent with rfl | hOld
  · rcases hFinishes with
      ⟨step, reply, before, later, hEq, hDone, hOpen, hClosed⟩
    cases hEq
    exact
      Or.inr
        ⟨hOpen, hClosed, step, _, rfl, HEq.rfl, hDone⟩
  · exact Or.inl ⟨event, hOld, hFinishes⟩

theorem asked_cases
    (hAsked :
      Asked j k path (w.perform i op answer after).trace) :
    Asked j k path w.trace ∨
      (j = i ∧
        ∃ (step : SessionStep) (reply : step.Answer),
          op = .session k step ∧
            HEq answer reply ∧
            step.removal reply = some path) := by
  rcases hAsked with ⟨event, hEvent, hAsks⟩
  rcases List.mem_cons.mp hEvent with rfl | hOld
  · rcases hAsks with
      ⟨step, reply, before, later, hEq, hRemoval⟩
    cases hEq
    exact
      Or.inr ⟨rfl, step, _, rfl, HEq.rfl, hRemoval⟩
  · exact Or.inl ⟨event, hOld, hAsks⟩

/- The staging file of a stream is set once. -/
theorem owes_first
    (hOwes : Owes i op w)
    (header : PushHeader)
    (ticket : Ticket)
    (hOp : op = .session k (.ticketConsumed header ticket)) :
    (w.state.pushes k).stagingFilePath = none := by
  subst hOp
  rcases hOwes with ⟨rfl, _, hNone⟩
  exact hNone

/- What is to be removed belongs to an aborted stream. -/
theorem held_perform
    (hInv : RemainsInv w)
    (hOwes : Owes i op w)
    (hExec :
      op.exec config choice w.state = some (answer, after))
    (hAsked :
      Asked j k path (w.perform i op answer after).trace) :
    (after.pushes k).closed = true ∧
      (after.pushes k).stagingFilePath = some path ∧
      ¬ Finalized k (w.perform i op answer after).trace := by
  rcases asked_cases hAsked with
    hOld | ⟨rfl, step, reply, rfl, hReply, hRemoval⟩
  · rcases hInv.held j k path hOld with
      ⟨hClosed, hPath, hNot⟩
    refine
      ⟨closed_exec hExec hClosed,
        path_exec (owes_first hOwes) hExec hPath, ?_⟩
    intro hFinalized
    rcases finalized_cases hFinalized with hBefore | ⟨hOpen, _⟩
    · exact hNot hBefore
    · rw [hClosed] at hOpen
      cases hOpen
  · cases eq_of_heq hReply
    rcases closes_exec hExec hRemoval with
      ⟨hOpen, hShut, hPath⟩
    refine
      ⟨hShut, path_exec (owes_first hOwes) hExec hPath, ?_⟩
    · intro hFinalized
      rcases finalized_cases hFinalized with
        hBefore | ⟨_, _, other, told, hStep, hTold, hDone⟩
      · have hClosed := hInv.finalized k hBefore
        rw [hOpen] at hClosed
        cases hClosed
      · cases hStep
        cases eq_of_heq hTold
        rw [SessionStep.removal_of_finishes hDone] at hRemoval
        cases hRemoval

theorem removed_cases
    (hRemoved :
      Removed j path (w.perform i op answer after).trace) :
    Removed j path w.trace ∨
      (j = i ∧ op = .files (.rm path) ∧
        HEq answer (Except.ok () : Except String Unit)) := by
  rcases hRemoved with ⟨before, later, hMember⟩
  rcases List.mem_cons.mp hMember with hNew | hOld
  · cases hNew
    exact Or.inr ⟨rfl, rfl, HEq.rfl⟩
  · exact Or.inl ⟨before, later, hOld⟩

/- A removal leaves the file there if it fails only. -/
theorem exec_rm
    {s t : TransferState}
    {reply : Except String Unit}
    (hExec :
      (TransferOp.files (.rm path)).exec config choice s =
        some (reply, t)) :
    (reply = .ok () ∧ t.files path = none) ∨
      ((∃ error, reply = .error error) ∧
        t.files = s.files) := by
  have hRun := (TransferOp.exec_eq_some_iff.mp hExec).2
  simp only [TransferOp.run, runFiles] at hRun
  by_cases hFails : choice.fails = true
  · rw [if_pos hFails] at hRun
    cases hRun
    exact Or.inr ⟨⟨_, rfl⟩, rfl⟩
  · rw [if_neg hFails] at hRun
    cases hRun
    exact Or.inl ⟨rfl, by simp [FileStatement.run]⟩

/- A file that was removed does not come back. -/
theorem gone_perform
    (hInv : RemainsInv w)
    (hPush : PushInv config w)
    (hOk : namesUnique.perform i op w)
    (hOwes : Owes i op w)
    (hExec :
      op.exec config choice w.state = some (answer, after))
    (hGone : w.state.files path = none)
    (hAsked : Asked j k path w.trace) :
    after.files path = none := by
  rcases hInv.held j k path hAsked with
    ⟨hClosed, hPath, hNot⟩
  rcases files_cases path hExec with
    hSame | ⟨statement, rfl, hWrites⟩ |
      ⟨stream, step, open_, rfl, hOpen, hUnended, hOther⟩
  · rw [hSame]
    exact hGone
  · rcases hOwes path hWrites with hNas | ⟨rfl, _⟩
    · exact absurd hNas (hPush.staged k path hPath)
    · rcases exec_rm hExec with ⟨_, hRemoved⟩ | ⟨_, hSame⟩
      · exact hRemoved
      · rw [hSame]
        exact hGone
  · exfalso
    have hSelf :=
      hOk stream k path (hPush.named stream path hOther)
        (hPush.named k path hPath)
    subst hSelf
    rw [hInv.ended stream open_ hClosed hNot hOpen] at hUnended
    cases hUnended

------------------------------------------------------------
-- The Contract
------------------------------------------------------------

variable {v : TransferWorld}

/- A stream with a sink has a staging file. -/
theorem sinks_exec
    {sink : FileSink}
    (hInv : RemainsInv w)
    (hOwes : Owes i op w)
    (hExec :
      op.exec config choice w.state = some (answer, after))
    (hSink : (after.pushes k).fileSink = some sink) :
    ∃ path, (after.pushes k).stagingFilePath = some path := by
  have hKept :
      ∀ open_, (w.state.pushes k).fileSink = some open_ →
        ∃ path,
          (after.pushes k).stagingFilePath = some path := by
    intro open_ hOpen
    rcases hInv.sinks k open_ hOpen with ⟨path, hPath⟩
    exact
      ⟨path, path_exec (owes_first hOwes) hExec hPath⟩
  rcases pushes_exec hExec k with
    hSame | ⟨step, rfl, hChange⟩
  · rw [hSame] at hSink
    exact hKept sink hSink
  · generalize hNext : after.pushes k = next
      at hChange hSink hKept
    cases hChange with
    | winds hWinds =>
        rcases hWinds.written hSink with ⟨open_, hOpen, _⟩
        exact hKept open_ hOpen
    | header sent => exact hKept sink hSink
    | chunk data open_ _ _ hOpen => exact hKept open_ hOpen
    | identity sent ticket given => exact ⟨given, rfl⟩
    | sink =>
        rcases hOwes with ⟨rfl, _, hPath⟩
        exact hPath

/- Before its header a stream has none. -/
theorem paths_exec
    (hInv : RemainsInv w)
    (hOwes : Owes i op w)
    (hExec :
      op.exec config choice w.state = some (answer, after))
    (hUnsent : (after.pushes k).headerReceived = false) :
    (after.pushes k).stagingFilePath = none := by
  rcases pushes_exec hExec k with
    hSame | ⟨step, rfl, hChange⟩
  · rw [hSame] at hUnsent ⊢
    exact hInv.paths k hUnsent
  · generalize after.pushes k = next at hChange hUnsent
    cases hChange with
    | winds hWinds =>
        rw [hWinds.headerReceived] at hUnsent
        rw [hWinds.identity.stagingFilePath]
        exact hInv.paths k hUnsent
    | header sent => cases hUnsent
    | chunk data => exact hInv.paths k hUnsent
    | identity sent ticket given =>
        rcases hOwes with ⟨rfl, hReceived, _⟩
        have hFalse :
            (w.state.pushes k).headerReceived = false :=
          hUnsent
        rw [hReceived] at hFalse
        cases hFalse
    | sink => exact hInv.paths k hUnsent

theorem aborted_closed_exec
    (hInv : RemainsInv w)
    (hExec :
      op.exec config choice w.state = some (answer, after))
    (hAborted : (after.pushes k).aborted = true) :
    (after.pushes k).closed = true := by
  rcases TransferOp.exec_pushes hExec with
    hSame | ⟨stream, step, rfl, hPushes⟩
  · rw [hSame] at hAborted ⊢
    exact hInv.aborted k hAborted
  · by_cases hStream : k = stream
    · subst hStream
      rw [(exec_session hExec).2] at hAborted ⊢
      exact
        SessionStep.aborted_run step (hInv.aborted k) hAborted
    · rw [hPushes, Function.update_of_ne hStream]
        at hAborted ⊢
      exact hInv.aborted k hAborted

theorem created_perform
    (hCreated : ∃ job, Created k job w.trace) :
    ∃ job,
      Created k job (w.perform i op answer after).trace := by
  rcases hCreated with ⟨job, event, hEvent, hCreates⟩
  exact ⟨job, event, List.mem_cons_of_mem _ hEvent, hCreates⟩

theorem remainsInv_perform
    (hInv : RemainsInv w)
    (hPush : PushInv config w)
    (hOk : cleanSteps.perform i op w)
    (hOwes : Owes i op w)
    (hExec :
      op.exec config choice w.state = some (answer, after)) :
    RemainsInv (w.perform i op answer after) where
  unique := hInv.unique.cons (by simp)
  sealed_ := fun _ hClosed hNot =>
    sealed_perform hInv hPush hOk.2 hOwes hExec hClosed hNot
  ended := fun _ _ hClosed hNot hSink =>
    ended_sink_perform hInv hOk.2 hOwes hExec hClosed hNot
      hSink
  asked := fun _ _ _ hClosed hNot hSink hPath =>
    asked_perform hInv hOk.2 hOwes hExec hClosed hNot hSink
      hPath
  held := fun _ _ _ hAsked =>
    held_perform hInv hOwes hExec hAsked
  asker := by
    intro j path hRemoved
    rcases removed_cases hRemoved with hOld | ⟨rfl, rfl, _⟩
    · rcases hInv.asker j path hOld with hNas | ⟨k, hAsked⟩
      · exact Or.inl hNas
      · exact Or.inr ⟨k, hAsked.perform⟩
    · rcases hOwes path (List.mem_singleton.mpr rfl) with
        hNas | ⟨_, k, hAsked⟩
      · exact Or.inl hNas
      · exact Or.inr ⟨k, hAsked.perform⟩
  gone := by
    intro j path hRemoved
    rcases removed_cases hRemoved with
      hOld | ⟨rfl, rfl, hAnswer⟩
    · rcases hInv.asker j path hOld with hNas | ⟨k, hAsked⟩
      · exact Or.inl hNas
      · rcases hInv.gone j path hOld with hNas | hGone
        · exact Or.inl hNas
        · exact
            Or.inr
              (gone_perform hInv hPush hOk.1 hOwes hExec hGone
                hAsked)
    · cases eq_of_heq hAnswer
      rcases exec_rm hExec with ⟨_, hGone⟩ | ⟨⟨_, hError⟩, _⟩
      · exact Or.inr hGone
      · cases hError
  finalized := by
    intro k hFinalized
    rcases finalized_cases hFinalized with
      hOld | ⟨_, hClosed, _⟩
    · exact closed_exec hExec (hInv.finalized k hOld)
    · exact hClosed
  aborted := fun _ hAborted =>
    aborted_closed_exec hInv hExec hAborted
  sinks := fun _ _ hSink => sinks_exec hInv hOwes hExec hSink
  paths := fun _ hUnsent => paths_exec hInv hOwes hExec hUnsent
  stopped := by
    intro j messages hEnded hPushes
    rcases hInv.stopped j messages (ended_perform.mp hEnded)
        (pushes_perform.mp hPushes) with hCreated | hClosed
    · exact Or.inl (created_perform hCreated)
    · exact Or.inr (closed_exec hExec hClosed)
  cancelled := by
    intro j k hEnded hCancels
    exact
      closed_exec hExec
        (hInv.cancelled j k (ended_perform.mp hEnded)
          (cancels_perform.mp hCancels))
  ends := by
    refine ⟨?_, hInv.ends⟩
    intro j outcome hEq
    cases hEq

/- An operation that owes nothing keeps the contract. -/
theorem keeps_perform
    (hInv : RemainsInv w)
    (hOk : (cleanSteps.also (PushInv config)).perform i op w)
    (hOwes : Owes i op w)
    (hExec :
      op.exec config choice w.state = some (answer, after)) :
    remainsContract.Keeps i w (w.perform i op answer after) := by
  refine
    ⟨remainsInv_perform hInv hOk.2 hOk.1 hOwes hExec, ?_⟩
  intro k hOther
  refine
    { winds := ?_
      closed := fun _ hClosed => closed_exec hExec hClosed }
  apply winds_of_steps hExec
  rintro step rfl hTakes
  cases step with
  | header sent => exact hOther hOwes
  | chunk data => exact hOther hOwes
  | ticketConsumed sent ticket => exact hOther hOwes.1
  | openSink => exact hOther hOwes.1
  | _ => exact hTakes

section Events

variable {event : TransferEvent}
variable (hTrace : v.trace = event :: w.trace)
variable
  (hEvent :
    ∀ l op answer before later,
      event ≠ .performed l op answer before later)

include hTrace hEvent

theorem finalized_event :
    Finalized k v.trace ↔ Finalized k w.trace := by
  refine PushIntegrity.exists_event_iff hTrace hEvent ?_
  rintro _ ⟨_, _, before, later, rfl, _⟩
  exact ⟨_, _, _, before, later, rfl⟩

theorem asked_event :
    Asked j k path v.trace ↔ Asked j k path w.trace := by
  refine PushIntegrity.exists_event_iff hTrace hEvent ?_
  rintro _ ⟨_, _, before, later, rfl, _⟩
  exact ⟨_, _, _, before, later, rfl⟩

theorem removed_event :
    Removed j path v.trace ↔ Removed j path w.trace := by
  constructor
  · rintro ⟨before, later, hMember⟩
    rw [hTrace] at hMember
    rcases List.mem_cons.mp hMember with hNew | hOld
    · exact absurd hNew.symm (hEvent _ _ _ _ _)
    · exact ⟨before, later, hOld⟩
  · rintro ⟨before, later, hMember⟩
    rw [hTrace]
    exact ⟨before, later, List.mem_cons_of_mem _ hMember⟩

omit hEvent in
theorem created_event
    (hCreated : ∃ job, Created k job w.trace) :
    ∃ job, Created k job v.trace := by
  rcases hCreated with ⟨job, other, hOther, hCreates⟩
  rw [hTrace]
  exact ⟨job, other, List.mem_cons_of_mem _ hOther, hCreates⟩

/- What an event that is no operation has to show. -/
structure Announces
    (event : TransferEvent)
    (w v : TransferWorld) : Prop where
  fresh : ∀ k call, event = .started k call → w.Fresh k
  stopped :
    ∀ j messages, Ended j v.trace →
      Pushes j messages true v.trace →
        (∃ job, Created j job w.trace) ∨
          (w.state.pushes j).closed = true
  cancelled :
    ∀ j k, Ended j v.trace → Cancels j k v.trace →
      (w.state.pushes k).closed = true
  ends : EndsWell event w.trace

theorem remainsInv_event
    (hInv : RemainsInv w)
    (hState : v.state = w.state)
    (hAnnounces : Announces event w v) :
    RemainsInv v where
  unique := by
    rw [hTrace]
    exact hInv.unique.cons hAnnounces.fresh
  sealed_ := by
    intro k hClosed hNot ticketId ticket hActivated hFind
    rw [hState] at hClosed hFind
    exact
      hInv.sealed_ k hClosed
        (fun hOld =>
          hNot ((finalized_event hTrace hEvent).mpr hOld))
        ticketId ticket
        ((PushIntegrity.activated_event hTrace hEvent).mp
          hActivated)
        hFind
  ended := by
    intro k sink hClosed hNot hSink
    rw [hState] at hClosed hSink
    exact
      hInv.ended k sink hClosed
        (fun hOld =>
          hNot ((finalized_event hTrace hEvent).mpr hOld))
        hSink
  asked := by
    intro k sink path hClosed hNot hSink hPath
    rw [hState] at hClosed hSink hPath
    rcases hInv.asked k sink path hClosed
        (fun hOld =>
          hNot ((finalized_event hTrace hEvent).mpr hOld))
        hSink hPath with ⟨j, hAsked, hTask⟩
    refine ⟨j, (asked_event hTrace hEvent).mpr hAsked, ?_⟩
    rcases hTask with hSelf | hError | hCancelled
    · exact Or.inl hSelf
    · right; left
      rw [hTrace]
      exact List.mem_cons_of_mem _ hError
    · right; right
      rw [hTrace]
      exact List.mem_cons_of_mem _ hCancelled
  held := by
    intro j k path hAsked
    rcases hInv.held j k path
        ((asked_event hTrace hEvent).mp hAsked) with
      ⟨hClosed, hPath, hNot⟩
    rw [hState]
    refine ⟨hClosed, hPath, ?_⟩
    intro hFinalized
    exact hNot ((finalized_event hTrace hEvent).mp hFinalized)
  asker := by
    intro j path hRemoved
    rcases hInv.asker j path
        ((removed_event hTrace hEvent).mp hRemoved) with
      hNas | ⟨k, hAsked⟩
    · exact Or.inl hNas
    · exact
        Or.inr ⟨k, (asked_event hTrace hEvent).mpr hAsked⟩
  gone := by
    intro j path hRemoved
    rw [hState]
    exact
      hInv.gone j path
        ((removed_event hTrace hEvent).mp hRemoved)
  finalized := by
    intro k hFinalized
    rw [hState]
    exact
      hInv.finalized k
        ((finalized_event hTrace hEvent).mp hFinalized)
  aborted := by
    rw [hState]
    exact hInv.aborted
  sinks := by
    rw [hState]
    exact hInv.sinks
  paths := by
    rw [hState]
    exact hInv.paths
  stopped := by
    intro j messages hEnded hPushes
    rw [hState]
    rcases hAnnounces.stopped j messages hEnded hPushes with
      hCreated | hClosed
    · exact Or.inl (created_event hTrace hCreated)
    · exact Or.inr hClosed
  cancelled := by
    intro j k hEnded hCancels
    rw [hState]
    exact hAnnounces.cancelled j k hEnded hCancels
  ends := by
    rw [hTrace]
    exact ⟨hAnnounces.ends, hInv.ends⟩

theorem keeps_event
    (hInv : RemainsInv w)
    (hState : v.state = w.state)
    (hAnnounces : Announces event w v) :
    remainsContract.Keeps i w v := by
  refine
    ⟨remainsInv_event hTrace hEvent hInv hState hAnnounces, ?_⟩
  intro k _
  refine { winds := ?_, closed := ?_ }
  · rw [hState]
    exact .refl _
  · rw [hState]
    exact fun _ hClosed => hClosed

end Events

end PushCleanup

end Transfer
