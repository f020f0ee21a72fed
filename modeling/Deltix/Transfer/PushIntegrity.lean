import Deltix.Transfer.PushInvariant
import Deltix.Transfer.StreamOutline

/-
  Integrity of the push streams: a stream gives at most one
  job, and only if its end was processed before anything
  disturbed it; the checksum, the byte count and the staged
  file are those of the chunks that follow its header; and
  a ticket gives at most one job over all streams.

  The random names of the staging files are assumed to be
  different.

  Key definitions include:
    * `Sending`
    * `integrityOutline`

  Key theorems include:
    * `consume_safe`
    * `serveCall_safe`
    * `push_integrity`
-/

------------------------------------------------------------
-- Assertions Of A Stream
------------------------------------------------------------

namespace Transfer

namespace PushIntegrity

open Auth Concurrency Relational Storage NasPaths

/- A stream that has not begun to finish, and has taken in
   the messages processed so far. -/
structure Sending
    (i : Nat)
    (messages : List PushMessage)
    (ends : Bool)
    (done : List PushMessage)
    (w : TransferWorld) : Prop where
  pushes : Pushes i messages ends w.trace
  intact : Intact done (w.state.pushes i)
  unfinished : ∀ started, ¬ Began i started w.trace

/- A stream that was aborted takes nothing in. -/
structure Stopped
    (i : Nat)
    (messages : List PushMessage)
    (ends : Bool)
    (w : TransferWorld) : Prop where
  pushes : Pushes i messages ends w.trace
  aborted : (w.state.pushes i).aborted = true

/- Before the next message. -/
def Idle
    (i : Nat)
    (messages : List PushMessage)
    (ends : Bool)
    (done : List PushMessage)
    (w : TransferWorld) : Prop :=
  Stopped i messages ends w ∨
    (Sending i messages ends done w ∧
      ((w.state.pushes i).headerReceived = false →
        (w.state.pushes i).stagingFilePath = none))

/- After the header, before its ticket is consumed. -/
structure Consuming
    (i : Nat)
    (messages : List PushMessage)
    (ends : Bool)
    (done : List PushMessage)
    (w : TransferWorld) : Prop
    extends Sending i messages ends done w where
  path : (w.state.pushes i).stagingFilePath = none
  hashed : (w.state.pushes i).hashed = []
  received : done.any PushMessage.isHeader = true

/- The ticket is activated. -/
structure Activating
    (i : Nat)
    (messages : List PushMessage)
    (ends : Bool)
    (done : List PushMessage)
    (header : PushHeader)
    (w : TransferWorld) : Prop
    extends Consuming i messages ends done w where
  activated : Activated i header.ticketId w.trace

/- The ticket is consumed, and the sink is not open yet. -/
structure Opening
    (i : Nat)
    (messages : List PushMessage)
    (ends : Bool)
    (done : List PushMessage)
    (w : TransferWorld) : Prop
    extends Sending i messages ends done w where
  consumed : ∃ header, Consumed i header w.trace
  hashed : (w.state.pushes i).hashed = []
  received : done.any PushMessage.isHeader = true

/- A stream that is aborted: its file may be removed. -/
structure Aborting
    (i : Nat)
    (messages : List PushMessage)
    (ends : Bool)
    (removal : Removal)
    (w : TransferWorld) : Prop
    extends Stopped i messages ends w where
  doomed : ∀ path, removal = some path → Doomed path w

/- `finish` has begun, and no job is created. -/
structure Finishing
    (i : Nat)
    (messages : List PushMessage)
    (ends : Bool)
    (started : PushFinish)
    (w : TransferWorld) : Prop where
  pushes : Pushes i messages ends w.trace
  began : Began i started w.trace
  none : ∀ job, ¬ Created i job w.trace

structure Finished
    (i : Nat)
    (messages : List PushMessage)
    (ends : Bool)
    (started : PushFinish)
    (job : TransferJob)
    (w : TransferWorld) : Prop where
  pushes : Pushes i messages ends w.trace
  began : Began i started w.trace
  created : Created i job w.trace

------------------------------------------------------------
-- What The Other Tasks Leave
------------------------------------------------------------

variable {config : TransferConfig} {w v : TransferWorld}
variable {i : Nat} {messages done : List PushMessage}
variable {ends : Bool}

section Growth

variable (hGrows : World.Grows i w v)
variable {started : PushFinish} {job : TransferJob}

include hGrows

theorem Pushes.grows
    (hPushes : Pushes i messages ends w.trace) :
    Pushes i messages ends v.trace :=
  hGrows.mem hPushes

theorem Began.grows
    (hBegan : Began i started w.trace) :
    Began i started v.trace := by
  rcases hBegan with ⟨event, hEvent, hBegins⟩
  exact ⟨event, hGrows.mem hEvent, hBegins⟩

theorem Began.back
    (hBegan : Began i started v.trace) :
    Began i started w.trace := by
  rcases hBegan with ⟨_, hEvent, before, after, rfl⟩
  exact ⟨_, hGrows.mem_own rfl hEvent, before, after, rfl⟩

theorem Created.grows
    (hCreated : Created i job w.trace) :
    Created i job v.trace := by
  rcases hCreated with ⟨event, hEvent, hCreates⟩
  exact ⟨event, hGrows.mem hEvent, hCreates⟩

theorem Created.back
    (hCreated : Created i job v.trace) :
    Created i job w.trace := by
  rcases hCreated with ⟨_, hEvent, before, after, rfl⟩
  exact ⟨_, hGrows.mem_own rfl hEvent, before, after, rfl⟩

theorem Consumed.grows
    {header : PushHeader}
    (hConsumed : Consumed i header w.trace) :
    Consumed i header v.trace := by
  rcases hConsumed with ⟨event, hEvent, hConsumes⟩
  exact ⟨event, hGrows.mem hEvent, hConsumes⟩

theorem Activated.grows
    {ticketId : String}
    (hActivated : Activated i ticketId w.trace) :
    Activated i ticketId v.trace := by
  rcases hActivated with ⟨event, hEvent, hActivates⟩
  exact ⟨event, hGrows.mem hEvent, hActivates⟩

end Growth

section Interference

variable
  (hInterferes : (pushContract config).Interferes i w v)

include hInterferes

theorem Sending.interferes
    (hSending : Sending i messages ends done w) :
    Sending i messages ends done v where
  pushes := hSending.pushes.grows hInterferes.1
  intact := hInterferes.2.winds.intact hSending.intact
  unfinished := fun started hBegan =>
    hSending.unfinished started (hBegan.back hInterferes.1)

theorem Stopped.interferes
    (hStopped : Stopped i messages ends w) :
    Stopped i messages ends v where
  pushes := hStopped.pushes.grows hInterferes.1
  aborted := hInterferes.2.winds.aborted hStopped.aborted

theorem Consuming.interferes
    (hConsuming : Consuming i messages ends done w) :
    Consuming i messages ends done v where
  toSending := hConsuming.toSending.interferes hInterferes
  path :=
    hInterferes.2.winds.identity.stagingFilePath.trans
      hConsuming.path
  hashed :=
    hInterferes.2.winds.hashed.trans hConsuming.hashed
  received := hConsuming.received

end Interference

theorem stable_pushes :
    (pushContract config).Stable i fun v =>
      Pushes i messages ends v.trace :=
  fun _ _ hPushes hInterferes _ =>
    hPushes.grows hInterferes.1

theorem stable_stopped :
    (pushContract config).Stable i
      (Stopped i messages ends) :=
  fun _ _ hStopped hInterferes _ =>
    hStopped.interferes hInterferes

theorem stable_idle :
    (pushContract config).Stable i
      (Idle i messages ends done) := by
  intro w v hIdle hInterferes _
  have hWinds := hInterferes.2.winds
  rcases hIdle with hStopped | ⟨hSending, hPath⟩
  · exact Or.inl (hStopped.interferes hInterferes)
  · refine Or.inr ⟨hSending.interferes hInterferes, ?_⟩
    rw [hWinds.headerReceived,
      hWinds.identity.stagingFilePath]
    exact hPath

theorem stable_consuming :
    (pushContract config).Stable i
      (Consuming i messages ends done) :=
  fun _ _ hConsuming hInterferes _ =>
    hConsuming.interferes hInterferes

theorem stable_activating
    {header : PushHeader} :
    (pushContract config).Stable i
      (Activating i messages ends done header) :=
  fun _ _ hActivating hInterferes _ =>
    { toConsuming :=
        hActivating.toConsuming.interferes hInterferes
      activated :=
        hActivating.activated.grows hInterferes.1 }

theorem stable_opening :
    (pushContract config).Stable i
      (Opening i messages ends done) := by
  intro w v hOpening hInterferes _
  rcases hOpening.consumed with ⟨header, hConsumed⟩
  exact
    { toSending := hOpening.toSending.interferes hInterferes
      consumed := ⟨header, hConsumed.grows hInterferes.1⟩
      hashed :=
        hInterferes.2.winds.hashed.trans hOpening.hashed
      received := hOpening.received }

theorem stable_aborting
    {removal : Removal} :
    (pushContract config).Stable i
      (Aborting i messages ends removal) :=
  fun _ _ hAborting hInterferes _ =>
    { toStopped := hAborting.toStopped.interferes hInterferes
      doomed := fun path hRemoval =>
        hInterferes.2.doomed path
          (hAborting.doomed path hRemoval) }

theorem stable_finishing
    {started : PushFinish} :
    (pushContract config).Stable i
      (Finishing i messages ends started) :=
  fun _ _ hFinishing hInterferes _ =>
    { pushes := hFinishing.pushes.grows hInterferes.1
      began := hFinishing.began.grows hInterferes.1
      none := fun job hCreated =>
        hFinishing.none job (hCreated.back hInterferes.1) }

theorem stable_finished
    {started : PushFinish}
    {job : TransferJob} :
    (pushContract config).Stable i
      (Finished i messages ends started job) :=
  fun _ _ hFinished hInterferes _ =>
    { pushes := hFinished.pushes.grows hInterferes.1
      began := hFinished.began.grows hInterferes.1
      created := hFinished.created.grows hInterferes.1 }

------------------------------------------------------------
-- Consumption
------------------------------------------------------------

variable {config : TransferConfig} {op : TransferOp}
variable {choice : TransferChoice} {answer : op.Answer}
variable {after : TransferState}
variable {w v : TransferWorld} {i : Nat}
variable {messages done : List PushMessage} {ends : Bool}
variable {header : PushHeader}

/- An operation that owes nothing moves on to what holds
   after it. -/
theorem moves_of_owes
    {J : TransferWorld → Prop}
    {post : op.Answer → TransferWorld → Prop}
    (hOwes : ∀ v, J v → PushInv config v → Owes config i op v)
    (hPost :
      ∀ v choice answer after, J v → PushInv config v →
        op.exec config choice v.state = some (answer, after) →
          post answer (v.perform i op answer after)) :
    Moves config (pushContract config) namesUnique i op J
      post := by
  intro v hHere hInv hOk choice answer after hExec
  exact
    ⟨keeps_perform hInv hOk (hOwes v hHere hInv) hExec,
      hPost v choice answer after hHere hInv hExec⟩

theorem owes_background
    (hBackground : Background op) :
    Owes config i op w := by
  cases op with
  | files statement =>
      intro path hPath
      exact Or.inl (hBackground path hPath)
  | jobs statement =>
      cases statement with
      | create job => exact hBackground.elim
      | _ => trivial
  | session stream step => exact hBackground.elim
  | _ => trivial

/- Only its own steps change a stream, and only `finalize`
   begins to finish. -/
theorem Sending.perform
    (hSending : Sending i messages ends done w)
    (hExec :
      op.exec config choice w.state = some (answer, after))
    (hOp : ∀ step, op ≠ .session i step) :
    after.pushes i = w.state.pushes i ∧
      Sending i messages ends done
        (w.perform i op answer after) := by
  have hSame : after.pushes i = w.state.pushes i := by
    rcases pushes_exec hExec i with hSame | ⟨step, hStep, _⟩
    · exact hSame
    · exact absurd hStep (hOp step)
  refine ⟨hSame, ?_, ?_, ?_⟩
  · exact pushes_perform.mpr hSending.pushes
  · rw [World.perform_state, hSame]
    exact hSending.intact
  · intro started hBegan
    rcases began_perform hBegan with hOld | ⟨_, hStep, _⟩
    · exact hSending.unfinished started hOld
    · exact hOp _ hStep

theorem Consuming.perform
    (hConsuming : Consuming i messages ends done w)
    (hExec :
      op.exec config choice w.state = some (answer, after))
    (hOp : ∀ step, op ≠ .session i step) :
    Consuming i messages ends done
      (w.perform i op answer after) := by
  have hKept := hConsuming.toSending.perform hExec hOp
  refine ⟨hKept.2, ?_, ?_, hConsuming.received⟩
  · rw [World.perform_state, hKept.1]
    exact hConsuming.path
  · rw [World.perform_state, hKept.1]
    exact hConsuming.hashed

theorem moves_consuming
    (op : TransferOp)
    (hTame : Tame op) :
    Moves config (pushContract config) namesUnique i op
      (Consuming i messages ends done)
      fun _ => Consuming i messages ends done := by
  refine
    moves_of_owes
      (fun _ _ _ => owes_background (background_of_tame hTame))
      ?_
  intro v choice answer after hConsuming _ hExec
  apply hConsuming.perform hExec
  rintro step rfl
  exact hTame

theorem moves_activate
    {operation repo : String}
    {current : Nat} :
    Moves config (pushContract config) namesUnique i
      (.tickets
        (.activate header.ticketId operation repo current))
      (Consuming i messages ends done)
      (Answers
        (fun activated v =>
          Consuming i messages ends done v ∧
            (activated = true →
              Activating i messages ends done header v))
        fun v => Pushes i messages ends v.trace) := by
  refine moves_of_owes (fun _ _ _ => trivial) ?_
  intro v choice answer after hConsuming _ hExec
  have hKept := hConsuming.perform hExec (by simp)
  cases answer with
  | error error => exact hKept.pushes
  | ok activated =>
      refine ⟨hKept, ?_⟩
      rintro rfl
      exact
        ⟨hKept, _, List.mem_cons_self, operation, repo, current,
          v.state, after, rfl⟩

theorem moves_activating
    (op : TransferOp)
    (hTame : Tame op) :
    Moves config (pushContract config) namesUnique i op
      (Activating i messages ends done header)
      fun _ => Activating i messages ends done header := by
  refine
    moves_of_owes
      (fun _ _ _ => owes_background (background_of_tame hTame))
      ?_
  intro v choice answer after hActivating _ hExec
  refine ⟨?_, hActivating.activated.perform⟩
  apply hActivating.toConsuming.perform hExec
  rintro step rfl
  exact hTame

/- A ticket that is consumed was activated. -/
theorem consume_safe
    (hConsuming : Consuming i messages ends done w) :
    SafeProgram config (pushContract config) namesUnique i
      (consumeTicket header.ticketId header.operation
        header.repo)
      (fun _ => Activating i messages ends done header)
      (fun v => Pushes i messages ends v.trace) w := by
  refine Contract.safe_bind ?_
  refine Contract.safe_mono ?_ (fun _ _ h => h)
    ((moves_consuming .now trivial).safe stable_consuming
      hConsuming)
  intro current v hConsuming
  refine Contract.safe_bind ?_
  refine Contract.safe_mono ?_ (fun _ _ h => h.pushes)
    (safe_of_only (tame_preCheck _ _ _) moves_consuming
      stable_consuming hConsuming)
  intro _ v hConsuming
  refine Contract.safe_bind ?_
  refine Contract.safe_mono ?_ (fun _ _ h => h)
    (tickets_safe moves_activate stable_consuming hConsuming)
  rintro activated v ⟨hConsuming, hActivated⟩
  refine Contract.safe_bind ?_
  cases activated with
  | false =>
      refine Contract.safe_mono ?_ (fun _ _ h => h.pushes)
        (safe_of_only (tame_tickets _) moves_consuming
          stable_consuming hConsuming)
      intro found u hConsuming
      cases found with
      | none => exact hConsuming.pushes
      | some ticket => exact hConsuming.pushes
  | true =>
      refine Contract.safe_mono ?_ (fun _ _ h => h.pushes)
        (safe_of_only (tame_tickets _) moves_activating
          stable_activating (hActivated rfl))
      intro found u hActivating
      cases found with
      | none => exact hActivating.pushes
      | some ticket => exact hActivating

------------------------------------------------------------
-- Messages
------------------------------------------------------------

variable {k : Nat}
variable {step : SessionStep}

/- A file that a step wants removed is doomed. -/
theorem doomed_of_removal
    {answer : step.Answer}
    {path : String}
    (hInv : PushInv config w)
    (hOwes : Owes config i (.session k step) w)
    (hExec :
      (TransferOp.session k step).exec config choice w.state =
        some (answer, after))
    (hRemoval : step.removal answer = some path) :
    Doomed path
      (w.perform i (.session k step) answer after) := by
  rcases closes_exec hExec hRemoval with
    ⟨hOpen, hShut, hPath⟩
  refine
    ⟨k, path_exec (fun _ _ => owes_first hOwes) hExec hPath,
      hShut, ?_⟩
  · intro started hBegan
    rcases began_perform hBegan with hOld | ⟨_, hStep, hReply⟩
    · have hClosed := (hInv.committed k started hOld).closed
      rw [hOpen] at hClosed
      cases hClosed
    · cases hStep
      cases eq_of_heq hReply
      cases hRemoval

/- An aborted stream is stopped, and its file doomed. -/
theorem aborting_perform
    {answer : step.Answer}
    {removal : Removal}
    (hPushes : Pushes i messages ends w.trace)
    (hInv : PushInv config w)
    (hOwes : Owes config i (.session i step) w)
    (hExec :
      (TransferOp.session i step).exec config choice w.state =
        some (answer, after))
    (hAborted : (after.pushes i).aborted = true)
    (hRemoval : step.removal answer = removal) :
    Aborting i messages ends removal
      (w.perform i (.session i step) answer after) where
  pushes := pushes_perform.mpr hPushes
  aborted := hAborted
  doomed := by
    intro path hPath
    exact
      doomed_of_removal hInv hOwes hExec
        (hRemoval.trans hPath)

theorem Idle.pushes
    (hIdle : Idle i messages ends done w) :
    Pushes i messages ends w.trace := by
  rcases hIdle with hStopped | ⟨hSending, _⟩
  · exact hStopped.pushes
  · exact hSending.pushes

theorem Idle.sending
    (hIdle : Idle i messages ends done w)
    (hAborted : (w.state.pushes i).aborted = false) :
    Sending i messages ends done w ∧
      ((w.state.pushes i).headerReceived = false →
        (w.state.pushes i).stagingFilePath = none) := by
  rcases hIdle with hStopped | hSending
  · rw [hStopped.aborted] at hAborted
    cases hAborted
  · exact hSending

theorem Idle.intact
    (hIdle : Idle i messages ends done w) :
    (w.state.pushes i).aborted = true ∨
      Intact done (w.state.pushes i) := by
  rcases hIdle with hStopped | ⟨hSending, _⟩
  · exact Or.inl hStopped.aborted
  · exact Or.inr hSending.intact

/- What a message leaves, by its answer. -/
def Took
    (i : Nat)
    (messages : List PushMessage)
    (ends : Bool)
    (done : List PushMessage)
    (message : PushMessage)
    (received : Received)
    (v : TransferWorld) : Prop :=
  match received with
  | .ignored => Idle i messages ends (done ++ [message]) v
  | .accepted => Idle i messages ends (done ++ [message]) v
  | .aborting _ removal => Aborting i messages ends removal v
  | .rejected _ => Pushes i messages ends v.trace
  | .failed => Pushes i messages ends v.trace
  | .consuming _ =>
      Consuming i messages ends (done ++ [message]) v

/- The stream has not begun to finish by a message. -/
theorem unfinished_perform
    {answer : step.Answer}
    (hStep : step ≠ .finalize)
    (hUnfinished : ∀ started, ¬ Began i started w.trace)
    (started : PushFinish) :
    ¬ Began i started
      (w.perform k (.session i step) answer after).trace := by
  intro hBegan
  rcases began_perform hBegan with hOld | ⟨_, hEq, _⟩
  · exact hUnfinished started hOld
  · cases hEq
    exact hStep rfl

theorem moves_header
    (sent : PushHeader) :
    Moves config (pushContract config) namesUnique i
      (.session i (.header sent))
      (Idle i messages ends done)
      (Took i messages ends done (.header sent)) := by
  refine moves_of_owes (fun _ _ _ => rfl) ?_
  intro v choice answer after hIdle hInv hExec
  have hSession := exec_session hExec
  have hAnswer :
      ((v.state.pushes i).processHeader sent).1 = answer :=
    hSession.1
  have hNext :
      after.pushes i =
        ((v.state.pushes i).processHeader sent).2 :=
    hSession.2
  have hPushes :
      Pushes i messages ends
        (v.perform i (.session i (.header sent)) answer
          after).trace :=
    pushes_perform.mpr hIdle.pushes
  rcases (v.state.pushes i).processHeader_cases sent with
    ⟨hAborted, hEq⟩ | ⟨status, removal, next, hEq, hWinds⟩ |
      ⟨hAborted, hUnsent, hEq, hEnds⟩
  · rw [hEq] at hAnswer hNext
    subst hAnswer
    refine Or.inl ⟨hPushes, ?_⟩
    rw [World.perform_state, hNext]
    exact hAborted
  · rw [hEq] at hAnswer hNext
    subst hAnswer
    exact
      aborting_perform hIdle.pushes hInv rfl hExec
        (by rw [hNext]; exact hWinds.2.1) rfl
  · rcases hEnds with hEnds | ⟨reason, hEnds⟩
    · rw [hEnds] at hAnswer
      subst hAnswer
      rcases hIdle.sending hAborted with ⟨hSending, hPath⟩
      have hIntact := hSending.intact.with_header hUnsent sent
      refine ⟨⟨hPushes, ?_, ?_⟩, ?_, ?_, ?_⟩
      · rw [World.perform_state, hNext, hEq]
        exact hIntact.2
      · exact unfinished_perform (by simp) hSending.unfinished
      · rw [World.perform_state, hNext, hEq]
        exact hPath hUnsent
      · rw [World.perform_state, hNext, hEq]
        exact hIntact.1
      · simp [PushMessage.isHeader]
    · rw [hEnds] at hAnswer
      subst hAnswer
      exact hPushes

theorem moves_chunk
    (data : Content)
    (hPrefix : done ++ [.chunk data] <+: messages) :
    Moves config (pushContract config) namesUnique i
      (.session i (.chunk data))
      (Idle i messages ends done)
      (Took i messages ends done (.chunk data)) := by
  have hOwes :
      ∀ v, Idle i messages ends done v →
        Owes config i (.session i (.chunk data)) v :=
    fun v hIdle =>
      ⟨rfl, done, messages, ends, hIdle.pushes, hPrefix,
        hIdle.intact⟩
  refine moves_of_owes (fun v hIdle _ => hOwes v hIdle) ?_
  intro v choice answer after hIdle hInv hExec
  have hSession := exec_session hExec
  have hAnswer :
      ((v.state.pushes i).processChunk choice.fails data).1 =
        answer :=
    hSession.1
  have hNext :
      after.pushes i =
        ((v.state.pushes i).processChunk choice.fails data).2 :=
    hSession.2
  have hPushes :
      Pushes i messages ends
        (v.perform i (.session i (.chunk data)) answer
          after).trace :=
    pushes_perform.mpr hIdle.pushes
  rcases
      (v.state.pushes i).processChunk_cases choice.fails
        data with
    ⟨hAborted, hEq⟩ | ⟨status, removal, next, hEq, hWinds⟩ |
      ⟨_, hEnds⟩ | ⟨hAborted, hReceived, sink, hSink, hEq⟩
  · rw [hEq] at hAnswer hNext
    subst hAnswer
    refine Or.inl ⟨hPushes, ?_⟩
    rw [World.perform_state, hNext]
    exact hAborted
  · rw [hEq] at hAnswer hNext
    subst hAnswer
    exact
      aborting_perform hIdle.pushes hInv (hOwes v hIdle) hExec
        (by rw [hNext]; exact hWinds.2.1) rfl
  · rcases hEnds with ⟨reason, hEnds⟩ | hEnds
    · rw [hEnds] at hAnswer
      subst hAnswer
      exact hPushes
    · rw [hEnds] at hAnswer
      subst hAnswer
      exact hPushes
  · rw [hEq] at hAnswer hNext
    subst hAnswer
    have hSending := (hIdle.sending hAborted).1
    refine Or.inr ⟨⟨hPushes, ?_, ?_⟩, ?_⟩
    · rw [World.perform_state, hNext]
      exact hSending.intact.with_chunk hReceived hSink data
    · exact unfinished_perform (by simp) hSending.unfinished
    · intro hUnsent
      rw [World.perform_state, hNext] at hUnsent
      rw [hReceived] at hUnsent
      cases hUnsent

theorem moves_empty :
    Moves config (pushContract config) namesUnique i
      (.session i .empty)
      (Idle i messages ends done)
      (Took i messages ends done .empty) := by
  refine moves_of_owes (fun _ _ _ => trivial) ?_
  intro v choice answer after hIdle _ hExec
  have hSession := exec_session hExec
  have hAnswer : Received.ignored = answer := hSession.1
  have hNext : after.pushes i = v.state.pushes i :=
    hSession.2
  subst hAnswer
  rcases hIdle with hStopped | ⟨hSending, hPath⟩
  · refine Or.inl ⟨pushes_perform.mpr hStopped.pushes, ?_⟩
    rw [World.perform_state, hNext]
    exact hStopped.aborted
  · refine
      Or.inr
        ⟨⟨pushes_perform.mpr hSending.pushes, ?_, ?_⟩, ?_⟩
    · rw [World.perform_state, hNext]
      exact hSending.intact.with_empty
    · exact unfinished_perform (by simp) hSending.unfinished
    · rw [World.perform_state, hNext]
      exact hPath

theorem receive_safe
    {message : PushMessage}
    (hPrefix : done ++ [message] <+: messages)
    (hIdle : Idle i messages ends done w) :
    SafeProgram config (pushContract config) namesUnique i
      (receive i message)
      (Took i messages ends done message)
      (fun v => Pushes i messages ends v.trace) w := by
  cases message with
  | header sent =>
      exact (moves_header sent).safe stable_idle hIdle
  | chunk data =>
      exact (moves_chunk data hPrefix).safe stable_idle hIdle
  | empty => exact moves_empty.safe stable_idle hIdle

------------------------------------------------------------
-- The Other Steps Of A Stream
------------------------------------------------------------

variable {ticket : Ticket} {started : PushFinish}
variable {job : TransferJob}

theorem moves_ticketConsumed :
    Moves config (pushContract config) namesUnique i
      (.session i (.ticketConsumed header ticket))
      (Activating i messages ends done header)
      fun _ => Opening i messages ends done := by
  refine
    moves_of_owes
      (fun v hActivating _ =>
        ⟨rfl, hActivating.activated, hActivating.path⟩)
      ?_
  intro v choice answer after hActivating _ hExec
  have hNext := (exec_session hExec).2
  have hIntact := hActivating.intact
  refine
    { pushes := pushes_perform.mpr hActivating.pushes
      intact := ?_
      unfinished :=
        unfinished_perform (by simp) hActivating.unfinished
      consumed :=
        ⟨header, _, List.mem_cons_self, ticket, answer, v.state,
          after, rfl⟩
      hashed := ?_
      received := hActivating.received }
  · rw [World.perform_state, hNext]
    exact
      ⟨hIntact.hashed, hIntact.bytes, hIntact.sink,
        hIntact.header⟩
  · rw [World.perform_state, hNext]
    exact hActivating.hashed

theorem moves_mkdir
    (path : String) :
    Moves config (pushContract config) namesUnique i
      (.files (.mkdir path))
      (Opening i messages ends done)
      (Answers (fun _ => Opening i messages ends done)
        fun v => Pushes i messages ends v.trace) := by
  refine
    moves_of_owes
      (fun _ _ _ => owes_background
        (by simp [Background, FileStatement.writes]))
      ?_
  intro v choice answer after hOpening _ hExec
  have hKept := hOpening.toSending.perform hExec (by simp)
  rcases hOpening.consumed with ⟨header, hConsumed⟩
  cases answer with
  | error error => exact hKept.2.pushes
  | ok value =>
      refine
        { toSending := hKept.2
          consumed := ⟨header, hConsumed.perform⟩
          hashed := ?_
          received := hOpening.received }
      rw [World.perform_state, hKept.1]
      exact hOpening.hashed

/- The new sink has taken in what the session has: nothing. -/
theorem moves_openSink :
    Moves config (pushContract config) namesUnique i
      (.session i .openSink)
      (Opening i messages ends done)
      fun _ => Idle i messages ends done := by
  refine
    moves_of_owes
      (fun v hOpening _ =>
        ⟨rfl, hOpening.unfinished, hOpening.consumed⟩)
      ?_
  intro v choice answer after hOpening _ hExec
  have hNext := (exec_session hExec).2
  have hIntact := hOpening.intact
  refine Or.inr ⟨⟨?_, ?_, ?_⟩, ?_⟩
  · exact pushes_perform.mpr hOpening.pushes
  · rw [World.perform_state, hNext]
    refine ⟨hIntact.hashed, hIntact.bytes, ?_, hIntact.header⟩
    intro sink hSink _
    simp only [SessionStep.run, Option.some.injEq] at hSink ⊢
    subst hSink
    exact hOpening.hashed.symm
  · exact unfinished_perform (by simp) hOpening.unfinished
  · intro hUnsent
    rw [World.perform_state, hNext] at hUnsent
    have hReceived := hIntact.header
    rw [hOpening.received] at hReceived
    rw [show (v.state.pushes i).headerReceived = false from
      hUnsent] at hReceived
    cases hReceived

theorem moves_markAborted
    (status : GrpcStatus) :
    Moves config (pushContract config) namesUnique i
      (.session i (.markAborted status))
      (fun v => Pushes i messages ends v.trace)
      fun answer v =>
        match answer with
        | .already => Stopped i messages ends v
        | .aborting removal =>
            Aborting i messages ends removal v := by
  refine moves_of_owes (fun _ _ _ => trivial) ?_
  intro v choice answer after hPushes hInv hExec
  have hSession := exec_session hExec
  have hAnswer :
      ((v.state.pushes i).markAborted status).1 = answer :=
    hSession.1
  have hNext :
      after.pushes i =
        ((v.state.pushes i).markAborted status).2 :=
    hSession.2
  rcases (v.state.pushes i).markAborted_cases status with
    ⟨hAborted, hEq⟩ | ⟨_, removal, next, hEq, hWinds⟩
  · rw [hEq] at hAnswer hNext
    subst hAnswer
    refine ⟨pushes_perform.mpr hPushes, ?_⟩
    rw [World.perform_state, hNext]
    exact hAborted
  · rw [hEq] at hAnswer hNext
    subst hAnswer
    exact
      aborting_perform hPushes hInv trivial hExec
        (by rw [hNext]; exact hWinds.2.1) rfl

theorem Stopped.perform
    (hStopped : Stopped i messages ends w)
    (hExec :
      op.exec config choice w.state = some (answer, after)) :
    Stopped i messages ends (w.perform i op answer after) where
  pushes := pushes_perform.mpr hStopped.pushes
  aborted := aborted_exec hExec hStopped.aborted

theorem moves_rm
    (path : String) :
    Moves config (pushContract config) namesUnique i
      (.files (.rm path))
      (Aborting i messages ends (some path))
      (Answers (fun _ => Stopped i messages ends)
        fun v => Pushes i messages ends v.trace) := by
  refine moves_of_owes ?_ ?_
  · intro v hAborting _ other hOther
    rw [FileStatement.writes, List.mem_singleton] at hOther
    subst hOther
    exact Or.inr (hAborting.doomed _ rfl)
  · intro v choice answer after hAborting _ hExec
    have hStopped := hAborting.toStopped.perform hExec
    cases answer with
    | error error => exact hStopped.pushes
    | ok value => exact hStopped

theorem moves_isEnded :
    Moves config (pushContract config) namesUnique i
      (.session i .isEnded) (Stopped i messages ends)
      fun _ => Stopped i messages ends := by
  refine moves_of_owes (fun _ _ _ => trivial) ?_
  intro v choice answer after hStopped _ hExec
  exact hStopped.perform hExec

------------------------------------------------------------
-- The End Of A Stream
------------------------------------------------------------

/- A stream that has not begun to finish has no job. -/
theorem began_of_created
    (hInv : PushInv config w)
    (hCreated : Created i job w.trace) :
    ∃ started, Began i started w.trace := by
  rcases hCreated with ⟨event, hEvent, hCreates⟩
  rcases List.append_of_mem hEvent with ⟨newer, older, hTrace⟩
  rcases throughout_iff.mp hInv.created newer event older
      hTrace i job hCreates with
    ⟨_, started, ⟨other, hOther, hBegins⟩, _⟩
  refine ⟨started, other, ?_, hBegins⟩
  rw [hTrace]
  exact
    List.mem_append_right _ (List.mem_cons_of_mem _ hOther)

theorem moves_finalize
    (hEnds : ends = true) :
    Moves config (pushContract config) namesUnique i
      (.session i .finalize) (Idle i messages ends messages)
      fun answer v =>
        match answer with
        | .answered _ => Stopped i messages ends v
        | .aborting _ removal =>
            Aborting i messages ends removal v
        | .rejected _ => Pushes i messages ends v.trace
        | .finishing started =>
            Finishing i messages ends started v := by
  subst hEnds
  have hOwes :
      ∀ v, Idle i messages true messages v →
        Owes config i (.session i .finalize) v :=
    fun v hIdle => ⟨rfl, messages, hIdle.pushes, hIdle.intact⟩
  refine moves_of_owes (fun v hIdle _ => hOwes v hIdle) ?_
  intro v choice answer after hIdle hInv hExec
  have hSession := exec_session hExec
  have hAnswer :
      ((v.state.pushes i).finalizeStream v.state.clock
          choice.fails).1 =
        answer :=
    hSession.1
  have hNext :
      after.pushes i =
        ((v.state.pushes i).finalizeStream v.state.clock
          choice.fails).2 :=
    hSession.2
  have hPushes :
      Pushes i messages true
        (v.perform i (.session i .finalize) answer
          after).trace :=
    pushes_perform.mpr hIdle.pushes
  rcases
      ((v.state.pushes i).finalizeStream_cases
        v.state.clock choice.fails).2 with
    ⟨hAborted, _, hEq⟩ | ⟨_, _, hEq, hAborted, _⟩ |
      ⟨_, hEq⟩ | ⟨hAborted, _, started, _, hEq, _⟩
  · rw [hEq] at hAnswer
    subst hAnswer
    exact ⟨hPushes, aborted_exec hExec hAborted⟩
  · rw [hEq] at hAnswer
    subst hAnswer
    exact
      aborting_perform hIdle.pushes hInv (hOwes v hIdle) hExec
        (by rw [hNext]; exact hAborted) rfl
  · rw [hEq] at hAnswer
    subst hAnswer
    exact hPushes
  · rw [hEq] at hAnswer
    subst hAnswer
    refine
      ⟨hPushes, ⟨_, List.mem_cons_self, v.state, after, rfl⟩,
        ?_⟩
    rintro job ⟨event, hEvent, hCreates⟩
    rcases List.mem_cons.mp hEvent with rfl | hOld
    · rcases hCreates with ⟨_, _, hCreate⟩
      cases hCreate
    · rcases began_of_created hInv ⟨event, hOld, hCreates⟩ with
        ⟨other, hBegan⟩
      exact (hIdle.sending hAborted).1.unfinished other hBegan

/- Only a creation creates a job. -/
theorem Finishing.perform
    (hFinishing : Finishing i messages ends started w)
    (hOp : ∀ job, op ≠ .jobs (.create job)) :
    Finishing i messages ends started
      (w.perform i op answer after) where
  pushes := pushes_perform.mpr hFinishing.pushes
  began := hFinishing.began.perform
  none := by
    rintro job ⟨event, hEvent, hCreates⟩
    rcases List.mem_cons.mp hEvent with rfl | hOld
    · rcases hCreates with ⟨_, _, hEq⟩
      cases hEq
      exact hOp job rfl
    · exact hFinishing.none job ⟨event, hOld, hCreates⟩

theorem moves_finishing
    (op : TransferOp)
    (hBackground : Background op) :
    Moves config (pushContract config) namesUnique i op
      (Finishing i messages ends started)
      fun _ => Finishing i messages ends started := by
  refine moves_of_owes (fun _ _ _ => owes_background hBackground)
    ?_
  intro v choice answer after hFinishing _ _
  apply hFinishing.perform
  rintro job rfl
  exact hBackground

theorem Finished.perform
    (hFinished : Finished i messages ends started job w) :
    Finished i messages ends started job
      (w.perform i op answer after) where
  pushes := pushes_perform.mpr hFinished.pushes
  began := hFinished.began.perform
  created := by
    rcases hFinished.created with ⟨event, hEvent, hCreates⟩
    exact ⟨event, List.mem_cons_of_mem _ hEvent, hCreates⟩

theorem moves_finished
    (op : TransferOp)
    (hBackground : Background op) :
    Moves config (pushContract config) namesUnique i op
      (Finished i messages ends started job)
      fun _ => Finished i messages ends started job := by
  refine moves_of_owes (fun _ _ _ => owes_background hBackground)
    ?_
  intro v choice answer after hFinished _ _
  exact hFinished.perform

theorem moves_create
    {jobId : String}
    {preparation : PushPreparation}
    (hPath : preparation.stagingPath = started.stagingPath) :
    Moves config (pushContract config) namesUnique i
      (.jobs
        (.create (stagedJob config jobId started preparation)))
      (Finishing i messages ends started)
      (Answers
        (fun _ =>
          Finished i messages ends started
            (stagedJob config jobId started preparation))
        fun v => Pushes i messages ends v.trace) := by
  refine moves_of_owes ?_ ?_
  · intro v hFinishing _
    exact
      ⟨hFinishing.none, started, hFinishing.began, rfl, hPath⟩
  · intro v choice answer after hFinishing _ _
    cases answer with
    | error error => exact pushes_perform.mpr hFinishing.pushes
    | ok value =>
        exact
          { pushes := pushes_perform.mpr hFinishing.pushes
            began := hFinishing.began.perform
            created :=
              ⟨_, List.mem_cons_self, v.state, after, rfl⟩ }

/- The outline of a stream. -/
def integrityOutline
    (config : TransferConfig)
    (i : Nat)
    (messages : List PushMessage)
    (ends : Bool) :
    StreamOutline config (pushContract config) namesUnique i
      messages ends where
  idle := Idle i messages ends
  consuming := fun done _ => Consuming i messages ends done
  consumed := fun done header _ =>
    Activating i messages ends done header
  opening := Opening i messages ends
  troubled := fun v => Pushes i messages ends v.trace
  aborting := Aborting i messages ends
  stopped := Stopped i messages ends
  stuck := fun v => Pushes i messages ends v.trace
  finishing := Finishing i messages ends
  created := Finished i messages ends
  stable_consumed := fun _ _ _ => stable_activating
  stable_opening := fun _ => stable_opening
  stable_troubled := stable_pushes
  stable_aborting := fun _ => stable_aborting
  stable_stopped := stable_stopped
  stable_finishing := fun _ => stable_finishing
  stable_created := fun _ _ => stable_finished
  stable_idle := fun _ => stable_idle
  idle_of_stopped := fun _ _ => Or.inl
  stopped_of_aborting := fun _ hAborting =>
    hAborting.toStopped
  troubled_of_stuck := fun _ hPushes => hPushes
  troubled_of_finishing := fun _ _ hFinishing =>
    hFinishing.pushes
  receives := fun _ _ hPrefix _ hIdle =>
    receive_safe hPrefix hIdle
  consumes := fun _ _ _ hConsuming =>
    consume_safe hConsuming
  gives := fun _ _ _ => moves_ticketConsumed
  makes := fun _ => moves_mkdir
  opens := fun _ => moves_openSink
  marks := moves_markAborted
  removes := moves_rm
  looks := moves_isEnded
  finalizes := moves_finalize
  calm_finishing := fun _ op hCalm =>
    moves_finishing op
      (background_of_tame (tame_of_calm hCalm))
  creates := fun _ _ _ _ hPath _ => moves_create hPath
  closes := fun _ _ => moves_finishing _ trivial
  closesCreated := fun _ _ => moves_finished _ trivial
  records := fun _ _ _ => moves_finished _ trivial

------------------------------------------------------------
-- Every Call Keeps The Contract
------------------------------------------------------------

variable {stream : Nat}
variable {call : TransferCall} {initial : TransferState}

/- A removal of a file that is doomed. -/
def Removing
    (removal : Removal)
    (w : TransferWorld) : Prop :=
  ∀ path, removal = some path → Doomed path w

theorem stable_removing
    {removal : Removal} :
    (pushContract config).Stable i (Removing removal) :=
  fun _ _ hRemoving hInterferes _ path hRemoval =>
    hInterferes.2.doomed path (hRemoving path hRemoval)

theorem removing_safe
    {removal : Removal}
    (hRemoving : Removing removal w) :
    SafeProgram config (pushContract config) namesUnique i
      (removeStaging removal) (fun _ => Removing removal)
      (Removing removal) w := by
  refine removal_safe ?_ stable_removing hRemoving
  intro path hRemoval v hThere hInv hOk choice answer after
    hExec
  have hOwes :
      Owes config i (.files (.rm path)) v := by
    intro other hOther
    rw [FileStatement.writes, List.mem_singleton] at hOther
    subst hOther
    exact Or.inr (hThere _ hRemoval)
  refine ⟨keeps_perform hInv hOk hOwes hExec, ?_⟩
  intro other hOther
  exact doomed_perform hOwes hExec (hThere other hOther)

/- An error and a cancellation of a stream. -/
theorem moves_error :
    Moves config (pushContract config) namesUnique i
      (.session stream .error) (fun _ => True) Removing := by
  refine moves_of_owes (fun _ _ _ => trivial) ?_
  intro v choice answer after _ hInv hExec path hRemoval
  exact doomed_of_removal hInv trivial hExec hRemoval

theorem moves_cancelled :
    Moves config (pushContract config) namesUnique i
      (.session stream .cancelled) (fun _ => True)
      Removing := by
  refine moves_of_owes (fun _ _ _ => trivial) ?_
  intro v choice answer after _ hInv hExec path hRemoval
  exact doomed_of_removal hInv trivial hExec hRemoval

/- A task that is no push ends as it likes. -/
theorem ends_of_other
    (outcome : Except TransferError TransferReturn)
    (hPush : ∀ messages ends, call ≠ .push messages ends)
    (hStarted : .started i call ∈ w.trace)
    (hInv : PushInv config w) :
    (pushContract config).Ends i outcome w := by
  apply keeps_finish hInv
  intro k result hReplies
  cases hReplies
  exact Or.inl ⟨call, hStarted, hPush⟩

/- A push ends with what it has created. -/
theorem ends_of_replied
    {reply : Option PushReply}
    (hReplied :
      (integrityOutline config i messages ends).Replied reply w)
    (hInv : PushInv config w) :
    (pushContract config).Ends i (.ok (.pushed reply)) w := by
  apply keeps_finish hInv
  intro k result hReplies
  cases hReplies
  rcases hReplied with
    ⟨started, hChecksum, hBytes, ⟨hDry, _, hFinishing⟩ |
      ⟨job, hJob, hFinished⟩⟩
  · exact
      Or.inr
        ⟨started, hFinishing.began, hChecksum, hBytes,
          Or.inl hDry⟩
  · exact
      Or.inr
        ⟨started, hFinished.began, hChecksum, hBytes,
          Or.inr ⟨job, hFinished.created, hJob.symm⟩⟩

theorem ends_of_error
    (error : TransferError)
    (hInv : PushInv config w) :
    (pushContract config).Ends i (.error error) w := by
  apply keeps_finish hInv
  intro k result hReplies
  cases hReplies

/- A new stream is idle. -/
theorem idle_start
    (hInv : PushInv config w)
    (hFresh : w.Fresh i) :
    Idle i messages ends []
      (w.start i (.push messages ends)) := by
  have hNew := hInv.fresh i hFresh
  refine Or.inr ⟨⟨List.mem_cons_self, hNew.1, ?_⟩, ?_⟩
  · rintro started ⟨_, hEvent, before, after, rfl⟩
    rcases List.mem_cons.mp hEvent with hStart | hOld
    · cases hStart
    · exact hFresh _ hOld rfl
  · exact fun _ => hNew.2

/- The calls that are no push. -/
theorem other_safe
    (hPush : ∀ messages ends, call ≠ .push messages ends) :
    SafeProgram config (pushContract config) namesUnique i
      (serveCall config i call) (fun _ _ => True)
      (fun _ => True) w := by
  have hStable :
      (pushContract config).Stable i fun _ => True :=
    fun _ _ _ _ _ => trivial
  by_cases hAborts :
      (∃ stream, call = .pushError stream) ∨
        ∃ stream, call = .pushCancelled stream
  · rcases hAborts with ⟨stream, rfl⟩ | ⟨stream, rfl⟩
    · refine Contract.safe_bind (Contract.safe_bind ?_)
      refine Contract.safe_mono ?_ (fun _ _ h => h)
        (moves_error.safe hStable trivial)
      intro removal v hRemoving
      exact
        Contract.safe_mono (fun _ _ _ => trivial)
          (fun _ _ _ => trivial) (removing_safe hRemoving)
    · refine Contract.safe_bind (Contract.safe_bind ?_)
      refine Contract.safe_mono ?_ (fun _ _ h => h)
        (moves_cancelled.safe hStable trivial)
      intro removal v hRemoving
      exact
        Contract.safe_mono (fun _ _ _ => trivial)
          (fun _ _ _ => trivial) (removing_safe hRemoving)
  · refine
      background_safe ?_ hStable hPush
        (fun stream hEq => hAborts (Or.inl ⟨stream, hEq⟩))
        (fun stream hEq => hAborts (Or.inr ⟨stream, hEq⟩))
        trivial
    intro op hBackground
    exact
      moves_of_owes
        (fun _ _ _ => owes_background hBackground)
        fun _ _ _ _ _ _ _ => trivial

theorem serveCall_safe
    (hInv : PushInv config w)
    (hFresh : w.Fresh i) :
    (pushContract config).SafeTask (transferSystem config)
      namesUnique i (serveCall config i call)
      (w.start i call) := by
  have hKeeps :
      (pushContract config).Keeps i w (w.start i call) :=
    keeps_start hInv hFresh
  by_cases hPush :
      ∃ messages ends, call = .push messages ends
  · rcases hPush with ⟨messages, ends, rfl⟩
    have hSafe :=
      (integrityOutline config i messages ends).push_safe
        (idle_start hInv hFresh)
    refine Contract.safe_bind ?_
    refine Contract.safe_mono ?_ ?_
      (Contract.safe_with_inv hKeeps.1 hSafe)
    · rintro reply v ⟨hHere, hReplied⟩
      exact ends_of_replied hReplied hHere
    · rintro error v ⟨hHere, _⟩
      exact ends_of_error error hHere
  · have hOther :
        ∀ messages ends, call ≠ .push messages ends :=
      fun messages ends hEq => hPush ⟨messages, ends, hEq⟩
    have hStarted :
        .started i call ∈ (w.start i call).trace :=
      List.mem_cons_self
    refine Contract.safe_mono ?_ ?_
      (Contract.safe_with_inv hKeeps.1
        (Contract.safe_with_event hStarted
          (other_safe hOther)))
    · rintro value v ⟨hHere, hStarted, _⟩
      exact ends_of_other _ hOther hStarted hHere
    · rintro error v ⟨hHere, hStarted, _⟩
      exact ends_of_other _ hOther hStarted hHere

------------------------------------------------------------
-- Every Run
------------------------------------------------------------

theorem pushInv_initial
    (hInitial : NoPushes initial) :
    PushInv config ⟨initial, []⟩ where
  staged := by
    intro i path hPath
    rw [hInitial i] at hPath
    cases hPath
  unique := fun _ _ _ hCall => absurd hCall List.not_mem_nil
  fresh := by
    intro i _
    rw [hInitial i]
    exact ⟨intact_initial, rfl⟩
  named := by
    intro i path hPath
    rw [hInitial i] at hPath
    cases hPath
  open_ := by
    intro i sink hSink
    rw [hInitial i] at hSink
    cases hSink
  disturbed := fun _ _ hEvent => absurd hEvent List.not_mem_nil
  committed := by
    rintro i started ⟨event, hEvent, _⟩
    exact absurd hEvent List.not_mem_nil
  began := by
    rintro i started ⟨event, hEvent, _⟩
    exact absurd hEvent List.not_mem_nil
  sinks := by
    intro i sink hSink
    rw [hInitial i] at hSink
    cases hSink
  owner := by
    intro i ticketId hTicket
    rw [hInitial i] at hTicket
    cases hTicket
  consumed := by
    rintro i started ⟨event, hEvent, _⟩
    exact absurd hEvent List.not_mem_nil
  written := fun _ _ _ _ hPushes =>
    absurd hPushes List.not_mem_nil
  activated := by
    rintro i header ⟨event, hEvent, _⟩
    exact absurd hEvent List.not_mem_nil
  spent := by
    rintro i ticketId ⟨event, hEvent, _⟩
    exact absurd hEvent List.not_mem_nil
  single := by
    rintro i j ticketId ⟨event, hEvent, _⟩
    exact absurd hEvent List.not_mem_nil
  undisturbed := trivial
  created := trivial
  answered := trivial
  early := trivial

/- What has happened stays in the trace. -/
theorem Began.later
    {newer older : List TransferEvent}
    {event : TransferEvent}
    (hTrace : w.trace = newer ++ event :: older)
    (hBegan : Began i started older) :
    Began i started w.trace := by
  rcases hBegan with ⟨other, hOther, hBegins⟩
  refine ⟨other, ?_, hBegins⟩
  rw [hTrace]
  exact
    List.mem_append_right _ (List.mem_cons_of_mem _ hOther)

/- A stream that has begun to finish has taken in all of its
   messages. -/
theorem hashed_of_began
    (hInv : PushInv config w)
    (hPushes : Pushes i messages ends w.trace)
    (hBegan : Began i started w.trace) :
    started.hashed = afterHeader messages ∧
      started.bytesReceived =
        (afterHeader messages).length := by
  rcases hInv.began i started hBegan with
    ⟨others, hOther, hHashed, hBytes⟩
  have hSame := hInv.unique i _ _ hPushes hOther
  cases hSame
  refine ⟨hHashed, ?_⟩
  rw [hBytes, hHashed]

/- The invariant says what integrity asks for. -/
theorem integrity_of_inv
    (hInv : PushInv config w) :
    Integrity config w where
  single := by
    intro newer event older i job hTrace hCreates
    exact
      (throughout_iff.mp hInv.created newer event older hTrace
        i job hCreates).1
  ended := by
    intro newer event older i job hTrace hCreates
    rcases throughout_iff.mp hInv.created newer event older
        hTrace i job hCreates with ⟨_, started, hBegan, _⟩
    rcases hInv.began i started (hBegan.later hTrace) with
      ⟨messages, hPushes, _⟩
    exact ⟨started, messages, hBegan, hPushes⟩
  undisturbed := by
    intro newer event older i started hTrace hBegins
    exact
      throughout_iff.mp hInv.undisturbed newer event older
        hTrace i started hBegins
  content := by
    rintro i messages ends job hPushes ⟨event, hEvent, hCreates⟩
    rcases List.append_of_mem hEvent with
      ⟨newer, older, hTrace⟩
    rcases throughout_iff.mp hInv.created newer event older
        hTrace i job hCreates with
      ⟨_, started, hOld, hChecksum, hPath⟩
    have hBegan := hOld.later hTrace
    have hContent := hashed_of_began hInv hPushes hBegan
    refine ⟨?_, ?_, started, hBegan, hContent.2⟩
    · rw [hChecksum, hContent.1]
    · rw [hPath, ← hContent.1]
      exact (hInv.committed i started hBegan).file
  answered := by
    intro newer event older i messages ends result hTrace
      hPushes hReplies
    rcases throughout_iff.mp hInv.answered newer event older
        hTrace i result hReplies with
      ⟨call, hCall, hNone⟩ | ⟨started, hOld, hTold⟩
    · have hLater : .started i call ∈ w.trace := by
        rw [hTrace]
        exact
          List.mem_append_right _
            (List.mem_cons_of_mem _ hCall)
      exact
        absurd (hInv.unique i _ _ hLater hPushes)
          (hNone messages ends)
    · have hContent :=
        hashed_of_began hInv hPushes (hOld.later hTrace)
      rw [hContent.1, hContent.2] at hTold
      exact hTold
  early := by
    intro newer event older i hTrace hWrites
    exact
      throughout_iff.mp hInv.early newer event older hTrace i
        hWrites
  written := hInv.written
  consumed := hInv.consumed
  ticket := by
    intro i j started second hFirst hSecond hSame
    rcases hInv.consumed i started hFirst with
      ⟨header, hConsumed, hTicket⟩
    rcases hInv.consumed j second hSecond with
      ⟨other, hOther, hTicket'⟩
    have hActivated := hInv.activated i header hConsumed
    have hActivated' := hInv.activated j other hOther
    rw [hTicket, hSame] at hActivated
    rw [hTicket'] at hActivated'
    exact hInv.single i j _ hActivated hActivated'

/- Every run keeps the invariant. -/
theorem pushInv_run
    {p : TransferPool}
    (hInitial : NoPushes initial)
    (hRun :
      (transferSystem config).Run namesUnique
        (Pool.initial initial) p) :
    PushInv config p.world := by
  have hSound :
      (pushContract config).PoolSafe (transferSystem config)
        namesUnique p :=
    Contract.sound initial (pushInv_initial hInitial)
      (fun w i call hInv hFresh _ =>
        ⟨keeps_start hInv hFresh, serveCall_safe hInv hFresh⟩)
      hRun
  exact hSound.inv

/-
  In every run in which no two streams draw the same name
  for their staging file, every push stream gives at most
  one job, from an end that nothing disturbed, and what it
  gives is made of the chunks after its header.
-/
theorem push_integrity
    (config : TransferConfig)
    (initial : TransferState)
    (p : TransferPool)
    (hInitial : NoPushes initial)
    (hRun :
      (transferSystem config).Run namesUnique
        (Pool.initial initial) p) :
    Integrity config p.world := by
  have hInv : PushInv config p.world :=
    pushInv_run hInitial hRun
  exact integrity_of_inv hInv

/- A push of three bytes in two chunks. -/
def twoChunks : List (Label TransferChoice TransferCall) :=
  [ .start 1
      (.push
        [ .header ⟨"t", "push", "r"⟩
        , .chunk [7]
        , .empty
        , .chunk [8, 9] ] true) ] ++
  List.replicate 6 (.resume 1 (draw "")) ++
  [ .resume 1 (draw "upload") ] ++
  List.replicate 9 (.resume 1 (draw "")) ++
  [ .resume 1 (draw "job") ] ++
  List.replicate 3 (.resume 1 (draw ""))

/- The names drawn so far are those of different streams. -/
def drawnOnce (w : TransferWorld) : Bool :=
  (w.trace.filterMap staging).all fun first =>
    (w.trace.filterMap staging).all fun second =>
      first.2 != second.2 || first.1 == second.1

theorem namesUnique_of_drawnOnce
    (i : Nat)
    (op : TransferOp)
    (w : TransferWorld)
    (hDrawn : drawnOnce w = true) :
    namesUnique.perform i op w := by
  intro k j path hFirst hSecond
  have hPair :=
    List.all_eq_true.mp
      (List.all_eq_true.mp hDrawn _ hFirst) _ hSecond
  simpa using hPair

/- The staged file has the three bytes. -/
theorem push_integrity_of_twoChunks :
    ∃ q : TransferPool,
      (transferSystem smallConfig).replay?
          (Pool.initial writerWithTicket) twoChunks =
            some q ∧
        Integrity smallConfig q.world ∧
        q.world.state.files "/staging/r/upload.staging" =
          some [7, 8, 9] := by
  have hReplay :
      ∃ q : TransferPool,
        (transferSystem smallConfig).replay?
            (Pool.initial writerWithTicket) twoChunks =
              some q ∧
          q.world.state.files "/staging/r/upload.staging" =
            some [7, 8, 9] :=
    ⟨_, rfl, by decide⟩
  rcases hReplay with ⟨q, hReplay, hFile⟩
  refine ⟨q, hReplay, ?_, hFile⟩
  refine
    push_integrity smallConfig writerWithTicket q
      (fun _ => rfl) ?_
  exact
    System.run_of_checks (fun _ _ _ _ => trivial)
      namesUnique_of_drawnOnce (by decide) hReplay

end PushIntegrity

end Transfer
