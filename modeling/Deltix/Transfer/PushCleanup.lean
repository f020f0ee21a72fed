import Deltix.Transfer.PushIntegrity
import Deltix.Transfer.PushRemains

/-
  A push stream that ends without a job cleans up, in every
  run whose steps let it: its staging file is removed, and
  no ticket that it has activated is active.  Without that
  condition a stream whose job is not created leaves both.

  Key definitions include:
    * `Working`
    * `cleanupOutline`

  Key theorems include:
    * `serveCall_safe`
    * `cleans_up`
    * `failed_creation_leaves_both`
-/

------------------------------------------------------------
-- Assertions Of A Task
------------------------------------------------------------

namespace Transfer

namespace PushCleanup

open Auth Concurrency Relational Storage NasPaths
open PushIntegrity (Pushes Created pushes_perform)

variable {j : Nat} {trace : List TransferEvent}

/- The clean steps, in worlds with the invariant of the
   streams. -/
def cleanRun (config : TransferConfig) : TransferAllowed :=
  cleanSteps.also (PushIntegrity.PushInv config)

/- A task that may still have to remove a file. -/
structure Removing
    (j : Nat)
    (removal : Removal)
    (trace : List TransferEvent) : Prop where
  pending :
    ∀ k path, Asked j k path trace →
      Removed j path trace ∨ NotRemoved j path trace ∨
        removal = some path
  asked :
    ∀ path, removal = some path → ∃ k, Asked j k path trace

theorem Removing.settled
    (hRemoving : Removing j none trace) :
    Settled j trace := by
  intro k path hAsked
  rcases hRemoving.pending k path hAsked with
    hRemoved | hNot | hNone
  · exact Or.inl hRemoved
  · exact Or.inr hNot
  · cases hNone

theorem Settled.removing
    (hSettled : Settled j trace) :
    Removing j none trace where
  pending := by
    intro k path hAsked
    rcases hSettled k path hAsked with hRemoved | hNot
    · exact Or.inl hRemoved
    · exact Or.inr (Or.inl hNot)
  asked := fun _ hNone => by cases hNone

/- A push with no removal open. -/
structure Working
    (i : Nat)
    (messages : List PushMessage)
    (ends : Bool)
    (w : TransferWorld) : Prop where
  pushes : Pushes i messages ends w.trace
  settled : Settled i w.trace

/- `finish` has not closed its session. -/
structure Unfinished
    (i : Nat)
    (messages : List PushMessage)
    (ends : Bool)
    (w : TransferWorld) : Prop
    extends Working i messages ends w where
  unfinished : ¬ Finalized i w.trace

structure Consuming
    (i : Nat)
    (messages : List PushMessage)
    (ends : Bool)
    (w : TransferWorld) : Prop
    extends Unfinished i messages ends w where
  received : (w.state.pushes i).headerReceived = true
  path : (w.state.pushes i).stagingFilePath = none

structure Opening
    (i : Nat)
    (messages : List PushMessage)
    (ends : Bool)
    (w : TransferWorld) : Prop
    extends Unfinished i messages ends w where
  received : (w.state.pushes i).headerReceived = true
  path :
    ∃ path, (w.state.pushes i).stagingFilePath = some path

structure Stopped
    (i : Nat)
    (messages : List PushMessage)
    (ends : Bool)
    (w : TransferWorld) : Prop
    extends Unfinished i messages ends w where
  closed : (w.state.pushes i).closed = true

structure Aborting
    (i : Nat)
    (messages : List PushMessage)
    (ends : Bool)
    (removal : Removal)
    (w : TransferWorld) : Prop where
  pushes : Pushes i messages ends w.trace
  removing : Removing i removal w.trace
  unfinished : ¬ Finalized i w.trace
  closed : (w.state.pushes i).closed = true

structure Finishing
    (i : Nat)
    (messages : List PushMessage)
    (ends : Bool)
    (started : PushFinish)
    (w : TransferWorld) : Prop
    extends Working i messages ends w where
  real : started.dryRun = false

structure Finished
    (i : Nat)
    (messages : List PushMessage)
    (ends : Bool)
    (job : TransferJob)
    (w : TransferWorld) : Prop
    extends Working i messages ends w where
  created : Created i job w.trace

/- A cancellation that has closed its stream. -/
structure Cancelling
    (j k : Nat)
    (removal : Removal)
    (w : TransferWorld) : Prop where
  cancels : Cancels j k w.trace
  removing : Removing j removal w.trace
  closed : (w.state.pushes k).closed = true

------------------------------------------------------------
-- What The Other Tasks Leave
------------------------------------------------------------

variable {w v : TransferWorld} {i j k : Nat}
variable {messages : List PushMessage} {ends : Bool}
variable {removal : Removal} {path : String}

section Growth

variable (hGrows : World.Grows j w v)

include hGrows

theorem Asked.grows
    (hAsked : Asked j k path w.trace) :
    Asked j k path v.trace := by
  rcases hAsked with ⟨event, hEvent, hAsks⟩
  exact ⟨event, hGrows.mem hEvent, hAsks⟩

theorem Asked.back
    (hAsked : Asked j k path v.trace) :
    Asked j k path w.trace := by
  rcases hAsked with
    ⟨_, hEvent, step, answer, before, after, rfl, hRemoval⟩
  exact
    ⟨_, hGrows.mem_own rfl hEvent, step, answer, before, after,
      rfl, hRemoval⟩

theorem Finalized.back
    (hFinalized : Finalized j v.trace) :
    Finalized j w.trace := by
  rcases hFinalized with
    ⟨_, hEvent, step, answer, before, after, rfl, hDone⟩
  exact
    ⟨_, hGrows.mem_own rfl hEvent, step, answer, before, after,
      rfl, hDone⟩

theorem Removing.grows
    (hRemoving : Removing j removal w.trace) :
    Removing j removal v.trace where
  pending := by
    intro k path hAsked
    rcases hRemoving.pending k path (hAsked.back hGrows) with
      ⟨before, after, hRemoved⟩ | ⟨error, before, after, hNot⟩ |
        hPath
    · exact Or.inl ⟨before, after, hGrows.mem hRemoved⟩
    · exact
        Or.inr
          (Or.inl ⟨error, before, after, hGrows.mem hNot⟩)
    · exact Or.inr (Or.inr hPath)
  asked := by
    intro path hPath
    rcases hRemoving.asked path hPath with ⟨k, hAsked⟩
    exact ⟨k, hAsked.grows hGrows⟩

theorem Settled.grows
    (hSettled : Settled j w.trace) :
    Settled j v.trace :=
  (hSettled.removing.grows hGrows).settled

theorem Cancels.grows
    (hCancels : Cancels j k w.trace) :
    Cancels j k v.trace := by
  rcases hCancels with hError | hCancelled
  · exact Or.inl (hGrows.mem hError)
  · exact Or.inr (hGrows.mem hCancelled)

theorem Working.grows
    (hWorking : Working j messages ends w) :
    Working j messages ends v where
  pushes := hGrows.mem hWorking.pushes
  settled := hWorking.settled.grows hGrows

theorem Unfinished.grows
    (hUnfinished : Unfinished j messages ends w) :
    Unfinished j messages ends v where
  toWorking := hUnfinished.toWorking.grows hGrows
  unfinished := fun hFinalized =>
    hUnfinished.unfinished (hFinalized.back hGrows)

end Growth

theorem stable_working :
    remainsContract.Stable i (Working i messages ends) :=
  fun _ _ hWorking hInterferes _ =>
    hWorking.grows hInterferes.1

theorem stable_unfinished :
    remainsContract.Stable i (Unfinished i messages ends) :=
  fun _ _ hUnfinished hInterferes _ =>
    hUnfinished.grows hInterferes.1

theorem stable_consuming :
    remainsContract.Stable i (Consuming i messages ends) :=
  fun _ _ hConsuming hInterferes _ =>
    { toUnfinished :=
        hConsuming.toUnfinished.grows hInterferes.1
      received :=
        hInterferes.2.winds.headerReceived.trans
          hConsuming.received
      path :=
        hInterferes.2.winds.identity.stagingFilePath.trans
          hConsuming.path }

theorem stable_opening :
    remainsContract.Stable i (Opening i messages ends) := by
  intro w v hOpening hInterferes _
  rcases hOpening.path with ⟨path, hPath⟩
  exact
    { toUnfinished :=
        hOpening.toUnfinished.grows hInterferes.1
      received :=
        hInterferes.2.winds.headerReceived.trans
          hOpening.received
      path :=
        ⟨path,
          hInterferes.2.winds.identity.stagingFilePath.trans
            hPath⟩ }

theorem stable_stopped :
    remainsContract.Stable i (Stopped i messages ends) :=
  fun _ _ hStopped hInterferes _ =>
    { toUnfinished :=
        hStopped.toUnfinished.grows hInterferes.1
      closed := hInterferes.2.closed i hStopped.closed }

theorem stable_aborting :
    remainsContract.Stable i
      (Aborting i messages ends removal) :=
  fun _ _ hAborting hInterferes _ =>
    { pushes := hInterferes.1.mem hAborting.pushes
      removing := hAborting.removing.grows hInterferes.1
      unfinished := fun hFinalized =>
        hAborting.unfinished (hFinalized.back hInterferes.1)
      closed := hInterferes.2.closed i hAborting.closed }

theorem stable_finishing
    {started : PushFinish} :
    remainsContract.Stable i
      (Finishing i messages ends started) :=
  fun _ _ hFinishing hInterferes _ =>
    { toWorking := hFinishing.toWorking.grows hInterferes.1
      real := hFinishing.real }

theorem stable_finished
    {job : TransferJob} :
    remainsContract.Stable i
      (Finished i messages ends job) :=
  fun _ _ hFinished hInterferes _ =>
    { toWorking := hFinished.toWorking.grows hInterferes.1
      created :=
        PushIntegrity.Created.grows hInterferes.1
          hFinished.created }

theorem stable_cancelling :
    remainsContract.Stable j (Cancelling j k removal) :=
  fun _ _ hCancelling hInterferes _ =>
    { cancels := hCancelling.cancels.grows hInterferes.1
      removing := hCancelling.removing.grows hInterferes.1
      closed := hInterferes.2.closed k hCancelling.closed }

theorem stable_cancels :
    remainsContract.Stable j fun v =>
      Cancels j k v.trace ∧ Settled j v.trace :=
  fun _ _ hThere hInterferes _ =>
    ⟨hThere.1.grows hInterferes.1,
      hThere.2.grows hInterferes.1⟩

theorem stable_settled :
    remainsContract.Stable j fun v => Settled j v.trace :=
  fun _ _ hSettled hInterferes _ =>
    hSettled.grows hInterferes.1

------------------------------------------------------------
-- Operations Of A Stream
------------------------------------------------------------

open PushIntegrity (Pushes Created pushes_perform
  pushes_exec closed_exec)

variable {config : TransferConfig} {op : TransferOp}
variable {choice : TransferChoice} {answer : op.Answer}
variable {after : TransferState}
variable {w : TransferWorld} {i j k : Nat}
variable {messages : List PushMessage} {ends : Bool}
variable {removal : Removal} {header : PushHeader}
variable {ticket : Ticket} {started : PushFinish}
variable {job : TransferJob}

/- An operation that owes nothing moves on to what holds
   after it. -/
theorem moves_of_owes
    {J : TransferWorld → Prop}
    {post : op.Answer → TransferWorld → Prop}
    (hOwes : ∀ v, J v → RemainsInv v → Owes i op v)
    (hPost :
      ∀ v choice answer after, J v → RemainsInv v →
        CleanStep i op v →
        op.exec config choice v.state = some (answer, after) →
          post answer (v.perform i op answer after)) :
    Moves config remainsContract (cleanRun config) i op J
      post := by
  intro v hHere hInv hOk choice answer after hExec
  exact
    ⟨keeps_perform hInv hOk (hOwes v hHere hInv) hExec,
      hPost v choice answer after hHere hInv hOk.1.2 hExec⟩

theorem owes_background
    (hBackground : Background op) :
    Owes i op w := by
  cases op with
  | files statement =>
      intro path hPath
      exact Or.inl (hBackground path hPath)
  | session stream step => exact hBackground.elim
  | _ => trivial

/- An operation that is no step of a stream asks for no
   removal. -/
theorem Settled.perform
    (hSettled : Settled j w.trace)
    (hOp : ∀ l step, op ≠ .session l step) :
    Settled j (w.perform i op answer after).trace := by
  intro k path hAsked
  rcases asked_cases hAsked with hOld | ⟨_, step, _, hStep, _⟩
  · rcases hSettled k path hOld with
      ⟨before, later, hRemoved⟩ | ⟨error, before, later, hNot⟩
    · exact
        Or.inl ⟨before, later, List.mem_cons_of_mem _ hRemoved⟩
    · exact
        Or.inr
          ⟨error, before, later, List.mem_cons_of_mem _ hNot⟩
  · exact absurd hStep (hOp k step)

/- A step of a stream asks for the removal it answers. -/
theorem Settled.step
    {step : SessionStep}
    {reply : step.Answer}
    (hSettled : Settled i w.trace) :
    Removing i (step.removal reply)
      (w.perform i (.session k step) reply after).trace where
  pending := by
    intro l path hAsked
    rcases asked_cases hAsked with
      hOld | ⟨_, other, told, hStep, hTold, hRemoval⟩
    · rcases hSettled l path hOld with
        ⟨before, later, hRemoved⟩ |
          ⟨error, before, later, hNot⟩
      · exact
          Or.inl
            ⟨before, later, List.mem_cons_of_mem _ hRemoved⟩
      · exact
          Or.inr
            (Or.inl
              ⟨error, before, later,
                List.mem_cons_of_mem _ hNot⟩)
    · cases hStep
      cases eq_of_heq hTold
      exact Or.inr (Or.inr hRemoval)
  asked := by
    intro path hPath
    exact
      ⟨k, _, List.mem_cons_self, step, reply, w.state, after,
        rfl, hPath⟩

theorem Removing.settled_of
    {trace : List TransferEvent}
    (hRemoving : Removing j removal trace)
    (hNone : removal = none) :
    Settled j trace := by
  subst hNone
  exact hRemoving.settled

/- After a removal was tried, none is open. -/
theorem Removing.perform_rm
    {path : String}
    {reply : Except String Unit}
    (hRemoving : Removing j (some path) w.trace) :
    Settled j
      (w.perform j (.files (.rm path)) reply after).trace := by
  intro k other hAsked
  rcases asked_cases hAsked with hOld | ⟨_, step, _, hStep, _⟩
  · rcases hRemoving.pending k other hOld with
      ⟨before, later, hRemoved⟩ | ⟨error, before, later, hNot⟩ |
        hPath
    · exact
        Or.inl ⟨before, later, List.mem_cons_of_mem _ hRemoved⟩
    · exact
        Or.inr
          ⟨error, before, later, List.mem_cons_of_mem _ hNot⟩
    · cases hPath
      cases reply with
      | ok value =>
          exact Or.inl ⟨w.state, after, List.mem_cons_self⟩
      | error error =>
          exact
            Or.inr
              ⟨error, w.state, after, List.mem_cons_self⟩
  · cases hStep

/- Only the end of a stream finishes it. -/
theorem unfinished_perform
    (hUnfinished : ¬ Finalized i w.trace)
    (hOp :
      ∀ (step : SessionStep) (reply : step.Answer),
        op = .session i step → HEq answer reply →
          step.finishes reply = false) :
    ¬ Finalized i (w.perform j op answer after).trace := by
  intro hFinalized
  rcases finalized_cases hFinalized with
    hOld | ⟨_, _, step, reply, hStep, hReply, hDone⟩
  · exact hUnfinished hOld
  · rw [hOp step reply hStep hReply] at hDone
    cases hDone

theorem Working.perform
    (hWorking : Working i messages ends w)
    (hOp : ∀ l step, op ≠ .session l step) :
    Working i messages ends (w.perform i op answer after) where
  pushes := pushes_perform.mpr hWorking.pushes
  settled := hWorking.settled.perform hOp

theorem Unfinished.perform
    (hUnfinished : Unfinished i messages ends w)
    (hOp : ∀ l step, op ≠ .session l step) :
    Unfinished i messages ends
      (w.perform i op answer after) where
  toWorking := hUnfinished.toWorking.perform hOp
  unfinished :=
    unfinished_perform hUnfinished.unfinished
      fun step _ hStep => absurd hStep (hOp i step)

/- What a step that aborts or finishes nothing leaves. -/
theorem Unfinished.step
    {step : SessionStep}
    {reply : step.Answer}
    (hUnfinished : Unfinished i messages ends w)
    (hRemoval : step.removal reply = none)
    (hDone : step.finishes reply = false) :
    Unfinished i messages ends
      (w.perform i (.session i step) reply after) where
  pushes := pushes_perform.mpr hUnfinished.pushes
  settled := hUnfinished.settled.step.settled_of hRemoval
  unfinished := by
    apply unfinished_perform hUnfinished.unfinished
    intro other told hStep hTold
    cases hStep
    cases eq_of_heq hTold
    exact hDone

/- A disturbed stream is closed. -/
theorem closed_of_disturbs
    {step : SessionStep}
    {reply : step.Answer}
    (hInv : RemainsInv w)
    (hExec :
      (TransferOp.session k step).exec config choice w.state =
        some (reply, after))
    (hDisturbs : step.disturbs reply = true) :
    (after.pushes k).closed = true := by
  have hSession := exec_session hExec
  have hStops :
      (after.pushes k).aborted = true ∨
        (after.pushes k).closed = true := by
    rw [hSession.2]
    apply SessionStep.disturbs_run step
    rw [hSession.1]
    exact hDisturbs
  rcases hStops with hAborted | hClosed
  · exact aborted_closed_exec hInv hExec hAborted
  · exact hClosed

/- A step that aborts leaves its removal open. -/
theorem aborting_of_step
    {step : SessionStep}
    {reply : step.Answer}
    (hInv : RemainsInv w)
    (hPushes : Pushes i messages ends w.trace)
    (hSettled : Settled i w.trace)
    (hUnfinished : ¬ Finalized i w.trace)
    (hExec :
      (TransferOp.session i step).exec config choice w.state =
        some (reply, after))
    (hDisturbs : step.disturbs reply = true)
    (hDone : step.finishes reply = false)
    (hRemoval : step.removal reply = removal) :
    Aborting i messages ends removal
      (w.perform i (.session i step) reply after) where
  pushes := pushes_perform.mpr hPushes
  removing := by
    rw [← hRemoval]
    exact hSettled.step
  unfinished := by
    apply unfinished_perform hUnfinished
    intro other told hStep hTold
    cases hStep
    cases eq_of_heq hTold
    exact hDone
  closed := closed_of_disturbs hInv hExec hDisturbs

------------------------------------------------------------
-- The Steps Of A Push
------------------------------------------------------------

/- What a message leaves, by its answer. -/
def Took
    (i : Nat)
    (messages : List PushMessage)
    (ends : Bool)
    (received : Received)
    (v : TransferWorld) : Prop :=
  match received with
  | .ignored => Unfinished i messages ends v
  | .accepted => Unfinished i messages ends v
  | .aborting _ removal => Aborting i messages ends removal v
  | .rejected _ => Working i messages ends v
  | .failed => Working i messages ends v
  | .consuming _ => Consuming i messages ends v

theorem moves_header
    (sent : PushHeader) :
    Moves config remainsContract (cleanRun config) i
      (.session i (.header sent))
      (Unfinished i messages ends)
      (Took i messages ends) := by
  refine moves_of_owes (fun _ _ _ => rfl) ?_
  intro v choice answer after hHere hInv _ hExec
  have hSession := exec_session hExec
  have hAnswer :
      ((v.state.pushes i).processHeader sent).1 = answer :=
    hSession.1
  have hNext :
      after.pushes i =
        ((v.state.pushes i).processHeader sent).2 :=
    hSession.2
  cases answer with
  | ignored => exact hHere.step rfl rfl
  | accepted => exact hHere.step rfl rfl
  | rejected reason => exact (hHere.step rfl rfl).toWorking
  | failed => exact (hHere.step rfl rfl).toWorking
  | aborting status removal =>
      exact
        aborting_of_step hInv hHere.pushes hHere.settled
          hHere.unfinished hExec rfl rfl rfl
  | consuming given =>
      rcases (v.state.pushes i).processHeader_cases sent with
        ⟨_, hEq⟩ | ⟨_, _, _, hEq, _⟩ | ⟨_, hUnsent, hEq, _⟩
      · rw [hEq] at hAnswer
        cases hAnswer
      · rw [hEq] at hAnswer
        cases hAnswer
      · refine ⟨hHere.step rfl rfl, ?_, ?_⟩
        · rw [World.perform_state, hNext, hEq]
        · rw [World.perform_state, hNext, hEq]
          exact hInv.paths i hUnsent

theorem moves_chunk
    (data : Content) :
    Moves config remainsContract (cleanRun config) i
      (.session i (.chunk data))
      (Unfinished i messages ends)
      (Took i messages ends) := by
  refine moves_of_owes (fun _ _ _ => rfl) ?_
  intro v choice answer after hHere hInv _ hExec
  cases answer with
  | ignored => exact hHere.step rfl rfl
  | accepted => exact hHere.step rfl rfl
  | rejected reason => exact (hHere.step rfl rfl).toWorking
  | failed => exact (hHere.step rfl rfl).toWorking
  | aborting status removal =>
      exact
        aborting_of_step hInv hHere.pushes hHere.settled
          hHere.unfinished hExec rfl rfl rfl
  | consuming given =>
      exfalso
      have hAnswer :
          ((v.state.pushes i).processChunk choice.fails
              data).1 =
            .consuming given :=
        (exec_session hExec).1
      rcases
          (v.state.pushes i).processChunk_cases choice.fails
            data with
        ⟨_, hEq⟩ | ⟨_, _, _, hEq, _⟩ | ⟨_, ⟨_, hEq⟩ | hEq⟩ |
          ⟨_, _, _, _, hEq⟩
      · rw [hEq] at hAnswer
        cases hAnswer
      · rw [hEq] at hAnswer
        cases hAnswer
      · rw [hEq] at hAnswer
        cases hAnswer
      · rw [hEq] at hAnswer
        cases hAnswer
      · rw [hEq] at hAnswer
        cases hAnswer

theorem moves_empty :
    Moves config remainsContract (cleanRun config) i
      (.session i .empty)
      (Unfinished i messages ends)
      (Took i messages ends) := by
  refine moves_of_owes (fun _ _ _ => rfl) ?_
  intro v choice answer after hHere _ _ hExec
  have hAnswer : Received.ignored = answer :=
    (exec_session hExec).1
  subst hAnswer
  exact hHere.step rfl rfl

theorem receive_safe
    (message : PushMessage)
    (hHere : Unfinished i messages ends w) :
    SafeProgram config remainsContract (cleanRun config) i
      (receive i message) (Took i messages ends)
      (Working i messages ends) w := by
  cases message with
  | header sent =>
      exact (moves_header sent).safe stable_unfinished hHere
  | chunk data =>
      exact (moves_chunk data).safe stable_unfinished hHere
  | empty => exact moves_empty.safe stable_unfinished hHere

theorem moves_consuming
    (op : TransferOp)
    (hTame : Tame op) :
    Moves config remainsContract (cleanRun config) i op
      (Consuming i messages ends)
      fun _ => Consuming i messages ends := by
  have hOp : ∀ l step, op ≠ .session l step := by
    rintro l step rfl
    exact hTame
  refine
    moves_of_owes
      (fun _ _ _ => owes_background (background_of_tame hTame))
      ?_
  intro v choice answer after hHere _ _ hExec
  have hSame : after.pushes i = v.state.pushes i := by
    rcases pushes_exec hExec i with hSame | ⟨step, hStep, _⟩
    · exact hSame
    · exact absurd hStep (hOp i step)
  refine ⟨hHere.toUnfinished.perform hOp, ?_, ?_⟩
  · rw [World.perform_state, hSame]
    exact hHere.received
  · rw [World.perform_state, hSame]
    exact hHere.path

theorem moves_ticketConsumed :
    Moves config remainsContract (cleanRun config) i
      (.session i (.ticketConsumed header ticket))
      (Consuming i messages ends)
      fun _ => Opening i messages ends := by
  refine
    moves_of_owes
      (fun v hHere _ => ⟨rfl, hHere.received, hHere.path⟩) ?_
  intro v choice answer after hHere _ _ hExec
  have hNext := (exec_session hExec).2
  refine ⟨hHere.toUnfinished.step rfl rfl, ?_, ?_⟩
  · rw [World.perform_state, hNext]
    exact hHere.received
  · rw [World.perform_state, hNext]
    exact ⟨_, rfl⟩

theorem moves_mkdir
    (path : String) :
    Moves config remainsContract (cleanRun config) i
      (.files (.mkdir path))
      (Opening i messages ends)
      (Answers (fun _ => Opening i messages ends)
        (Working i messages ends)) := by
  refine
    moves_of_owes
      (fun _ _ _ => owes_background
        (by simp [Background, FileStatement.writes]))
      ?_
  intro v choice answer after hHere _ _ hExec
  have hSame : after.pushes i = v.state.pushes i := by
    rcases pushes_exec hExec i with hSame | ⟨step, hStep, _⟩
    · exact hSame
    · cases hStep
  have hKept :
      Unfinished i messages ends
        (v.perform i (.files (.mkdir path)) answer after) :=
    hHere.toUnfinished.perform (by simp)
  cases answer with
  | error error => exact hKept.toWorking
  | ok value =>
      refine ⟨hKept, ?_, ?_⟩
      · rw [World.perform_state, hSame]
        exact hHere.received
      · rw [World.perform_state, hSame]
        exact hHere.path

theorem moves_openSink :
    Moves config remainsContract (cleanRun config) i
      (.session i .openSink)
      (Opening i messages ends)
      fun _ => Unfinished i messages ends := by
  refine
    moves_of_owes
      (fun v hHere _ => ⟨rfl, hHere.received, hHere.path⟩) ?_
  intro v choice answer after hHere _ _ _
  exact hHere.toUnfinished.step rfl rfl

/- `finish` has not closed the session by then. -/
theorem moves_markAborted
    (status : GrpcStatus) :
    Moves config remainsContract (cleanRun config) i
      (.session i (.markAborted status))
      (Working i messages ends)
      fun answer v =>
        match answer with
        | .already => Stopped i messages ends v
        | .aborting removal =>
            Aborting i messages ends removal v := by
  refine moves_of_owes (fun _ _ _ => rfl) ?_
  intro v choice answer after hHere hInv hOk hExec
  have hUnfinished := hOk.fails i status rfl
  cases answer with
  | already =>
      have hAborting :=
        aborting_of_step hInv hHere.pushes hHere.settled
          hUnfinished hExec rfl rfl rfl
      exact
        ⟨⟨⟨hAborting.pushes, hAborting.removing.settled⟩,
            hAborting.unfinished⟩,
          hAborting.closed⟩
  | aborting removal =>
      exact
        aborting_of_step hInv hHere.pushes hHere.settled
          hUnfinished hExec rfl rfl rfl

theorem moves_rm
    (path : String) :
    Moves config remainsContract (cleanRun config) i
      (.files (.rm path))
      (Aborting i messages ends (some path))
      (Answers (fun _ => Stopped i messages ends)
        (Stopped i messages ends)) := by
  refine moves_of_owes ?_ ?_
  · intro v hHere _ other hOther
    rw [FileStatement.writes, List.mem_singleton] at hOther
    subst hOther
    exact Or.inr ⟨rfl, hHere.removing.asked _ rfl⟩
  · intro v choice answer after hHere _ _ hExec
    have hStopped :
        Stopped i messages ends
          (v.perform i (.files (.rm path)) answer after) :=
      { pushes := pushes_perform.mpr hHere.pushes
        settled := hHere.removing.perform_rm
        unfinished :=
          unfinished_perform hHere.unfinished
            fun _ _ hStep => by cases hStep
        closed := closed_exec hExec hHere.closed }
    cases answer with
    | error error => exact hStopped
    | ok value => exact hStopped

theorem moves_isEnded :
    Moves config remainsContract (cleanRun config) i
      (.session i .isEnded) (Stopped i messages ends)
      fun _ => Stopped i messages ends := by
  refine moves_of_owes (fun _ _ _ => rfl) ?_
  intro v choice answer after hHere _ _ hExec
  exact
    ⟨hHere.toUnfinished.step rfl rfl,
      closed_exec hExec hHere.closed⟩

------------------------------------------------------------
-- The End Of A Push
------------------------------------------------------------

open PushIntegrity (Pushes Created pushes_perform
  aborted_exec)

variable {config : TransferConfig} {op : TransferOp}
variable {w : TransferWorld} {i : Nat}
variable {messages : List PushMessage} {ends : Bool}
variable {removal : Removal} {started : PushFinish}
variable {job : TransferJob}

theorem moves_finalize :
    Moves config remainsContract (cleanRun config) i
      (.session i .finalize)
      (Unfinished i messages ends)
      fun answer v =>
        match answer with
        | .answered _ => Stopped i messages ends v
        | .aborting _ removal =>
            Aborting i messages ends removal v
        | .rejected _ => Working i messages ends v
        | .finishing started =>
            Finishing i messages ends started v := by
  refine moves_of_owes (fun _ _ _ => rfl) ?_
  intro v choice answer after hHere hInv hOk hExec
  have hAnswer :
      ((v.state.pushes i).finalizeStream v.state.clock
          choice.fails).1 =
        answer :=
    (exec_session hExec).1
  have hWorking :
      answer.removal = none →
        Working i messages ends
          (v.perform i (.session i .finalize) answer after) :=
    fun hNone =>
      { pushes := pushes_perform.mpr hHere.pushes
        settled := hHere.settled.step.settled_of hNone }
  rcases
      ((v.state.pushes i).finalizeStream_cases
        v.state.clock choice.fails).2 with
    ⟨hAborted, _, hEq⟩ | ⟨_, _, hEq, _⟩ | ⟨_, hEq⟩ |
      ⟨hAborted, hClosed, started, _, hEq, _⟩
  · rw [hEq] at hAnswer
    subst hAnswer
    have hWas := hInv.aborted i hAborted
    refine ⟨⟨hWorking rfl, ?_⟩, ?_⟩
    · intro hFinalized
      rcases finalized_cases hFinalized with
        hOld | ⟨hOpen, _⟩
      · exact hHere.unfinished hOld
      · rw [hWas] at hOpen
        cases hOpen
    · exact aborted_closed_exec hInv hExec
        (aborted_exec hExec hAborted)
  · rw [hEq] at hAnswer
    subst hAnswer
    exact
      aborting_of_step hInv hHere.pushes hHere.settled
        hHere.unfinished hExec rfl rfl rfl
  · rw [hEq] at hAnswer
    subst hAnswer
    exact hWorking rfl
  · have hReal := hOk.begins i rfl hAborted hClosed
    rw [← PushSession.finalizeStream_syncOptions _ hEq]
      at hReal
    rw [hEq] at hAnswer
    subst hAnswer
    exact ⟨hWorking rfl, hReal⟩

theorem moves_finishing
    (op : TransferOp)
    (hBackground : Background op) :
    Moves config remainsContract (cleanRun config) i op
      (Finishing i messages ends started)
      fun _ => Finishing i messages ends started := by
  refine
    moves_of_owes (fun _ _ _ => owes_background hBackground) ?_
  intro v choice answer after hHere _ _ _
  refine ⟨hHere.toWorking.perform ?_, hHere.real⟩
  rintro l step rfl
  exact hBackground

theorem moves_finished
    (op : TransferOp)
    (hBackground : Background op) :
    Moves config remainsContract (cleanRun config) i op
      (Finished i messages ends job)
      fun _ => Finished i messages ends job := by
  refine
    moves_of_owes (fun _ _ _ => owes_background hBackground) ?_
  intro v choice answer after hHere _ _ _
  refine ⟨hHere.toWorking.perform ?_, ?_⟩
  · rintro l step rfl
    exact hBackground
  · rcases hHere.created with ⟨event, hEvent, hCreates⟩
    exact ⟨event, List.mem_cons_of_mem _ hEvent, hCreates⟩

theorem moves_create :
    Moves config remainsContract (cleanRun config) i
      (.jobs (.create job))
      (Finishing i messages ends started)
      (Answers (fun _ => Finished i messages ends job)
        (Working i messages ends)) := by
  refine moves_of_owes (fun _ _ _ => trivial) ?_
  intro v choice answer after hHere _ _ _
  have hKept :
      Working i messages ends
        (v.perform i (.jobs (.create job)) answer after) :=
    hHere.toWorking.perform (by simp)
  cases answer with
  | error error => exact hKept
  | ok value =>
      exact
        ⟨hKept, _, List.mem_cons_self, v.state, after, rfl⟩

/- The outline of a stream that cleans up. -/
def cleanupOutline
    (config : TransferConfig)
    (i : Nat)
    (messages : List PushMessage)
    (ends : Bool) :
    StreamOutline config remainsContract (cleanRun config) i
      messages ends where
  idle := fun _ => Unfinished i messages ends
  consuming := fun _ _ => Consuming i messages ends
  consumed := fun _ _ _ => Consuming i messages ends
  opening := fun _ => Opening i messages ends
  troubled := Working i messages ends
  aborting := Aborting i messages ends
  stopped := Stopped i messages ends
  stuck := Stopped i messages ends
  finishing := Finishing i messages ends
  created := fun _ => Finished i messages ends
  stable_consumed := fun _ _ _ => stable_consuming
  stable_opening := fun _ => stable_opening
  stable_troubled := stable_working
  stable_aborting := fun _ => stable_aborting
  stable_stopped := stable_stopped
  stable_finishing := fun _ => stable_finishing
  stable_created := fun _ _ => stable_finished
  stable_idle := fun _ => stable_unfinished
  idle_of_stopped := fun _ _ hStopped => hStopped.toUnfinished
  stopped_of_aborting := fun _ hAborting =>
    { pushes := hAborting.pushes
      settled := hAborting.removing.settled
      unfinished := hAborting.unfinished
      closed := hAborting.closed }
  troubled_of_stuck := fun _ hStopped => hStopped.toWorking
  troubled_of_finishing := fun _ _ hFinishing =>
    hFinishing.toWorking
  receives := fun _ message _ _ hHere =>
    receive_safe message hHere
  consumes := fun _ _ _ hHere =>
    Contract.safe_mono (fun _ _ h => h)
      (fun _ _ h => h.toWorking)
      (safe_of_only (tame_consumeTicket _ _ _) moves_consuming
        stable_consuming hHere)
  gives := fun _ _ _ => moves_ticketConsumed
  makes := fun _ => moves_mkdir
  opens := fun _ => moves_openSink
  marks := moves_markAborted
  removes := moves_rm
  looks := moves_isEnded
  finalizes := fun _ => moves_finalize
  calm_finishing := fun _ op hCalm =>
    moves_finishing op
      (background_of_tame (tame_of_calm hCalm))
  creates := fun _ _ _ _ _ _ => moves_create
  closes := fun _ _ => moves_finishing _ trivial
  closesCreated := fun _ _ => moves_finished _ trivial
  records := fun _ _ _ => moves_finished _ trivial

------------------------------------------------------------
-- Every Call Keeps The Contract
------------------------------------------------------------

open PushIntegrity (Pushes Created pushes_perform closed_exec)

variable {config : TransferConfig}
variable {w : TransferWorld} {i j stream : Nat}
variable {messages : List PushMessage} {ends : Bool}
variable {call : TransferCall}

theorem keeps_start
    (hInv : RemainsInv w)
    (hFresh : w.Fresh i) :
    remainsContract.Keeps i w (w.start i call) := by
  have hTrace :
      (w.start i call).trace = .started i call :: w.trace :=
    rfl
  have hEnded :
      ∀ k, Ended k (w.start i call).trace →
        Ended k w.trace ∧ k ≠ i := by
    rintro k ⟨outcome, hMember⟩
    rcases List.mem_cons.mp hMember with hNew | hOld
    · cases hNew
    · refine ⟨⟨outcome, hOld⟩, ?_⟩
      rintro rfl
      exact hFresh _ hOld rfl
  refine
    keeps_event hTrace (by simp) hInv rfl
      { fresh := ?_
        stopped := ?_
        cancelled := ?_
        ends := fun _ _ hEq => by cases hEq }
  · intro k other hEq
    cases hEq
    exact hFresh
  · intro k others hEnd hPushes
    have hOther := hEnded k hEnd
    rcases List.mem_cons.mp hPushes with hNew | hOld
    · cases hNew
      exact absurd rfl hOther.2
    · exact hInv.stopped k others hOther.1 hOld
  · intro k l hEnd hCancels
    have hOther := hEnded k hEnd
    apply hInv.cancelled k l hOther.1
    rcases hCancels with hError | hCancelled
    · rcases List.mem_cons.mp hError with hNew | hOld
      · cases hNew
        exact absurd rfl hOther.2
      · exact Or.inl hOld
    · rcases List.mem_cons.mp hCancelled with hNew | hOld
      · cases hNew
        exact absurd rfl hOther.2
      · exact Or.inr hOld

/- What a task has to leave when it ends. -/
structure Closing (i : Nat) (w : TransferWorld) : Prop where
  settled : Settled i w.trace
  created :
    ∀ messages ends, Pushes i messages ends w.trace →
      (∃ job, Created i job w.trace) ∨ ¬ Finalized i w.trace
  stopped :
    ∀ messages, Pushes i messages true w.trace →
      (∃ job, Created i job w.trace) ∨
        (w.state.pushes i).closed = true
  cancelled :
    ∀ k, Cancels i k w.trace →
      (w.state.pushes k).closed = true

theorem keeps_finish
    {outcome : Except TransferError TransferReturn}
    (hInv : RemainsInv w)
    (hClosing : Closing i w) :
    remainsContract.Ends i outcome w := by
  have hTrace :
      (w.finish i outcome).trace =
        .finished i outcome :: w.trace :=
    rfl
  have hEnded :
      ∀ k, Ended k (w.finish i outcome).trace →
        Ended k w.trace ∨ k = i := by
    rintro k ⟨other, hMember⟩
    rcases List.mem_cons.mp hMember with hNew | hOld
    · cases hNew
      exact Or.inr rfl
    · exact Or.inl ⟨other, hOld⟩
  have hCancels :
      ∀ k l, Cancels k l (w.finish i outcome).trace →
        Cancels k l w.trace := by
    rintro k l (hError | hCancelled)
    · rcases List.mem_cons.mp hError with hNew | hOld
      · cases hNew
      · exact Or.inl hOld
    · rcases List.mem_cons.mp hCancelled with hNew | hOld
      · cases hNew
      · exact Or.inr hOld
  refine
    keeps_event hTrace (by simp) hInv rfl
      { fresh := fun _ _ hEq => by cases hEq
        stopped := ?_
        cancelled := ?_
        ends := ?_ }
  · intro k others hEnd hPushes
    have hBefore : Pushes k others true w.trace := by
      rcases List.mem_cons.mp hPushes with hNew | hOld
      · cases hNew
      · exact hOld
    rcases hEnded k hEnd with hOld | rfl
    · exact hInv.stopped k others hOld hBefore
    · exact hClosing.stopped others hBefore
  · intro k l hEnd hStop
    have hBefore := hCancels k l hStop
    rcases hEnded k hEnd with hOld | rfl
    · exact hInv.cancelled k l hOld hBefore
    · exact hClosing.cancelled l hBefore
  · intro k other hEq
    cases hEq
    exact ⟨hClosing.settled, hClosing.created⟩

/- A push is no cancellation. -/
theorem not_cancels_of_pushes
    (hInv : RemainsInv w)
    (hPushes : Pushes i messages ends w.trace)
    (k : Nat) :
    ¬ Cancels i k w.trace := by
  rintro (hError | hCancelled)
  · cases hInv.unique i _ _ hPushes hError
  · cases hInv.unique i _ _ hPushes hCancelled

/- A stopped push, or one that waits for more. -/
theorem closing_of_unfinished
    (hInv : RemainsInv w)
    (hHere : Unfinished i messages ends w)
    (hEnds :
      ends = true → (w.state.pushes i).closed = true) :
    Closing i w where
  settled := hHere.settled
  created := fun _ _ _ => Or.inr hHere.unfinished
  stopped := by
    intro others hPushes
    have hSame := hInv.unique i _ _ hHere.pushes hPushes
    cases hSame
    exact Or.inr (hEnds rfl)
  cancelled := fun k hCancels =>
    absurd hCancels
      (not_cancels_of_pushes hInv hHere.pushes k)

theorem closing_of_finished
    {job : TransferJob}
    (hInv : RemainsInv w)
    (hHere : Finished i messages ends job w) :
    Closing i w where
  settled := hHere.settled
  created := fun _ _ _ => Or.inl ⟨job, hHere.created⟩
  stopped := fun _ _ => Or.inl ⟨job, hHere.created⟩
  cancelled := fun k hCancels =>
    absurd hCancels
      (not_cancels_of_pushes hInv hHere.pushes k)

theorem closing_of_replied
    {reply : Option PushReply}
    (hInv : RemainsInv w)
    (hReplied :
      (cleanupOutline config i messages ends).Replied reply
        w) :
    Closing i w := by
  have hOther :
      (Unfinished i messages ends w ∧
        (ends = true → Stopped i messages ends w)) →
        Closing i w := by
    rintro ⟨hHere, hEnds⟩
    exact
      closing_of_unfinished hInv hHere
        fun hTrue => (hEnds hTrue).closed
  cases reply with
  | none => exact hOther hReplied
  | some reply =>
      cases reply with
      | refused status => exact hOther hReplied
      | done result =>
          rcases hReplied with
            ⟨started, _, _, ⟨_, hDry, hFinishing⟩ |
              ⟨job, _, hFinished⟩⟩
          · have hReal := hFinishing.real
            rw [hDry] at hReal
            cases hReal
          · exact closing_of_finished hInv hFinished

/- A task that is neither a push nor a cancellation. -/
theorem closing_of_other
    (hInv : RemainsInv w)
    (hStarted : .started i call ∈ w.trace)
    (hPush : ∀ messages ends, call ≠ .push messages ends)
    (hError : ∀ stream, call ≠ .pushError stream)
    (hCancelled : ∀ stream, call ≠ .pushCancelled stream)
    (hSettled : Settled i w.trace) :
    Closing i w where
  settled := hSettled
  created := by
    intro messages ends hPushes
    exact
      absurd (hInv.unique i _ _ hStarted hPushes)
        (hPush messages ends)
  stopped := by
    intro messages hPushes
    exact
      absurd (hInv.unique i _ _ hStarted hPushes)
        (hPush messages true)
  cancelled := by
    rintro k (hOne | hTwo)
    · exact
        absurd (hInv.unique i _ _ hStarted hOne) (hError k)
    · exact
        absurd (hInv.unique i _ _ hStarted hTwo) (hCancelled k)

/- A cancellation of a stream, and no push. -/
theorem closing_of_cancelling
    (hInv : RemainsInv w)
    (hStarted : .started i call ∈ w.trace)
    (hCall :
      call = .pushError stream ∨ call = .pushCancelled stream)
    (hHere : Cancelling i stream none w) :
    Closing i w where
  settled := hHere.removing.settled
  created := by
    intro messages ends hPushes
    have hSame := hInv.unique i _ _ hStarted hPushes
    subst hSame
    rcases hCall with hEq | hEq <;> cases hEq
  stopped := by
    intro messages hPushes
    have hSame := hInv.unique i _ _ hStarted hPushes
    subst hSame
    rcases hCall with hEq | hEq <;> cases hEq
  cancelled := by
    rintro k (hOne | hTwo)
    · have hSame := hInv.unique i _ _ hStarted hOne
      subst hSame
      rcases hCall with hEq | hEq
      · cases hEq
        exact hHere.closed
      · cases hEq
    · have hSame := hInv.unique i _ _ hStarted hTwo
      subst hSame
      rcases hCall with hEq | hEq
      · cases hEq
      · cases hEq
        exact hHere.closed

theorem cancelling_of_step
    {choice : TransferChoice}
    {after : TransferState}
    {step : SessionStep}
    {reply : step.Answer}
    (hInv : RemainsInv w)
    (hCancels : Cancels i stream w.trace)
    (hSettled : Settled i w.trace)
    (hExec :
      (TransferOp.session stream step).exec config choice
          w.state =
        some (reply, after))
    (hDisturbs : step.disturbs reply = true) :
    Cancelling i stream (step.removal reply)
      (w.perform i (.session stream step) reply after) where
  cancels := hCancels.perform
  removing := hSettled.step
  closed := closed_of_disturbs hInv hExec hDisturbs

theorem moves_error :
    Moves config remainsContract (cleanRun config) i
      (.session stream .error)
      (fun v => Cancels i stream v.trace ∧ Settled i v.trace)
      (Cancelling i stream) := by
  refine moves_of_owes (fun _ hHere _ => hHere.1) ?_
  intro v choice answer after hHere hInv _ hExec
  exact cancelling_of_step hInv hHere.1 hHere.2 hExec rfl

theorem moves_cancelled :
    Moves config remainsContract (cleanRun config) i
      (.session stream .cancelled)
      (fun v => Cancels i stream v.trace ∧ Settled i v.trace)
      (Cancelling i stream) := by
  refine moves_of_owes (fun _ hHere _ => hHere.1) ?_
  intro v choice answer after hHere hInv _ hExec
  exact cancelling_of_step hInv hHere.1 hHere.2 hExec rfl

theorem cancelling_safe
    {removal : Removal}
    (hHere : Cancelling i stream removal w) :
    SafeProgram config remainsContract (cleanRun config) i
      (removeStaging removal)
      (fun _ => Cancelling i stream none)
      (Cancelling i stream none) w := by
  cases removal with
  | none => exact hHere
  | some path =>
      refine files_safe ?_ stable_cancelling hHere
      refine moves_of_owes ?_ ?_
      · intro v hThere _ other hOther
        rw [FileStatement.writes, List.mem_singleton] at hOther
        subst hOther
        exact Or.inr ⟨rfl, hThere.removing.asked _ rfl⟩
      · intro v choice answer after hThere _ _ hExec
        have hDone :
            Cancelling i stream none
              (v.perform i (.files (.rm path)) answer after) :=
          { cancels := hThere.cancels.perform
            removing := hThere.removing.perform_rm.removing
            closed := closed_exec hExec hThere.closed }
        cases answer with
        | error error => exact hDone
        | ok value => exact hDone

theorem settled_of_fresh
    (hFresh : w.Fresh i) :
    Settled i (w.start i call).trace := by
  rintro k path ⟨_, hEvent, step, answer, before, after, rfl, _⟩
  rcases List.mem_cons.mp hEvent with hNew | hOld
  · cases hNew
  · exact absurd rfl (hFresh _ hOld)

theorem push_safe
    (hInv : RemainsInv w)
    (hFresh : w.Fresh i) :
    remainsContract.SafeTask (transferSystem config)
      (cleanRun config) i
      (serveCall config i (.push messages ends))
      (w.start i (.push messages ends)) := by
  have hKeeps :
      remainsContract.Keeps i w
        (w.start i (.push messages ends)) :=
    keeps_start hInv hFresh
  have hHere :
      Unfinished i messages ends
        (w.start i (.push messages ends)) := by
    refine
      ⟨⟨List.mem_cons_self, settled_of_fresh hFresh⟩, ?_⟩
    rintro ⟨_, hEvent, step, answer, before, after, rfl, _⟩
    rcases List.mem_cons.mp hEvent with hNew | hOld
    · cases hNew
    · exact hFresh _ hOld rfl
  have hSafe :=
    (cleanupOutline config i messages ends).push_safe hHere
  refine Contract.safe_bind ?_
  refine Contract.safe_mono ?_ ?_
    (Contract.safe_with_inv hKeeps.1 hSafe)
  · rintro reply v ⟨hThere, hReplied⟩
    exact
      keeps_finish hThere (closing_of_replied hThere hReplied)
  · rintro error v ⟨hThere, hStuck⟩
    have hStopped : Stopped i messages ends v := hStuck
    exact
      keeps_finish hThere
        (closing_of_unfinished hThere hStopped.toUnfinished
          fun _ => hStopped.closed)

theorem abort_safe
    (hInv : RemainsInv w)
    (hFresh : w.Fresh i)
    (hCall :
      call = .pushError stream ∨
        call = .pushCancelled stream) :
    remainsContract.SafeTask (transferSystem config)
      (cleanRun config) i (serveCall config i call)
      (w.start i call) := by
  have hKeeps :
      remainsContract.Keeps i w (w.start i call) :=
    keeps_start hInv hFresh
  have hStarted :
      .started i call ∈ (w.start i call).trace :=
    List.mem_cons_self
  have hSafe :
      SafeProgram config remainsContract (cleanRun config) i
        (serveCall config i call)
        (fun _ => Cancelling i stream none)
        (Cancelling i stream none) (w.start i call) := by
    have hSettled : Settled i (w.start i call).trace :=
      settled_of_fresh hFresh
    rcases hCall with rfl | rfl
    · refine Contract.safe_bind (Contract.safe_bind ?_)
      refine Contract.safe_mono ?_ (fun _ _ h => h)
        (moves_error.safe stable_cancels
          ⟨Or.inl hStarted, hSettled⟩)
      intro removal v hHere
      exact cancelling_safe hHere
    · refine Contract.safe_bind (Contract.safe_bind ?_)
      refine Contract.safe_mono ?_ (fun _ _ h => h)
        (moves_cancelled.safe stable_cancels
          ⟨Or.inr hStarted, hSettled⟩)
      intro removal v hHere
      exact cancelling_safe hHere
  refine Contract.safe_mono ?_ ?_
    (Contract.safe_with_inv hKeeps.1
      (Contract.safe_with_event hStarted hSafe))
  · rintro value v ⟨hThere, hLater, hHere⟩
    exact
      keeps_finish hThere
        (closing_of_cancelling hThere hLater hCall hHere)
  · rintro error v ⟨hThere, hLater, hHere⟩
    exact
      keeps_finish hThere
        (closing_of_cancelling hThere hLater hCall hHere)

theorem serveCall_safe
    (hInv : RemainsInv w)
    (hFresh : w.Fresh i) :
    remainsContract.SafeTask (transferSystem config)
      (cleanRun config) i (serveCall config i call)
      (w.start i call) := by
  by_cases hPush :
      ∃ messages ends, call = .push messages ends
  · rcases hPush with ⟨messages, ends, rfl⟩
    exact push_safe hInv hFresh
  by_cases hAbort :
      ∃ stream,
        call = .pushError stream ∨ call = .pushCancelled stream
  · rcases hAbort with ⟨stream, hCall⟩
    exact abort_safe hInv hFresh hCall
  have hKeeps :
      remainsContract.Keeps i w (w.start i call) :=
    keeps_start hInv hFresh
  have hStarted :
      .started i call ∈ (w.start i call).trace :=
    List.mem_cons_self
  have hNone :
      ∀ messages ends, call ≠ .push messages ends :=
    fun messages ends hEq => hPush ⟨messages, ends, hEq⟩
  have hError : ∀ stream, call ≠ .pushError stream :=
    fun stream hEq => hAbort ⟨stream, Or.inl hEq⟩
  have hCancelled : ∀ stream, call ≠ .pushCancelled stream :=
    fun stream hEq => hAbort ⟨stream, Or.inr hEq⟩
  have hMoves :
      ∀ op, Background op →
        Moves config remainsContract (cleanRun config) i op
          (fun v => Settled i v.trace)
          fun _ v => Settled i v.trace := by
    intro op hBackground
    refine
      moves_of_owes (fun _ _ _ => owes_background hBackground)
        ?_
    intro v choice answer after hSettled _ _ _
    apply hSettled.perform
    rintro l step rfl
    exact hBackground
  refine Contract.safe_mono ?_ ?_
    (Contract.safe_with_inv hKeeps.1
      (Contract.safe_with_event hStarted
        (background_safe hMoves stable_settled hNone hError
          hCancelled (settled_of_fresh hFresh))))
  · rintro value v ⟨hThere, hLater, hSettled⟩
    exact
      keeps_finish hThere
        (closing_of_other hThere hLater hNone hError hCancelled
          hSettled)
  · rintro error v ⟨hThere, hLater, hSettled⟩
    exact
      keeps_finish hThere
        (closing_of_other hThere hLater hNone hError hCancelled
          hSettled)

------------------------------------------------------------
-- Every Run
------------------------------------------------------------

open PushIntegrity (Pushes Created namesUnique)

variable {config : TransferConfig} {w : TransferWorld}
variable {i j : Nat}
variable {trace : List TransferEvent}

theorem remainsInv_initial
    {initial : TransferState}
    (hInitial : NoPushes initial) :
    RemainsInv ⟨initial, []⟩ where
  unique := fun _ _ _ hCall => absurd hCall List.not_mem_nil
  sealed_ := by
    rintro k _ _ ticketId ticket ⟨event, hEvent, _⟩
    exact absurd hEvent List.not_mem_nil
  ended := by
    intro k sink hClosed
    rw [hInitial k] at hClosed
    cases hClosed
  asked := by
    intro k sink path hClosed
    rw [hInitial k] at hClosed
    cases hClosed
  held := by
    rintro j k path ⟨event, hEvent, _⟩
    exact absurd hEvent List.not_mem_nil
  asker := by
    rintro j path ⟨before, after, hMember⟩
    exact absurd hMember List.not_mem_nil
  gone := by
    rintro j path ⟨before, after, hMember⟩
    exact absurd hMember List.not_mem_nil
  finalized := by
    rintro k ⟨event, hEvent, _⟩
    exact absurd hEvent List.not_mem_nil
  aborted := by
    intro k hAborted
    rw [hInitial k] at hAborted
    cases hAborted
  sinks := by
    intro k sink hSink
    rw [hInitial k] at hSink
    cases hSink
  paths := by
    intro k _
    rw [hInitial k]
    rfl
  stopped := by
    rintro j messages ⟨outcome, hMember⟩
    exact absurd hMember List.not_mem_nil
  cancelled := by
    rintro j k ⟨outcome, hMember⟩
    exact absurd hMember List.not_mem_nil
  ends := trivial

/- A task that has ended has tried every removal. -/
theorem settled_of_ended
    (hInv : RemainsInv w)
    (hQuiet : Concurrency.Quiet w.trace)
    (hEnded : Ended j w.trace) :
    Settled j w.trace := by
  rcases hEnded with ⟨outcome, hMember⟩
  rcases List.append_of_mem hMember with
    ⟨newer, older, hTrace⟩
  have hSettled :=
    (throughout_iff.mp hInv.ends newer _ older hTrace j outcome
      rfl).1
  have hLater : ∀ event ∈ older, event ∈ w.trace := by
    intro event hEvent
    rw [hTrace]
    exact
      List.mem_append_right _ (List.mem_cons_of_mem _ hEvent)
  rintro k path
    ⟨_, hEvent, step, answer, before, after, rfl, hRemoval⟩
  have hBefore := hQuiet.before_end hTrace hEvent
  rcases List.mem_cons.mp hBefore with hSame | hOld
  · cases hSame
  · rcases hSettled k path
        ⟨_, hOld, step, answer, before, after, rfl,
          hRemoval⟩ with
      ⟨first, last, hRemoved⟩ | ⟨error, first, last, hNot⟩
    · exact Or.inl ⟨first, last, hLater _ hRemoved⟩
    · exact Or.inr ⟨error, first, last, hLater _ hNot⟩

/- A push that has ended without a job was not finished. -/
theorem unfinished_of_ended
    {messages : List PushMessage}
    {ends : Bool}
    (hInv : RemainsInv w)
    (hQuiet : Concurrency.Quiet w.trace)
    (hEnded : Ended i w.trace)
    (hPushes : Pushes i messages ends w.trace)
    (hNone : ∀ job, ¬ Created i job w.trace) :
    ¬ Finalized i w.trace := by
  rcases hEnded with ⟨outcome, hMember⟩
  rcases List.append_of_mem hMember with
    ⟨newer, older, hTrace⟩
  have hEnds :=
    (throughout_iff.mp hInv.ends newer _ older hTrace i outcome
      rfl).2
  have hStarted : Pushes i messages ends older := by
    have hBefore := hQuiet.before_end hTrace hPushes
    rcases List.mem_cons.mp hBefore with hSame | hOld
    · cases hSame
    · exact hOld
  rintro ⟨_, hEvent, step, answer, before, after, rfl, hDone⟩
  have hBefore := hQuiet.before_end hTrace hEvent
  rcases List.mem_cons.mp hBefore with hSame | hOld
  · cases hSame
  · rcases hEnds messages ends hStarted with
      ⟨job, event, hCreation, hCreates⟩ | hUnfinished
    · apply hNone job
      refine ⟨event, ?_, hCreates⟩
      rw [hTrace]
      exact
        List.mem_append_right _
          (List.mem_cons_of_mem _ hCreation)
    · exact
        hUnfinished
          ⟨_, hOld, step, answer, before, after, rfl, hDone⟩

theorem cleansUp_of_inv
    (hInv : RemainsInv w)
    (hPush : PushIntegrity.PushInv config w)
    (hQuiet : Concurrency.Quiet w.trace) :
    CleansUp w := by
  intro i messages ends hPushes hOver hNone
  have hUnfinished :=
    unfinished_of_ended hInv hQuiet hOver.push hPushes hNone
  have hClosed : (w.state.pushes i).closed = true := by
    rcases hOver.stopped with rfl | ⟨j, hCancels⟩
    · rcases hInv.stopped i messages hOver.push hPushes with
        ⟨job, hCreated⟩ | hClosed
      · exact absurd hCreated (hNone job)
      · exact hClosed
    · exact
        hInv.cancelled j i (hOver.aborts j hCancels) hCancels
  refine ⟨?_, hInv.sealed_ i hClosed hUnfinished⟩
  intro sink path hSink hPath hKept
  refine ⟨hInv.ended i sink hClosed hUnfinished hSink, ?_⟩
  rcases hInv.asked i sink path hClosed hUnfinished hSink hPath
    with ⟨j, hAsked, hTask⟩
  have hEnded : Ended j w.trace := by
    rcases hTask with rfl | hCancels
    · exact hOver.push
    · exact hOver.aborts j hCancels
  rcases settled_of_ended hInv hQuiet hEnded i path hAsked with
    hRemoved | hNot
  · rcases hInv.gone j path hRemoved with hNas | hGone
    · exact absurd hNas (hPush.staged i path hPath)
    · exact hGone
  · exact absurd hNot (hKept j)

/-
  In every run whose steps let the streams clean up, every
  push stream that ends without a job leaves no staging file
  and no active ticket.
-/
theorem cleans_up
    (config : TransferConfig)
    (initial : TransferState)
    (p : TransferPool)
    (hInitial : NoPushes initial)
    (hRun :
      (transferSystem config).Run cleanSteps
        (Pool.initial initial) p) :
    CleansUp p.world := by
  have hKnown :
      ∀ q, (transferSystem config).Run cleanSteps
          (Pool.initial initial) q →
        PushIntegrity.PushInv config q.world := by
    intro q hReached
    have hUnique :
        (transferSystem config).Run namesUnique
          (Pool.initial initial) q := by
      refine hReached.mono (fun _ _ _ _ => trivial) ?_
      intro i op w hOk
      exact hOk.1
    exact PushIntegrity.pushInv_run hInitial hUnique
  have hSound :
      remainsContract.PoolSafe (transferSystem config)
        (cleanRun config) p :=
    Contract.sound initial (remainsInv_initial hInitial)
      (fun w i call hInv hFresh _ =>
        ⟨keeps_start hInv hFresh, serveCall_safe hInv hFresh⟩)
      (hRun.also hKnown)
  exact
    cleansUp_of_inv hSound.inv (hKnown p hRun)
      (quiet_run hRun)

/- A push whose ticket is closed, and that is cancelled
   then. -/
def closedThenCancelled :
    List (Label TransferChoice TransferCall) :=
  [ .start 1
      (.push
        [.header ⟨"t", "push", "r"⟩, .chunk [7]] false) ] ++
  List.replicate 6 (.resume 1 (draw "")) ++
  [ .resume 1 (draw "upload") ] ++
  List.replicate 3 (.resume 1 (draw "")) ++
  [ .start 2 (.postSessionClose (some "eve") "t")
  , .resume 2 (draw "")
  , .start 3 (.pushCancelled 1)
  , .resume 3 (draw "")
  , .resume 3 (draw "") ]

def noneActive (w : TransferWorld) : Bool :=
  w.state.tickets.rows.all fun ticket =>
    ticket.status ≠ .active

/- A check that a step is clean, for runs in which no stream
   gets to its end. -/
def tidyStep
    (session : PushSession)
    (step : SessionStep)
    (w : TransferWorld) : Bool :=
  match step with
  | .finalize => false
  | .markAborted _ => false
  | step =>
      !session.closed &&
        (!step.mayAbort session || noneActive w)

def tidyOp
    (i : Nat)
    (op : TransferOp)
    (w : TransferWorld) : Bool :=
  match op with
  | .tickets (.activate _ _ _ _) =>
      !(w.state.pushes i).closed
  | .session k step => tidyStep (w.state.pushes k) step w
  | _ => true

def tidy
    (i : Nat)
    (op : TransferOp)
    (w : TransferWorld) : Bool :=
  PushIntegrity.drawnOnce w && tidyOp i op w

theorem leavesNoTicket_of_noneActive
    (hNone : noneActive w = true) :
    LeavesNoTicket i w := by
  intro ticketId ticket _ hFind
  have hStatus :=
    List.all_eq_true.mp hNone ticket
      (KeyedTable.mem_of_find? hFind)
  simpa using hStatus

theorem leavesNoTicket_of_tidyStep
    {step : SessionStep}
    (hTidy : tidyStep (w.state.pushes k) step w = true)
    (hMay : step.mayAbort (w.state.pushes k) = true) :
    LeavesNoTicket k w := by
  apply leavesNoTicket_of_noneActive
  unfold tidyStep at hTidy
  split at hTidy
  · cases hTidy
  · cases hTidy
  · rw [hMay, Bool.and_eq_true] at hTidy
    simpa using hTidy.2

theorem cleanStep_of_tidyOp
    (hTidy : tidyOp i op w = true) :
    CleanStep i op w := by
  refine
    { activates := ?_
      opens := ?_
      aborts := ?_
      begins := ?_
      fails := ?_ }
  · intro ticketId operation repo now hOp
    subst hOp
    simpa [tidyOp] using hTidy
  · intro k hOp
    subst hOp
    simp only [tidyOp, tidyStep, Bool.and_eq_true,
      Bool.not_eq_true'] at hTidy
    exact hTidy.1
  · intro k step hOp _ hMay
    subst hOp
    exact leavesNoTicket_of_tidyStep hTidy hMay
  · intro k hOp
    subst hOp
    cases hTidy
  · intro k status hOp
    subst hOp
    cases hTidy

theorem cleanSteps_of_tidy
    (i : Nat)
    (op : TransferOp)
    (w : TransferWorld)
    (hTidy : tidy i op w = true) :
    cleanSteps.perform i op w := by
  rw [tidy, Bool.and_eq_true] at hTidy
  exact
    ⟨PushIntegrity.namesUnique_of_drawnOnce i op w hTidy.1,
      cleanStep_of_tidyOp hTidy.2⟩

/- The file of the cancelled push is removed. -/
theorem cleans_up_of_closedThenCancelled :
    ∃ q : TransferPool,
      (transferSystem smallConfig).replay?
          (Pool.initial writerWithTicket)
          closedThenCancelled =
            some q ∧
        CleansUp q.world ∧
        q.world.state.files "/staging/r/upload.staging" =
          none := by
  have hReplay :
      ∃ q : TransferPool,
        (transferSystem smallConfig).replay?
            (Pool.initial writerWithTicket)
            closedThenCancelled =
              some q ∧
          q.world.state.files "/staging/r/upload.staging" =
            none :=
    ⟨_, rfl, by decide⟩
  rcases hReplay with ⟨q, hReplay, hFile⟩
  refine ⟨q, hReplay, ?_, hFile⟩
  refine
    cleans_up smallConfig writerWithTicket q (fun _ => rfl) ?_
  exact
    System.run_of_checks (fun _ _ _ _ => trivial)
      cleanSteps_of_tidy (by decide) hReplay

/- A push of one byte, whose job the store refuses. -/
def failedCreation :
    List (Label TransferChoice TransferCall) :=
  [ .start 1
      (.push
        [.header ⟨"t", "push", "r"⟩, .chunk [7]] true) ] ++
  List.replicate 6 (.resume 1 (draw "")) ++
  [ .resume 1 (draw "upload") ] ++
  List.replicate 7 (.resume 1 (draw "")) ++
  [ .resume 1 (draw "job")
  , .resume 1 { draw "disk full" with fails := true }
  , .resume 1 (draw "")
  , .resume 1 (draw "") ]

def isCreation : TransferEvent → Bool
  | .performed _ (.jobs (.create _)) (.ok _) _ _ => true
  | _ => false

def isCancellation : TransferEvent → Bool
  | .started _ (.pushError _) => true
  | .started _ (.pushCancelled _) => true
  | _ => false

theorem not_created_of_none
    (hNone : trace.all (fun e => !isCreation e) = true)
    (job : TransferJob) :
    ¬ Created i job trace := by
  rintro ⟨_, hEvent, before, after, rfl⟩
  have hNot := List.all_eq_true.mp hNone _ hEvent
  simp [isCreation] at hNot

theorem not_cancels_of_none
    (hNone : trace.all (fun e => !isCancellation e) = true) :
    ¬ Cancels j i trace := by
  rintro (hError | hCancelled)
  · have hNot := List.all_eq_true.mp hNone _ hError
    simp [isCancellation] at hNot
  · have hNot := List.all_eq_true.mp hNone _ hCancelled
    simp [isCancellation] at hNot

def isRemoval : TransferEvent → Bool
  | .performed _ (.files (.rm _)) _ _ _ => true
  | _ => false

theorem not_notRemoved_of_none
    {path : String}
    (hNone : trace.all (fun e => !isRemoval e) = true)
    (j : Nat) :
    ¬ NotRemoved j path trace := by
  rintro ⟨error, before, after, hEvent⟩
  have hNot := List.all_eq_true.mp hNone _ hEvent
  simp [isRemoval] at hNot

/- The file stays, and the ticket is still active. -/
theorem failed_creation_leaves_both :
    ∃ q : TransferPool,
      (transferSystem smallConfig).replay?
          (Pool.initial writerWithTicket) failedCreation =
            some q ∧
        q.world.state.files "/staging/r/upload.staging" =
          some [7] ∧
        (q.world.state.tickets.find? "t").map
            Ticket.status =
          some .active ∧
        ¬ CleansUp q.world := by
  have hReplay :
      ∃ q : TransferPool,
        (transferSystem smallConfig).replay?
            (Pool.initial writerWithTicket) failedCreation =
              some q ∧
          q.world.state.files "/staging/r/upload.staging" =
            some [7] ∧
          (q.world.state.tickets.find? "t").map
              Ticket.status =
            some .active ∧
          (q.world.state.pushes 1).fileSink =
            some ⟨[7], true⟩ ∧
          (q.world.state.pushes 1).stagingFilePath =
            some "/staging/r/upload.staging" ∧
          q.world.trace[19]? =
            some
              (.started 1
                (.push
                  [.header ⟨"t", "push", "r"⟩, .chunk [7]]
                  true)) ∧
          (∃ outcome,
            q.world.trace[0]? =
              some (.finished 1 outcome)) ∧
          q.world.trace.all (fun e => !isCreation e) = true ∧
          q.world.trace.all (fun e => !isCancellation e) =
            true ∧
          q.world.trace.all (fun e => !isRemoval e) = true :=
    ⟨_, rfl, by decide, by decide, rfl, rfl, rfl, ⟨_, rfl⟩,
      by decide, by decide, by decide⟩
  rcases hReplay with
    ⟨q, hReplay, hFile, hTicket, hSink, hPath, hStarted,
      ⟨outcome, hFinished⟩, hCreation, hCancellation,
      hRemoval⟩
  refine ⟨q, hReplay, hFile, hTicket, ?_⟩
  intro hClean
  have hOver : Over 1 true q.world.trace :=
    { push := ⟨outcome, List.mem_of_getElem? hFinished⟩
      aborts := fun j hCancels =>
        absurd hCancels (not_cancels_of_none hCancellation)
      stopped := Or.inl rfl }
  have hLeft :=
    hClean 1 _ true (List.mem_of_getElem? hStarted) hOver
      (not_created_of_none hCreation)
  have hGone :=
    hLeft.1 _ _ hSink hPath
      (not_notRemoved_of_none hRemoval)
  rw [hFile] at hGone
  cases hGone.2

end PushCleanup

end Transfer
