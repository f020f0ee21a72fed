import Deltix.Transfer.PushOutline

/-
  The lifetime of tickets over whole runs: what a push still
  does after its ticket has expired or has been closed, or
  after a heartbeat for it was rejected because the role of
  its user was revoked.

  Once a push has consumed its ticket the server never looks
  at it again, so the property holds of the runs in which no
  chunk and no end of a stream is processed after its ticket
  was lost, and no ticket is lost while a push finishes.

  Key definitions include:
    * `Lost`
    * `LifetimeGoverns`
    * `messagesInTime`
    * `lifetimeContract`

  Key theorems include:
    * `heartbeat_safe`
    * `lifetime_governs`
    * `chunk_after_close`
-/

------------------------------------------------------------
-- The Property
------------------------------------------------------------

namespace Transfer

namespace TicketLifetime

open Auth Concurrency Relational Storage

/- The ticket has passed its expiry or has been closed. -/
def Dead (ticketId : String) (s : TransferState) : Prop :=
  ∃ ticket, s.tickets.find? ticketId = some ticket ∧
    (ticket.expiresAt ≤ s.clock ∨ ticket.status = .closed)

/- How a heartbeat ends when the role was revoked. -/
def rejected : Except TransferError TransferReturn :=
  .ok
    (.beaten
      (.error
        ⟨.permissionDenied,
          TransferError.ticketRoleRevoked.message⟩))

/-
  At some event the ticket was dead, or a heartbeat for it
  was rejected because the role was revoked.
-/
def Died (ticketId : String) : List TransferEvent → Prop
  | [] => False
  | event :: older =>
      (match event with
        | .performed _ _ _ _ after => Dead ticketId after
        | .finished i outcome =>
            outcome = rejected ∧
              .started i (.heartbeat ticketId) ∈ older
        | .started _ _ => False) ∨
        Died ticketId older

def Lost
    (ticketId : String)
    (s : TransferState)
    (trace : List TransferEvent) : Prop :=
  Dead ticketId s ∨ Died ticketId trace

/- The stream that has a chunk accepted or a job created. -/
def progresses : TransferEvent → Option Nat
  | .performed _ (.session stream (.chunk _)) .accepted _ _ =>
      some stream
  | .performed i (.jobs (.create _)) (.ok ()) _ _ => some i
  | _ => none

/-
  Whenever a stream has a chunk accepted or a job created,
  the ticket its handler holds has not been lost.
-/
def LifetimeGoverns (trace : List TransferEvent) : Prop :=
  ∀ newer i op answer before after older stream ticketId,
    trace =
        newer ++
          .performed i op answer before after :: older →
      progresses (.performed i op answer before after) =
          some stream →
        (before.pushes stream).ticketId = some ticketId →
          ¬ Lost ticketId before older

/- The events after which a push can no longer create its
   job. -/
def settles : TransferEvent → Bool
  | .performed _ (.jobs (.create _)) _ _ _ => true
  | .finished _ _ => true
  | _ => false

/- A push has begun to finish and is not settled yet. -/
def Finishing
    (i : Nat)
    (ticketId : String)
    (own : List TransferEvent) : Prop :=
  ∃ newer started before after older,
    own =
        newer ++
          .performed i (.session i .finalize)
            (.finishing started) before after :: older ∧
      started.ticketId = ticketId ∧
      ∀ event ∈ newer, settles event = false

/-
  Chunks and the end of a stream are processed before its
  ticket is lost.  While a push finishes, no other task lets
  its ticket die or has a heartbeat for it rejected.
-/
def messagesInTime (config : TransferConfig) :
    TransferAllowed where
  start := fun _ _ _ => True
  perform := fun i op w =>
    (∀ stream data ticketId,
      op = .session stream (.chunk data) →
        (w.state.pushes stream).aborted = false →
          (w.state.pushes stream).ticketId = some ticketId →
            ¬ Lost ticketId w.state w.trace) ∧
      (∀ stream ticketId,
        op = .session stream .finalize →
          (w.state.pushes stream).aborted = false →
            (w.state.pushes stream).ticketId =
                some ticketId →
              ¬ Lost ticketId w.state w.trace) ∧
      ∀ j ticketId, j ≠ i →
        Finishing j ticketId (w.own j) →
          (∀ choice,
            ¬ Dead ticketId
              (op.run config choice w.state).2) ∧
            ∀ username repo ticket,
              op = .users (.getRepoRole username repo) →
                .started i (.heartbeat ticketId) ∈ w.own i →
                  w.state.tickets.find? ticketId =
                      some ticket →
                    sufficient ticket.operation
                      (roleOn w.state.db username repo) =
                        true

/- Every progress in the trace was made in time. -/
def Governed : List TransferEvent → Prop
  | [] => True
  | event :: older =>
      (∀ i op answer before after stream ticketId,
        event = .performed i op answer before after →
          progresses event = some stream →
            (before.pushes stream).ticketId =
                some ticketId →
              ¬ Lost ticketId before older) ∧
        Governed older

structure LifetimeInv (w : TransferWorld) : Prop where
  governed : Governed w.trace
  held :
    ∀ i ticketId,
      (w.state.pushes i).ticketId = some ticketId →
        (w.state.tickets.find? ticketId).isSome = true

structure LifetimeRely (i : Nat) (w v : TransferWorld) :
    Prop where
  own : v.own i = w.own i
  grants :
    ∀ ticketId ticket,
      w.state.tickets.find? ticketId = some ticket →
        ∃ later,
          v.state.tickets.find? ticketId = some later ∧
            ticket.SameGrant later
  session :
    (v.state.pushes i).ticketId = (w.state.pushes i).ticketId
  alive :
    ∀ ticketId, Finishing i ticketId (w.own i) →
      ¬ Lost ticketId w.state w.trace →
        ¬ Lost ticketId v.state v.trace

def lifetimeContract : TransferContract where
  inv := LifetimeInv
  rely := LifetimeRely
  rely_refl := fun _ _ =>
    { own := rfl
      grants := fun _ ticket hFind =>
        ⟨ticket, hFind, .refl ticket⟩
      session := rfl
      alive := fun _ _ hAlive => hAlive }
  rely_trans := fun i w v u hFirst hSecond =>
    { own := by rw [hSecond.own, hFirst.own]
      grants := by
        intro ticketId ticket hFind
        rcases hFirst.grants ticketId ticket hFind with
          ⟨next, hNext, hSame⟩
        rcases hSecond.grants ticketId next hNext with
          ⟨later, hLater, hSame'⟩
        exact ⟨later, hLater, hSame.trans hSame'⟩
      session := by rw [hSecond.session, hFirst.session]
      alive := by
        intro ticketId hFinishing hAlive
        have hNext :=
          hFirst.alive ticketId hFinishing hAlive
        rw [← hFirst.own] at hFinishing
        exact hSecond.alive ticketId hFinishing hNext }

/- What a task owes before an operation that matters. -/
def Timely
    (i : Nat)
    (op : TransferOp)
    (w : TransferWorld) : Prop :=
  match op with
  | .jobs (.create _) =>
      ∀ ticketId,
        (w.state.pushes i).ticketId = some ticketId →
          ¬ Lost ticketId w.state w.trace
  | .session stream (.ticketConsumed header _) =>
      stream = i ∧
        (w.state.tickets.find? header.ticketId).isSome = true
  | _ => True

theorem timely_of_mild
    {i : Nat}
    {op : TransferOp}
    (hMild : Mild op)
    (w : TransferWorld) :
    Timely i op w := by
  unfold Mild at hMild
  unfold Timely
  split
  · exact hMild.elim
  · exact hMild.elim
  · trivial

------------------------------------------------------------
-- Steps Keep The Contract
------------------------------------------------------------

variable {config : TransferConfig} {w v : TransferWorld}
variable {i j : Nat} {op : TransferOp}
variable {choice : TransferChoice} {answer : op.Answer}
variable {after : TransferState} {ticketId : String}

/- No operation deletes a ticket. -/
theorem grants_exec
    (hExec :
      op.exec config choice w.state = some (answer, after))
    {ticket : Ticket}
    (hFind :
      w.state.tickets.find? ticketId = some ticket) :
    ∃ later, after.tickets.find? ticketId = some later ∧
      ticket.SameGrant later := by
  rcases (TransferOp.exec_frame hExec).tickets with
    hSame | ⟨statement, _, hRun⟩
  · rw [hSame]
    exact ⟨ticket, hFind, .refl ticket⟩
  · rw [hRun]
    exact statement.grant_run hFind

theorem isSome_exec
    (hExec :
      op.exec config choice w.state = some (answer, after))
    (hSome :
      (w.state.tickets.find? ticketId).isSome = true) :
    (after.tickets.find? ticketId).isSome = true := by
  rcases Option.isSome_iff_exists.mp hSome with
    ⟨ticket, hFind⟩
  rcases grants_exec hExec hFind with ⟨later, hLater, _⟩
  rw [hLater]
  rfl

/- The ticket of a session is the one it consumed. -/
theorem ticketId_exec
    (hTimely : Timely i op w)
    (hExec :
      op.exec config choice w.state = some (answer, after))
    (stream : Nat) :
    (after.pushes stream).ticketId =
        (w.state.pushes stream).ticketId ∨
      ∃ header : PushHeader,
        stream = i ∧
          (after.pushes stream).ticketId =
            some header.ticketId ∧
          (w.state.tickets.find? header.ticketId).isSome =
            true := by
  rcases TransferOp.exec_pushes hExec with
    hSame | ⟨other, step, hOp, hPushes⟩
  · rw [hSame]
    exact Or.inl rfl
  · subst hOp
    rw [hPushes]
    by_cases hStream : stream = other
    · subst hStream
      rw [Function.update_self]
      by_cases hPlain : step.Plain
      · exact Or.inl
          (SessionStep.identity_run hPlain).ticketId
      · cases step with
        | ticketConsumed header ticket =>
            exact Or.inr ⟨header, hTimely.1, rfl, hTimely.2⟩
        | _ => exact absurd (by simp [SessionStep.Plain]) hPlain
    · rw [Function.update_of_ne hStream]
      exact Or.inl rfl

/- A chunk is accepted by a session that is not aborted. -/
theorem not_aborted_of_accepted
    {stream : Nat}
    {data : Content}
    (hExec :
      (TransferOp.session stream (.chunk data)).exec config
          choice w.state = some (.accepted, after)) :
    (w.state.pushes stream).aborted = false := by
  have hAnswer := (exec_session hExec).1
  simp only [SessionStep.run] at hAnswer
  unfold PushSession.processChunk at hAnswer
  split at hAnswer
  · cases hAnswer
  · rename_i hAborted
    exact Bool.not_eq_true _ ▸ hAborted

/- What progresses at an operation is in time. -/
theorem in_time_of_progresses
    (hOk : (messagesInTime config).perform i op w)
    (hTimely : Timely i op w)
    (hExec :
      op.exec config choice w.state = some (answer, after))
    {stream : Nat}
    (hProgresses :
      progresses (.performed i op answer w.state after) =
        some stream)
    (hTicket :
      (w.state.pushes stream).ticketId = some ticketId) :
    ¬ Lost ticketId w.state w.trace := by
  unfold progresses at hProgresses
  split at hProgresses
  · rename_i hEvent
    cases hEvent
    cases hProgresses
    exact hOk.1 _ _ ticketId rfl
      (not_aborted_of_accepted hExec) hTicket
  · rename_i hEvent
    cases hEvent
    cases hProgresses
    exact hTimely ticketId hTicket
  · cases hProgresses

theorem lifetimeInv_perform
    (hInv : LifetimeInv w)
    (hOk : (messagesInTime config).perform i op w)
    (hTimely : Timely i op w)
    (hExec :
      op.exec config choice w.state = some (answer, after)) :
    LifetimeInv (w.perform i op answer after) where
  governed := by
    refine ⟨?_, hInv.governed⟩
    intro k other reply before later stream id hEvent
      hProgresses hTicket
    cases hEvent
    exact in_time_of_progresses hOk hTimely hExec hProgresses
      hTicket
  held := by
    intro stream id hTicket
    rw [World.perform_state] at hTicket ⊢
    apply isSome_exec hExec
    rcases ticketId_exec hTimely hExec stream with
      hSame | ⟨header, _, hNew, hSome⟩
    · rw [hSame] at hTicket
      exact hInv.held stream id hTicket
    · rw [hNew, Option.some.injEq] at hTicket
      rw [← hTicket]
      exact hSome

theorem lifetimeRely_perform
    (hOk : (messagesInTime config).perform i op w)
    (hTimely : Timely i op w)
    (hExec :
      op.exec config choice w.state = some (answer, after))
    (hOther : j ≠ i) :
    LifetimeRely j w (w.perform i op answer after) where
  own := World.own_perform_of_ne w op answer after hOther
  grants := by
    intro id ticket hFind
    exact grants_exec hExec hFind
  session := by
    rw [World.perform_state]
    rcases ticketId_exec hTimely hExec j with
      hSame | ⟨_, hEq, _⟩
    · exact hSame
    · exact absurd hEq hOther
  alive := by
    intro id hFinishing hAlive hLost
    have hNotDead : ¬ Dead id after := by
      have hRun :=
        (hOk.2.2 j id hOther hFinishing).1 choice
      rw [(TransferOp.exec_eq_some_iff.mp hExec).2] at hRun
      exact hRun
    rcases hLost with hDead | hDead | hDied
    · exact hNotDead hDead
    · exact hNotDead hDead
    · exact hAlive (Or.inr hDied)

/- A timely step keeps the contract. -/
theorem keeps_perform
    (hInv : LifetimeInv w)
    (hOk : (messagesInTime config).perform i op w)
    (hTimely : Timely i op w)
    (hExec :
      op.exec config choice w.state = some (answer, after)) :
    lifetimeContract.Keeps i w
      (w.perform i op answer after) :=
  ⟨lifetimeInv_perform hInv hOk hTimely hExec,
    fun _ hOther =>
      lifetimeRely_perform hOk hTimely hExec hOther⟩

/-
  An event that is no operation keeps the contract, unless
  it rejects a heartbeat for a ticket whose push finishes.
-/
theorem keeps_event
    (event : TransferEvent)
    (hInv : LifetimeInv w)
    (hState : v.state = w.state)
    (hTrace : v.trace = event :: w.trace)
    (hTask : event.task = i)
    (hEvent :
      ∀ k op answer before later,
        event ≠ .performed k op answer before later)
    (hAlive :
      ∀ k id, k ≠ i → Finishing k id (w.own k) →
        ¬ Died id w.trace → ¬ Died id v.trace) :
    lifetimeContract.Keeps i w v := by
  have hGrows :
      ∀ k, k ≠ i → World.Grows k w v := by
    intro k hk
    exact World.Grows.cons event
      (by rw [hTask]; exact fun h => hk h.symm) hTrace
  refine ⟨⟨?_, ?_⟩, ?_⟩
  · rw [hTrace]
    refine ⟨?_, hInv.governed⟩
    intro k op answer before later stream id hEq
    exact absurd hEq (hEvent k op answer before later)
  · intro stream id hTicket
    rw [hState] at hTicket ⊢
    exact hInv.held stream id hTicket
  · intro k hk
    refine
      { own := (hGrows k hk).own_eq
        grants := ?_
        session := by rw [hState]
        alive := ?_ }
    · intro id ticket hFind
      rw [hState]
      exact ⟨ticket, hFind, .refl ticket⟩
    · intro id hFinishing hNotLost hLost
      rw [hState] at hLost
      rcases hLost with hDead | hDied
      · exact hNotLost (Or.inl hDead)
      · exact hAlive k id hk hFinishing
          (fun h => hNotLost (Or.inr h)) hDied

theorem keeps_start
    (call : TransferCall)
    (hInv : LifetimeInv w) :
    lifetimeContract.Keeps i w (w.start i call) := by
  refine keeps_event (.started i call) hInv rfl rfl rfl
    (by simp) ?_
  intro k id _ _ hAlive hDied
  rcases hDied with hNever | hDied
  · exact hNever
  · exact hAlive hDied

/- A task that is no heartbeat ends without harm. -/
theorem ends_of_inv
    {outcome : Except TransferError TransferReturn}
    (hInv : LifetimeInv w)
    (hBeat :
      ∀ id, outcome = rejected →
        .started i (.heartbeat id) ∈ w.trace →
          ∀ k, k ≠ i → ¬ Finishing k id (w.own k)) :
    lifetimeContract.Ends i outcome w := by
  refine keeps_event (.finished i outcome) hInv rfl rfl rfl
    (by simp) ?_
  intro k id hk hFinishing hAlive hDied
  rcases hDied with ⟨hRejected, hStarted⟩ | hDied
  · exact hBeat id hRejected hStarted k hk hFinishing
  · exact hAlive hDied

variable {call : TransferCall}

/- The task serves one call, in a world with the invariant. -/
structure Serving
    (call : TransferCall)
    (i : Nat)
    (w : TransferWorld) : Prop where
  inv : LifetimeInv w
  only : ∀ other, .started i other ∈ w.own i → other = call

theorem stable_serving :
    lifetimeContract.Stable i (Serving call i) := by
  intro w v hServing hInterferes hInv
  refine ⟨hInv, ?_⟩
  rw [hInterferes.1.own_eq]
  exact hServing.only

theorem Serving.perform
    (hServing : Serving call i w)
    (hInv : LifetimeInv (w.perform i op answer after)) :
    Serving call i (w.perform i op answer after) := by
  refine ⟨hInv, ?_⟩
  intro other hStarted
  rw [World.own_perform] at hStarted
  rcases List.mem_cons.mp hStarted with hEvent | hOld
  · cases hEvent
  · exact hServing.only other hOld

theorem serving_start
    (hInv : LifetimeInv w)
    (hFresh : w.Fresh i) :
    Serving call i (w.start i call) := by
  refine ⟨(keeps_start (i := i) call hInv).1, ?_⟩
  intro other hStarted
  rw [World.own_start,
    World.own_eq_nil_of_fresh hFresh] at hStarted
  cases List.mem_singleton.mp hStarted
  rfl

/- What the trace says started is the call itself. -/
theorem Serving.eq_of_started
    (hServing : Serving call i w)
    {other : TransferCall}
    (hStarted : .started i other ∈ w.trace) :
    other = call := by
  apply hServing.only
  simpa [World.own] using hStarted

/- A mild operation keeps a call served. -/
theorem moves_mild
    (op : TransferOp)
    (hMild : Mild op) :
    Moves config lifetimeContract (messagesInTime config) i
      op (Serving call i) fun _ => Serving call i := by
  intro v hServing hInv hOk choice answer after hExec
  have hKeeps :=
    keeps_perform hInv hOk (timely_of_mild hMild v) hExec
  exact ⟨hKeeps, hServing.perform hKeeps.1⟩

/- A call that is no heartbeat ends without harm. -/
theorem Serving.ends
    (hServing : Serving call i w)
    (hCall : ∀ id, call ≠ .heartbeat id)
    (outcome : Except TransferError TransferReturn) :
    lifetimeContract.Ends i outcome w := by
  apply ends_of_inv hServing.inv
  intro id _ hStarted
  exact absurd (hServing.eq_of_started hStarted).symm
    (hCall id)

------------------------------------------------------------
-- Heartbeats
------------------------------------------------------------

/- No push of another task finishes with the ticket. -/
def NoneFinishing
    (i : Nat)
    (ticketId : String)
    (w : TransferWorld) : Prop :=
  ∀ k, k ≠ i → ¬ Finishing k ticketId (w.own k)

/- A heartbeat throws the role error to no finishing push. -/
def Refusal
    (ticketId : String)
    (i : Nat)
    (error : TransferError)
    (w : TransferWorld) : Prop :=
  Serving (.heartbeat ticketId) i w ∧
    (error.message =
        TransferError.ticketRoleRevoked.message →
      NoneFinishing i ticketId w)

/- A ticket that the heartbeat has found is still there. -/
def Found
    (ticketId : String)
    (ticket : Ticket)
    (i : Nat)
    (w : TransferWorld) : Prop :=
  Serving (.heartbeat ticketId) i w ∧
    .started i (.heartbeat ticketId) ∈ w.own i ∧
    ∃ later,
      w.state.tickets.find? ticketId = some later ∧
        ticket.SameGrant later

theorem stable_found
    {ticket : Ticket} :
    lifetimeContract.Stable i (Found ticketId ticket i) := by
  rintro w v ⟨hServing, hStarted, later, hLater, hSame⟩
    hInterferes hInv
  have hRely : LifetimeRely i w v := hInterferes.2
  refine ⟨stable_serving w v hServing hInterferes hInv, ?_, ?_⟩
  · rw [hRely.own]
    exact hStarted
  · rcases hRely.grants _ later hLater with
      ⟨last, hLast, hSame'⟩
    exact ⟨last, hLast, hSame.trans hSame'⟩

/- An error whose text is another is no refusal. -/
theorem Serving.refusal
    (hServing : Serving (.heartbeat ticketId) i w)
    {error : TransferError}
    (hOther :
      error.message ≠
        TransferError.ticketRoleRevoked.message) :
    Refusal ticketId i error w :=
  ⟨hServing, fun hSame => absurd hSame hOther⟩

theorem store_message_ne
    (error : StoreError) :
    (TransferError.store error).message ≠
      TransferError.ticketRoleRevoked.message := by
  cases error <;> decide

/- A statement on the tickets, during a heartbeat. -/
theorem tickets_safe
    (statement : TicketStatement)
    (hServing : Serving (.heartbeat ticketId) i w) :
    lifetimeContract.Safe (transferSystem config)
      (messagesInTime config) i (tickets statement)
      (fun _ => Serving (.heartbeat ticketId) i)
      (Refusal ticketId i) w := by
  refine Contract.safe_bind ?_
  refine Contract.safe_await stable_serving hServing ?_
  intro v hServing hInv hOk choice answer after hExec
  have hMoved :=
    moves_mild (.tickets statement) trivial v hServing hInv
      hOk choice answer after hExec
  refine ⟨hMoved.1, ?_⟩
  cases answer with
  | error error =>
      exact Serving.refusal hMoved.2 (store_message_ne error)
  | ok value => exact hMoved.2

/-
  The role is looked up and judged in one step, at which no
  push finishes with the ticket if the role is too low.
-/
theorem assertRole_safe
    {ticket : Ticket}
    (hFound : Found ticketId ticket i w) :
    lifetimeContract.Safe (transferSystem config)
      (messagesInTime config) i
      (assertRoleStillSufficient ticket.username
        ticket.operation ticket.repo)
      (fun _ => Serving (.heartbeat ticketId) i)
      (Refusal ticketId i) w := by
  refine Contract.safe_bind (Contract.safe_bind ?_)
  refine Contract.safe_await stable_found hFound ?_
  intro v hFound hInv hOk choice answer after hExec
  have hMoved :=
    moves_mild (.users _) trivial v hFound.1 hInv hOk choice
      answer after hExec
  refine ⟨hMoved.1, ?_⟩
  cases answer with
  | error error =>
      exact Serving.refusal hMoved.2 (store_message_ne error)
  | ok role =>
      refine Contract.safe_ensure (fun _ => hMoved.2) ?_
      intro hTooLow
      refine ⟨hMoved.2, fun _ k hk hFinishing => ?_⟩
      rw [World.own_perform_of_ne _ _ _ _ hk] at hFinishing
      rcases hFound.2.2 with ⟨later, hLater, hSame⟩
      have hEnough :=
        (hOk.2.2 k ticketId hk hFinishing).2 ticket.username
          ticket.repo later rfl hFound.2.1 hLater
      have hRole := congrArg Prod.fst (exec_users_ok hExec)
      simp only [UserStatement.run, Except.ok.injEq] at hRole
      rw [hSame.operation] at hEnough
      unfold roleOn at hEnough
      rw [hRole, hTooLow] at hEnough
      cases hEnough

/- A heartbeat is in progress. -/
def Beating
    (ticketId : String)
    (i : Nat)
    (w : TransferWorld) : Prop :=
  Serving (.heartbeat ticketId) i w ∧
    .started i (.heartbeat ticketId) ∈ w.own i

theorem stable_beating :
    lifetimeContract.Stable i (Beating ticketId i) := by
  rintro w v ⟨hServing, hStarted⟩ hInterferes hInv
  refine ⟨stable_serving w v hServing hInterferes hInv, ?_⟩
  rw [hInterferes.1.own_eq]
  exact hStarted

theorem preRenew_safe
    (hBeating : Beating ticketId i w) :
    lifetimeContract.Safe (transferSystem config)
      (messagesInTime config) i (preRenew ticketId)
      (fun _ => Serving (.heartbeat ticketId) i)
      (Refusal ticketId i) w := by
  refine Contract.safe_bind (Contract.safe_bind ?_)
  refine Contract.safe_await stable_beating hBeating ?_
  rintro v ⟨hServing, hStarted⟩ hInv hOk choice answer after
    hExec
  have hMoved :=
    moves_mild (.tickets _) trivial v hServing hInv hOk choice
      answer after hExec
  refine ⟨hMoved.1, ?_⟩
  cases answer with
  | error error =>
      exact Serving.refusal hMoved.2 (store_message_ne error)
  | ok found =>
      cases found with
      | none => exact hMoved.2
      | some ticket =>
          have hRun := exec_tickets_ok hExec
          simp only [TicketStatement.run, Prod.mk.injEq,
            Except.ok.injEq] at hRun
          refine assertRole_safe ⟨hMoved.2, ?_, ticket, ?_, ?_⟩
          · rw [World.own_perform]
            exact List.mem_cons_of_mem _ hStarted
          · rw [World.perform_state, ← hRun.2]
            exact hRun.1
          · exact .refl ticket

theorem renewTicket_safe
    (hBeating : Beating ticketId i w) :
    lifetimeContract.Safe (transferSystem config)
      (messagesInTime config) i (renewTicket config ticketId)
      (fun _ => Serving (.heartbeat ticketId) i)
      (Refusal ticketId i) w := by
  refine Contract.safe_bind ?_
  refine Contract.safe_await stable_beating hBeating ?_
  rintro v ⟨hServing, hStarted⟩ hInv hOk choice current after
    hExec
  have hMoved :=
    moves_mild .now trivial v hServing hInv hOk choice current
      after hExec
  refine ⟨hMoved.1, ?_⟩
  refine Contract.safe_bind ?_
  refine Contract.safe_mono ?_ (fun _ _ h => h)
    (preRenew_safe ⟨hMoved.2, ?_⟩)
  · intro _ u hServing
    refine Contract.safe_bind ?_
    refine Contract.safe_mono ?_ (fun _ _ h => h)
      (tickets_safe _ hServing)
    intro renewed u hServing
    cases renewed with
    | true => exact hServing
    | false =>
        refine Contract.safe_bind ?_
        refine Contract.safe_mono ?_ (fun _ _ h => h)
          (tickets_safe _ hServing)
        intro found u hServing
        have hNotFound :
            Refusal ticketId i .ticketNotFound u :=
          Serving.refusal hServing (by decide)
        cases found with
        | none => exact hNotFound
        | some ticket =>
            show lifetimeContract.Safe _ _ i
              (if ticket.status = .active then
                .threw .ticketExpired
              else .threw .ticketNotFound) _ _ _
            split
            · exact Serving.refusal hServing (by decide)
            · exact hNotFound
  · rw [World.own_perform]
    exact List.mem_cons_of_mem _ hStarted

/- A heartbeat keeps the contract. -/
theorem heartbeat_safe
    (hBeating : Beating ticketId i w) :
    lifetimeContract.SafeTask (transferSystem config)
      (messagesInTime config) i
      (serveCall config i (.heartbeat ticketId)) w := by
  have hMine :
      ∀ {v : TransferWorld} {id : String},
        Serving (.heartbeat ticketId) i v →
          .started i (.heartbeat id) ∈ v.trace →
            id = ticketId := by
    intro v id hServing hStarted
    cases hServing.eq_of_started hStarted
    rfl
  refine Contract.safe_bind (Contract.safe_catchError ?_)
  refine Contract.safe_bind ?_
  refine Contract.safe_mono ?_ ?_ (renewTicket_safe hBeating)
  · intro newExpiresAt v hServing
    apply ends_of_inv hServing.inv
    intro id hRejected
    cases hRejected
  · intro error v hRefusal
    apply ends_of_inv hRefusal.1.inv
    intro id hRejected hStarted
    rw [hMine hRefusal.1 hStarted]
    apply hRefusal.2
    simpa [rejected] using hRejected

------------------------------------------------------------
-- Pushes
------------------------------------------------------------

variable {header : PushHeader}
variable {s t : TransferState} {started : PushFinish}
variable {trace : List TransferEvent}

/- A push whose ticket is in the table. -/
def Holding
    (call : TransferCall)
    (ticketId : String)
    (i : Nat)
    (w : TransferWorld) : Prop :=
  Serving call i w ∧
    (w.state.tickets.find? ticketId).isSome = true

theorem stable_holding :
    lifetimeContract.Stable i (Holding call ticketId i) := by
  rintro w v ⟨hServing, hSome⟩ hInterferes hInv
  have hRely : LifetimeRely i w v := hInterferes.2
  refine ⟨stable_serving w v hServing hInterferes hInv, ?_⟩
  rcases Option.isSome_iff_exists.mp hSome with
    ⟨ticket, hFind⟩
  rcases hRely.grants _ ticket hFind with ⟨later, hLater, _⟩
  rw [hLater]
  rfl

/- A ticket that was consumed is in the table. -/
theorem consume_safe
    (hServing : Serving call i w) :
    SafeProgram config lifetimeContract
      (messagesInTime config) i
      (consumeTicket header.ticketId header.operation
        header.repo)
      (fun _ => Holding call header.ticketId i)
      (Serving call i) w := by
  have hTame :
      ∀ {α : Type} {program : TransferProgram α}
        {v : TransferWorld}, program.Only Tame →
        Serving call i v →
        SafeProgram config lifetimeContract
          (messagesInTime config) i program
          (fun _ => Serving call i) (Serving call i) v :=
    fun hOnly hThere =>
      safe_of_only hOnly
        (fun op hOp =>
          moves_mild op (mild_of_quiet (quiet_of_tame hOp)))
        stable_serving hThere
  refine Contract.safe_bind ?_
  refine Contract.safe_mono ?_ (fun _ _ h => h)
    (hTame tame_now hServing)
  intro current v hServing
  refine Contract.safe_bind ?_
  refine Contract.safe_mono ?_ (fun _ _ h => h)
    (hTame (tame_preCheck _ _ _) hServing)
  intro _ v hServing
  refine Contract.safe_bind ?_
  refine Contract.safe_mono ?_ (fun _ _ h => h)
    (hTame (tame_tickets _) hServing)
  intro activated v hServing
  refine Contract.safe_bind (Contract.safe_bind ?_)
  refine Contract.safe_await stable_serving hServing ?_
  intro v hServing hInv hOk choice answer after hExec
  have hMoved :=
    moves_mild (.tickets _) trivial v hServing hInv hOk choice
      answer after hExec
  refine ⟨hMoved.1, ?_⟩
  cases answer with
  | error error => exact hMoved.2
  | ok found =>
      cases found with
      | none => exact hMoved.2
      | some ticket =>
          have hRun := exec_tickets_ok hExec
          simp only [TicketStatement.run, Prod.mk.injEq,
            Except.ok.injEq] at hRun
          cases activated with
          | false => exact hMoved.2
          | true =>
              refine ⟨hMoved.2, ?_⟩
              rw [World.perform_state, ← hRun.2, hRun.1]
              rfl

theorem moves_ticketConsumed
    (ticket : Ticket) :
    Moves config lifetimeContract (messagesInTime config) i
      (.session i (.ticketConsumed header ticket))
      (Holding call header.ticketId i)
      fun _ => Serving call i := by
  intro v hHolding hInv hOk choice answer after hExec
  have hKeeps :=
    keeps_perform hInv hOk ⟨rfl, hHolding.2⟩ hExec
  exact ⟨hKeeps, hHolding.1.perform hKeeps.1⟩

/- A push that finishes, with a ticket that is not lost. -/
structure InTime
    (call : TransferCall)
    (i : Nat)
    (started : PushFinish)
    (w : TransferWorld) : Prop where
  serving : Serving call i w
  finishing : Finishing i started.ticketId (w.own i)
  session :
    (w.state.pushes i).ticketId = some started.ticketId
  alive : ¬ Lost started.ticketId w.state w.trace

theorem stable_inTime
    {started : PushFinish} :
    lifetimeContract.Stable i (InTime call i started) := by
  intro w v hInTime hInterferes hInv
  have hRely : LifetimeRely i w v := hInterferes.2
  refine
    { serving :=
        stable_serving w v hInTime.serving hInterferes hInv
      finishing := ?_
      session := ?_
      alive := ?_ }
  · rw [hRely.own]
    exact hInTime.finishing
  · rw [hRely.session]
    exact hInTime.session
  · exact hRely.alive _ hInTime.finishing hInTime.alive

/- A calm operation touches no ticket, clock or session. -/
theorem same_of_calm
    (hCalm : Calm op)
    (hExec : op.exec config choice s = some (answer, t)) :
    t.tickets = s.tickets ∧ t.clock = s.clock ∧
      t.pushes = s.pushes := by
  have hRun := (TransferOp.exec_eq_some_iff.mp hExec).2
  unfold Calm at hCalm
  split at hCalm
  · cases hRun
    exact ⟨rfl, rfl, rfl⟩
  · cases hRun
    exact ⟨rfl, rfl, rfl⟩
  · cases hRun
    exact ⟨rfl, rfl, rfl⟩
  · cases hRun
    exact ⟨rfl, rfl, rfl⟩
  · exact hCalm.elim

theorem dead_of_same
    (hTickets : t.tickets = s.tickets)
    (hClock : t.clock = s.clock)
    (hDead : Dead ticketId t) :
    Dead ticketId s := by
  unfold Dead at hDead
  rw [hTickets, hClock] at hDead
  exact hDead

/- A push finishes until it is settled. -/
theorem Finishing.cons
    {own : List TransferEvent}
    {event : TransferEvent}
    (hFinishing : Finishing i ticketId own)
    (hSettles : settles event = false) :
    Finishing i ticketId (event :: own) := by
  rcases hFinishing with
    ⟨newer, started, before, after, older, hOwn, hTicket,
      hNone⟩
  refine
    ⟨event :: newer, started, before, after, older, ?_,
      hTicket, ?_⟩
  · rw [hOwn, List.cons_append]
  · intro other hOther
    rcases List.mem_cons.mp hOther with hEq | hOld
    · rw [hEq]
      exact hSettles
    · exact hNone other hOld

/- A calm operation settles nothing. -/
theorem settles_of_calm
    {before : TransferState}
    (hCalm : Calm op) :
    settles (.performed i op answer before after) = false := by
  unfold Calm at hCalm
  split at hCalm
  all_goals first
    | rfl
    | exact hCalm.elim

theorem moves_inTime
    (op : TransferOp)
    (hCalm : Calm op) :
    Moves config lifetimeContract (messagesInTime config) i
      op (InTime call i started)
      fun _ => InTime call i started := by
  intro v hInTime hInv hOk choice answer after hExec
  have hMoved :=
    moves_mild op (mild_of_quiet (quiet_of_calm hCalm)) v
      hInTime.serving hInv hOk choice answer after hExec
  rcases same_of_calm hCalm hExec with
    ⟨hTickets, hClock, hPushes⟩
  refine ⟨hMoved.1, hMoved.2, ?_, ?_, ?_⟩
  · rw [World.own_perform]
    exact hInTime.finishing.cons (settles_of_calm hCalm)
  · rw [World.perform_state, hPushes]
    exact hInTime.session
  · rintro (hDead | hDead | hDied)
    · exact hInTime.alive
        (Or.inl (dead_of_same hTickets hClock hDead))
    · exact hInTime.alive
        (Or.inl (dead_of_same hTickets hClock hDead))
    · exact hInTime.alive (Or.inr hDied)

theorem moves_create
    {preparation : PushPreparation}
    (jobId : String) :
    Moves config lifetimeContract (messagesInTime config) i
      (.jobs
        (.create
          (stagedJob config jobId started preparation)))
      (InTime call i started) fun _ => Serving call i := by
  intro v hInTime hInv hOk choice answer after hExec
  have hTimely :
      Timely i
        (.jobs
          (.create
            (stagedJob config jobId started preparation)))
        v := by
    intro id hTicket
    rw [hInTime.session, Option.some.injEq] at hTicket
    rw [← hTicket]
    exact hInTime.alive
  have hKeeps := keeps_perform hInv hOk hTimely hExec
  exact ⟨hKeeps, hInTime.serving.perform hKeeps.1⟩

/- A stream that finishes was neither aborted nor closed. -/
theorem not_aborted_of_finishing
    {stream now : Nat}
    {fails : Bool}
    (hFinish :
      ((s.pushes stream).finalizeStream now fails).1 =
        .finishing started) :
    (s.pushes stream).aborted = false := by
  unfold PushSession.finalizeStream at hFinish
  dsimp only at hFinish
  split at hFinish
  · cases hFinish
  · rename_i hAborted
    exact Bool.not_eq_true _ ▸ hAborted

/- A push begins to finish before its ticket is lost. -/
theorem moves_finalize :
    Moves config lifetimeContract (messagesInTime config) i
      (.session i .finalize) (Serving call i)
      fun answer v =>
        ∀ started, answer = .finishing started →
          InTime call i started v := by
  intro v hServing hInv hOk choice answer after hExec
  have hMoved :=
    moves_mild (.session i .finalize) trivial v hServing hInv
      hOk choice answer after hExec
  refine ⟨hMoved.1, ?_⟩
  intro started hAnswer
  subst hAnswer
  have hDone : (TransferOp.session i .finalize).exec config
      choice v.state = some (.finishing started, after) :=
    hExec
  have hFinish := (exec_session hDone).1
  have hHeld := PushSession.finalizeStream_finishing hFinish
  have hAlive :=
    hOk.2.1 i started.ticketId rfl
      (not_aborted_of_finishing hFinish) hHeld.1
  have hTicketId :=
    PushSession.finalizeStream_identity (v.state.pushes i)
      v.state.clock choice.fails
  have hRun := (TransferOp.exec_eq_some_iff.mp hDone).2
  have hAfter : after = ((TransferOp.session i
      .finalize).run config choice v.state).2 := by
    rw [hRun]
  refine ⟨hMoved.2, ?_, ?_, ?_⟩
  · rw [World.own_perform]
    exact ⟨[], started, _, _, _, rfl, rfl, by simp⟩
  · rw [World.perform_state, (exec_session hDone).2]
    exact hTicketId.ticketId.trans hHeld.1
  · have hSame : ∀ id, Dead id after → Dead id v.state := by
      intro id hDead
      rw [hAfter] at hDead
      exact hDead
    rintro (hDead | hDead | hDied)
    · exact hAlive (Or.inl (hSame _ hDead))
    · exact hAlive (Or.inl (hSame _ hDead))
    · exact hAlive (Or.inr hDied)

/- The outline of any push. -/
def outline
    (config : TransferConfig)
    (call : TransferCall)
    (i : Nat) :
    PushOutline config lifetimeContract
      (messagesInTime config) i (fun _ => True) where
  idle := Serving call i
  consumed := fun header _ => Holding call header.ticketId i
  finishing := InTime call i
  staging := fun _ => True
  stable_idle := stable_serving
  stable_consumed := fun _ _ => stable_holding
  stable_finishing := fun _ => stable_inTime
  idle_of_finishing := fun _ _ hInTime => hInTime.serving
  light_idle := fun op hLight =>
    moves_mild op (mild_of_quiet (quiet_of_light hLight))
  calm_finishing := fun _ => moves_inTime
  removes := fun _ _ => moves_mild _ trivial
  steps := fun _ hPlain v hServing hInv hOk choice answer
      after hExec =>
    have hMoved :=
      moves_mild _ (mild_of_plain hPlain) v hServing hInv hOk
        choice answer after hExec
    ⟨hMoved.1, hMoved.2, fun _ _ => trivial⟩
  consume := fun _ _ _ hServing => consume_safe hServing
  give := fun _ ticket => moves_ticketConsumed ticket
  ends := moves_finalize
  create := fun _ jobId _ _ => moves_create jobId

/- Every task keeps the contract once it has started. -/
theorem serveCall_safe
    (hInv : LifetimeInv w)
    (hFresh : w.Fresh i) :
    lifetimeContract.SafeTask (transferSystem config)
      (messagesInTime config) i (serveCall config i call)
      (w.start i call) := by
  have hServing : Serving call i (w.start i call) :=
    serving_start hInv hFresh
  by_cases hBeat : ∃ id, call = .heartbeat id
  · rcases hBeat with ⟨id, rfl⟩
    refine heartbeat_safe ⟨hServing, ?_⟩
    rw [World.own_start]
    exact List.mem_cons_self
  · have hCall : ∀ id, call ≠ .heartbeat id :=
      fun id hEq => hBeat ⟨id, hEq⟩
    by_cases hPush :
        ∃ messages ends, call = .push messages ends
    · rcases hPush with ⟨messages, ends, rfl⟩
      refine Contract.safe_bind ?_
      refine Contract.safe_mono ?_ ?_
        ((outline config _ i).push_safe
          (fun _ _ => trivial) hServing)
      · intro reply v hServing
        exact hServing.ends hCall _
      · intro error v hServing
        exact hServing.ends hCall _
    · have hMild : (serveCall config i call).Only Mild := by
        apply mild_serveCall
        intro messages ends hEq
        exact hPush ⟨messages, ends, hEq⟩
      refine Contract.safe_mono ?_ ?_
        (safe_of_only hMild moves_mild stable_serving
          hServing)
      · intro value v hServing
        exact hServing.ends hCall _
      · intro error v hServing
        exact hServing.ends hCall _

theorem lifetimeInv_initial
    {initial : TransferState}
    (hInitial : NoPushes initial) :
    LifetimeInv ⟨initial, []⟩ where
  governed := trivial
  held := by
    intro i id hTicket
    rw [hInitial i] at hTicket
    cases hTicket

theorem lifetimeGoverns_of_governed
    (hGoverned : Governed trace) :
    LifetimeGoverns trace := by
  intro newer i op answer before after older stream ticketId
    hTrace hProgresses hTicket
  subst hTrace
  induction newer with
  | nil =>
      exact hGoverned.1 i op answer before after stream
        ticketId rfl hProgresses hTicket
  | cons event newer ih => exact ih hGoverned.2

/-
  In every run in which chunks and ends of streams are
  processed before their ticket is lost, and no ticket is
  lost while a push finishes: no stream has a chunk accepted
  or a job created once its ticket has expired or has been
  closed, or a heartbeat was rejected for its role.
-/
theorem lifetime_governs
    (config : TransferConfig)
    (initial : TransferState)
    (p : TransferPool)
    (hInitial : NoPushes initial)
    (hRun :
      (transferSystem config).Run (messagesInTime config)
        (Pool.initial initial) p) :
    LifetimeGoverns p.world.trace := by
  have hSound :
      lifetimeContract.PoolSafe (transferSystem config)
        (messagesInTime config) p :=
    Contract.sound initial (lifetimeInv_initial hInitial)
      (fun w i call hInv hFresh _ =>
        ⟨keeps_start call hInv, serveCall_safe hInv hFresh⟩)
      hRun
  exact lifetimeGoverns_of_governed hSound.inv.governed

/- A writer sends a header and one chunk. -/
def upToChunk : List (Label TransferChoice TransferCall) :=
  [ .start 1
      (.push
        [.header ⟨"t", "push", "r"⟩, .chunk [1]] true)
  , .resume 1 (draw "")
  , .resume 1 (draw "")
  , .resume 1 (draw "")
  , .resume 1 (draw "")
  , .resume 1 (draw "")
  , .resume 1 (draw "")
  , .resume 1 (draw "upload")
  , .resume 1 (draw "")
  , .resume 1 (draw "") ]

/-
  The ticket is closed after the header of a push, and the
  chunk that follows is accepted.
-/
theorem chunk_after_close :
    ∃ q,
      (transferSystem smallConfig).replay?
          (Pool.initial writerWithTicket)
          (upToChunk ++
            [ .start 2
                (.postSessionClose (some "eve") (some "t"))
            , .resume 2 (draw "")
            , .resume 1 (draw "") ]) = some q ∧
        ¬ LifetimeGoverns q.world.trace := by
  refine ⟨_, rfl, ?_⟩
  intro hGoverns
  have hAlive := hGoverns [] _ _ _ _ _ _ 1 "t" rfl rfl rfl
  exact hAlive (Or.inl ⟨_, rfl, Or.inr rfl⟩)

/- The ticket is in the table and good after an event. -/
def goodAfter (ticketId : String) : TransferEvent → Bool
  | .performed _ _ _ _ after =>
      (after.tickets.find? ticketId).any fun ticket =>
        after.clock < ticket.expiresAt &&
          ticket.status ≠ .closed
  | .started _ _ => true
  | .finished _ _ => false

theorem not_dead_of_good
    (hGood :
      (s.tickets.find? ticketId).any (fun ticket =>
        s.clock < ticket.expiresAt &&
          ticket.status ≠ .closed) = true) :
    ¬ Dead ticketId s := by
  rintro ⟨ticket, hFind, hDead⟩
  rw [hFind] at hGood
  simp only [Option.any_some, Bool.and_eq_true,
    decide_eq_true_eq] at hGood
  rcases hDead with hExpired | hClosed
  · omega
  · exact hGood.2 hClosed

theorem not_died_of_good
    (hGood : trace.all (goodAfter ticketId) = true) :
    ¬ Died ticketId trace := by
  induction trace with
  | nil => exact id
  | cons event older ih =>
      rw [List.all_cons, Bool.and_eq_true] at hGood
      rintro (hDied | hDied)
      · cases event with
        | started i call => exact hDied
        | finished i outcome => cases hGood.1
        | performed i op answer before after =>
            exact not_dead_of_good hGood.1 hDied
      · exact ih hGood.2 hDied

/- A task that runs alone may do what its own session may. -/
theorem allowed_of_alone
    (hAlone : w.trace.all (fun e => e.task = i) = true)
    (hGood :
      ∀ ticketId,
        (w.state.pushes i).ticketId = some ticketId →
          ¬ Lost ticketId w.state w.trace)
    (hOwn :
      ∀ stream step, op = .session stream step →
        stream = i) :
    (messagesInTime config).perform i op w := by
  refine ⟨?_, ?_, ?_⟩
  · intro stream data ticketId hOp _ hTicket
    rw [hOwn stream _ hOp] at hTicket
    exact hGood ticketId hTicket
  · intro stream ticketId hOp _ hTicket
    rw [hOwn stream _ hOp] at hTicket
    exact hGood ticketId hTicket
  · intro j ticketId hj hFinishing
    rcases hFinishing with ⟨newer, _, _, _, _, hOwnEvents, _⟩
    have hMember :
        ∃ event ∈ w.own j, event.task = j := by
      rw [hOwnEvents]
      exact ⟨_, List.mem_append_right _ List.mem_cons_self,
        rfl⟩
    rcases hMember with ⟨event, hEvent, hTask⟩
    have hSame :=
      List.all_eq_true.mp hAlone event
        (List.mem_filter.mp hEvent).1
    rw [decide_eq_true_eq, hTask] at hSame
    exact absurd hSame hj

/- A push that is done before its ticket expires. -/
theorem lifetime_governs_of_writer :
    ∃ q,
      (transferSystem smallConfig).replay?
          (Pool.initial writerWithTicket)
          (upToChunk ++ [.resume 1 (draw "")]) = some q ∧
        LifetimeGoverns q.world.trace := by
  refine ⟨_, rfl, ?_⟩
  refine lifetime_governs smallConfig writerWithTicket _
    (fun _ => rfl) ?_
  refine .step (.resume 1 (draw "")) (.step
    (.resume 1 (draw "")) (.step (.resume 1 (draw ""))
    (.step (.resume 1 (draw "upload")) (.step
    (.resume 1 (draw "")) (.step (.resume 1 (draw ""))
    (.step (.resume 1 (draw "")) (.step (.resume 1 (draw ""))
    (.step (.resume 1 (draw "")) (.step (.resume 1 (draw ""))
    (.step
    (.start 1
      (.push [.header ⟨"t", "push", "r"⟩, .chunk [1]] true))
      .refl trivial rfl) ?_ rfl) ?_ rfl) ?_ rfl) ?_ rfl)
      ?_ rfl) ?_ rfl) ?_ rfl) ?_ rfl) ?_ rfl) ?_ rfl
  all_goals
    intro op resume hTask
    cases hTask
    refine allowed_of_alone (by decide) ?_ ?_
    · intro ticketId hTicket
      first
        | cases hTicket
          rintro (hDead | hDied)
          · exact not_dead_of_good (by decide) hDead
          · exact not_died_of_good (by decide) hDied
        | cases hTicket
    · intro stream step hOp
      cases hOp
      try rfl

end TicketLifetime

end Transfer
