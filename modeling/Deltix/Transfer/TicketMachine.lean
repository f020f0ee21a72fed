import Deltix.Transfer.Footprint
import Deltix.Transfer.TicketSystem

/-
  The state machine of the tickets, whatever the role
  verifier answers and however the clock moves: a ticket
  keeps its identity and only moves forward, at most one
  call consumes it, a call that does was entitled to, and a
  call that fails to has changed no ticket.

  Key definitions include:
    * `Consumed`
    * `Untouched`
    * `Lawful`
    * `machineContract`

  Key theorems include:
    * `consume_safe`
    * `ticket_machine`
-/

------------------------------------------------------------
-- The Property
------------------------------------------------------------

namespace Transfer

namespace TicketMachine

open Auth Concurrency Relational

/-
  What a call that returns a ticket has found: the ticket is
  the one it asked for, the role of its user was verified,
  and it had not expired when the call read the clock.
-/
structure Consumed
    (i : Nat)
    (ticketId operation repo : String)
    (ticket : Ticket)
    (trace : List TicketEvent) : Prop where
  sameId : ticket.id = ticketId
  sameOperation : ticket.operation.text = operation
  sameRepo : ticket.repo = repo
  verified :
    ∃ role before after,
      .performed i
          (.users
            (.getRepoRole ticket.username ticket.repo))
          (.ok role) before after ∈ trace ∧
        sufficient ticket.operation role = true
  unexpired :
    ∃ current row s t before after,
      .performed i .now current s t ∈ trace ∧
        .performed i
            (.tickets
              (.activate ticketId operation repo current))
            (.ok true) before after ∈ trace ∧
        before.tickets.find? ticketId = some row ∧
        current < row.expiresAt

/- A call has left the tickets as they were. -/
def Untouched (i : Nat) (trace : List TicketEvent) : Prop :=
  ∀ op answer before after,
    .performed i op answer before after ∈ trace →
      after.tickets = before.tickets

/- A call for a ticket has returned it. -/
def Succeeded
    (i : Nat)
    (ticketId : String)
    (trace : List TicketEvent) : Prop :=
  ∃ newer older operation repo ticket,
    trace =
        newer ++ .finished i (.ok (.consumed ticket)) ::
          older ∧
      .started i (.consume ticketId operation repo) ∈ older

/- The tickets in a world that is reached from a table. -/
structure Lawful
    (initial : TicketTable)
    (w : TicketWorld) : Prop where
  steps :
    ∀ i op answer before after,
      .performed i op answer before after ∈ w.trace →
        TableMove before.tickets after.tickets
  absent :
    ∀ id, initial.find? id = none →
      w.state.tickets.find? id = none
  present :
    ∀ id ticket, initial.find? id = some ticket →
      ∃ later,
        w.state.tickets.find? id = some later ∧
          later.id = ticket.id ∧
          ticket.SameGrant later ∧
          Relation.ReflTransGen StatusMove ticket.status
            later.status
  single :
    ∀ i j ticketId, Succeeded i ticketId w.trace →
      Succeeded j ticketId w.trace → i = j
  succeeds :
    ∀ newer i ticket older,
      w.trace =
          newer ++ .finished i (.ok (.consumed ticket)) ::
            older →
        ∀ ticketId operation repo,
          .started i (.consume ticketId operation repo) ∈
              older →
            Consumed i ticketId operation repo ticket older
  fails :
    ∀ newer i error older,
      w.trace = newer ++ .finished i (.error error) :: older →
        ∀ ticketId operation repo,
          .started i (.consume ticketId operation repo) ∈
              older →
            Untouched i older

/- A call has activated a ticket. -/
def Activated
    (i : Nat)
    (ticketId : String)
    (trace : List TicketEvent) : Prop :=
  ∃ operation repo now before after,
    .performed i
        (.tickets (.activate ticketId operation repo now))
        (.ok true) before after ∈ trace

/- What the end of a call that consumes leaves behind. -/
def Settles
    (event : TicketEvent)
    (older : List TicketEvent) : Prop :=
  ∀ i outcome, event = .finished i outcome →
    ∀ ticketId operation repo,
      .started i (.consume ticketId operation repo) ∈
          older →
        match outcome with
        | .ok (.consumed ticket) =>
            Consumed i ticketId operation repo ticket older
        | .ok _ => True
        | .error _ => Untouched i older

structure MachineInv
    (initial : TicketTable)
    (w : TicketWorld) : Prop where
  steps :
    ∀ i op answer before after,
      .performed i op answer before after ∈ w.trace →
        TableMove before.tickets after.tickets
  absent :
    ∀ id, initial.find? id = none →
      w.state.tickets.find? id = none
  present :
    ∀ id ticket, initial.find? id = some ticket →
      ∃ later,
        w.state.tickets.find? id = some later ∧
          later.id = ticket.id ∧
          ticket.SameGrant later ∧
          Relation.ReflTransGen StatusMove ticket.status
            later.status
  spent :
    ∀ i ticketId, Activated i ticketId w.trace →
      ∃ ticket,
        w.state.tickets.find? ticketId = some ticket ∧
          ticket.status ≠ .issued
  single :
    ∀ i j ticketId, Activated i ticketId w.trace →
      Activated j ticketId w.trace → i = j
  settled : Throughout Settles w.trace

/- What the others leave of the tickets. -/
structure Kept (before after : TicketTable) : Prop where
  absent :
    ∀ id, before.find? id = none → after.find? id = none
  present :
    ∀ id ticket, before.find? id = some ticket →
      ∃ later,
        after.find? id = some later ∧ ticket.SameGrant later

theorem Kept.refl (tickets : TicketTable) :
    Kept tickets tickets where
  absent := fun _ hNone => hNone
  present := fun _ ticket hFind =>
    ⟨ticket, hFind, .refl ticket⟩

theorem Kept.trans
    {before after last : TicketTable}
    (hFirst : Kept before after)
    (hSecond : Kept after last) :
    Kept before last where
  absent := fun id hNone =>
    hSecond.absent id (hFirst.absent id hNone)
  present := by
    intro id ticket hFind
    rcases hFirst.present id ticket hFind with
      ⟨next, hNext, hGrant⟩
    rcases hSecond.present id next hNext with
      ⟨later, hLater, hGrant'⟩
    exact ⟨later, hLater, hGrant.trans hGrant'⟩

theorem Kept.of_move
    {before after : TicketTable}
    (hMove : TableMove before after) :
    Kept before after where
  absent := hMove.absent
  present := by
    intro id ticket hFind
    rcases hMove.present id ticket hFind with
      ⟨later, hLater, _, hGrant, _⟩
    exact ⟨later, hLater, hGrant⟩

def machineContract (initial : TicketTable) :
    TicketContract where
  inv := MachineInv initial
  rely := fun _ w v => Kept w.state.tickets v.state.tickets
  rely_refl := fun _ _ => .refl _
  rely_trans := fun _ _ _ _ hFirst hSecond =>
    hFirst.trans hSecond

------------------------------------------------------------
-- Steps Keep The Contract
------------------------------------------------------------

variable {flows : Nat → Nat → Bool} {op : TransferOp}
variable {choice : TicketChoice} {answer : op.Answer}
variable {s t after : TicketState} {w v : TicketWorld}
variable {initial : TicketTable} {i j : Nat}
variable {ticketId : String} {older : List TicketEvent}
variable {event : TicketEvent}

/- The operations of the calls: none issues a ticket. -/
def Spends : TransferOp → Prop
  | .tickets (.create _) => False
  | _ => True

theorem tableMove_exec
    (hSpends : Spends op)
    (hExec : ticketExec flows op choice s = some (answer, t)) :
    TableMove s.tickets t.tickets := by
  rcases exec_tickets_cases hExec with
    hSame | ⟨statement, rfl, hRun⟩
  · rw [hSame]
    exact .refl _
  · rw [hRun]
    apply tableMove_run
    rintro ticket rfl
    exact hSpends

/- An activation was just made or was made before. -/
theorem activated_perform
    (hActivated :
      Activated j ticketId (w.perform i op answer after).trace) :
    (j = i ∧
      ∃ operation repo now,
        op = .tickets
            (.activate ticketId operation repo now) ∧
          HEq answer
            (Except.ok true : Except StoreError Bool)) ∨
      Activated j ticketId w.trace := by
  rcases hActivated with
    ⟨operation, repo, now, before, later, hEvent⟩
  rcases List.mem_cons.mp hEvent with hNew | hOld
  · cases hNew
    exact Or.inl ⟨rfl, operation, repo, now, rfl, HEq.rfl⟩
  · exact Or.inr
      ⟨operation, repo, now, before, later, hOld⟩

/- A ticket that is activated had not been before. -/
theorem not_activated
    {operation repo : String}
    {now : Nat}
    (hInv : MachineInv initial w)
    (hExec :
      ticketExec flows
          (.tickets (.activate ticketId operation repo now))
          choice w.state =
        some (.ok true, after)) :
    ¬ Activated j ticketId w.trace := by
  intro hActivated
  rcases run_activate_true (exec_statement hExec).1 with
    ⟨row, hFind, _, _, hStatus, _⟩
  rcases hInv.spent j ticketId hActivated with
    ⟨ticket, hTicket, hSpent⟩
  rw [hFind, Option.some.injEq] at hTicket
  rw [hTicket] at hStatus
  exact hSpent hStatus

theorem spent_perform
    (hInv : MachineInv initial w)
    (hSpends : Spends op)
    (hExec :
      ticketExec flows op choice w.state =
        some (answer, after))
    (hActivated :
      Activated j ticketId
        (w.perform i op answer after).trace) :
    ∃ ticket,
      after.tickets.find? ticketId = some ticket ∧
        ticket.status ≠ .issued := by
  rcases activated_perform hActivated with
    ⟨_, operation, repo, now, rfl, hAnswer⟩ | hOld
  · cases eq_of_heq hAnswer
    have hRun := exec_statement hExec
    rcases run_activate_true hRun.1 with
      ⟨row, _, _, _, _, _, hLater⟩
    rw [← hRun.2.1] at hLater
    exact ⟨_, hLater, by simp⟩
  · rcases hInv.spent j ticketId hOld with
      ⟨ticket, hFind, hSpent⟩
    rcases (tableMove_exec hSpends hExec).present ticketId
        ticket hFind with
      ⟨later, hLater, _, _, hMove⟩
    exact ⟨later, hLater, ne_issued_of_move hMove hSpent⟩

theorem keeps_perform
    (hInv : MachineInv initial w)
    (hSpends : Spends op)
    (hExec :
      ticketExec flows op choice w.state =
        some (answer, after)) :
    (machineContract initial).Keeps i w
      (w.perform i op answer after) := by
  have hMove := tableMove_exec hSpends hExec
  refine ⟨?_, fun _ _ => .of_move hMove⟩
  constructor
  · intro k other reply before later hEvent
    rcases List.mem_cons.mp hEvent with hNew | hOld
    · cases hNew
      exact hMove
    · exact hInv.steps k other reply before later hOld
  · intro id hNone
    exact hMove.absent id (hInv.absent id hNone)
  · intro id ticket hFind
    rcases hInv.present id ticket hFind with
      ⟨next, hNext, hId, hGrant, hReach⟩
    rcases hMove.present id next hNext with
      ⟨later, hLater, hId', hGrant', hStatus⟩
    exact ⟨later, hLater, hId'.trans hId,
      hGrant.trans hGrant', hReach.tail hStatus⟩
  · intro k ticketId hActivated
    exact spent_perform hInv hSpends hExec hActivated
  · intro k l ticketId hFirst hSecond
    rcases activated_perform hFirst with
      ⟨rfl, operation, repo, now, rfl, hAnswer⟩ | hOld
    · cases eq_of_heq hAnswer
      rcases activated_perform hSecond with
        ⟨rfl, _⟩ | hOld'
      · rfl
      · exact absurd hOld' (not_activated hInv hExec)
    · rcases activated_perform hSecond with
        ⟨rfl, operation, repo, now, rfl, hAnswer⟩ | hOld'
      · cases eq_of_heq hAnswer
        exact absurd hOld (not_activated hInv hExec)
      · exact hInv.single k l ticketId hOld hOld'
  · refine ⟨?_, hInv.settled⟩
    intro k outcome hEvent
    cases hEvent

/- An event that is no operation activates nothing. -/
theorem activated_event
    (hEvent :
      ∀ k op answer before later,
        event ≠ .performed k op answer before later)
    (hActivated : Activated j ticketId (event :: older)) :
    Activated j ticketId older := by
  rcases hActivated with
    ⟨operation, repo, now, before, later, hMember⟩
  rcases List.mem_cons.mp hMember with hNew | hOld
  · exact absurd hNew.symm (hEvent _ _ _ _ _)
  · exact ⟨operation, repo, now, before, later, hOld⟩

theorem keeps_event
    (hInv : MachineInv initial w)
    (hState : v.state = w.state)
    (hTrace : v.trace = event :: w.trace)
    (hEvent :
      ∀ k op answer before later,
        event ≠ .performed k op answer before later)
    (hSettles : Settles event w.trace) :
    (machineContract initial).Keeps i w v := by
  constructor
  · refine
      { steps := ?_
        absent := ?_
        present := ?_
        spent := ?_
        single := ?_
        settled := ?_ }
    · intro k op answer before later hMember
      rw [hTrace] at hMember
      rcases List.mem_cons.mp hMember with hNew | hOld
      · exact absurd hNew.symm (hEvent _ _ _ _ _)
      · exact hInv.steps k op answer before later hOld
    · rw [hState]
      exact hInv.absent
    · rw [hState]
      exact hInv.present
    · intro k ticketId hActivated
      rw [hTrace] at hActivated
      rw [hState]
      exact
        hInv.spent k ticketId
          (activated_event hEvent hActivated)
    · intro k l ticketId hFirst hSecond
      rw [hTrace] at hFirst hSecond
      exact
        hInv.single k l ticketId
          (activated_event hEvent hFirst)
          (activated_event hEvent hSecond)
    · rw [hTrace]
      exact ⟨hSettles, hInv.settled⟩
  · intro k _
    change Kept w.state.tickets v.state.tickets
    rw [hState]
    exact .refl _

------------------------------------------------------------
-- Assertions Of A Call
------------------------------------------------------------

variable {operation repo : String} {call : TicketCall}
variable {ticket later : Ticket} {current : Nat}
variable {trace longer : List TicketEvent}

/- A task that has not changed a ticket. -/
structure Idle
    (i : Nat)
    (call : TicketCall)
    (w : TicketWorld) : Prop where
  serves : Serves i call w
  untouched : Untouched i w.trace

/- It also has read the clock. -/
structure Read
    (i current : Nat)
    (call : TicketCall)
    (w : TicketWorld) : Prop where
  idle : Idle i call w
  read :
    ∃ before after,
      .performed i .now current before after ∈ w.trace

/- What has been found of a ticket is still so. -/
def Seen
    (ticketId : String)
    (w : TicketWorld) : Option Ticket → Prop
  | none => w.state.tickets.find? ticketId = none
  | some ticket =>
      ∃ later,
        w.state.tickets.find? ticketId = some later ∧
          ticket.SameGrant later

/- The role of the user of a ticket has been verified. -/
def Verified
    (i : Nat)
    (ticket : Ticket)
    (trace : List TicketEvent) : Prop :=
  ∃ role before after,
    .performed i
        (.users (.getRepoRole ticket.username ticket.repo))
        (.ok role) before after ∈ trace ∧
      sufficient ticket.operation role = true

/- If the ticket is the requested one, its user may. -/
structure Checked
    (i current : Nat)
    (ticketId operation repo : String)
    (call : TicketCall)
    (w : TicketWorld) : Prop where
  reading : Read i current call w
  verified :
    ∀ ticket, w.state.tickets.find? ticketId = some ticket →
      ticket.operation.text = operation →
        ticket.repo = repo → Verified i ticket w.trace

/- The ticket has been consumed. -/
structure Holds
    (i : Nat)
    (ticketId operation repo : String)
    (call : TicketCall)
    (w : TicketWorld) : Prop where
  serves : Serves i call w
  consumed :
    ∃ ticket,
      w.state.tickets.find? ticketId = some ticket ∧
        Consumed i ticketId operation repo ticket w.trace

theorem Verified.of_grant
    (hVerified : Verified i ticket trace)
    (hGrant : ticket.SameGrant later) :
    Verified i later trace := by
  unfold Verified
  rw [hGrant.username, hGrant.repo, hGrant.operation]
  exact hVerified

theorem Verified.mono
    (hVerified : Verified i ticket trace)
    (hTrace : ∀ event ∈ trace, event ∈ longer) :
    Verified i ticket longer := by
  rcases hVerified with ⟨role, before, after, hEvent, hRole⟩
  exact ⟨role, before, after, hTrace _ hEvent, hRole⟩

theorem Consumed.of_grant
    (hConsumed :
      Consumed i ticketId operation repo ticket trace)
    (hGrant : ticket.SameGrant later)
    (hId : later.id = ticketId) :
    Consumed i ticketId operation repo later trace where
  sameId := hId
  sameOperation := by
    rw [hGrant.operation]
    exact hConsumed.sameOperation
  sameRepo := hGrant.repo.trans hConsumed.sameRepo
  verified := Verified.of_grant hConsumed.verified hGrant
  unexpired := hConsumed.unexpired

theorem Consumed.mono
    (hConsumed :
      Consumed i ticketId operation repo ticket trace)
    (hTrace : ∀ event ∈ trace, event ∈ longer) :
    Consumed i ticketId operation repo ticket longer where
  sameId := hConsumed.sameId
  sameOperation := hConsumed.sameOperation
  sameRepo := hConsumed.sameRepo
  verified := Verified.mono hConsumed.verified hTrace
  unexpired := by
    rcases hConsumed.unexpired with
      ⟨current, row, s, t, before, after, hNow, hEvent, hRow⟩
    exact
      ⟨current, row, s, t, before, after, hTrace _ hNow,
        hTrace _ hEvent, hRow⟩

theorem stable_idle :
    (machineContract initial).Stable i (Idle i call) := by
  intro w v hIdle hInterferes hInv
  constructor
  · exact stable_serves w v hIdle.serves hInterferes hInv
  · intro op answer before after hEvent
    exact
      hIdle.untouched op answer before after
        (hInterferes.1.mem_own rfl hEvent)

theorem stable_read :
    (machineContract initial).Stable i
      (Read i current call) := by
  intro w v hRead hInterferes hInv
  constructor
  · exact stable_idle w v hRead.idle hInterferes hInv
  · rcases hRead.read with ⟨before, after, hEvent⟩
    exact ⟨before, after, hInterferes.1.mem hEvent⟩

theorem Seen.kept
    {found : Option Ticket}
    (hSeen : Seen ticketId w found)
    (hKept : Kept w.state.tickets v.state.tickets) :
    Seen ticketId v found := by
  cases found with
  | none => exact hKept.absent ticketId hSeen
  | some ticket =>
      rcases hSeen with ⟨next, hNext, hGrant⟩
      rcases hKept.present ticketId next hNext with
        ⟨later, hLater, hGrant'⟩
      exact ⟨later, hLater, hGrant.trans hGrant'⟩

theorem stable_seen
    (found : Option Ticket) :
    (machineContract initial).Stable i
      (fun w => Read i current call w ∧
        Seen ticketId w found) := by
  rintro w v ⟨hRead, hSeen⟩ hInterferes hInv
  exact ⟨stable_read w v hRead hInterferes hInv,
    hSeen.kept hInterferes.2⟩

theorem stable_checked :
    (machineContract initial).Stable i
      (Checked i current ticketId operation repo call) := by
  intro w v hChecked hInterferes hInv
  constructor
  · exact stable_read w v hChecked.reading hInterferes hInv
  · intro later hLater hOperation hRepo
    cases hFind : w.state.tickets.find? ticketId with
    | none =>
        rw [hInterferes.2.absent ticketId hFind] at hLater
        cases hLater
    | some ticket =>
        rcases hInterferes.2.present ticketId ticket hFind
          with ⟨next, hNext, hGrant⟩
        rw [hLater, Option.some.injEq] at hNext
        subst hNext
        rw [hGrant.operation] at hOperation
        have hVerified :=
          hChecked.verified ticket hFind hOperation
            (hGrant.repo.symm.trans hRepo)
        exact
          (hVerified.mono fun _ =>
            hInterferes.1.mem).of_grant hGrant

theorem stable_holds :
    (machineContract initial).Stable i
      (Holds i ticketId operation repo call) := by
  intro w v hHolds hInterferes hInv
  constructor
  · exact stable_serves w v hHolds.serves hInterferes hInv
  · rcases hHolds.consumed with ⟨ticket, hFind, hConsumed⟩
    rcases hInterferes.2.present ticketId ticket hFind with
      ⟨later, hLater, hGrant⟩
    refine ⟨later, hLater, ?_⟩
    exact
      (hConsumed.mono fun _ => hInterferes.1.mem).of_grant
        hGrant (KeyedTable.key_of_find? hLater)

/- A task stays idle while it leaves the tickets alone. -/
theorem Idle.perform
    (hIdle : Idle i call w)
    (hSame : after.tickets = w.state.tickets) :
    Idle i call (w.perform i op answer after) := by
  constructor
  · exact hIdle.serves.perform
  · intro other reply before later hEvent
    rcases List.mem_cons.mp hEvent with hNew | hOld
    · cases hNew
      exact hSame
    · exact hIdle.untouched other reply before later hOld

theorem Read.perform
    (hRead : Read i current call w)
    (hSame : after.tickets = w.state.tickets) :
    Read i current call (w.perform i op answer after) := by
  constructor
  · exact hRead.idle.perform hSame
  · rcases hRead.read with ⟨before, later, hEvent⟩
    exact ⟨before, later, List.mem_cons_of_mem _ hEvent⟩

------------------------------------------------------------
-- A Call That Consumes
------------------------------------------------------------

variable {config : TransferConfig}
variable {J raised : TicketWorld → Prop}
variable {statement : TicketStatement}

/- A program of a call is safe, whatever it returns. -/
abbrev SafeCall
    (config : TransferConfig)
    (flows : Nat → Nat → Bool)
    (initial : TicketTable)
    (i : Nat)
    {α : Type}
    (program : TransferProgram α)
    (post : α → TicketWorld → Prop)
    (raised : TicketWorld → Prop)
    (w : TicketWorld) : Prop :=
  (machineContract initial).Safe (ticketSystem config flows)
    .everything i program post (fun _ => raised) w

/- An operation is safe where its assertion holds. -/
theorem op_safe
    {post : op.Answer → TicketWorld → Prop}
    (hSpends : Spends op)
    (hPost :
      ∀ v choice answer after, J v →
        ticketExec flows op choice v.state =
            some (answer, after) →
          post answer (v.perform i op answer after))
    (hStable : (machineContract initial).Stable i J)
    (hHere : J w) :
    SafeCall config flows initial i (perform op) post raised
      w := by
  refine Contract.safe_await hStable hHere ?_
  intro v hThere hInv _ choice answer after hExec
  have hRun :
      ticketExec flows op choice v.state =
        some (answer, after) := hExec
  exact ⟨keeps_perform hInv hSpends hRun,
    hPost v choice answer after hThere hRun⟩

/- Only an insertion can be refused. -/
theorem run_ne_error
    {error : StoreError}
    (hSpends : Spends (.tickets statement))
    (tickets : TicketTable) :
    (statement.run tickets).1 ≠ .error error := by
  cases statement with
  | create ticket => exact hSpends.elim
  | _ => exact fun hError => nomatch hError

/- A statement is safe where its assertion holds. -/
theorem tickets_safe
    {post : statement.Answer → TicketWorld → Prop}
    (hSpends : Spends (.tickets statement))
    (hPost :
      ∀ v value after, J v →
        (statement.run v.state.tickets).1 = .ok value →
        after.tickets =
          (statement.run v.state.tickets).2 →
        post value
          (v.perform i (.tickets statement) (.ok value)
            after))
    (hStable : (machineContract initial).Stable i J)
    (hHere : J w) :
    SafeCall config flows initial i (tickets statement) post
      raised w := by
  refine Contract.safe_bind ?_
  refine op_safe hSpends ?_ hStable hHere
  intro v choice answer after hThere hExec
  have hRun := exec_statement hExec
  cases answer with
  | error error => exact absurd hRun.1 (run_ne_error hSpends _)
  | ok value => exact hPost v value after hThere hRun.1 hRun.2.1

/- Reading the clock leaves a call idle. -/
theorem now_safe
    (hIdle : Idle i call w) :
    SafeCall config flows initial i now
      (fun current => Read i current call) raised w := by
  refine op_safe trivial ?_ stable_idle hIdle
  intro v choice current after hIdle hExec
  constructor
  · exact hIdle.perform (exec_now hExec).2.2
  · exact ⟨_, _, List.mem_cons_self⟩

/- What a look-up answers is what is found. -/
theorem get_safe
    (hRead : Read i current call w) :
    SafeCall config flows initial i (tickets (.get ticketId))
      (fun found v =>
        Read i current call v ∧ Seen ticketId v found)
      raised w := by
  refine tickets_safe trivial ?_ stable_read hRead
  intro v found after hRead hAnswer hAfter
  refine ⟨hRead.perform hAfter, ?_⟩
  have hFound :
      v.state.tickets.find? ticketId = found := by
    simpa [TicketStatement.run] using hAnswer
  have hSame : after.tickets = v.state.tickets := hAfter
  cases found with
  | none =>
      change after.tickets.find? ticketId = none
      rw [hSame]
      exact hFound
  | some ticket =>
      refine ⟨ticket, ?_, .refl ticket⟩
      rw [World.perform_state, hSame]
      exact hFound

/- A role that is verified is recorded in the trace. -/
theorem assertRole_safe
    (hHere :
      Read i current call w ∧ Seen ticketId w (some ticket)) :
    SafeCall config flows initial i
      (assertRoleStillSufficient ticket.username
        ticket.operation ticket.repo)
      (fun _ v =>
        (Read i current call v ∧
          Seen ticketId v (some ticket)) ∧
          Verified i ticket v.trace)
      (Idle i call) w := by
  refine Contract.safe_bind (Contract.safe_bind ?_)
  refine op_safe trivial ?_ (stable_seen _) hHere
  rintro v choice answer after ⟨hRead, hSeen⟩ hExec
  have hSame : after.tickets = v.state.tickets := by
    cases hExec
    rfl
  cases answer with
  | error error => exact hRead.idle.perform hSame
  | ok role =>
      apply Contract.safe_ensure
      · intro hRole
        refine ⟨⟨hRead.perform hSame, ?_⟩, ?_⟩
        · apply hSeen.kept
          rw [World.perform_state, hSame]
          exact .refl _
        · exact ⟨role, _, _, List.mem_cons_self, hRole⟩
      · intro _
        exact hRead.idle.perform hSame

/- A ticket that was found otherwise is not the requested
   one. -/
theorem checked_of_mismatch
    {found : Option Ticket}
    (hHere : Read i current call w ∧ Seen ticketId w found)
    (hMismatch :
      ∀ ticket, found = some ticket →
        ¬ (ticket.operation.text = operation ∧
          ticket.repo = repo)) :
    Checked i current ticketId operation repo call w := by
  rcases hHere with ⟨hRead, hSeen⟩
  refine ⟨hRead, ?_⟩
  intro later hLater hOperation hRepo
  cases found with
  | none =>
      rw [show w.state.tickets.find? ticketId = none from
        hSeen] at hLater
      cases hLater
  | some ticket =>
      rcases hSeen with ⟨next, hNext, hGrant⟩
      rw [hLater, Option.some.injEq] at hNext
      subst hNext
      rw [hGrant.operation] at hOperation
      rw [hGrant.repo] at hRepo
      exact absurd ⟨hOperation, hRepo⟩ (hMismatch ticket rfl)

theorem preCheck_safe
    (hRead : Read i current call w) :
    SafeCall config flows initial i
      (preCheck ticketId operation repo)
      (fun _ =>
        Checked i current ticketId operation repo call)
      (Idle i call) w := by
  refine Contract.safe_bind ?_
  refine Contract.safe_mono ?_ (fun _ _ h => h)
    (get_safe hRead)
  intro found v hHere
  cases found with
  | none =>
      apply checked_of_mismatch hHere
      rintro ticket ⟨⟩
  | some ticket =>
      dsimp only
      by_cases hMatch :
          ticket.operation.text = operation ∧
            ticket.repo = repo
      · rw [if_pos hMatch]
        rcases hMatch with ⟨hOperation, rfl⟩
        refine Contract.safe_mono ?_ (fun _ _ h => h)
          (assertRole_safe hHere)
        rintro _ u ⟨⟨hRead, hSeen⟩, hVerified⟩
        refine ⟨hRead, ?_⟩
        intro later hLater _ _
        rcases hSeen with ⟨next, hNext, hGrant⟩
        rw [hLater, Option.some.injEq] at hNext
        subst hNext
        exact hVerified.of_grant hGrant
      · rw [if_neg hMatch]
        apply checked_of_mismatch hHere
        rintro other ⟨⟩
        exact hMatch

/- An activation consumes the ticket or changes nothing. -/
theorem activate_safe
    (hChecked :
      Checked i current ticketId operation repo call w) :
    SafeCall config flows initial i
      (tickets
        (.activate ticketId operation repo current))
      (fun activated v =>
        if activated then
          Holds i ticketId operation repo call v
        else Idle i call v)
      raised w := by
  refine tickets_safe trivial ?_ stable_checked hChecked
  intro v activated after hChecked hAnswer hAfter
  have hServes := hChecked.reading.idle.serves
  cases activated with
  | false =>
      apply hChecked.reading.idle.perform
      rw [hAfter]
      apply run_activate_false
      rw [hAnswer]
      simp
  | true =>
      rcases run_activate_true hAnswer with
        ⟨row, hFind, hOperation, hRepo, _, hTime, hLater⟩
      have hGrant :
          row.SameGrant { row with status := .active } :=
        ⟨rfl, rfl, rfl⟩
      have hVerified :=
        hChecked.verified row hFind hOperation hRepo
      have hId : row.id = ticketId :=
        KeyedTable.key_of_find? hFind
      rcases hChecked.reading.read with ⟨s, t, hNow⟩
      refine
        ⟨hServes.perform, { row with status := .active }, ?_,
          ?_⟩
      · rw [World.perform_state, hAfter]
        exact hLater
      · exact
          { sameId := hId
            sameOperation := hOperation
            sameRepo := hRepo
            verified :=
              (hVerified.mono fun _ =>
                List.mem_cons_of_mem _).of_grant hGrant
            unexpired :=
              ⟨current, row, s, t, _, _,
                List.mem_cons_of_mem _ hNow,
                List.mem_cons_self, hFind, hTime⟩ }

/- The look-up that follows finds the ticket consumed. -/
theorem getConsumed_safe
    (hHolds : Holds i ticketId operation repo call w) :
    SafeCall config flows initial i (tickets (.get ticketId))
      (fun found v =>
        Serves i call v ∧
          ∃ ticket,
            found = some ticket ∧
              Consumed i ticketId operation repo ticket
                v.trace)
      raised w := by
  refine tickets_safe trivial ?_ stable_holds hHolds
  intro v found after hHolds hAnswer _
  refine ⟨hHolds.serves.perform, ?_⟩
  rcases hHolds.consumed with ⟨ticket, hFind, hConsumed⟩
  have hFound :
      v.state.tickets.find? ticketId = found := by
    simpa [TicketStatement.run] using hAnswer
  refine ⟨ticket, by rw [← hFound, hFind], ?_⟩
  exact hConsumed.mono fun _ => List.mem_cons_of_mem _

/- And one that follows a refusal leaves the call idle. -/
theorem getRefused_safe
    (hIdle : Idle i call w) :
    SafeCall config flows initial i (tickets (.get ticketId))
      (fun _ => Idle i call) raised w := by
  refine tickets_safe trivial ?_ stable_idle hIdle
  intro v found after hIdle _ hAfter
  exact hIdle.perform hAfter

theorem consume_safe
    (hIdle : Idle i call w) :
    SafeCall config flows initial i
      (consumeTicket ticketId operation repo)
      (fun ticket v =>
        Serves i call v ∧
          Consumed i ticketId operation repo ticket v.trace)
      (Idle i call) w := by
  refine Contract.safe_bind ?_
  refine Contract.safe_mono ?_ (fun _ _ h => h)
    (now_safe hIdle)
  intro current v hRead
  refine Contract.safe_bind ?_
  refine Contract.safe_mono ?_ (fun _ _ h => h)
    (preCheck_safe hRead)
  intro _ v hChecked
  refine Contract.safe_bind ?_
  refine Contract.safe_mono ?_ (fun _ _ h => h)
    (activate_safe hChecked)
  intro activated v hActivated
  refine Contract.safe_bind ?_
  cases activated with
  | true =>
      refine Contract.safe_mono ?_ (fun _ _ h => h)
        (getConsumed_safe hActivated)
      rintro found u ⟨hServes, ticket, rfl, hConsumed⟩
      exact ⟨hServes, hConsumed⟩
  | false =>
      refine Contract.safe_mono ?_ (fun _ _ h => h)
        (getRefused_safe hActivated)
      intro found u hIdle
      cases found with
      | none => exact hIdle
      | some ticket => exact hIdle

------------------------------------------------------------
-- Every Run
------------------------------------------------------------

theorem spends_renewTicket (ticketId : String) :
    (renewTicket config ticketId).Only Spends := by
  apply Async.only_bind (Async.only_call.mpr trivial)
  intro current
  have hPreRenew : (preRenew ticketId).Only Spends := by
    apply Async.only_bind (only_tickets trivial)
    intro found
    cases found with
    | none => trivial
    | some ticket =>
        exact Async.only_bind (only_users trivial)
          fun _ => Async.only_ensure
  apply Async.only_bind hPreRenew
  intro _
  apply Async.only_bind (only_tickets trivial)
  intro renewed
  cases renewed with
  | true => trivial
  | false =>
      apply Async.only_bind (only_tickets trivial)
      intro found
      cases found with
      | none => trivial
      | some ticket =>
          dsimp only
          split <;> trivial

/- A call that consumes no ticket issues none either. -/
theorem spends_serveTicket
    (hCall :
      ∀ ticketId operation repo,
        call ≠ .consume ticketId operation repo) :
    (serveTicket config call).Only Spends := by
  cases call with
  | consume ticketId operation repo =>
      exact absurd rfl (hCall ticketId operation repo)
  | renew ticketId =>
      exact Async.only_bind (spends_renewTicket ticketId)
        fun _ => trivial
  | close ticketId =>
      refine Async.only_bind ?_ fun _ => trivial
      exact Async.only_bind (only_tickets trivial)
        fun _ => Async.only_ensure
  | reap now =>
      exact Async.only_bind (only_tickets trivial)
        fun _ => trivial

theorem keeps_start
    (hInv : MachineInv initial w) :
    (machineContract initial).Keeps i w (w.start i call) :=
  keeps_event hInv rfl rfl (by simp) (by
    intro j outcome hEvent
    cases hEvent)

theorem idle_start
    (hFresh : w.Fresh i) :
    Idle i call (w.start i call) := by
  constructor
  · exact serves_start hFresh
  · intro op answer before after hEvent
    rcases List.mem_cons.mp hEvent with hNew | hOld
    · cases hNew
    · exact absurd rfl (hFresh _ hOld)

/- What a call owes when it ends. -/
theorem ends_of_settles
    {outcome : Except TransferError TicketReturn}
    (hInv : MachineInv initial w)
    (hSettles :
      Settles (.finished i outcome) w.trace) :
    (machineContract initial).Ends i outcome w :=
  keeps_event hInv rfl rfl (by simp) hSettles

/- Every call keeps the contract once it has started. -/
theorem serveTicket_safe
    (hInv : MachineInv initial w)
    (hFresh : w.Fresh i) :
    (machineContract initial).SafeTask
      (ticketSystem config flows) .everything i
      (serveTicket config call) (w.start i call) := by
  have hIdle : Idle i call (w.start i call) :=
    idle_start hFresh
  have hStarted : MachineInv initial (w.start i call) :=
    (keeps_start hInv).1
  by_cases hConsume :
      ∃ ticketId operation repo,
        call = .consume ticketId operation repo
  · rcases hConsume with ⟨ticketId, operation, repo, rfl⟩
    refine Contract.safe_bind ?_
    refine Contract.safe_mono ?_ ?_
      (Contract.safe_with_inv hStarted (consume_safe hIdle))
    · rintro ticket v ⟨hHere, hServes, hConsumed⟩
      apply ends_of_settles hHere
      intro j outcome hEvent ticketId' operation' repo'
        hStart
      cases hEvent
      cases hServes _ hStart
      exact hConsumed
    · rintro error v ⟨hHere, hIdle⟩
      apply ends_of_settles hHere
      intro j outcome hEvent ticketId' operation' repo'
        hStart
      cases hEvent
      exact hIdle.untouched
  · have hOther :
        ∀ ticketId operation repo,
          call ≠ .consume ticketId operation repo :=
      fun ticketId operation repo hCall =>
        hConsume ⟨ticketId, operation, repo, hCall⟩
    have hEnds :
        ∀ (outcome : Except TransferError TicketReturn) v,
          MachineInv initial v ∧ Serves i call v →
            (machineContract initial).Ends i outcome v := by
      rintro outcome v ⟨hHere, hServes⟩
      apply ends_of_settles hHere
      intro j other hEvent ticketId operation repo hStart
      cases hEvent
      exact absurd (hServes _ hStart).symm
        (hOther ticketId operation repo)
    have hSafe :
        SafeCall config flows initial i
          (serveTicket config call)
          (fun _ => Serves i call) (Serves i call)
          (w.start i call) := by
      refine Contract.safe_of_moves
        (spends_serveTicket hOther) ?_ stable_serves
        hIdle.serves
      intro op hSpends v hServes hHere _ choice answer after
        hExec
      have hRun :
          ticketExec flows op choice v.state =
            some (answer, after) := hExec
      exact ⟨keeps_perform hHere hSpends hRun,
        hServes.perform⟩
    exact
      Contract.safe_mono (fun value => hEnds (.ok value))
        (fun error => hEnds (.error error))
        (Contract.safe_with_inv hStarted hSafe)

theorem machineInv_initial (s : TicketState) :
    MachineInv s.tickets ⟨s, []⟩ where
  steps := fun _ _ _ _ _ hEvent =>
    absurd hEvent List.not_mem_nil
  absent := fun _ hNone => hNone
  present := fun _ ticket hFind =>
    ⟨ticket, hFind, rfl, .refl ticket, .refl⟩
  spent := by
    rintro i ticketId ⟨_, _, _, _, _, hEvent⟩
    exact absurd hEvent List.not_mem_nil
  single := by
    rintro i j ticketId ⟨_, _, _, _, _, hEvent⟩
    exact absurd hEvent List.not_mem_nil
  settled := trivial

/- A call that has succeeded has activated its ticket. -/
theorem activated_of_succeeded
    (hInv : MachineInv initial w)
    (hSucceeded : Succeeded i ticketId w.trace) :
    Activated i ticketId w.trace := by
  rcases hSucceeded with
    ⟨newer, older, operation, repo, ticket, hTrace, hStart⟩
  have hSettled :=
    throughout_iff.mp hInv.settled newer _ older hTrace
  have hConsumed : Consumed i ticketId operation repo ticket
      older :=
    hSettled i _ rfl ticketId operation repo hStart
  rcases hConsumed.unexpired with
    ⟨current, _, _, _, before, after, _, hEvent, _⟩
  refine ⟨operation, repo, current, before, after, ?_⟩
  rw [hTrace]
  exact
    List.mem_append_right _ (List.mem_cons_of_mem _ hEvent)

/-
  In every run of calls that consume, renew, close and reap
  the tickets of a table, whatever the verifier answers and
  however the clock moves: the tickets follow their state
  machine.
-/
theorem ticket_machine
    (config : TransferConfig)
    (flows : Nat → Nat → Bool)
    (initial : TicketState)
    (p : TicketPool)
    (hRun :
      (ticketSystem config flows).Run .everything
        (Pool.initial initial) p) :
    Lawful initial.tickets p.world := by
  have hPool :=
    Contract.sound (K := machineContract initial.tickets)
      initial (machineInv_initial initial)
      (fun _ _ _ hInv hFresh _ =>
        ⟨keeps_start hInv, serveTicket_safe hInv hFresh⟩)
      hRun
  have hInv : MachineInv initial.tickets p.world := hPool.inv
  refine
    { steps := hInv.steps
      absent := hInv.absent
      present := hInv.present
      single := ?_
      succeeds := ?_
      fails := ?_ }
  · intro i j ticketId hFirst hSecond
    exact
      hInv.single i j ticketId
        (activated_of_succeeded hInv hFirst)
        (activated_of_succeeded hInv hSecond)
  · intro newer i ticket older hTrace ticketId operation repo
      hStart
    exact
      throughout_iff.mp hInv.settled newer _ older hTrace i _
        rfl ticketId operation repo hStart
  · intro newer i error older hTrace ticketId operation repo
      hStart
    exact
      throughout_iff.mp hInv.settled newer _ older hTrace i _
        rfl ticketId operation repo hStart

/- One ticket for pushing, issued at zero. -/
def oneTicket : TicketState where
  clock := 0
  tickets := writerWithTicket.tickets

/- The verifier answers with a role, at a time. -/
def answers (role : RepoRole) (clock : Nat) : TicketChoice where
  role := .ok (some role)
  clock := clock

/- Both calls look the ticket up before one activates it. -/
def bothConsume : List (Label TicketChoice TicketCall) :=
  [ .start 1 (.consume "t" "push" "r")
  , .start 2 (.consume "t" "push" "r")
  , .resume 1 (answers .writer 5)
  , .resume 2 (answers .writer 7)
  , .resume 1 (answers .writer 7)
  , .resume 2 (answers .writer 7)
  , .resume 1 (answers .writer 7)
  , .resume 2 (answers .admin 7)
  , .resume 2 (answers .admin 7)
  , .resume 1 (answers .writer 7)
  , .resume 1 (answers .writer 7)
  , .resume 2 (answers .admin 7) ]

/- The second call consumes the ticket, the first one finds
   it consumed. -/
theorem ticket_machine_of_both :
    ∃ q,
      (ticketSystem smallConfig fun _ _ => true).replay?
          (Pool.initial oneTicket) bothConsume = some q ∧
        (∃ ticket older,
          q.world.trace =
            .finished 2 (.ok (.consumed ticket)) :: older) ∧
        Lawful oneTicket.tickets q.world := by
  have hBoth :
      ∃ q,
        (ticketSystem smallConfig fun _ _ => true).replay?
            (Pool.initial oneTicket) bothConsume = some q ∧
          ∃ ticket older,
            q.world.trace =
              .finished 2 (.ok (.consumed ticket)) ::
                older :=
    ⟨_, rfl, _, _, rfl⟩
  rcases hBoth with ⟨q, hReplay, hSecond⟩
  refine ⟨q, hReplay, hSecond, ?_⟩
  exact ticket_machine smallConfig (fun _ _ => true) oneTicket
    q (System.run_of_replay? hReplay)

end TicketMachine

end Transfer
