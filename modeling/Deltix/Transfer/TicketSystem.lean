import Deltix.Concurrency.RelyGuarantee
import Deltix.Transfer.TicketService

/-
  The tickets by themselves: calls that consume, renew,
  close and reap the tickets of a store, interleaved at
  every await.  What the role verifier answers and what the
  clock shows is left open, call by call.

  Key definitions include:
    * `TicketState`
    * `TicketCall`
    * `ticketSystem`
    * `StatusMove`
    * `TableMove`

  Key theorems include:
    * `tableMove_run`
    * `status_ne_issued_of_move`
-/

------------------------------------------------------------
-- The System
------------------------------------------------------------

namespace Transfer

open Auth Concurrency

structure TicketState where
  clock : Nat
  tickets : TicketTable

/- What a step leaves open: the answer of the verifier and
   the next reading of the clock. -/
structure TicketChoice where
  role : Except StoreError (Option RepoRole)
  clock : Nat

/-
  No call of the store is refused.  `flows` bounds how the
  clock moves between two of its readings.
-/
def ticketExec
    (flows : Nat → Nat → Bool) :
    (op : TransferOp) → TicketChoice → TicketState →
      Option (op.Answer × TicketState)
  | .now, choice, s =>
      if flows s.clock choice.clock then
        some (choice.clock, { s with clock := choice.clock })
      else none
  | .users (.getRepoRole _ _), choice, s =>
      some (choice.role, s)
  | .tickets statement, _, s =>
      some
        ((statement.run s.tickets).1,
          { s with tickets := (statement.run s.tickets).2 })
  | _, _, _ => none

inductive TicketCall where
  | consume (ticketId operation repo : String)
  | renew (ticketId : String)
  | close (ticketId : String)
  | reap (now : Nat)

inductive TicketReturn where
  | consumed (ticket : Ticket)
  | renewed (expiresAt : Nat)
  | closed
  | reaped (affected : Nat)

def serveTicket (config : TransferConfig) :
    TicketCall → TransferProgram TicketReturn
  | .consume ticketId operation repo => do
      let ticket ← consumeTicket ticketId operation repo
      return .consumed ticket
  | .renew ticketId => do
      let expiresAt ← renewTicket config ticketId
      return .renewed expiresAt
  | .close ticketId => do
      closeTicket ticketId
      return .closed
  | .reap now => do
      let affected ← tickets (.reapExpired now)
      return .reaped affected

def ticketSystem
    (config : TransferConfig)
    (flows : Nat → Nat → Bool) :
    System TransferOp TransferOp.Answer TicketState
      TicketChoice TicketCall TransferError TicketReturn where
  serve := fun _ => serveTicket config
  exec := ticketExec flows

abbrev TicketEvent :=
  Event TransferOp TransferOp.Answer TicketState TicketCall
    TransferError TicketReturn

abbrev TicketWorld :=
  World TransferOp TransferOp.Answer TicketState TicketCall
    TransferError TicketReturn

abbrev TicketPool :=
  Pool TransferOp TransferOp.Answer TicketState TicketCall
    TransferError TicketReturn

abbrev TicketContract :=
  Contract TransferOp TransferOp.Answer TicketState
    TicketCall TransferError TicketReturn

abbrev TicketAllowed :=
  Allowed TransferOp TransferOp.Answer TicketState
    TicketCall TransferError TicketReturn

variable {flows : Nat → Nat → Bool} {op : TransferOp}
variable {choice : TicketChoice} {answer : op.Answer}
variable {s t : TicketState} {w : TicketWorld} {i : Nat}
variable {call : TicketCall}

/- The call that a task serves. -/
def Serves
    (i : Nat)
    (call : TicketCall)
    (w : TicketWorld) : Prop :=
  ∀ other, .started i other ∈ w.trace → other = call

theorem Serves.perform
    {after : TicketState}
    (hServes : Serves i call w) :
    Serves i call (w.perform i op answer after) := by
  intro other hEvent
  rcases List.mem_cons.mp hEvent with hNew | hOld
  · cases hNew
  · exact hServes other hOld

theorem serves_start
    (hFresh : w.Fresh i) :
    Serves i call (w.start i call) := by
  intro other hEvent
  rcases List.mem_cons.mp hEvent with hNew | hOld
  · cases hNew
    rfl
  · exact absurd rfl (hFresh _ hOld)

theorem stable_serves {K : TicketContract} :
    K.Stable i (Serves i call) := by
  intro w v hServes hInterferes _ other hEvent
  exact hServes other (hInterferes.1.mem_own rfl hEvent)

/- Reading the clock. -/
theorem exec_now
    {current : Nat}
    (hExec :
      ticketExec flows .now choice s = some (current, t)) :
    flows s.clock current = true ∧ t.clock = current ∧
      t.tickets = s.tickets := by
  by_cases hFlows : flows s.clock choice.clock = true
  · have hRead :
        ticketExec flows .now choice s =
          some (choice.clock, { s with clock := choice.clock }) :=
      if_pos hFlows
    rw [hRead] at hExec
    cases hExec
    exact ⟨hFlows, rfl, rfl⟩
  · have hNone : ticketExec flows .now choice s = none :=
      if_neg hFlows
    rw [hNone] at hExec
    cases hExec

/- A statement does to the tickets what its run does. -/
theorem exec_statement
    {statement : TicketStatement}
    {value : Except StoreError statement.Answer}
    (hExec :
      ticketExec flows (.tickets statement) choice s =
        some (value, t)) :
    (statement.run s.tickets).1 = value ∧
      t.tickets = (statement.run s.tickets).2 ∧
      t.clock = s.clock := by
  cases hExec
  exact ⟨rfl, rfl, rfl⟩

/- Nothing else changes the tickets. -/
theorem exec_tickets_cases
    (hExec : ticketExec flows op choice s = some (answer, t)) :
    t.tickets = s.tickets ∨
      ∃ statement,
        op = .tickets statement ∧
          t.tickets = (statement.run s.tickets).2 := by
  cases op with
  | now => exact Or.inl (exec_now hExec).2.2
  | tickets statement =>
      exact Or.inr ⟨statement, rfl, (exec_statement hExec).2.1⟩
  | users statement =>
      cases statement with
      | getRepoRole username repoId =>
          cases hExec
          exact Or.inl rfl
      | _ => cases hExec
  | _ => cases hExec

------------------------------------------------------------
-- How Tickets Move
------------------------------------------------------------

open Relational

/- The state machine of a ticket. -/
inductive StatusMove : TicketStatus → TicketStatus → Prop where
  | stays (status : TicketStatus) : StatusMove status status
  | activates : StatusMove .issued .active
  | closes : StatusMove .active .closed
  | lapses : StatusMove .issued .expired
  | runsOut : StatusMove .active .expired

/- No ticket is added, and none loses its identity or leaves
   its state machine. -/
structure TableMove (before after : TicketTable) : Prop where
  absent :
    ∀ id, before.find? id = none → after.find? id = none
  present :
    ∀ id ticket, before.find? id = some ticket →
      ∃ later,
        after.find? id = some later ∧
          later.id = ticket.id ∧
          ticket.SameGrant later ∧
          StatusMove ticket.status later.status

variable {before after tickets : TicketTable}
variable {id : String} {ticket later : Ticket}
variable {statement : TicketStatement}
variable {status next : TicketStatus}
variable {ticketId operation repo : String} {now : Nat}

theorem TableMove.refl (tickets : TicketTable) :
    TableMove tickets tickets where
  absent := fun _ hNone => hNone
  present := fun _ ticket hFind =>
    ⟨ticket, hFind, rfl, .refl ticket, .stays _⟩

/- Every update is a move of each ticket it meets. -/
theorem statusMove_of_sets
    {cond : Ticket → Bool}
    {set : Ticket → Ticket}
    (hSets : statement.sets = some (cond, set))
    (hCond : cond ticket = true) :
    (set ticket).id = ticket.id ∧
      StatusMove ticket.status (set ticket).status := by
  cases statement with
  | get ticketId => cases hSets
  | create other => cases hSets
  | activate ticketId operation repo now =>
      cases hSets
      simp only [Bool.and_eq_true,
        TicketStatement.activates,
        decide_eq_true_eq] at hCond
      rw [hCond.2.2.2.1]
      exact ⟨rfl, .activates⟩
  | renew ticketId newExpiresAt now =>
      cases hSets
      exact ⟨rfl, .stays _⟩
  | close ticketId =>
      cases hSets
      simp only [Bool.and_eq_true, TicketStatement.closes,
        decide_eq_true_eq] at hCond
      rw [hCond.2]
      exact ⟨rfl, .closes⟩
  | reapExpired now =>
      cases hSets
      simp only [TicketStatement.reaps,
        decide_eq_true_eq] at hCond
      rcases hCond.1 with hIssued | hActive
      · rw [hIssued]
        exact ⟨rfl, .lapses⟩
      · rw [hActive]
        exact ⟨rfl, .runsOut⟩

/- Every statement but an insertion moves the table. -/
theorem tableMove_run
    (hStatement : ∀ ticket, statement ≠ .create ticket)
    (tickets : TicketTable) :
    TableMove tickets (statement.run tickets).2 := by
  rcases statement.run_cases tickets with
    hSame | ⟨cond, set, hSets, hRun⟩ | ⟨other, hOp, _⟩
  · rw [hSame]
    exact .refl tickets
  · constructor
    · intro id hNone
      rw [hRun, hNone]
      rfl
    · intro id ticket hFind
      rw [hRun, hFind]
      refine ⟨_, rfl, ?_⟩
      dsimp only
      by_cases hCond : cond ticket = true
      · rw [if_pos hCond]
        have hMove := statusMove_of_sets hSets hCond
        exact ⟨hMove.1,
          TicketStatement.sameGrant_of_sets hSets ticket,
          hMove.2⟩
      · rw [if_neg hCond]
        exact ⟨rfl, .refl ticket, .stays _⟩
  · exact absurd hOp (hStatement other)

/- No ticket becomes an issued one again. -/
theorem ne_issued_of_move
    (hMove : StatusMove status next)
    (hStatus : status ≠ .issued) :
    next ≠ .issued := by
  cases hMove with
  | stays => exact hStatus
  | _ => simp

/- No ticket that is used up becomes active again. -/
theorem ne_active_of_move
    (hMove : StatusMove status next)
    (hIssued : status ≠ .issued)
    (hActive : status ≠ .active) :
    next ≠ .active := by
  cases hMove with
  | stays => exact hActive
  | activates => exact absurd rfl hIssued
  | _ => simp

/- An activation that is answered with `true` finds its
   ticket issued and leaves it active. -/
theorem run_activate_true
    (hTrue :
      ((TicketStatement.activate ticketId operation repo
        now).run tickets).1 = .ok true) :
    ∃ row,
      tickets.find? ticketId = some row ∧
        row.operation.text = operation ∧
        row.repo = repo ∧
        row.status = .issued ∧
        now < row.expiresAt ∧
        ((TicketStatement.activate ticketId operation repo
          now).run tickets).2.find? ticketId =
            some { row with status := .active } := by
  rcases TicketStatement.activate_eq_true_iff.mp hTrue with
    ⟨row, hFind, hOperation, hRepo, hStatus, hTime⟩
  refine
    ⟨row, hFind, hOperation, hRepo, hStatus, hTime, ?_⟩
  have hId : row.id = ticketId := KeyedTable.key_of_find? hFind
  have hActivates :
      TicketStatement.activates operation repo now row =
        true := by
    simp [TicketStatement.activates, hOperation, hRepo,
      hStatus, hTime]
  unfold TicketStatement.run
  rw [TicketStatement.find?_updateOne, hFind]
  simp [hId, hActivates]

/- And one that is answered otherwise changes nothing. -/
theorem run_activate_false
    (hFalse :
      ((TicketStatement.activate ticketId operation repo
        now).run tickets).1 ≠ .ok true) :
    ((TicketStatement.activate ticketId operation repo
      now).run tickets).2 = tickets :=
  TicketStatement.updateOne_eq_self hFalse

end Transfer
