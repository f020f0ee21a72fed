import Deltix.Auth.UserStore

/-
  The ticket store: the table `transfer_tickets` and the SQL
  statements on it.  Each statement is atomic.

  Key definitions include:
    * `Ticket`
    * `TicketTable`
    * `TicketStatement`
    * `TicketStatement.run`

  Key theorems include:
    * `TicketStatement.run_cases`
    * `TicketStatement.grant_run`
    * `TicketStatement.activate_eq_true_iff`
-/

namespace Transfer

open Auth Relational

inductive TransferOperation where
  | push
  | pull
  deriving DecidableEq, Repr

/- The text the operation is stored and compared as. -/
def TransferOperation.text : TransferOperation → String
  | .push => "push"
  | .pull => "pull"

inductive SyncMode where
  | schemaOnly
  | schemaAndData
  deriving DecidableEq, Repr

inductive TicketStatus where
  | issued
  | active
  | closed
  | expired
  deriving DecidableEq, Repr

/- `tables` is absent, `null` or a list. -/
structure PushTicketSyncOptions where
  mode : Option SyncMode
  tables : Option (Option (List String))
  dryRun : Option Bool
  deriving DecidableEq, Repr

structure Ticket where
  id : String
  username : String
  operation : TransferOperation
  repo : String
  status : TicketStatus
  issuedAt : Nat
  expiresAt : Nat
  syncOptions : Option PushTicketSyncOptions
  deriving DecidableEq, Repr

/- What a ticket was issued for, and to whom. -/
structure Ticket.SameGrant (ticket other : Ticket) : Prop where
  username : other.username = ticket.username
  operation : other.operation = ticket.operation
  repo : other.repo = ticket.repo

theorem Ticket.SameGrant.refl (ticket : Ticket) :
    ticket.SameGrant ticket :=
  ⟨rfl, rfl, rfl⟩

theorem Ticket.SameGrant.trans
    {ticket other third : Ticket}
    (hFirst : ticket.SameGrant other)
    (hSecond : other.SameGrant third) :
    ticket.SameGrant third :=
  ⟨by rw [hSecond.username, hFirst.username],
    by rw [hSecond.operation, hFirst.operation],
    by rw [hSecond.repo, hFirst.repo]⟩

abbrev TicketTable :=
  KeyedTable Ticket.id

/-
  The statements of the store, under its method names.  The
  operation to activate is whatever text the caller names.
-/
inductive TicketStatement where
  | create (ticket : Ticket)
  | get (ticketId : String)
  | activate
      (ticketId operation repo : String)
      (now : Nat)
  | renew (ticketId : String) (newExpiresAt now : Nat)
  | close (ticketId : String)
  | reapExpired (now : Nat)

/- `INSERT INTO transfer_tickets` -/
def insertTicket
    (tickets : TicketTable)
    (ticket : Ticket) :
    Except StoreError Unit × TicketTable :=
  match tickets.insert? ticket with
  | some next => (.ok (), next)
  | none => (.error .uniqueConstraint, tickets)

namespace TicketStatement

/- What a statement answers when it is not refused. -/
abbrev Answer : TicketStatement → Type
  | .create _ => Unit
  | .get _ => Option Ticket
  | .activate _ _ _ _ => Bool
  | .renew _ _ _ => Bool
  | .close _ => Bool
  | .reapExpired _ => Nat

/- The `WHERE` clauses, after `id = ?`. -/
def activates
    (operation repo : String)
    (now : Nat)
    (ticket : Ticket) : Bool :=
  ticket.operation.text = operation ∧ ticket.repo = repo ∧
    ticket.status = .issued ∧ ticket.expiresAt > now

def renews (now : Nat) (ticket : Ticket) : Bool :=
  ticket.status = .active ∧ ticket.expiresAt > now

def closes (ticket : Ticket) : Bool :=
  ticket.status = .active

def reaps (now : Nat) (ticket : Ticket) : Bool :=
  (ticket.status = .issued ∨ ticket.status = .active) ∧
    ticket.expiresAt ≤ now

/- `UPDATE transfer_tickets SET ... WHERE id = ? AND ...` -/
def updateOne
    (tickets : TicketTable)
    (ticketId : String)
    (cond : Ticket → Bool)
    (set : Ticket → Ticket)
    (keeps : ∀ ticket, (set ticket).id = ticket.id) :
    Except StoreError Bool × TicketTable :=
  (.ok
    (tickets.affected (fun ticket =>
      ticket.id = ticketId && cond ticket) == 1),
    tickets.updateWhere
      (fun ticket => ticket.id = ticketId && cond ticket)
      set keeps)

/- Run a statement on the table. -/
def run :
    (statement : TicketStatement) → TicketTable →
      Except StoreError statement.Answer × TicketTable
  | .create ticket, tickets => insertTicket tickets ticket
  | .get ticketId, tickets =>
      (.ok (tickets.find? ticketId), tickets)
  | .activate ticketId operation repo now, tickets =>
      updateOne tickets ticketId
        (activates operation repo now)
        (fun ticket => { ticket with status := .active })
        (fun _ => rfl)
  | .renew ticketId newExpiresAt now, tickets =>
      updateOne tickets ticketId (renews now)
        (fun ticket =>
          { ticket with expiresAt := newExpiresAt })
        (fun _ => rfl)
  | .close ticketId, tickets =>
      updateOne tickets ticketId closes
        (fun ticket => { ticket with status := .closed })
        (fun _ => rfl)
  | .reapExpired now, tickets =>
      (.ok (tickets.affected (reaps now)),
        tickets.updateWhere (reaps now)
          (fun ticket => { ticket with status := .expired })
          (fun _ => rfl))

end TicketStatement

end Transfer

------------------------------------------------------------
-- What A Statement Does
------------------------------------------------------------

namespace Transfer

open Auth Relational

variable {tickets : TicketTable} {ticket : Ticket}
variable {ticketId : String}

theorem insertTicket_cases
    (tickets : TicketTable)
    (ticket : Ticket) :
    insertTicket tickets ticket =
        (.error .uniqueConstraint, tickets) ∨
      ((insertTicket tickets ticket).1 = .ok () ∧
        tickets.find? ticket.id = none ∧
        ∀ other,
          (insertTicket tickets ticket).2.find? other =
            if ticket.id = other then some ticket
            else tickets.find? other) := by
  unfold insertTicket
  cases hInsert : tickets.insert? ticket with
  | none => exact Or.inl rfl
  | some next =>
      refine Or.inr ⟨rfl, ?_, ?_⟩
      · exact (KeyedTable.insert?_eq_some_iff.mp hInsert).1
      · intro other
        exact KeyedTable.find?_insert? hInsert

namespace TicketStatement

variable {cond : Ticket → Bool} {set : Ticket → Ticket}
variable {keeps : ∀ ticket, (set ticket).id = ticket.id}
variable {statement : TicketStatement}

theorem find?_updateOne
    (id : String) :
    (updateOne tickets ticketId cond set keeps).2.find? id =
      (tickets.find? id).map fun ticket =>
        if ticket.id = ticketId && cond ticket then
          set ticket
        else ticket := by
  unfold updateOne
  rw [KeyedTable.find?_updateWhere]

/- The rows a statement updates, and how. -/
def sets :
    TicketStatement →
      Option ((Ticket → Bool) × (Ticket → Ticket))
  | .activate ticketId operation repo now =>
      some
        (fun ticket =>
          ticket.id = ticketId &&
            activates operation repo now ticket,
          fun ticket => { ticket with status := .active })
  | .renew ticketId newExpiresAt now =>
      some
        (fun ticket =>
          ticket.id = ticketId && renews now ticket,
          fun ticket =>
            { ticket with expiresAt := newExpiresAt })
  | .close ticketId =>
      some
        (fun ticket =>
          ticket.id = ticketId && closes ticket,
          fun ticket => { ticket with status := .closed })
  | .reapExpired now =>
      some
        (fun ticket => reaps now ticket,
          fun ticket => { ticket with status := .expired })
  | _ => none

/-
  A statement changes nothing, updates the rows that meet
  its condition, or inserts a ticket under a new id.
-/
theorem run_cases
    (statement : TicketStatement)
    (tickets : TicketTable) :
    (statement.run tickets).2 = tickets ∨
      (∃ cond set,
        statement.sets = some (cond, set) ∧
        ∀ id,
          (statement.run tickets).2.find? id =
            (tickets.find? id).map fun ticket =>
              if cond ticket then set ticket else ticket) ∨
      (∃ ticket,
        statement = .create ticket ∧
        tickets.find? ticket.id = none ∧
        ∀ id,
          (statement.run tickets).2.find? id =
            if ticket.id = id then some ticket
            else tickets.find? id) := by
  cases statement with
  | get ticketId => exact Or.inl rfl
  | create ticket =>
      rcases insertTicket_cases tickets ticket with
        hSame | hNew
      · exact Or.inl (congrArg Prod.snd hSame)
      · exact Or.inr (Or.inr ⟨ticket, rfl, hNew.2⟩)
  | activate ticketId operation repo now =>
      exact Or.inr (Or.inl ⟨_, _, rfl, find?_updateOne⟩)
  | renew ticketId newExpiresAt now =>
      exact Or.inr (Or.inl ⟨_, _, rfl, find?_updateOne⟩)
  | close ticketId =>
      exact Or.inr (Or.inl ⟨_, _, rfl, find?_updateOne⟩)
  | reapExpired now =>
      exact Or.inr (Or.inl
        ⟨_, _, rfl, fun id => by
          unfold run
          rw [KeyedTable.find?_updateWhere]⟩)

/- An update leaves what a ticket was issued for. -/
theorem sameGrant_of_sets
    (hSets : statement.sets = some (cond, set))
    (ticket : Ticket) :
    ticket.SameGrant (set ticket) := by
  cases statement with
  | get ticketId => cases hSets
  | create ticket => cases hSets
  | activate ticketId operation repo now =>
      cases hSets
      exact ⟨rfl, rfl, rfl⟩
  | renew ticketId newExpiresAt now =>
      cases hSets
      exact ⟨rfl, rfl, rfl⟩
  | close ticketId =>
      cases hSets
      exact ⟨rfl, rfl, rfl⟩
  | reapExpired now =>
      cases hSets
      exact ⟨rfl, rfl, rfl⟩

/- A ticket stays as it is, or is set where it meets the
   condition. -/
theorem row_run
    {P : Ticket → Prop}
    (statement : TicketStatement)
    (hFind : tickets.find? ticketId = some ticket)
    (hSame : P ticket)
    (hSet :
      ∀ cond set, statement.sets = some (cond, set) →
        cond ticket = true → P (set ticket)) :
    ∃ after,
      (statement.run tickets).2.find? ticketId =
          some after ∧
        P after := by
  rcases statement.run_cases tickets with
    hTable | ⟨cond, set, hSets, hRun⟩ |
      ⟨other, _, hNone, hRun⟩
  · rw [hTable]
    exact ⟨ticket, hFind, hSame⟩
  · rw [hRun, hFind]
    refine ⟨_, rfl, ?_⟩
    by_cases hCond : cond ticket = true
    · simp only [hCond, if_true]
      exact hSet cond set hSets hCond
    · simp only [hCond]
      exact hSame
  · have hId : other.id ≠ ticketId := by
      intro hEq
      rw [hEq, hFind] at hNone
      cases hNone
    rw [hRun, if_neg hId]
    exact ⟨ticket, hFind, hSame⟩

/-
  No statement deletes a ticket or changes what it was
  issued for.
-/
theorem grant_run
    (statement : TicketStatement)
    (hFind : tickets.find? ticketId = some ticket) :
    ∃ after,
      (statement.run tickets).2.find? ticketId =
          some after ∧
        ticket.SameGrant after :=
  statement.row_run hFind (.refl ticket)
    fun _ _ hSets _ => sameGrant_of_sets hSets ticket

/- A new ticket comes from a `create` under its id. -/
theorem eq_create_of_new
    (hBefore : tickets.find? ticketId = none)
    (hAfter :
      (statement.run tickets).2.find? ticketId =
        some ticket) :
    statement = .create ticket ∧ ticket.id = ticketId := by
  rcases statement.run_cases tickets with
    hSame | ⟨cond, set, _, hRun⟩ | ⟨other, hEq, _, hRun⟩
  · rw [hSame, hBefore] at hAfter
    cases hAfter
  · rw [hRun, hBefore] at hAfter
    cases hAfter
  · rw [hRun] at hAfter
    by_cases hId : other.id = ticketId
    · rw [if_pos hId, Option.some.injEq] at hAfter
      subst hAfter
      exact ⟨hEq, hId⟩
    · rw [if_neg hId, hBefore] at hAfter
      cases hAfter

/- An update of one row that answers `false` met none. -/
theorem updateOne_eq_self
    (hFalse :
      (updateOne tickets ticketId cond set keeps).1 ≠
        .ok true) :
    (updateOne tickets ticketId cond set keeps).2 =
      tickets := by
  have hNone :
      ∀ ticket ∈ tickets.rows,
        (ticket.id = ticketId && cond ticket) = false := by
    intro ticket hMember
    by_contra hMeets
    rw [Bool.not_eq_false, Bool.and_eq_true,
      decide_eq_true_eq] at hMeets
    apply hFalse
    have hFind := KeyedTable.find?_of_mem hMember
    rw [hMeets.1] at hFind
    have hOne :=
      (KeyedTable.affected_key_eq_one_iff
        (t := tickets)).mpr ⟨ticket, hFind, hMeets.2⟩
    unfold updateOne
    rw [Except.ok.injEq, beq_iff_eq]
    exact hOne
  exact KeyedTable.updateWhere_eq_self keeps hNone

/- When an activation is answered with `true`. -/
theorem activate_eq_true_iff
    {operation repo : String}
    {now : Nat} :
    ((activate ticketId operation repo now).run
        tickets).1 = .ok true ↔
      ∃ ticket, tickets.find? ticketId = some ticket ∧
        ticket.operation.text = operation ∧
        ticket.repo = repo ∧
        ticket.status = .issued ∧
        ticket.expiresAt > now := by
  have hAffected :
      tickets.affected (fun ticket =>
          ticket.id = ticketId &&
            activates operation repo now ticket) = 1 ↔
        ∃ ticket, tickets.find? ticketId = some ticket ∧
          activates operation repo now ticket :=
    KeyedTable.affected_key_eq_one_iff
  unfold run updateOne
  rw [Except.ok.injEq, beq_iff_eq, hAffected]
  simp only [activates, decide_eq_true_eq]

/- And when a renewal is. -/
theorem renew_eq_true_iff
    {newExpiresAt now : Nat} :
    ((renew ticketId newExpiresAt now).run tickets).1 =
        .ok true ↔
      ∃ ticket, tickets.find? ticketId = some ticket ∧
        renews now ticket = true := by
  have hAffected :
      tickets.affected (fun ticket =>
          ticket.id = ticketId && renews now ticket) = 1 ↔
        ∃ ticket, tickets.find? ticketId = some ticket ∧
          renews now ticket :=
    KeyedTable.affected_key_eq_one_iff
  unfold run updateOne
  rw [Except.ok.injEq, beq_iff_eq, hAffected]

end TicketStatement

end Transfer
