import Deltix.Concurrency.SlidingWindow
import Deltix.Transfer.TicketSystem

/-
  The sliding window of the tickets under concurrent
  heartbeats.

  A renewal reads the clock, waits for two look-ups, and
  writes an expiry computed from its reading, guarded by the
  reading too.  The window slides as it should in the runs
  whose renewals take effect in the order in which their
  calls read the clock.

  Key definitions include:
    * `ticketWindow`
    * `renewalsFollow`
    * `ExpiryInv`

  Key theorems include:
    * `expiryInv_step`
    * `tickets_slide`
-/

namespace Transfer

namespace TicketExpiry

open Auth Concurrency Relational

/- The window of a ticket, and the calls that renew it. -/
def ticketWindow (ticketId : String) :
    SlidingWindow TransferOp TransferOp.Answer TicketState
      TicketCall TransferError TicketReturn where
  clock := TicketState.clock
  expiry := fun s =>
    (s.tickets.find? ticketId).map Ticket.expiresAt
  call := fun request => request = .renew ticketId
  expired := .ticketExpired

def reads : TicketEvent → Option Nat
  | .performed _ .now current _ _ => some current
  | _ => none

/- The store has run the update of a renewal. -/
def renews (ticketId : String) (event : TicketEvent) : Prop :=
  ∃ i newExpiresAt now answer before after,
    event =
      .performed i
        (.tickets (.renew ticketId newExpiresAt now)) answer
        before after

/-
  The calls are heartbeats.  A renewal takes effect only
  when no update of a call that had read a later time was
  run on the ticket before.
-/
def renewalsFollow : TicketAllowed where
  start := fun _ call _ =>
    ∃ ticketId, call = .renew ticketId
  perform := fun i op w =>
    ∀ ticketId newExpiresAt now row,
      op = .tickets (.renew ticketId newExpiresAt now) →
        w.state.tickets.find? ticketId = some row →
          TicketStatement.renews now row = true →
            FollowsClock reads (renews ticketId) i w.trace

------------------------------------------------------------
-- The Invariant
------------------------------------------------------------

/- An update takes effect. -/
def Hits
    (ticketId : String)
    (event : TicketEvent)
    (_older : List TicketEvent) : Prop :=
  ∃ i newExpiresAt now before after,
    event =
      .performed i
        (.tickets (.renew ticketId newExpiresAt now))
        (.ok true) before after

/- It misses a ticket that had expired when the call read
   the clock. -/
def MissesAt
    (ticketId : String)
    (current : Nat)
    (event : TicketEvent)
    (older : List TicketEvent) : Prop :=
  ∃ i newExpiresAt before after row,
    event =
        .performed i
          (.tickets (.renew ticketId newExpiresAt current))
          (.ok false) before after ∧
      lastReading reads i older = some current ∧
      before.tickets.find? ticketId = some row ∧
      row.expiresAt ≤ current

def Misses
    (ticketId : String)
    (event : TicketEvent)
    (older : List TicketEvent) : Prop :=
  ∃ current, MissesAt ticketId current event older

/- `start` is the time at which the run begins, and `ttl`
   the length of the window. -/
structure ExpiryInv
    (start ttl : Nat)
    (w : TicketWorld) : Prop where
  begins : Throughout Begins w.trace
  started : start ≤ w.state.clock
  read :
    ∀ i current, lastReading reads i w.trace = some current →
      start ≤ current ∧ current ≤ w.state.clock
  source :
    ∀ id row, w.state.tickets.find? id = some row →
      row.expiresAt ≤ start + ttl ∨
        ∃ current,
          Somewhere (WritesAt reads (renews id) current)
              w.trace ∧
            row.expiresAt = current + ttl
  missed :
    ∀ id current, Somewhere (MissesAt id current) w.trace →
      current ≤ w.state.clock ∧
        ∀ row, w.state.tickets.find? id = some row →
          row.expiresAt ≤ current
  grows :
    ∀ i op answer before after,
      .performed i op answer before after ∈ w.trace →
        ∀ id earlier later,
          before.tickets.find? id = some earlier →
            after.tickets.find? id = some later →
              earlier.expiresAt ≤ later.expiresAt
  order :
    ∀ id,
      Throughout
        (fun event older =>
          Hits id event older → ¬ Somewhere (Misses id) older)
        w.trace
  lapsed :
    ∀ id,
      Throughout
        (fun event older =>
          ∀ i op answer before after,
            event = .performed i op answer before after →
              Somewhere (Misses id) older →
                ∀ row, after.tickets.find? id = some row →
                  row.expiresAt ≤ after.clock)
        w.trace
  rejected :
    ∀ id,
      Throughout
        (fun event older =>
          ∀ i, event = .finished i (.error .ticketExpired) →
            .started i (.renew id) ∈ older →
              Somewhere (Misses id) older)
        w.trace
  succeeded :
    ∀ id,
      Throughout
        (fun event older =>
          ∀ i value, event = .finished i (.ok value) →
            .started i (.renew id) ∈ older →
              Somewhere
                (fun hit before =>
                  hit.task = i ∧ Hits id hit before)
                older)
        w.trace

------------------------------------------------------------
-- Steps Keep The Invariant
------------------------------------------------------------

variable {op : TransferOp} {choice : TicketChoice}
variable {answer : op.Answer} {s t after : TicketState}
variable {w v : TicketWorld} {i start ttl : Nat} {id : String}

/- The operations of a heartbeat. -/
def OfHeartbeat : TransferOp → Prop
  | .now => True
  | .users _ => True
  | .tickets (.get _) => True
  | .tickets (.renew _ _ _) => True
  | _ => False

/- The clock is not turned back. -/
def forward (earlier later : Nat) : Bool :=
  earlier ≤ later

theorem clock_exec
    (hExec :
      ticketExec forward op choice s = some (answer, t)) :
    s.clock ≤ t.clock := by
  cases op with
  | now =>
      have hNow := exec_now hExec
      rw [hNow.2.1]
      simpa [forward] using hNow.1
  | tickets statement =>
      exact (exec_statement hExec).2.2.ge
  | users statement =>
      cases statement with
      | getRepoRole username repoId =>
          cases hExec
          exact le_refl _
      | _ => cases hExec
  | _ => cases hExec

/- A renewal that is answered with `true` finds its ticket
   active and not expired, and moves its expiry. -/
theorem run_renew
    {tickets : TicketTable}
    (newExpiresAt now : Nat)
    (id ticketId : String) :
    ((TicketStatement.renew ticketId newExpiresAt now).run
        tickets).2.find? id = tickets.find? id ∨
      (ticketId = id ∧
        ((TicketStatement.renew ticketId newExpiresAt
          now).run tickets).1 = .ok true ∧
        ∃ row,
          tickets.find? id = some row ∧
            TicketStatement.renews now row = true ∧
            ((TicketStatement.renew ticketId newExpiresAt
              now).run tickets).2.find? id =
                some { row with expiresAt := newExpiresAt }) := by
  have hRun :
      ((TicketStatement.renew ticketId newExpiresAt now).run
          tickets).2.find? id =
        (tickets.find? id).map fun ticket =>
          if ticket.id = ticketId &&
              TicketStatement.renews now ticket then
            { ticket with expiresAt := newExpiresAt }
          else ticket :=
    TicketStatement.find?_updateOne id
  rw [hRun]
  cases hFind : tickets.find? id with
  | none => exact Or.inl rfl
  | some row =>
      have hId : row.id = id := KeyedTable.key_of_find? hFind
      by_cases hMeets :
          ticketId = id ∧ TicketStatement.renews now row = true
      · rcases hMeets with ⟨rfl, hRenews⟩
        refine Or.inr ⟨rfl, ?_, row, rfl, hRenews, ?_⟩
        · exact TicketStatement.renew_eq_true_iff.mpr
            ⟨row, hFind, hRenews⟩
        · simp [hId, hRenews]
      · refine Or.inl ?_
        rw [Option.map_some, if_neg]
        rw [Bool.and_eq_true, decide_eq_true_eq, hId]
        rintro ⟨hEq, hRenews⟩
        exact hMeets ⟨hEq.symm, hRenews⟩

/- How an operation of a heartbeat changes a ticket. -/
theorem row_exec
    (hOp : OfHeartbeat op)
    (hExec :
      ticketExec forward op choice s = some (answer, t))
    (id : String) :
    t.tickets.find? id = s.tickets.find? id ∨
      ∃ newExpiresAt now row,
        op = .tickets (.renew id newExpiresAt now) ∧
          HEq answer
            (Except.ok true : Except StoreError Bool) ∧
          s.tickets.find? id = some row ∧
          TicketStatement.renews now row = true ∧
          t.tickets.find? id =
            some { row with expiresAt := newExpiresAt } := by
  rcases exec_tickets_cases hExec with
    hSame | ⟨statement, rfl, hRun⟩
  · exact Or.inl (by rw [hSame])
  · cases statement with
    | get ticketId =>
        exact Or.inl (by rw [hRun]; rfl)
    | renew ticketId newExpiresAt now =>
        rw [hRun]
        rcases run_renew newExpiresAt now id ticketId with
          hSame | ⟨rfl, hTrue, row, hRow⟩
        · exact Or.inl hSame
        · refine Or.inr ⟨newExpiresAt, now, row, rfl, ?_, hRow⟩
          rw [(exec_statement hExec).1] at hTrue
          exact heq_of_eq hTrue
    | _ => exact hOp.elim

/- What a heartbeat owes before it renews: the expiry is
   computed from the time it has read. -/
def Entitled
    (ttl i : Nat)
    (op : TransferOp)
    (w : TicketWorld) : Prop :=
  ∀ id newExpiresAt now,
    op = .tickets (.renew id newExpiresAt now) →
      newExpiresAt = now + ttl ∧
        lastReading reads i w.trace = some now

/- Only a reading of the clock reads it. -/
theorem lastReading_perform
    (hOp : op ≠ .now)
    (k : Nat) :
    lastReading reads k
        (w.perform i op answer after).trace =
      lastReading reads k w.trace := by
  apply lastReading_cons_of_none
  cases op with
  | now => exact absurd rfl hOp
  | _ => rfl

/- A task reads what the clock shows. -/
theorem read_perform
    (hInv : ExpiryInv start ttl w)
    (hExec :
      ticketExec forward op choice w.state =
        some (answer, after))
    {k current : Nat}
    (hRead :
      lastReading reads k
          (w.perform i op answer after).trace =
        some current) :
    start ≤ current ∧ current ≤ after.clock := by
  have hClock := clock_exec hExec
  have hOld :
      lastReading reads k w.trace = some current →
        start ≤ current ∧ current ≤ after.clock := by
    intro hBefore
    have hBounds := hInv.read k current hBefore
    omega
  by_cases hOp : op = .now
  · subst hOp
    by_cases hTask : i = k
    · subst hTask
      rw [lastReading_perform_own] at hRead
      have hNow := exec_now hExec
      have hCurrent : answer = current := by
        simpa [reads] using hRead
      have hStarted := hInv.started
      rw [← hCurrent, ← hNow.2.1]
      omega
    · rw [lastReading_perform_of_ne hTask] at hRead
      exact hOld hRead
  · rw [lastReading_perform hOp] at hRead
    exact hOld hRead

/- A miss is an update, too. -/
theorem writesAt_of_missesAt
    {current : Nat}
    {event : TicketEvent}
    {older : List TicketEvent}
    (hMisses : MissesAt id current event older) :
    WritesAt reads (renews id) current event older := by
  rcases hMisses with
    ⟨k, newExpiresAt, before, later, row, rfl, hRead, _⟩
  exact ⟨⟨k, newExpiresAt, current, _, before, later, rfl⟩,
    hRead⟩

/- A renewal that takes effect follows no miss. -/
theorem not_missed
    {newExpiresAt now : Nat}
    {row : Ticket}
    (hInv : ExpiryInv start ttl w)
    (hOk :
      renewalsFollow.perform i
        (.tickets (.renew id newExpiresAt now)) w)
    (hRead : lastReading reads i w.trace = some now)
    (hFind : w.state.tickets.find? id = some row)
    (hRenews : TicketStatement.renews now row = true) :
    ¬ Somewhere (Misses id) w.trace := by
  intro hMissed
  rcases somewhere_iff.mp hMissed with
    ⟨newer, event, older, hTrace, current, hMiss⟩
  have hSomewhere : Somewhere (MissesAt id current) w.trace :=
    somewhere_iff.mpr ⟨newer, event, older, hTrace, hMiss⟩
  have hOrder :=
    (hOk id newExpiresAt now row rfl hFind hRenews).le hRead
      (hSomewhere.mono fun _ _ => writesAt_of_missesAt)
  have hPast :=
    (hInv.missed id current hSomewhere).2 row hFind
  have hLate : now < row.expiresAt := by
    simp only [TicketStatement.renews,
      decide_eq_true_eq] at hRenews
    exact hRenews.2
  omega

/- And it moves the expiry forward. -/
theorem le_of_renews
    {newExpiresAt now : Nat}
    {row : Ticket}
    (hInv : ExpiryInv start ttl w)
    (hOk :
      renewalsFollow.perform i
        (.tickets (.renew id newExpiresAt now)) w)
    (hRead : lastReading reads i w.trace = some now)
    (hFind : w.state.tickets.find? id = some row)
    (hRenews : TicketStatement.renews now row = true) :
    row.expiresAt ≤ now + ttl := by
  rcases hInv.source id row hFind with
    hInitial | ⟨current, hBefore, hEq⟩
  · have hBounds := hInv.read i now hRead
    omega
  · have hOrder :=
      (hOk id newExpiresAt now row rfl hFind hRenews).le
        hRead hBefore
    omega

/- A miss was just made or was made before. -/
theorem missesAt_perform
    {current : Nat}
    (hMissed :
      Somewhere (MissesAt id current)
        (w.perform i op answer after).trace) :
    (∃ newExpiresAt row,
        op = .tickets (.renew id newExpiresAt current) ∧
          HEq answer
            (Except.ok false : Except StoreError Bool) ∧
          lastReading reads i w.trace = some current ∧
          w.state.tickets.find? id = some row ∧
          row.expiresAt ≤ current) ∨
      Somewhere (MissesAt id current) w.trace := by
  rcases hMissed with hNew | hOld
  · rcases hNew with
      ⟨k, newExpiresAt, before, later, row, hEvent, hRead,
        hFind, hPast⟩
    cases hEvent
    exact Or.inl
      ⟨newExpiresAt, row, rfl, HEq.rfl, hRead, hFind, hPast⟩
  · exact Or.inr hOld

theorem missed_perform
    (hInv : ExpiryInv start ttl w)
    (hOp : OfHeartbeat op)
    (hOk : renewalsFollow.perform i op w)
    (hEntitled : Entitled ttl i op w)
    (hExec :
      ticketExec forward op choice w.state =
        some (answer, after))
    {current : Nat}
    (hMissed :
      Somewhere (MissesAt id current)
        (w.perform i op answer after).trace) :
    current ≤ after.clock ∧
      ∀ row, after.tickets.find? id = some row →
        row.expiresAt ≤ current := by
  have hClock := clock_exec hExec
  rcases missesAt_perform hMissed with
    ⟨newExpiresAt, row, rfl, hAnswer, hRead, hFind, hPast⟩ |
      hOld
  · cases eq_of_heq hAnswer
    have hBounds := hInv.read i current hRead
    refine ⟨hBounds.2.trans hClock, ?_⟩
    intro later hLater
    rcases row_exec hOp hExec id with
      hSame | ⟨_, _, _, hSame, hTrue, _⟩
    · rw [hSame, hFind, Option.some.injEq] at hLater
      rw [← hLater]
      exact hPast
    · cases hSame
      cases eq_of_heq hTrue
  · have hBefore := hInv.missed id current hOld
    refine ⟨hBefore.1.trans hClock, ?_⟩
    intro later hLater
    rcases row_exec hOp hExec id with
      hSame | ⟨newExpiresAt, now, row, rfl, _, hFind, hRenews,
        _⟩
    · rw [hSame] at hLater
      exact hBefore.2 later hLater
    · have hRead := (hEntitled id newExpiresAt now rfl).2
      have hNone :=
        not_missed hInv hOk hRead hFind hRenews
      exact absurd
        (hOld.mono fun _ _ hMiss => ⟨current, hMiss⟩) hNone

theorem source_perform
    {row : Ticket}
    (hInv : ExpiryInv start ttl w)
    (hOp : OfHeartbeat op)
    (hEntitled : Entitled ttl i op w)
    (hExec :
      ticketExec forward op choice w.state =
        some (answer, after))
    (hFind : after.tickets.find? id = some row) :
    row.expiresAt ≤ start + ttl ∨
      ∃ current,
        Somewhere (WritesAt reads (renews id) current)
            (w.perform i op answer after).trace ∧
          row.expiresAt = current + ttl := by
  rcases row_exec hOp hExec id with
    hSame | ⟨newExpiresAt, now, before, rfl, _, _, _, hAfter⟩
  · rw [hSame] at hFind
    rcases hInv.source id row hFind with
      hInitial | ⟨current, hBefore, hEq⟩
    · exact Or.inl hInitial
    · exact Or.inr ⟨current, Or.inr hBefore, hEq⟩
  · rw [hAfter, Option.some.injEq] at hFind
    subst hFind
    have hOwn := hEntitled id newExpiresAt now rfl
    refine Or.inr ⟨now, Or.inl ⟨?_, hOwn.2⟩, hOwn.1⟩
    exact ⟨i, newExpiresAt, now, answer, _, _, rfl⟩

theorem grows_perform
    {earlier later : Ticket}
    (hInv : ExpiryInv start ttl w)
    (hOp : OfHeartbeat op)
    (hOk : renewalsFollow.perform i op w)
    (hEntitled : Entitled ttl i op w)
    (hExec :
      ticketExec forward op choice w.state =
        some (answer, after))
    (hEarlier : w.state.tickets.find? id = some earlier)
    (hLater : after.tickets.find? id = some later) :
    earlier.expiresAt ≤ later.expiresAt := by
  rcases row_exec hOp hExec id with
    hSame | ⟨newExpiresAt, now, row, rfl, _, hFind, hRenews,
      hAfter⟩
  · rw [hSame, hEarlier, Option.some.injEq] at hLater
    rw [hLater]
  · rw [hFind, Option.some.injEq] at hEarlier
    subst hEarlier
    rw [hAfter, Option.some.injEq] at hLater
    subst hLater
    have hOwn := hEntitled id newExpiresAt now rfl
    have hNext :=
      le_of_renews hInv hOk hOwn.2 hFind hRenews
    rw [← hOwn.1] at hNext
    exact hNext

theorem order_perform
    (hInv : ExpiryInv start ttl w)
    (hOk : renewalsFollow.perform i op w)
    (hEntitled : Entitled ttl i op w)
    (hExec :
      ticketExec forward op choice w.state =
        some (answer, after))
    (hHits :
      Hits id (.performed i op answer w.state after)
        w.trace) :
    ¬ Somewhere (Misses id) w.trace := by
  rcases hHits with
    ⟨k, newExpiresAt, now, before, later, hEvent⟩
  cases hEvent
  have hOwn := hEntitled id newExpiresAt now rfl
  have hTrue := (exec_statement hExec).1
  rcases TicketStatement.renew_eq_true_iff.mp hTrue with
    ⟨row, hFind, hRenews⟩
  exact not_missed hInv hOk hOwn.2 hFind hRenews

/- Every operation of a heartbeat keeps the invariant. -/
theorem expiryInv_step
    (hInv : ExpiryInv start ttl w)
    (hOp : OfHeartbeat op)
    (hOk : renewalsFollow.perform i op w)
    (hEntitled : Entitled ttl i op w)
    (hExec :
      ticketExec forward op choice w.state =
        some (answer, after)) :
    ExpiryInv start ttl (w.perform i op answer after) where
  begins := by
    refine ⟨?_, hInv.begins⟩
    intro k request hEvent
    cases hEvent
  started := hInv.started.trans (clock_exec hExec)
  read := fun _ _ hRead => read_perform hInv hExec hRead
  source := fun _ _ hFind =>
    source_perform hInv hOp hEntitled hExec hFind
  missed := fun _ _ hMissed =>
    missed_perform hInv hOp hOk hEntitled hExec hMissed
  grows := by
    intro k other reply before later hEvent id earlier next
      hEarlier hNext
    rcases List.mem_cons.mp hEvent with hNew | hOld
    · cases hNew
      exact
        grows_perform hInv hOp hOk hEntitled hExec hEarlier
          hNext
    · exact
        hInv.grows k other reply before later hOld id earlier
          next hEarlier hNext
  order := fun id =>
    ⟨order_perform hInv hOk hEntitled hExec, hInv.order id⟩
  lapsed := by
    intro id
    refine ⟨?_, hInv.lapsed id⟩
    intro k other reply before later hEvent hMissed row hRow
    cases hEvent
    rcases somewhere_iff.mp hMissed with
      ⟨newer, event, older, hTrace, current, hMiss⟩
    have hSomewhere :
        Somewhere (MissesAt id current)
          (w.perform i op answer after).trace :=
      Or.inr
        (somewhere_iff.mpr
          ⟨newer, event, older, hTrace, hMiss⟩)
    have hPast :=
      missed_perform hInv hOp hOk hEntitled hExec hSomewhere
    exact (hPast.2 row hRow).trans hPast.1
  rejected := by
    intro id
    refine ⟨?_, hInv.rejected id⟩
    intro k hEvent
    cases hEvent
  succeeded := by
    intro id
    refine ⟨?_, hInv.succeeded id⟩
    intro k value hEvent
    cases hEvent

------------------------------------------------------------
-- The Contract
------------------------------------------------------------

variable {event : TicketEvent}

/- The others leave every ticket its status. -/
def SameStatus (s t : TicketState) : Prop :=
  ∀ id later, t.tickets.find? id = some later →
    ∃ row,
      s.tickets.find? id = some row ∧
        row.status = later.status

def expiryContract (start ttl : Nat) : TicketContract where
  inv := ExpiryInv start ttl
  rely := fun _ w v => SameStatus w.state v.state
  rely_refl := fun _ _ _ row hFind => ⟨row, hFind, rfl⟩
  rely_trans := by
    intro i w v u hFirst hSecond id later hLater
    rcases hSecond id later hLater with ⟨next, hNext, hSame⟩
    rcases hFirst id next hNext with ⟨row, hRow, hSame'⟩
    exact ⟨row, hRow, hSame'.trans hSame⟩

theorem sameStatus_exec
    (hOp : OfHeartbeat op)
    (hExec :
      ticketExec forward op choice s = some (answer, t)) :
    SameStatus s t := by
  intro id later hLater
  rcases row_exec hOp hExec id with
    hSame | ⟨_, _, row, _, _, hFind, _, hAfter⟩
  · rw [hSame] at hLater
    exact ⟨later, hLater, rfl⟩
  · rw [hAfter, Option.some.injEq] at hLater
    subst hLater
    exact ⟨row, hFind, rfl⟩

theorem keeps_perform
    (hInv : ExpiryInv start ttl w)
    (hOp : OfHeartbeat op)
    (hOk : renewalsFollow.perform i op w)
    (hEntitled : Entitled ttl i op w)
    (hExec :
      ticketExec forward op choice w.state =
        some (answer, after)) :
    (expiryContract start ttl).Keeps i w
      (w.perform i op answer after) :=
  ⟨expiryInv_step hInv hOp hOk hEntitled hExec,
    fun _ _ => sameStatus_exec hOp hExec⟩

/- What a heartbeat owes when it ends. -/
def Ended
    (event : TicketEvent)
    (older : List TicketEvent) : Prop :=
  ∀ i id, .started i (.renew id) ∈ older →
    (event = .finished i (.error .ticketExpired) →
        Somewhere (Misses id) older) ∧
      ∀ value, event = .finished i (.ok value) →
        Somewhere
          (fun hit before =>
            hit.task = i ∧ Hits id hit before)
          older

/- An event that is no operation keeps the contract. -/
theorem keeps_event
    (hInv : ExpiryInv start ttl w)
    (hState : v.state = w.state)
    (hTrace : v.trace = event :: w.trace)
    (hEvent :
      ∀ k op answer before later,
        event ≠ .performed k op answer before later)
    (hBegins : Begins event w.trace)
    (hEnded : Ended event w.trace) :
    (expiryContract start ttl).Keeps i w v := by
  have hReads :
      ∀ k,
        lastReading reads k v.trace =
          lastReading reads k w.trace := by
    intro k
    rw [hTrace]
    apply lastReading_cons_of_none
    cases event with
    | performed j op answer before later =>
        exact absurd rfl (hEvent _ _ _ _ _)
    | started j request => rfl
    | finished j outcome => rfl
  have hMissed :
      ∀ id current, Somewhere (MissesAt id current) v.trace →
        Somewhere (MissesAt id current) w.trace := by
    intro id current hSomewhere
    rw [hTrace] at hSomewhere
    rcases hSomewhere with hNew | hOld
    · rcases hNew with ⟨_, _, _, _, _, hEq, _⟩
      exact absurd hEq (hEvent _ _ _ _ _)
    · exact hOld
  constructor
  · refine
      { begins := ?_
        started := ?_
        read := ?_
        source := ?_
        missed := ?_
        grows := ?_
        order := ?_
        lapsed := ?_
        rejected := ?_
        succeeded := ?_ }
    · rw [hTrace]
      exact ⟨hBegins, hInv.begins⟩
    · rw [hState]
      exact hInv.started
    · intro k current hRead
      rw [hReads] at hRead
      rw [hState]
      exact hInv.read k current hRead
    · intro id row hFind
      rw [hState] at hFind
      rw [hTrace]
      rcases hInv.source id row hFind with
        hInitial | ⟨current, hBefore, hEq⟩
      · exact Or.inl hInitial
      · exact Or.inr ⟨current, Or.inr hBefore, hEq⟩
    · intro id current hSomewhere
      rw [hState]
      exact hInv.missed id current
        (hMissed id current hSomewhere)
    · intro k op answer before later hMember
      rw [hTrace] at hMember
      rcases List.mem_cons.mp hMember with hNew | hOld
      · exact absurd hNew.symm (hEvent _ _ _ _ _)
      · exact hInv.grows k op answer before later hOld
    · intro id
      rw [hTrace]
      refine ⟨?_, hInv.order id⟩
      rintro ⟨_, _, _, _, _, hEq⟩
      exact absurd hEq (hEvent _ _ _ _ _)
    · intro id
      rw [hTrace]
      refine ⟨?_, hInv.lapsed id⟩
      intro k op answer before later hEq
      exact absurd hEq (hEvent _ _ _ _ _)
    · intro id
      rw [hTrace]
      refine ⟨?_, hInv.rejected id⟩
      intro k hEq hStart
      exact (hEnded k id hStart).1 hEq
    · intro id
      rw [hTrace]
      refine ⟨?_, hInv.succeeded id⟩
      intro k value hEq hStart
      exact (hEnded k id hStart).2 value hEq
  · intro j _ id later hLater
    rw [hState] at hLater
    exact ⟨later, hLater, rfl⟩

------------------------------------------------------------
-- A Heartbeat
------------------------------------------------------------

variable {config : TransferConfig} {current : Nat}
variable {call : TicketCall}
variable {J : TicketWorld → Prop}
variable {raised : TransferError → TicketWorld → Prop}

/- A heartbeat that has read the clock. -/
structure Reading
    (i current : Nat)
    (call : TicketCall)
    (w : TicketWorld) : Prop where
  serves : Serves i call w
  read : lastReading reads i w.trace = some current

/- One whose update took effect. -/
structure Renewed
    (i : Nat)
    (id : String)
    (call : TicketCall)
    (w : TicketWorld) : Prop where
  serves : Serves i call w
  hit :
    Somewhere
      (fun hit before => hit.task = i ∧ Hits id hit before)
      w.trace

/- One whose update missed: if the ticket is active, it had
   expired. -/
structure Refused
    (i : Nat)
    (id : String)
    (call : TicketCall)
    (w : TicketWorld) : Prop where
  serves : Serves i call w
  missed :
    ∀ row, w.state.tickets.find? id = some row →
      row.status = .active → Somewhere (Misses id) w.trace

theorem stable_reading :
    (expiryContract start ttl).Stable i
      (Reading i current call) := by
  intro w v hReading hInterferes hInv
  constructor
  · exact stable_serves w v hReading.serves hInterferes hInv
  · rw [lastReading_of_grows hInterferes.1]
    exact hReading.read

theorem stable_refused :
    (expiryContract start ttl).Stable i
      (Refused i id call) := by
  intro w v hRefused hInterferes hInv
  constructor
  · exact stable_serves w v hRefused.serves hInterferes hInv
  · intro later hLater hStatus
    rcases hInterferes.2 id later hLater with
      ⟨row, hRow, hSame⟩
    have hMissed :=
      hRefused.missed row hRow (hSame.trans hStatus)
    rcases hInterferes.1 with ⟨events, hTrace, _⟩
    rw [hTrace]
    exact hMissed.of_suffix (List.suffix_append _ _)

/- A program of a heartbeat is safe, whatever happens. -/
abbrev SafeBeat
    (config : TransferConfig)
    (start ttl i : Nat)
    {α : Type}
    (program : TransferProgram α)
    (post : α → TicketWorld → Prop)
    (raised : TransferError → TicketWorld → Prop)
    (w : TicketWorld) : Prop :=
  (expiryContract start ttl).Safe
    (ticketSystem config forward) renewalsFollow i program
    post raised w

theorem op_safe
    {post : op.Answer → TicketWorld → Prop}
    (hOp : OfHeartbeat op)
    (hEntitled : ∀ v, J v → Entitled ttl i op v)
    (hPost :
      ∀ v choice answer after, J v →
        ticketExec forward op choice v.state =
            some (answer, after) →
          post answer (v.perform i op answer after))
    (hStable : (expiryContract start ttl).Stable i J)
    (hHere : J w) :
    SafeBeat config start ttl i (perform op) post raised
      w := by
  refine Contract.safe_await hStable hHere ?_
  intro v hThere hInv hOk choice answer after hExec
  have hRun :
      ticketExec forward op choice v.state =
        some (answer, after) := hExec
  exact
    ⟨keeps_perform hInv hOp hOk (hEntitled v hThere) hRun,
      hPost v choice answer after hThere hRun⟩

/- No statement of a heartbeat is refused. -/
theorem tickets_safe
    {statement : TicketStatement}
    {post : statement.Answer → TicketWorld → Prop}
    (hOp : OfHeartbeat (.tickets statement))
    (hEntitled :
      ∀ v, J v → Entitled ttl i (.tickets statement) v)
    (hPost :
      ∀ v value after, J v →
        (statement.run v.state.tickets).1 = .ok value →
          after.tickets =
              (statement.run v.state.tickets).2 →
            post value
              (v.perform i (.tickets statement) (.ok value)
                after))
    (hStable : (expiryContract start ttl).Stable i J)
    (hHere : J w) :
    SafeBeat config start ttl i (tickets statement) post
      raised w := by
  refine Contract.safe_bind ?_
  refine op_safe hOp hEntitled ?_ hStable hHere
  intro v choice answer after hThere hExec
  have hRun := exec_statement hExec
  cases answer with
  | ok value => exact hPost v value after hThere hRun.1 hRun.2.1
  | error error =>
      cases statement with
      | get ticketId => exact nomatch hRun.1
      | renew ticketId newExpiresAt now =>
          exact nomatch hRun.1
      | _ => exact hOp.elim

theorem now_safe
    (hServes : Serves i call w) :
    SafeBeat config start ttl i now
      (fun current => Reading i current call) raised w := by
  refine op_safe trivial ?_ ?_ stable_serves hServes
  · intro v _ id newExpiresAt now hOp
    cases hOp
  · intro v choice current after hServes _
    constructor
    · exact hServes.perform
    · rw [lastReading_perform_own]
      rfl

/- An operation that neither reads nor renews. -/
theorem Reading.perform
    (hReading : Reading i current call w)
    (hOp : op ≠ .now) :
    Reading i current call (w.perform i op answer after) := by
  constructor
  · exact hReading.serves.perform
  · rw [lastReading_perform hOp]
    exact hReading.read

/- What a heartbeat raises before its update. -/
def RaisesOther
    (i : Nat)
    (call : TicketCall)
    (error : TransferError)
    (w : TicketWorld) : Prop :=
  Serves i call w ∧ error ≠ .ticketExpired

theorem preRenew_safe
    (hReading : Reading i current call w) :
    SafeBeat config start ttl i (preRenew id)
      (fun _ => Reading i current call)
      (RaisesOther i call) w := by
  have hGet :
      SafeBeat config start ttl i (tickets (.get id))
        (fun _ => Reading i current call)
        (RaisesOther i call) w := by
    refine tickets_safe trivial ?_ ?_ stable_reading hReading
    · intro v _ other newExpiresAt now hOp
      cases hOp
    · intro v found after hReading _ _
      exact hReading.perform (by simp)
  refine Contract.safe_bind ?_
  refine Contract.safe_mono ?_ (fun _ _ h => h) hGet
  intro found v hReading
  cases found with
  | none => exact hReading
  | some ticket =>
      refine Contract.safe_bind (Contract.safe_bind ?_)
      refine op_safe trivial ?_ ?_ stable_reading hReading
      · intro v _ other newExpiresAt now hOp
        cases hOp
      · intro v choice answer after hReading _
        cases answer with
        | error error =>
            exact ⟨hReading.serves.perform, by simp⟩
        | ok role =>
            apply Contract.safe_ensure
            · intro _
              exact hReading.perform (by simp)
            · intro _
              exact ⟨hReading.serves.perform, by simp⟩

/- The update of a renewal hits its ticket or misses it. -/
theorem renew_safe
    (hReading : Reading i current call w) :
    SafeBeat config start ttl i
      (tickets (.renew id (current + ttl) current))
      (fun renewed v =>
        if renewed then Renewed i id call v
        else Refused i id call v)
      raised w := by
  refine tickets_safe trivial ?_ ?_ stable_reading hReading
  · intro v hReading other newExpiresAt now hOp
    cases hOp
    exact ⟨rfl, hReading.read⟩
  · intro v renewed after hReading hAnswer hAfter
    cases renewed with
    | true =>
        refine ⟨hReading.serves.perform, Or.inl ⟨rfl, ?_⟩⟩
        exact ⟨i, _, current, _, _, rfl⟩
    | false =>
        refine ⟨hReading.serves.perform, ?_⟩
        intro row hRow hStatus
        have hSame : after.tickets = v.state.tickets := by
          rw [hAfter]
          apply TicketStatement.updateOne_eq_self
          change ((TicketStatement.renew id (current + ttl)
            current).run v.state.tickets).1 ≠ .ok true
          rw [hAnswer]
          simp
        rw [World.perform_state, hSame] at hRow
        have hPast : row.expiresAt ≤ current := by
          by_contra hLate
          have hRenews :
              TicketStatement.renews current row = true := by
            simp only [TicketStatement.renews, hStatus,
              true_and, decide_eq_true_eq]
            omega
          have hTrue :
              ((TicketStatement.renew id (current + ttl)
                current).run v.state.tickets).1 = .ok true :=
            TicketStatement.renew_eq_true_iff.mpr
              ⟨row, hRow, hRenews⟩
          rw [hAnswer] at hTrue
          cases hTrue
        exact Or.inl
          ⟨current, i, _, _, _, row, rfl, hReading.read, hRow,
            hPast⟩

/- What is raised after it tells whether the ticket had
   expired. -/
def RaisesExpired
    (i : Nat)
    (id : String)
    (call : TicketCall)
    (error : TransferError)
    (w : TicketWorld) : Prop :=
  Serves i call w ∧
    (error = .ticketExpired →
      Somewhere (Misses id) w.trace)

theorem getRefused_safe
    (hRefused : Refused i id call w) :
    SafeBeat config start ttl i (tickets (.get id))
      (fun found v =>
        Serves i call v ∧
          ∀ ticket, found = some ticket →
            ticket.status = .active →
              Somewhere (Misses id) v.trace)
      raised w := by
  refine tickets_safe trivial ?_ ?_ stable_refused hRefused
  · intro v _ other newExpiresAt now hOp
    cases hOp
  · intro v found after hRefused hAnswer _
    refine ⟨hRefused.serves.perform, ?_⟩
    rintro ticket rfl hStatus
    have hFind :
        v.state.tickets.find? id = some ticket := by
      simpa [TicketStatement.run] using hAnswer
    exact Or.inr (hRefused.missed ticket hFind hStatus)

theorem renewTicket_safe
    (hServes : Serves i call w) :
    SafeBeat config start (config.ttlSeconds * 1000) i
      (renewTicket config id) (fun _ => Renewed i id call)
      (RaisesExpired i id call) w := by
  refine Contract.safe_bind ?_
  refine Contract.safe_mono ?_ (fun _ _ h => h)
    (now_safe hServes)
  intro current v hReading
  refine Contract.safe_bind ?_
  refine Contract.safe_mono ?_ ?_ (preRenew_safe hReading)
  · intro _ u hReading
    refine Contract.safe_bind ?_
    refine Contract.safe_mono ?_ (fun _ _ h => h)
      (renew_safe hReading)
    intro renewed x hRenewed
    cases renewed with
    | true => exact hRenewed
    | false =>
        refine Contract.safe_bind ?_
        refine Contract.safe_mono ?_ (fun _ _ h => h)
          (getRefused_safe hRenewed)
        rintro found y ⟨hServes, hMissed⟩
        cases found with
        | none => exact ⟨hServes, by simp⟩
        | some ticket =>
            dsimp only
            by_cases hStatus : ticket.status = .active
            · rw [if_pos hStatus]
              exact ⟨hServes,
                fun _ => hMissed ticket rfl hStatus⟩
            · rw [if_neg hStatus]
              exact ⟨hServes, by simp⟩
  · rintro error u ⟨hServes, hOther⟩
    exact ⟨hServes, fun hError => absurd hError hOther⟩

------------------------------------------------------------
-- Every Run
------------------------------------------------------------

theorem keeps_start
    (hInv : ExpiryInv start ttl w)
    (hFresh : w.Fresh i) :
    (expiryContract start ttl).Keeps i w
      (w.start i call) := by
  refine keeps_event hInv rfl rfl (by simp) ?_ ?_
  · intro k request hEvent other hOther
    cases hEvent
    exact hFresh other hOther
  · intro k other _
    exact ⟨by simp, by simp⟩

/- Every heartbeat keeps the contract. -/
theorem serveTicket_safe
    (hInv :
      ExpiryInv start (config.ttlSeconds * 1000) w)
    (hFresh : w.Fresh i) :
    (expiryContract start (config.ttlSeconds * 1000)).SafeTask
      (ticketSystem config forward) renewalsFollow i
      (serveTicket config (.renew id))
      (w.start i (.renew id)) := by
  refine Contract.safe_bind ?_
  refine Contract.safe_mono ?_ ?_
    (Contract.safe_with_inv (keeps_start hInv hFresh).1
      (renewTicket_safe (serves_start hFresh)))
  · rintro expiresAt v ⟨hHere, hRenewed⟩
    refine
      keeps_event hHere rfl rfl (by simp) (by simp [Begins])
        ?_
    intro k other hStart
    refine ⟨by simp, ?_⟩
    intro value hEvent
    cases hEvent
    cases hRenewed.serves _ hStart
    exact hRenewed.hit
  · rintro error v ⟨hHere, hServes, hMissed⟩
    refine
      keeps_event hHere rfl rfl (by simp) (by simp [Begins])
        ?_
    intro k other hStart
    refine ⟨?_, by simp⟩
    intro hEvent
    cases hEvent
    cases hServes _ hStart
    exact hMissed rfl

theorem expiryInv_initial
    {initial : TicketState}
    (hWithin :
      ∀ id row, initial.tickets.find? id = some row →
        row.expiresAt ≤ initial.clock + ttl) :
    ExpiryInv initial.clock ttl ⟨initial, []⟩ where
  begins := trivial
  started := le_refl _
  read := fun _ _ hRead => by cases hRead
  source := fun id row hFind => Or.inl (hWithin id row hFind)
  missed := fun _ _ hMissed => hMissed.elim
  grows := fun _ _ _ _ _ hEvent =>
    absurd hEvent List.not_mem_nil
  order := fun _ => trivial
  lapsed := fun _ => trivial
  rejected := fun _ => trivial
  succeeded := fun _ => trivial

/- What the invariant says of each ticket. -/
theorem slides_of_inv
    (hInv : ExpiryInv start ttl w)
    (id : String) :
    Slides (ticketWindow id) w.trace := by
  refine
    slides_of_order (Hits id) (Misses id) ?_ hInv.begins
      (hInv.order id) ?_ ?_ ?_
  · intro k op answer before after hEvent earlier later
      hEarlier hLater
    rcases Option.map_eq_some_iff.mp hEarlier with
      ⟨row, hRow, rfl⟩
    rcases Option.map_eq_some_iff.mp hLater with
      ⟨next, hNext, rfl⟩
    exact
      hInv.grows k op answer before after hEvent id row next
        hRow hNext
  · refine (hInv.lapsed id).mono ?_
    intro event older hOver k op answer before after hEvent
      hMissed expiresAt hExpiry
    rcases Option.map_eq_some_iff.mp hExpiry with
      ⟨row, hRow, rfl⟩
    exact hOver k op answer before after hEvent hMissed row hRow
  · refine (hInv.rejected id).mono ?_
    rintro event older hRejected k request hEvent hStart rfl
    exact Or.inr (hRejected k hEvent hStart)
  · refine (hInv.succeeded id).mono ?_
    rintro event older hSucceeded k request value hEvent hStart
      rfl
    exact hSucceeded k value hEvent hStart

/-
  In every run of heartbeats whose renewals take effect in
  the order of their readings of the clock, every ticket's
  window slides, if no expiry was too late at the start.
-/
theorem tickets_slide
    (config : TransferConfig)
    (initial : TicketState)
    (p : TicketPool)
    (hWithin :
      ∀ id row, initial.tickets.find? id = some row →
        row.expiresAt ≤
          initial.clock + config.ttlSeconds * 1000)
    (hRun :
      (ticketSystem config forward).Run renewalsFollow
        (Pool.initial initial) p)
    (id : String) :
    Slides (ticketWindow id) p.world.trace := by
  have hPool :=
    Contract.sound
      (K :=
        expiryContract initial.clock
          (config.ttlSeconds * 1000))
      initial (expiryInv_initial hWithin)
      (fun w i call hInv hFresh hCall => by
        rcases hCall with ⟨ticketId, rfl⟩
        exact ⟨keeps_start hInv hFresh,
          serveTicket_safe hInv hFresh⟩)
      hRun
  exact slides_of_inv hPool.inv id

end TicketExpiry

end Transfer
