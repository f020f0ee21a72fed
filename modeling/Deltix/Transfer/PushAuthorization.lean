import Deltix.Transfer.PushOutline

/-
  Authorization of pushes over whole runs: a push creates a
  job on a repository only after it has consumed a ticket
  that was issued for pushing to that repository, at a
  moment when the user of the ticket was at least a writer.

  The server checks the operation that the client names in
  its header, so a client that names `pull` gets through
  with a pull ticket.  The property holds of the runs in
  which no push does, and no role is taken away between the
  look-up of a role and the activation of its ticket.

  Key definitions include:
    * `PushesAuthorized`
    * `headersNamePush`
    * `pushContract`

  Key theorems include:
    * `consume_authorized`
    * `pushes_authorized`
    * `reader_pushes_with_pull_ticket`
-/

namespace Transfer

namespace PushAuthorization

open Auth Concurrency Relational Storage

/-
  A task activated a ticket for pushing to a repository,
  whose user was at least a writer there at that moment.
-/
def ConsumedByWriter
    (i : Nat)
    (repo : String)
    (trace : List TransferEvent) : Prop :=
  ∃ ticketId operation now before after ticket,
    .performed i
        (.tickets (.activate ticketId operation repo now))
        (.ok true) before after ∈ trace ∧
      before.tickets.find? ticketId = some ticket ∧
      ticket.operation = .push ∧
      ticket.repo = repo ∧
      sufficient .push
        (roleOn before.db ticket.username repo) = true

/- Whoever creates a job has been authorized before. -/
def PushesAuthorized (trace : List TransferEvent) : Prop :=
  ∀ newer i job before after older,
    trace =
        newer ++
          .performed i (.jobs (.create job)) (.ok ()) before
            after :: older →
      ConsumedByWriter i job.repo older

def IsPush (i : Nat) (events : List TransferEvent) : Prop :=
  ∃ messages ends,
    .started i (.push messages ends) ∈ events

/- The last thing a push did was to find a writer. -/
def RoleChecked
    (i : Nat)
    (username repo : String)
    (own : List TransferEvent) : Prop :=
  ∃ role before after older,
    own =
        .performed i (.users (.getRepoRole username repo))
          (.ok role) before after :: older ∧
      sufficient .push role = true ∧
      IsPush i older

/- The last thing a push did was to find no ticket. -/
def TicketMissed
    (i : Nat)
    (ticketId : String)
    (own : List TransferEvent) : Prop :=
  ∃ before after older,
    own =
        .performed i (.tickets (.get ticketId)) (.ok none)
          before after :: older ∧
      IsPush i older

/-
  No header of a push names the operation `pull`.  No
  statement leaves a user below writer whose role a push has
  just looked up, and no ticket is issued under an id that a
  push has just asked for in vain (ids are 32 random bytes).
-/
def headersNamePush : TransferAllowed where
  start := fun _ call _ =>
    ∀ messages ends, call = .push messages ends →
      ∀ header, .header header ∈ messages →
        header.operation ≠ "pull"
  perform := fun _ op w =>
    (∀ statement, op = .users statement →
      ∀ j username repo,
        RoleChecked j username repo (w.own j) →
          sufficient .push
            (roleOn (statement.run w.state.db).2 username
              repo) = true) ∧
      ∀ ticket, op = .tickets (.create ticket) →
        ∀ j, ¬ TicketMissed j ticket.id (w.own j)

/- Every job in the trace was authorized. -/
def Authorized : List TransferEvent → Prop
  | [] => True
  | event :: older =>
      (∀ i job before after,
        event =
            .performed i (.jobs (.create job)) (.ok ())
              before after →
          ConsumedByWriter i job.repo older) ∧
        Authorized older

/- The repository of a session was authorized as well. -/
structure PushInv (w : TransferWorld) : Prop where
  authorized : Authorized w.trace
  linked :
    ∀ i repo, (w.state.pushes i).repo = some repo →
      ConsumedByWriter i repo w.trace

structure PushRely (i : Nat) (w v : TransferWorld) :
    Prop where
  own : v.own i = w.own i
  grants :
    ∀ ticketId ticket,
      w.state.tickets.find? ticketId = some ticket →
        ∃ later,
          v.state.tickets.find? ticketId = some later ∧
            ticket.SameGrant later
  role :
    ∀ username repo,
      RoleChecked i username repo (w.own i) →
        sufficient .push
            (roleOn w.state.db username repo) = true →
          sufficient .push
            (roleOn v.state.db username repo) = true
  missing :
    ∀ ticketId, TicketMissed i ticketId (w.own i) →
      w.state.tickets.find? ticketId = none →
        v.state.tickets.find? ticketId = none

def pushContract : TransferContract where
  inv := PushInv
  rely := PushRely
  rely_refl := fun _ _ =>
    { own := rfl
      grants := fun _ ticket hFind =>
        ⟨ticket, hFind, .refl ticket⟩
      role := fun _ _ _ hRole => hRole
      missing := fun _ _ hNone => hNone }
  rely_trans := fun i w v u hFirst hSecond =>
    { own := by rw [hSecond.own, hFirst.own]
      grants := by
        intro ticketId ticket hFind
        rcases hFirst.grants ticketId ticket hFind with
          ⟨next, hNext, hSame⟩
        rcases hSecond.grants ticketId next hNext with
          ⟨later, hLater, hSame'⟩
        exact ⟨later, hLater, hSame.trans hSame'⟩
      role := by
        intro username repo hChecked hRole
        have hNext :=
          hFirst.role username repo hChecked hRole
        rw [← hFirst.own] at hChecked
        exact hSecond.role username repo hChecked hNext
      missing := by
        intro ticketId hMissed hNone
        have hNext :=
          hFirst.missing ticketId hMissed hNone
        rw [← hFirst.own] at hMissed
        exact hSecond.missing ticketId hMissed hNext }

/- What a task owes before an operation that matters. -/
def Entitled
    (i : Nat)
    (op : TransferOp)
    (w : TransferWorld) : Prop :=
  match op with
  | .jobs (.create job) =>
      ConsumedByWriter i job.repo w.trace
  | .session stream (.ticketConsumed header _) =>
      stream = i ∧ ConsumedByWriter i header.repo w.trace
  | _ => True

theorem entitled_of_mild
    {i : Nat}
    {op : TransferOp}
    (hMild : Mild op)
    (w : TransferWorld) :
    Entitled i op w := by
  unfold Mild at hMild
  unfold Entitled
  split
  · exact hMild.elim
  · exact hMild.elim
  · trivial

------------------------------------------------------------
-- Steps Keep The Contract
------------------------------------------------------------

variable {config : TransferConfig} {w v : TransferWorld}
variable {i j : Nat} {op : TransferOp}
variable {choice : TransferChoice} {answer : op.Answer}
variable {after : TransferState} {repo : String}
variable {trace : List TransferEvent}

theorem ConsumedByWriter.mono
    {later : List TransferEvent}
    (hConsumed : ConsumedByWriter i repo trace)
    (hTrace : ∀ event ∈ trace, event ∈ later) :
    ConsumedByWriter i repo later := by
  rcases hConsumed with
    ⟨ticketId, operation, now, before, after, ticket,
      hEvent, hTicket⟩
  exact ⟨ticketId, operation, now, before, after, ticket,
    hTrace _ hEvent, hTicket⟩

theorem ConsumedByWriter.cons
    (hConsumed : ConsumedByWriter i repo trace)
    (event : TransferEvent) :
    ConsumedByWriter i repo (event :: trace) :=
  hConsumed.mono fun _ => List.mem_cons_of_mem event

/- An operation links a session to a consumed ticket only. -/
theorem linked_perform
    (hInv : PushInv w)
    (hEntitled : Entitled i op w)
    (hExec :
      op.exec config choice w.state = some (answer, after)) :
    ∀ stream repo,
      (after.pushes stream).repo = some repo →
        ConsumedByWriter stream repo w.trace := by
  intro stream repo hRepo
  rcases TransferOp.exec_pushes hExec with
    hSame | ⟨other, step, hOp, hPushes⟩
  · rw [hSame] at hRepo
    exact hInv.linked stream repo hRepo
  · subst hOp
    rw [hPushes] at hRepo
    by_cases hStream : stream = other
    · subst hStream
      rw [Function.update_self] at hRepo
      by_cases hPlain : step.Plain
      · rw [(SessionStep.identity_run hPlain).repo] at hRepo
        exact hInv.linked stream repo hRepo
      · cases step with
        | ticketConsumed header ticket =>
            have hEq : header.repo = repo := by
              simpa [SessionStep.run,
                PushSession.ticketConsumed] using hRepo
            rw [← hEq, hEntitled.1]
            exact hEntitled.2
        | _ => exact absurd (by simp [SessionStep.Plain]) hPlain
    · rw [Function.update_of_ne hStream] at hRepo
      exact hInv.linked stream repo hRepo

theorem pushInv_perform
    (hInv : PushInv w)
    (hEntitled : Entitled i op w)
    (hExec :
      op.exec config choice w.state = some (answer, after)) :
    PushInv (w.perform i op answer after) where
  authorized := by
    refine ⟨?_, hInv.authorized⟩
    intro k job before later hEvent
    cases hEvent
    exact hEntitled
  linked := by
    intro stream repo hRepo
    have hConsumed :=
      linked_perform hInv hEntitled hExec stream repo hRepo
    exact hConsumed.cons _

theorem pushRely_perform
    (hOk : headersNamePush.perform i op w)
    (hExec :
      op.exec config choice w.state = some (answer, after))
    (hOther : j ≠ i) :
    PushRely j w (w.perform i op answer after) := by
  have hFrame := TransferOp.exec_frame hExec
  refine
    { own := World.own_perform_of_ne w op answer after hOther
      grants := ?_
      role := ?_
      missing := ?_ }
  · intro ticketId ticket hFind
    rw [World.perform_state]
    rcases hFrame.tickets with hSame | ⟨statement, _, hRun⟩
    · rw [hSame]
      exact ⟨ticket, hFind, .refl ticket⟩
    · rw [hRun]
      exact statement.grant_run hFind
  · intro username repo hChecked hRole
    rw [World.perform_state]
    rcases hFrame.db with hSame | ⟨statement, hOp, hRun⟩
    · rw [hSame]
      exact hRole
    · rw [hRun]
      exact hOk.1 statement hOp j username repo hChecked
  · intro ticketId hMissed hNone
    rw [World.perform_state]
    rcases hFrame.tickets with hSame | ⟨statement, hOp, hRun⟩
    · rw [hSame]
      exact hNone
    · rw [hRun]
      cases hFind :
          (statement.run w.state.tickets).2.find?
            ticketId with
      | none => rfl
      | some ticket =>
          rcases TicketStatement.eq_create_of_new hNone
              hFind with ⟨hCreate, hId⟩
          rw [hCreate] at hOp
          rw [← hId] at hMissed
          exact absurd hMissed (hOk.2 ticket hOp j)

/- An entitled step keeps the contract. -/
theorem keeps_perform
    (hInv : PushInv w)
    (hOk : headersNamePush.perform i op w)
    (hEntitled : Entitled i op w)
    (hExec :
      op.exec config choice w.state = some (answer, after)) :
    pushContract.Keeps i w (w.perform i op answer after) :=
  ⟨pushInv_perform hInv hEntitled hExec,
    fun _ hOther => pushRely_perform hOk hExec hOther⟩

/- An event that is no operation keeps the contract. -/
theorem keeps_event
    (event : TransferEvent)
    (hInv : PushInv w)
    (hState : v.state = w.state)
    (hTrace : v.trace = event :: w.trace)
    (hTask : event.task = i)
    (hEvent :
      ∀ k op answer before later,
        event ≠ .performed k op answer before later) :
    pushContract.Keeps i w v := by
  have hGrows :
      ∀ k, k ≠ i → World.Grows k w v := by
    intro k hk
    exact World.Grows.cons event
      (by rw [hTask]; exact fun h => hk h.symm) hTrace
  refine ⟨⟨?_, ?_⟩, ?_⟩
  · rw [hTrace]
    refine ⟨?_, hInv.authorized⟩
    intro k job before later hEq
    exact absurd hEq (hEvent _ _ _ _ _)
  · intro stream repo hRepo
    rw [hState] at hRepo
    rw [hTrace]
    exact (hInv.linked stream repo hRepo).cons event
  · intro k hk
    refine
      { own := (hGrows k hk).own_eq
        grants := ?_
        role := ?_
        missing := ?_ }
    · intro ticketId ticket hFind
      rw [hState]
      exact ⟨ticket, hFind, .refl ticket⟩
    · intro username repo _ hRole
      rw [hState]
      exact hRole
    · intro ticketId _ hNone
      rw [hState]
      exact hNone

theorem ends_of_inv
    (outcome : Except TransferError TransferReturn)
    (hInv : PushInv w) :
    pushContract.Ends i outcome w :=
  keeps_event (.finished i outcome) hInv rfl rfl rfl
    (by simp)

------------------------------------------------------------
-- Consumption
------------------------------------------------------------

variable {header : PushHeader}
variable {s t : TransferState}

/- A push is in progress, in a world with the invariant. -/
def Idle (i : Nat) (w : TransferWorld) : Prop :=
  PushInv w ∧ IsPush i (w.own i)

theorem IsPush.perform
    (hPush : IsPush i (w.own i))
    (op : TransferOp)
    (answer : op.Answer)
    (after : TransferState) :
    IsPush i ((w.perform i op answer after).own i) := by
  rcases hPush with ⟨messages, ends, hStarted⟩
  rw [World.own_perform]
  exact ⟨messages, ends, List.mem_cons_of_mem _ hStarted⟩

theorem stable_idle :
    pushContract.Stable i (Idle i) := by
  intro w v hIdle hInterferes hInv
  refine ⟨hInv, ?_⟩
  rw [hInterferes.1.own_eq]
  exact hIdle.2

/- A mild operation keeps a push idle. -/
theorem moves_mild
    (op : TransferOp)
    (hMild : Mild op) :
    Moves config pushContract headersNamePush i op (Idle i)
      fun _ => Idle i := by
  intro v hIdle hInv hOk choice answer after hExec
  have hKeeps :=
    keeps_perform hInv hOk (entitled_of_mild hMild v) hExec
  exact ⟨hKeeps, hKeeps.1,
    IsPush.perform hIdle.2 op answer after⟩

/-
  Before the ticket of a header is activated: there was no
  such ticket, or it does not match the header, or its user
  has just been found to be a writer.
-/
inductive Ready
    (header : PushHeader)
    (i : Nat)
    (w : TransferWorld) : Prop where
  | missed
      (hMissed : TicketMissed i header.ticketId (w.own i))
      (hNone :
        w.state.tickets.find? header.ticketId = none)
  | mismatch
      (ticket : Ticket)
      (hFind :
        w.state.tickets.find? header.ticketId = some ticket)
      (hMismatch :
        ¬ (ticket.operation.text = header.operation ∧
          ticket.repo = header.repo))
  | checked
      (ticket : Ticket)
      (hFind :
        w.state.tickets.find? header.ticketId = some ticket)
      (hPush : ticket.operation = .push)
      (hChecked :
        RoleChecked i ticket.username header.repo (w.own i))
      (hRole :
        sufficient .push
          (roleOn w.state.db ticket.username header.repo) =
            true)

def IdleReady
    (header : PushHeader)
    (i : Nat)
    (w : TransferWorld) : Prop :=
  Idle i w ∧ Ready header i w

theorem stable_idleReady :
    pushContract.Stable i (IdleReady header i) := by
  intro w v hReady hInterferes hInv
  refine ⟨stable_idle w v hReady.1 hInterferes hInv, ?_⟩
  have hRely : PushRely i w v := hInterferes.2
  cases hReady.2 with
  | missed hMissed hNone =>
      have hStill := hRely.missing _ hMissed hNone
      rw [← hRely.own] at hMissed
      exact .missed hMissed hStill
  | mismatch ticket hFind hMismatch =>
      rcases hRely.grants _ ticket hFind with
        ⟨later, hLater, hSame⟩
      refine .mismatch later hLater ?_
      rw [hSame.operation, hSame.repo]
      exact hMismatch
  | checked ticket hFind hPush hChecked hRole =>
      rcases hRely.grants _ ticket hFind with
        ⟨later, hLater, hSame⟩
      have hStill := hRely.role _ _ hChecked hRole
      rw [← hRely.own] at hChecked
      refine .checked later hLater ?_ ?_ ?_
      · rw [hSame.operation]
        exact hPush
      · rw [hSame.username]
        exact hChecked
      · rw [hSame.username]
        exact hStill

/- Reading a ticket or a role changes no state. -/
theorem exec_get
    {ticketId : String}
    {found : Option Ticket}
    (hExec :
      (TransferOp.tickets (.get ticketId)).exec config choice
          s = some (.ok found, t)) :
    found = s.tickets.find? ticketId ∧
      t.tickets = s.tickets := by
  have hRun := exec_tickets_ok hExec
  simp only [TicketStatement.run, Prod.mk.injEq,
    Except.ok.injEq] at hRun
  exact ⟨hRun.1.symm, hRun.2.symm⟩

theorem exec_getRepoRole
    {username : String}
    {role : Option RepoRole}
    (hExec :
      (TransferOp.users (.getRepoRole username repo)).exec
          config choice s = some (.ok role, t)) :
    role = roleOn s.db username repo ∧
      t.db = s.db ∧ t.tickets = s.tickets := by
  have hRun := exec_users_ok hExec
  simp only [UserStatement.run, Prod.mk.injEq,
    Except.ok.injEq] at hRun
  refine ⟨hRun.1.symm, hRun.2.symm, ?_⟩
  rcases (TransferOp.exec_frame hExec).tickets with
    hSame | ⟨_, hOp, _⟩
  · exact hSame
  · cases hOp

/- A ticket that was found and matches the header. -/
def Found
    (header : PushHeader)
    (i : Nat)
    (ticket : Ticket)
    (w : TransferWorld) : Prop :=
  Idle i w ∧
    ∃ later,
      w.state.tickets.find? header.ticketId = some later ∧
        ticket.SameGrant later

theorem stable_found
    {ticket : Ticket} :
    pushContract.Stable i (Found header i ticket) := by
  rintro w v ⟨hIdle, later, hLater, hSame⟩ hInterferes hInv
  refine ⟨stable_idle w v hIdle hInterferes hInv, ?_⟩
  have hRely : PushRely i w v := hInterferes.2
  rcases hRely.grants _ later hLater with
    ⟨last, hLast, hSame'⟩
  exact ⟨last, hLast, hSame.trans hSame'⟩

/- The look-up of the role makes the activation ready. -/
theorem assertRole_safe
    {ticket : Ticket}
    (hPush : ticket.operation = .push)
    (hFound : Found header i ticket w) :
    SafeProgram config pushContract headersNamePush i
      (assertRoleStillSufficient ticket.username
        ticket.operation header.repo)
      (fun _ => IdleReady header i) (Idle i) w := by
  refine Contract.safe_bind (Contract.safe_bind ?_)
  refine Contract.safe_await stable_found hFound ?_
  intro v hFound hInv hOk choice answer after hExec
  have hMoved :=
    moves_mild (.users _) trivial v hFound.1 hInv hOk
      choice answer after hExec
  refine ⟨hMoved.1, ?_⟩
  cases answer with
  | error error => exact hMoved.2
  | ok role =>
      rcases exec_getRepoRole hExec with
        ⟨hRole, hDb, hTickets⟩
      rcases hFound.2 with ⟨later, hLater, hSame⟩
      refine Contract.safe_ensure ?_ (fun _ => hMoved.2)
      intro hEnough
      rw [hPush] at hEnough
      refine ⟨hMoved.2, .checked later ?_ ?_ ?_ ?_⟩
      · rw [World.perform_state, hTickets]
        exact hLater
      · rw [hSame.operation]
        exact hPush
      · rw [World.own_perform, hSame.username]
        exact ⟨role, _, _, _, rfl, hEnough, hFound.1.2⟩
      · rw [World.perform_state, hDb, hSame.username,
          ← hRole]
        exact hEnough

theorem preCheck_safe
    (hHeader : header.operation ≠ "pull")
    (hIdle : Idle i w) :
    SafeProgram config pushContract headersNamePush i
      (preCheck header.ticketId header.operation header.repo)
      (fun _ => IdleReady header i) (Idle i) w := by
  refine Contract.safe_bind (Contract.safe_bind ?_)
  refine Contract.safe_await stable_idle hIdle ?_
  intro v hIdle hInv hOk choice answer after hExec
  have hMoved :=
    moves_mild (.tickets _) trivial v hIdle hInv hOk
      choice answer after hExec
  refine ⟨hMoved.1, ?_⟩
  cases answer with
  | error error => exact hMoved.2
  | ok found =>
      rcases exec_get hExec with ⟨hFind, hTickets⟩
      cases found with
      | none =>
          refine ⟨hMoved.2, .missed ?_ ?_⟩
          · rw [World.own_perform]
            exact ⟨_, _, _, rfl, hIdle.2⟩
          · rw [World.perform_state, hTickets]
            exact hFind.symm
      | some ticket =>
          have hThere :
              after.tickets.find? header.ticketId =
                some ticket := by
            rw [hTickets]
            exact hFind.symm
          show SafeProgram config pushContract
            headersNamePush i
            (if ticket.operation.text = header.operation ∧
                ticket.repo = header.repo then
              assertRoleStillSufficient ticket.username
                ticket.operation header.repo
            else .returned ())
            (fun _ => IdleReady header i) (Idle i) _
          split
          · rename_i hMatches
            have hPush : ticket.operation = .push := by
              cases hOperation : ticket.operation with
              | push => rfl
              | pull =>
                  rw [hOperation] at hMatches
                  exact absurd hMatches.1.symm hHeader
            exact assertRole_safe hPush
              ⟨hMoved.2, ticket, hThere, .refl ticket⟩
          · rename_i hMismatch
            exact ⟨hMoved.2,
              .mismatch ticket hThere hMismatch⟩

/- A ready activation that succeeds is authorized. -/
theorem consumed_of_activate
    {now : Nat}
    (hReady : Ready header i w)
    (hExec :
      (TransferOp.tickets
          (.activate header.ticketId header.operation
            header.repo now)).exec config choice w.state =
        some (.ok true, after)) :
    ConsumedByWriter i header.repo
      (w.perform i
        (.tickets
          (.activate header.ticketId header.operation
            header.repo now))
        (.ok true) after).trace := by
  have hRun := congrArg Prod.fst (exec_tickets_ok hExec)
  rcases TicketStatement.activate_eq_true_iff.mp hRun with
    ⟨found, hFind, hText, hRepo, _, _⟩
  cases hReady with
  | missed hMissed hNone =>
      rw [hNone] at hFind
      cases hFind
  | mismatch ticket hTicket hMismatch =>
      rw [hTicket, Option.some.injEq] at hFind
      subst hFind
      exact absurd ⟨hText, hRepo⟩ hMismatch
  | checked ticket hTicket hPush hChecked hRole =>
      rw [hTicket, Option.some.injEq] at hFind
      subst hFind
      exact ⟨_, _, _, _, _, ticket, List.mem_cons_self,
        hTicket, hPush, hRepo, hRole⟩

/- A push that has consumed a ticket for a repository. -/
def IdleConsumed
    (repo : String)
    (i : Nat)
    (w : TransferWorld) : Prop :=
  Idle i w ∧ ConsumedByWriter i repo w.trace

theorem stable_idleConsumed
    {repo : String} :
    pushContract.Stable i (IdleConsumed repo i) := by
  intro w v hConsumed hInterferes hInv
  exact ⟨stable_idle w v hConsumed.1 hInterferes hInv,
    hConsumed.2.mono fun _ => hInterferes.1.mem⟩

theorem moves_consumed
    (op : TransferOp)
    (hMild : Mild op) :
    Moves config pushContract headersNamePush i op
      (IdleConsumed repo i) fun _ => IdleConsumed repo i := by
  intro v hConsumed hInv hOk choice answer after hExec
  have hMoved :=
    moves_mild op hMild v hConsumed.1 hInv hOk choice answer
      after hExec
  exact ⟨hMoved.1, hMoved.2, hConsumed.2.cons _⟩

/- What `consumeTicket` returns was authorized. -/
theorem consume_authorized
    (hHeader : header.operation ≠ "pull")
    (hIdle : Idle i w) :
    SafeProgram config pushContract headersNamePush i
      (consumeTicket header.ticketId header.operation
        header.repo)
      (fun _ => IdleConsumed header.repo i) (Idle i) w := by
  refine Contract.safe_bind ?_
  refine Contract.safe_mono ?_ (fun _ _ h => h)
    ((moves_mild .now trivial).safe stable_idle hIdle)
  intro current v hIdle
  refine Contract.safe_bind ?_
  refine Contract.safe_mono ?_ (fun _ _ h => h)
    (preCheck_safe hHeader hIdle)
  intro _ v hReady
  refine Contract.safe_bind (Contract.safe_bind ?_)
  refine Contract.safe_await stable_idleReady hReady ?_
  intro v hReady hInv hOk choice answer after hExec
  have hMoved :=
    moves_mild (.tickets _) trivial v hReady.1 hInv hOk
      choice answer after hExec
  refine ⟨hMoved.1, ?_⟩
  have hOnly :
      (tickets (.get header.ticketId)).Only Mild :=
    only_tickets trivial
  have hRead :
      ∀ (J : TransferWorld → Prop) u,
        pushContract.Stable i J →
        (∀ op, Mild op →
          Moves config pushContract headersNamePush i op J
            fun _ => J) →
        J u →
        SafeProgram config pushContract headersNamePush i
          (tickets (.get header.ticketId)) (fun _ => J) J u :=
    fun J u hStable hMoves hThere =>
      safe_of_only hOnly hMoves hStable hThere
  cases answer with
  | error error => exact hMoved.2
  | ok activated =>
      cases activated with
      | false =>
          refine Contract.safe_bind ?_
          refine Contract.safe_mono ?_ (fun _ _ h => h)
            (hRead (Idle i) _ stable_idle
              moves_mild hMoved.2)
          intro found u hIdle
          cases found with
          | none => exact hIdle
          | some ticket => exact hIdle
      | true =>
          have hConsumed :=
            consumed_of_activate hReady.2 hExec
          refine Contract.safe_bind ?_
          refine Contract.safe_mono ?_
            (fun _ _ hThere => hThere.1)
            (hRead (IdleConsumed header.repo i) _
              stable_idleConsumed moves_consumed
              ⟨hMoved.2, hConsumed⟩)
          intro found u hThere
          cases found with
          | none => exact hThere.1
          | some ticket => exact hThere

------------------------------------------------------------
-- Pushes
------------------------------------------------------------

/- The headers that a push of an allowed run contains. -/
def NamesNoPull (header : PushHeader) : Prop :=
  header.operation ≠ "pull"

theorem moves_ticketConsumed
    (header : PushHeader)
    (ticket : Ticket) :
    Moves config pushContract headersNamePush i
      (.session i (.ticketConsumed header ticket))
      (IdleConsumed header.repo i) fun _ => Idle i := by
  intro v hConsumed hInv hOk choice answer after hExec
  have hKeeps :=
    keeps_perform hInv hOk ⟨rfl, hConsumed.2⟩ hExec
  exact ⟨hKeeps, hKeeps.1,
    IsPush.perform hConsumed.1.2 _ answer after⟩

theorem moves_create
    {started : PushFinish}
    {preparation : PushPreparation}
    (jobId : String)
    (hRepo : preparation.repo = started.repo) :
    Moves config pushContract headersNamePush i
      (.jobs
        (.create
          (stagedJob config jobId started preparation)))
      (IdleConsumed started.repo i) fun _ => Idle i := by
  intro v hConsumed hInv hOk choice answer after hExec
  have hEntitled :
      Entitled i
        (.jobs
          (.create
            (stagedJob config jobId started preparation)))
        v := by
    have hConsumedRepo := hConsumed.2
    rw [← hRepo] at hConsumedRepo
    exact hConsumedRepo
  have hKeeps := keeps_perform hInv hOk hEntitled hExec
  exact ⟨hKeeps, hKeeps.1,
    IsPush.perform hConsumed.1.2 _ answer after⟩

/- At the end, the session is linked to a consumed ticket. -/
theorem moves_finalize :
    Moves config pushContract headersNamePush i
      (.session i .finalize) (Idle i)
      fun answer v =>
        ∀ started, answer = .finishing started →
          IdleConsumed started.repo i v := by
  intro v hIdle hInv hOk choice answer after hExec
  have hMoved :=
    moves_mild (.session i .finalize) trivial v hIdle hInv
      hOk choice answer after hExec
  refine ⟨hMoved.1, ?_⟩
  intro started hAnswer
  have hRun : (TransferOp.session i .finalize).exec config
      choice v.state = some (answer, after) := hExec
  have hFinish := (exec_session hRun).1
  rw [hAnswer] at hFinish
  have hHeld := PushSession.finalizeStream_finishing hFinish
  have hConsumed := hInv.linked i started.repo hHeld.2.1
  exact ⟨hMoved.2, hConsumed.cons _⟩

/- The outline of a push that names no pull. -/
def outline (config : TransferConfig) (i : Nat) :
    PushOutline config pushContract headersNamePush i
      NamesNoPull where
  idle := Idle i
  consumed := fun header _ => IdleConsumed header.repo i
  finishing := fun started => IdleConsumed started.repo i
  staging := fun _ => True
  stable_idle := stable_idle
  stable_consumed := fun _ _ => stable_idleConsumed
  stable_finishing := fun _ => stable_idleConsumed
  idle_of_finishing := fun _ _ hFinishing => hFinishing.1
  light_idle := fun op hLight =>
    moves_mild op (mild_of_quiet (quiet_of_light hLight))
  calm_finishing := fun _ op hCalm =>
    moves_consumed op (mild_of_quiet (quiet_of_calm hCalm))
  removes := fun _ _ => moves_mild _ trivial
  steps := fun _ hPlain v hIdle hInv hOk choice answer
      after hExec =>
    have hMoved :=
      moves_mild _ (mild_of_plain hPlain) v hIdle hInv hOk
        choice answer after hExec
    ⟨hMoved.1, hMoved.2, fun _ _ => trivial⟩
  consume := fun _ _ hHeader hIdle =>
    consume_authorized hHeader hIdle
  give := moves_ticketConsumed
  ends := moves_finalize
  create := fun _ jobId _ hRepo => moves_create jobId hRepo

/- Every task keeps the contract once it has started. -/
theorem serveCall_safe
    {call : TransferCall}
    (hInv : PushInv w)
    (hStart : headersNamePush.start i call w) :
    pushContract.SafeTask (transferSystem config)
      headersNamePush i (serveCall config i call)
      (w.start i call) := by
  have hKeeps :
      pushContract.Keeps i w (w.start i call) :=
    keeps_event (.started i call) hInv rfl rfl rfl (by simp)
  by_cases hPush :
      ∃ messages ends, call = .push messages ends
  · rcases hPush with ⟨messages, ends, rfl⟩
    have hIdle : Idle i (w.start i (.push messages ends)) := by
      refine ⟨hKeeps.1, messages, ends, ?_⟩
      rw [World.own_start]
      exact List.mem_cons_self
    refine Contract.safe_bind ?_
    refine Contract.safe_mono ?_ ?_
      ((outline config i).push_safe
        (hStart messages ends rfl) hIdle)
    · intro reply v hIdle
      exact ends_of_inv _ hIdle.1
    · intro error v hIdle
      exact ends_of_inv _ hIdle.1
  · have hMild : (serveCall config i call).Only Mild := by
      apply mild_serveCall
      intro messages ends hEq
      exact hPush ⟨messages, ends, hEq⟩
    have hStable :
        pushContract.Stable i PushInv :=
      fun _ _ _ _ hInv => hInv
    refine Contract.safe_mono ?_ ?_
      (Contract.safe_only hMild hStable ?_ hKeeps.1)
    · intro value v hInv
      exact ends_of_inv _ hInv
    · intro error v hInv
      exact ends_of_inv _ hInv
    · intro v op _ hInv hOp hOk choice answer after hExec
      have hStep :=
        keeps_perform hInv hOk (entitled_of_mild hOp v) hExec
      exact ⟨hStep, hStep.1⟩

theorem pushInv_initial
    {initial : TransferState}
    (hInitial : NoPushes initial) :
    PushInv ⟨initial, []⟩ where
  authorized := trivial
  linked := by
    intro i repo hRepo
    rw [hInitial i] at hRepo
    cases hRepo

theorem pushesAuthorized_of_authorized
    (hAuthorized : Authorized trace) :
    PushesAuthorized trace := by
  intro newer i job before after older hTrace
  subst hTrace
  induction newer with
  | nil => exact hAuthorized.1 i job before after rfl
  | cons event newer ih => exact ih hAuthorized.2

/-
  In every run in which no header of a push names `pull`, no
  role is lowered between its look-up and the activation,
  and ticket ids are fresh: a push creates a job only for a
  repository that its user may push to, with a ticket that
  was issued for that.
-/
theorem pushes_authorized
    (config : TransferConfig)
    (initial : TransferState)
    (p : TransferPool)
    (hInitial : NoPushes initial)
    (hRun :
      (transferSystem config).Run headersNamePush
        (Pool.initial initial) p) :
    PushesAuthorized p.world.trace := by
  have hSound :
      pushContract.PoolSafe (transferSystem config)
        headersNamePush p :=
    Contract.sound initial (pushInv_initial hInitial)
      (fun w i call hInv _ hStart =>
        ⟨keeps_event (.started i call) hInv rfl rfl rfl
            (by simp),
          serveCall_safe hInv hStart⟩)
      hRun
  exact pushesAuthorized_of_authorized hSound.inv.authorized

------------------------------------------------------------
-- A Reader And A Writer
------------------------------------------------------------

/- The schedule of a push without chunks, up to its job. -/
def pushOf (operation : String) :
    List (Label TransferChoice TransferCall) :=
  [ .start 1
      (.push [.header ⟨"t", operation, "r"⟩] true)
  , .resume 1 (draw "")
  , .resume 1 (draw "")
  , .resume 1 (draw "")
  , .resume 1 (draw "")
  , .resume 1 (draw "")
  , .resume 1 (draw "")
  , .resume 1 (draw "upload")
  , .resume 1 (draw "")
  , .resume 1 (draw "")
  , .resume 1 (draw "")
  , .resume 1 (draw "")
  , .resume 1 (draw "")
  , .resume 1 (draw "")
  , .resume 1 (draw "job")
  , .resume 1 (draw "") ]

/- No ticket for pushing existed before an event. -/
def onlyPullTickets : TransferEvent → Bool
  | .performed _ _ _ before _ =>
      before.tickets.rows.all fun ticket =>
        ticket.operation = .pull
  | _ => true

theorem not_consumed_of_onlyPullTickets
    (hOnly : trace.all onlyPullTickets = true) :
    ¬ ConsumedByWriter i repo trace := by
  rintro ⟨_, _, _, before, _, ticket, hEvent, hFind, hPush, _⟩
  have hPull :=
    List.all_eq_true.mp
      (List.all_eq_true.mp hOnly _ hEvent) ticket
      (KeyedTable.mem_of_find? hFind)
  rw [decide_eq_true_eq, hPush] at hPull
  cases hPull

/-
  A reader asks for a pull ticket and pushes with a header
  that names `pull`: the server creates a job.
-/
theorem reader_pushes_with_pull_ticket :
    ∃ q,
      (transferSystem smallConfig).replay?
          (Pool.initial (withRole .reader))
          ([ .start 0
              (.postPushTicket (some "eve")
                (some ⟨.pull, "r", none⟩))
          , .resume 0 (draw "")
          , .resume 0 (draw "t")
          , .resume 0 (draw "")
          , .resume 0 (draw "")
          , .resume 0 (draw "") ] ++ pushOf "pull") =
            some q ∧
        ¬ PushesAuthorized q.world.trace := by
  refine ⟨_, rfl, ?_⟩
  intro hAuthorized
  have hConsumed := hAuthorized [] _ _ _ _ _ rfl
  exact not_consumed_of_onlyPullTickets (by decide) hConsumed

/- Only statements on users and new tickets are restricted. -/
theorem allowed_of_other
    (hUsers : ∀ statement, op ≠ .users statement)
    (hTickets : ∀ ticket, op ≠ .tickets (.create ticket)) :
    headersNamePush.perform i op w :=
  ⟨fun statement hOp => absurd hOp (hUsers statement),
    fun ticket hOp => absurd hOp (hTickets ticket)⟩

def isRoleLookup : TransferEvent → Bool
  | .performed _ (.users (.getRepoRole _ _)) _ _ _ => true
  | _ => false

/- Before the first look-up of a role, any is allowed. -/
theorem allowed_of_noLookup
    {statement : UserStatement}
    (hNone : w.trace.all (fun e => !isRoleLookup e) = true) :
    headersNamePush.perform i (.users statement) w := by
  refine ⟨?_, fun _ hOp => by cases hOp⟩
  intro _ _ j username repo hChecked
  rcases hChecked with ⟨role, before, later, older, hOwn, _⟩
  have hMember :
      (.performed j (.users (.getRepoRole username repo))
        (.ok role) before later : TransferEvent) ∈
          w.own j := by
    rw [hOwn]
    exact List.mem_cons_self
  have hLookup :=
    List.all_eq_true.mp hNone _ (List.mem_filter.mp hMember).1
  simp [isRoleLookup] at hLookup

/- A writer that names `push` gets its job, with a ticket
   that allows it. -/
theorem pushes_authorized_of_writer :
    ∃ q,
      (transferSystem smallConfig).replay?
          (Pool.initial writerWithTicket) (pushOf "push") =
            some q ∧
        PushesAuthorized q.world.trace := by
  refine ⟨_, rfl, ?_⟩
  refine pushes_authorized smallConfig writerWithTicket _
    (fun _ => rfl) ?_
  refine .step (.resume 1 (draw "")) (.step
    (.resume 1 (draw "job")) (.step (.resume 1 (draw ""))
    (.step (.resume 1 (draw "")) (.step (.resume 1 (draw ""))
    (.step (.resume 1 (draw "")) (.step (.resume 1 (draw ""))
    (.step (.resume 1 (draw "")) (.step
    (.resume 1 (draw "upload")) (.step (.resume 1 (draw ""))
    (.step (.resume 1 (draw "")) (.step (.resume 1 (draw ""))
    (.step (.resume 1 (draw "")) (.step (.resume 1 (draw ""))
    (.step (.resume 1 (draw "")) (.step
    (.start 1 (.push [.header ⟨"t", "push", "r"⟩] true))
      .refl ?_ rfl) ?_ rfl) ?_ rfl) ?_ rfl) ?_ rfl) ?_ rfl)
      ?_ rfl) ?_ rfl) ?_ rfl) ?_ rfl) ?_ rfl) ?_ rfl) ?_ rfl)
      ?_ rfl) ?_ rfl) ?_ rfl
  · intro messages ends hCall header hHeader
    cases hCall
    simp only [List.mem_singleton,
      PushMessage.header.injEq] at hHeader
    rw [hHeader]
    decide
  all_goals
    intro op resume hTask
    cases hTask
    first
      | exact allowed_of_noLookup (by decide)
      | exact allowed_of_other (fun _ hOp => by cases hOp)
          (fun _ hOp => by cases hOp)

end PushAuthorization

end Transfer
