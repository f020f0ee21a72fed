import Deltix.Auth.TokenRevocation
import Deltix.Concurrency.SlidingWindow

/-
  The sliding window of the sessions under concurrent
  keep-alives.

  A keep-alive looks its session up, compares the expiry it
  found with the clock, reads the clock again, and writes an
  expiry computed from that reading, whatever the session
  has become.  The window slides as it should in the runs
  that write in the order of the readings, and in which no
  rejection falls between the look-up and the update of
  another call, and no update between the look-up and the
  rejection of another.

  Key definitions include:
    * `sessionWindow`
    * `keepAlivesFollow`
    * `SessionInv`

  Key theorems include:
    * `sessionInv_step`
    * `keepAlive_safe`
    * `sessions_slide`
-/

namespace Auth

namespace SessionExpiry

open Concurrency Relational

/- The window of a session, and the calls that extend it. -/
def sessionWindow (refreshToken : String) :
    SlidingWindow AuthOp AuthOp.Answer AuthState AuthCall
      AuthError AuthReturn where
  clock := AuthState.clock
  expiry := fun s =>
    (s.sessions.find? refreshToken).map
      StoredSession.expiresAt
  call := fun request => request = .keepAlive refreshToken
  expired := .sessionExpired

def reads : AuthEvent → Option Nat
  | .performed _ .now current _ _ => some current
  | _ => none

/- The store has run the update of a keep-alive. -/
def Touches
    (refreshToken : String)
    (event : AuthEvent) : Prop :=
  ∃ i newExpiresAt before after,
    event =
      .performed i
        (.sessions (.touch refreshToken newExpiresAt))
        (.ok ()) before after

/- A keep-alive was rejected: its session had expired. -/
def Rejects
    (refreshToken : String)
    (event : AuthEvent)
    (older : List AuthEvent) : Prop :=
  ∃ j,
    event = .finished j (.error .sessionExpired) ∧
      .started j (.keepAlive refreshToken) ∈ older

/- The events after the look-up of a task, and those before
   it. -/
def SinceLookUp
    (refreshToken : String)
    (i : Nat)
    (found : Option StoredSession)
    (trace newer older : List AuthEvent) : Prop :=
  ∃ before after,
    trace =
      newer ++
        .performed i (.sessions (.get refreshToken))
          (.ok found) before after :: older

/-
  The calls are keep-alives, and time passes.  An update
  follows those of calls that had read no later time, and
  no call on its session was rejected since its own look-up.
  A session that is about to be found expired was not
  updated since it was looked up.
-/
def keepAlivesFollow :
    Allowed AuthOp AuthOp.Answer AuthState AuthCall AuthError
      AuthReturn where
  start := fun _ call _ =>
    (∃ refreshToken, call = .keepAlive refreshToken) ∨
      ∃ ms, call = .elapse ms
  perform := fun i op w =>
    (∀ refreshToken newExpiresAt,
      op = .sessions (.touch refreshToken newExpiresAt) →
        FollowsClock reads (Touches refreshToken) i w.trace ∧
          ∀ found newer older,
            SinceLookUp refreshToken i found w.trace newer
                older →
              ∀ event ∈ newer,
                ¬ Rejects refreshToken event w.trace) ∧
      (op = .now → lastReading reads i w.trace = none →
        ∀ refreshToken session newer older,
          SinceLookUp refreshToken i (some session) w.trace
              newer older →
            session.expiresAt < w.state.clock →
              ∀ event ∈ newer, ¬ Touches refreshToken event)

/- `start` is the time at which the run begins, and `ttl`
   the length of the window. -/
structure SessionInv
    (refreshToken : String)
    (start ttl : Nat)
    (w : AuthWorld) : Prop where
  begins : Throughout Begins w.trace
  started : start ≤ w.state.clock
  read :
    ∀ i current, lastReading reads i w.trace = some current →
      start ≤ current ∧ current ≤ w.state.clock
  source :
    ∀ row, w.state.sessions.find? refreshToken = some row →
      row.expiresAt ≤ start + ttl ∨
        ∃ current,
          Somewhere
              (WritesAt reads (Touches refreshToken) current)
              w.trace ∧
            row.expiresAt = current + ttl
  rejected :
    Somewhere (Rejects refreshToken) w.trace →
      ∀ row, w.state.sessions.find? refreshToken = some row →
        row.expiresAt < w.state.clock
  grows :
    ∀ i op answer before after,
      .performed i op answer before after ∈ w.trace →
        ∀ earlier later,
          before.sessions.find? refreshToken = some earlier →
            after.sessions.find? refreshToken = some later →
              earlier.expiresAt ≤ later.expiresAt
  order :
    Throughout
      (fun event older =>
        Touches refreshToken event →
          ¬ Somewhere (Rejects refreshToken) older)
      w.trace
  lapsed :
    Throughout
      (fun event older =>
        ∀ i op answer before after,
          event = .performed i op answer before after →
            Somewhere (Rejects refreshToken) older →
              ∀ row,
                after.sessions.find? refreshToken = some row →
                  row.expiresAt ≤ after.clock)
      w.trace
  succeeded :
    Throughout
      (fun event older =>
        ∀ i value, event = .finished i (.ok value) →
          .started i (.keepAlive refreshToken) ∈ older →
            Somewhere
              (fun hit _ =>
                hit.task = i ∧ Touches refreshToken hit)
              older)
      w.trace

------------------------------------------------------------
-- Steps Keep The Invariant
------------------------------------------------------------

variable {config : AuthConfig} {refreshToken : String}
variable {op : AuthOp} {choice : AuthChoice}
variable {answer : op.Answer} {s t after : AuthState}
variable {w v : AuthWorld} {i start ttl : Nat}

/- The operations of a keep-alive, and the clock's. -/
def OfKeepAlive : AuthOp → Prop
  | .now => True
  | .elapse _ => True
  | .sessions (.get _) => True
  | .sessions (.touch _ _) => True
  | _ => False

/- How these operations change a session. -/
theorem row_exec
    (hOp : OfKeepAlive op)
    (hExec : op.exec config choice s = some (answer, t))
    (refreshToken : String) :
    t.sessions.find? refreshToken =
        s.sessions.find? refreshToken ∨
      ∃ newExpiresAt,
        op = .sessions (.touch refreshToken newExpiresAt) ∧
          HEq answer
            (Except.ok () : Except StoreError Unit) ∧
          t.sessions.find? refreshToken =
            (s.sessions.find? refreshToken).map fun session =>
              { session with expiresAt := newExpiresAt } := by
  cases op with
  | now =>
      cases hExec
      exact Or.inl rfl
  | elapse ms =>
      cases hExec
      exact Or.inl rfl
  | sessions statement =>
      by_cases hFails : choice.fails = true
      · simp only [AuthOp.exec, hFails, if_true,
          Option.some.injEq, Prod.mk.injEq] at hExec
        rw [← hExec.2]
        exact Or.inl rfl
      · simp only [AuthOp.exec, hFails, Bool.false_eq_true,
          if_false, Option.some.injEq, Prod.mk.injEq] at hExec
        rw [← hExec.2]
        cases statement with
        | get token => exact Or.inl rfl
        | touch token newExpiresAt =>
            by_cases hToken : token = refreshToken
            · subst hToken
              refine Or.inr ⟨newExpiresAt, rfl, ?_, ?_⟩
              · rw [← hExec.1]
                rfl
              · exact SessionStatement.find?_touch_self
            · exact
                Or.inl
                  (SessionStatement.find?_touch_of_ne hToken)
        | _ => exact hOp.elim
  | _ => exact hOp.elim

/- What a keep-alive owes before it updates its session. -/
def Entitled
    (refreshToken : String)
    (ttl i : Nat)
    (op : AuthOp)
    (w : AuthWorld) : Prop :=
  ∀ newExpiresAt,
    op = .sessions (.touch refreshToken newExpiresAt) →
      ¬ Somewhere (Rejects refreshToken) w.trace ∧
        ∃ current,
          newExpiresAt = current + ttl ∧
            lastReading reads i w.trace = some current

/- Only a reading of the clock reads it. -/
theorem lastReading_perform
    (hOp : op ≠ .now)
    (k : Nat) :
    lastReading reads k
        (w.perform i op answer after).trace =
      lastReading reads k w.trace := by
  apply lastReading_cons_of_none
  cases op with
  | now => exact absurd rfl hOp
  | _ => rfl

theorem lastReading_now
    {current : Nat} :
    lastReading reads i
        (w.perform i .now current after).trace =
      some current := by
  rw [lastReading_perform_own]
  rfl

/- A task reads what the clock shows. -/
theorem read_perform
    (hInv : SessionInv refreshToken start ttl w)
    (hExec :
      op.exec config choice w.state = some (answer, after))
    {k current : Nat}
    (hRead :
      lastReading reads k
          (w.perform i op answer after).trace =
        some current) :
    start ≤ current ∧ current ≤ after.clock := by
  have hClock := (AuthOp.exec_frame hExec).1
  have hOld :
      lastReading reads k w.trace = some current →
        start ≤ current ∧ current ≤ after.clock := by
    intro hBefore
    have hBounds := hInv.read k current hBefore
    omega
  by_cases hOp : op = .now
  · subst hOp
    by_cases hTask : i = k
    · subst hTask
      rw [lastReading_now, Option.some.injEq] at hRead
      have hStarted := hInv.started
      cases hExec
      omega
    · rw [lastReading_perform_of_ne hTask] at hRead
      exact hOld hRead
  · rw [lastReading_perform hOp] at hRead
    exact hOld hRead

/- No operation rejects a call. -/
theorem rejects_perform
    (hRejected :
      Somewhere (Rejects refreshToken)
        (w.perform i op answer after).trace) :
    Somewhere (Rejects refreshToken) w.trace := by
  rcases hRejected with ⟨j, hEvent, _⟩ | hOld
  · cases hEvent
  · exact hOld

/- After a rejection, the session stays expired. -/
theorem rejected_perform
    (hInv : SessionInv refreshToken start ttl w)
    (hOp : OfKeepAlive op)
    (hEntitled : Entitled refreshToken ttl i op w)
    (hExec :
      op.exec config choice w.state = some (answer, after))
    (hRejected : Somewhere (Rejects refreshToken) w.trace)
    {row : StoredSession}
    (hFind :
      after.sessions.find? refreshToken = some row) :
    row.expiresAt < after.clock := by
  have hClock := (AuthOp.exec_frame hExec).1
  rcases row_exec hOp hExec refreshToken with
    hSame | ⟨newExpiresAt, hTouch, _⟩
  · rw [hSame] at hFind
    have hPast := hInv.rejected hRejected row hFind
    omega
  · exact absurd hRejected (hEntitled newExpiresAt hTouch).1

theorem source_perform
    {row : StoredSession}
    (hInv : SessionInv refreshToken start ttl w)
    (hOp : OfKeepAlive op)
    (hEntitled : Entitled refreshToken ttl i op w)
    (hExec :
      op.exec config choice w.state = some (answer, after))
    (hFind :
      after.sessions.find? refreshToken = some row) :
    row.expiresAt ≤ start + ttl ∨
      ∃ current,
        Somewhere
            (WritesAt reads (Touches refreshToken) current)
            (w.perform i op answer after).trace ∧
          row.expiresAt = current + ttl := by
  rcases row_exec hOp hExec refreshToken with
    hSame | ⟨newExpiresAt, rfl, hAnswer, hAfter⟩
  · rw [hSame] at hFind
    rcases hInv.source row hFind with
      hInitial | ⟨current, hBefore, hEq⟩
    · exact Or.inl hInitial
    · exact Or.inr ⟨current, Or.inr hBefore, hEq⟩
  · rw [hAfter] at hFind
    rcases Option.map_eq_some_iff.mp hFind with
      ⟨session, _, rfl⟩
    rcases (hEntitled newExpiresAt rfl).2 with
      ⟨current, hEq, hRead⟩
    refine Or.inr ⟨current, Or.inl ⟨?_, hRead⟩, hEq⟩
    cases eq_of_heq hAnswer
    exact ⟨i, newExpiresAt, _, _, rfl⟩

/- Updates in the order of the readings move the expiry
   forward. -/
theorem grows_perform
    {earlier later : StoredSession}
    (hInv : SessionInv refreshToken start ttl w)
    (hOp : OfKeepAlive op)
    (hOk : keepAlivesFollow.perform i op w)
    (hEntitled : Entitled refreshToken ttl i op w)
    (hExec :
      op.exec config choice w.state = some (answer, after))
    (hEarlier :
      w.state.sessions.find? refreshToken = some earlier)
    (hLater :
      after.sessions.find? refreshToken = some later) :
    earlier.expiresAt ≤ later.expiresAt := by
  rcases row_exec hOp hExec refreshToken with
    hSame | ⟨newExpiresAt, rfl, _, hAfter⟩
  · rw [hSame, hEarlier, Option.some.injEq] at hLater
    rw [hLater]
  · rw [hAfter, hEarlier, Option.map_some,
      Option.some.injEq] at hLater
    rcases (hEntitled newExpiresAt rfl).2 with
      ⟨current, hEq, hRead⟩
    have hNext : later.expiresAt = current + ttl := by
      rw [← hLater]
      exact hEq
    rcases hInv.source earlier hEarlier with
      hInitial | ⟨previous, hBefore, hPrevious⟩
    · have hBounds := hInv.read i current hRead
      omega
    · have hOrder :=
        (hOk.1 refreshToken newExpiresAt rfl).1.le hRead
          hBefore
      omega

/- Every operation of a keep-alive keeps the invariant. -/
theorem sessionInv_step
    (hInv : SessionInv refreshToken start ttl w)
    (hOp : OfKeepAlive op)
    (hOk : keepAlivesFollow.perform i op w)
    (hEntitled : Entitled refreshToken ttl i op w)
    (hExec :
      op.exec config choice w.state = some (answer, after)) :
    SessionInv refreshToken start ttl
      (w.perform i op answer after) where
  begins := by
    refine ⟨?_, hInv.begins⟩
    intro k request hEvent
    cases hEvent
  started := hInv.started.trans (AuthOp.exec_frame hExec).1
  read := fun _ _ hRead => read_perform hInv hExec hRead
  source := fun _ hFind =>
    source_perform hInv hOp hEntitled hExec hFind
  rejected := by
    intro hRejected row hFind
    exact
      rejected_perform hInv hOp hEntitled hExec
        (rejects_perform hRejected) hFind
  grows := by
    intro k other reply before later hEvent earlier next
      hEarlier hNext
    rcases List.mem_cons.mp hEvent with hNew | hOld
    · cases hNew
      exact
        grows_perform hInv hOp hOk hEntitled hExec hEarlier
          hNext
    · exact
        hInv.grows k other reply before later hOld earlier
          next hEarlier hNext
  order := by
    refine ⟨?_, hInv.order⟩
    rintro ⟨k, newExpiresAt, before, later, hEvent⟩
    cases hEvent
    exact (hEntitled newExpiresAt rfl).1
  lapsed := by
    refine ⟨?_, hInv.lapsed⟩
    intro k other reply before later hEvent hRejected row hRow
    cases hEvent
    have hPast :=
      rejected_perform hInv hOp hEntitled hExec hRejected hRow
    omega
  succeeded := by
    refine ⟨?_, hInv.succeeded⟩
    intro k value hEvent
    cases hEvent

------------------------------------------------------------
-- The Contract
------------------------------------------------------------

variable {event : AuthEvent}

/- The others do not turn the clock back, and a session
   they change is one they have updated. -/
structure SessionRely
    (refreshToken : String)
    (w v : AuthWorld) : Prop where
  clock : w.state.clock ≤ v.state.clock
  row :
    ∃ events,
      v.trace = events ++ w.trace ∧
        ∀ row,
          v.state.sessions.find? refreshToken = some row →
            w.state.sessions.find? refreshToken = some row ∨
              ∃ event ∈ events, Touches refreshToken event

def expiryContract
    (refreshToken : String)
    (start ttl : Nat) :
    Contract AuthOp AuthOp.Answer AuthState AuthCall AuthError
      AuthReturn where
  inv := SessionInv refreshToken start ttl
  rely := fun _ => SessionRely refreshToken
  rely_refl := fun _ _ =>
    { clock := le_refl _
      row := ⟨[], rfl, fun _ hFind => Or.inl hFind⟩ }
  rely_trans := by
    intro i w v u hFirst hSecond
    constructor
    · exact hFirst.clock.trans hSecond.clock
    · rcases hFirst.row with ⟨older, hOlder, hOlderRow⟩
      rcases hSecond.row with ⟨newer, hNewer, hNewerRow⟩
      refine ⟨newer ++ older, ?_, ?_⟩
      · rw [hNewer, hOlder, List.append_assoc]
      · intro row hRow
        rcases hNewerRow row hRow with
          hSame | ⟨event, hEvent, hTouches⟩
        · rcases hOlderRow row hSame with
            hSame | ⟨event, hEvent, hTouches⟩
          · exact Or.inl hSame
          · exact
              Or.inr
                ⟨event, List.mem_append_right _ hEvent,
                  hTouches⟩
        · exact
            Or.inr
              ⟨event, List.mem_append_left _ hEvent,
                hTouches⟩

theorem keeps_perform
    (hInv : SessionInv refreshToken start ttl w)
    (hOp : OfKeepAlive op)
    (hOk : keepAlivesFollow.perform i op w)
    (hEntitled : Entitled refreshToken ttl i op w)
    (hExec :
      op.exec config choice w.state = some (answer, after)) :
    (expiryContract refreshToken start ttl).Keeps i w
      (w.perform i op answer after) := by
  constructor
  · exact sessionInv_step hInv hOp hOk hEntitled hExec
  · intro k _
    constructor
    · exact (AuthOp.exec_frame hExec).1
    · refine
        ⟨[.performed i op answer w.state after], rfl, ?_⟩
      intro row hRow
      rcases row_exec hOp hExec refreshToken with
        hSame | ⟨newExpiresAt, rfl, hAnswer, _⟩
      · exact Or.inl (hSame.symm.trans hRow)
      · cases eq_of_heq hAnswer
        exact
          Or.inr
            ⟨_, List.mem_singleton_self _, i, newExpiresAt, _,
              _, rfl⟩

/- What a call owes when it ends. -/
structure Ended
    (refreshToken : String)
    (event : AuthEvent)
    (w : AuthWorld) : Prop where
  rejected :
    Rejects refreshToken event w.trace →
      ∀ row,
        w.state.sessions.find? refreshToken = some row →
          row.expiresAt < w.state.clock
  succeeded :
    ∀ i value, event = .finished i (.ok value) →
      .started i (.keepAlive refreshToken) ∈ w.trace →
        Somewhere
          (fun hit _ => hit.task = i ∧ Touches refreshToken hit)
          w.trace

/- An event that is no operation keeps the contract. -/
theorem keeps_event
    (hInv : SessionInv refreshToken start ttl w)
    (hState : v.state = w.state)
    (hTrace : v.trace = event :: w.trace)
    (hEvent :
      ∀ k op answer before later,
        event ≠ .performed k op answer before later)
    (hBegins : Begins event w.trace)
    (hEnded : Ended refreshToken event w) :
    (expiryContract refreshToken start ttl).Keeps i w v := by
  have hReads :
      ∀ k,
        lastReading reads k v.trace =
          lastReading reads k w.trace := by
    intro k
    rw [hTrace]
    apply lastReading_cons_of_none
    cases event with
    | performed j op answer before later =>
        exact absurd rfl (hEvent _ _ _ _ _)
    | started j request => rfl
    | finished j outcome => rfl
  constructor
  · refine
      { begins := ?_
        started := ?_
        read := ?_
        source := ?_
        rejected := ?_
        grows := ?_
        order := ?_
        lapsed := ?_
        succeeded := ?_ }
    · rw [hTrace]
      exact ⟨hBegins, hInv.begins⟩
    · rw [hState]
      exact hInv.started
    · intro k current hRead
      rw [hReads] at hRead
      rw [hState]
      exact hInv.read k current hRead
    · intro row hFind
      rw [hState] at hFind
      rw [hTrace]
      rcases hInv.source row hFind with
        hInitial | ⟨current, hBefore, hEq⟩
      · exact Or.inl hInitial
      · exact Or.inr ⟨current, Or.inr hBefore, hEq⟩
    · intro hSomewhere
      rw [hState]
      rw [hTrace] at hSomewhere
      rcases hSomewhere with hNew | hOld
      · exact hEnded.rejected hNew
      · exact hInv.rejected hOld
    · intro k op answer before later hMember
      rw [hTrace] at hMember
      rcases List.mem_cons.mp hMember with hNew | hOld
      · exact absurd hNew.symm (hEvent _ _ _ _ _)
      · exact hInv.grows k op answer before later hOld
    · rw [hTrace]
      refine ⟨?_, hInv.order⟩
      rintro ⟨_, _, _, _, hEq⟩
      exact absurd hEq (hEvent _ _ _ _ _)
    · rw [hTrace]
      refine ⟨?_, hInv.lapsed⟩
      intro k op answer before later hEq
      exact absurd hEq (hEvent _ _ _ _ _)
    · rw [hTrace]
      exact ⟨hEnded.succeeded, hInv.succeeded⟩
  · intro j _
    constructor
    · exact hState.symm ▸ le_refl _
    · refine ⟨[event], hTrace, ?_⟩
      intro row hRow
      rw [hState] at hRow
      exact Or.inl hRow

------------------------------------------------------------
-- A Keep-Alive
------------------------------------------------------------

variable {current : Nat} {session : StoredSession}
variable {call : AuthCall}
variable {found : Option StoredSession}
variable {trace newer older : List AuthEvent}

/- A call that has found its session: the session is still
   as it was found, or was updated since; and it had expired
   if a call on it was rejected before. -/
structure LookedUp
    (refreshToken : String)
    (i : Nat)
    (session : StoredSession)
    (w : AuthWorld) : Prop where
  serves : InCall (.keepAlive refreshToken) i (w.own i)
  unread : lastReading reads i w.trace = none
  since :
    ∃ newer older,
      SinceLookUp refreshToken i (some session) w.trace newer
          older ∧
        (∀ row,
          w.state.sessions.find? refreshToken = some row →
            row = session ∨
              ∃ event ∈ newer, Touches refreshToken event) ∧
        (Somewhere (Rejects refreshToken) older →
          session.expiresAt < w.state.clock)

/- One that goes on: no call had been rejected when it
   looked its session up. -/
structure GoesOn
    (refreshToken : String)
    (i current : Nat)
    (w : AuthWorld) : Prop where
  serves : InCall (.keepAlive refreshToken) i (w.own i)
  read : lastReading reads i w.trace = some current
  since :
    ∃ found newer older,
      SinceLookUp refreshToken i found w.trace newer older ∧
        ¬ Somewhere (Rejects refreshToken) older

/- One that has updated its session. -/
structure Extended
    (refreshToken : String)
    (i : Nat)
    (w : AuthWorld) : Prop where
  serves : InCall (.keepAlive refreshToken) i (w.own i)
  hit :
    Somewhere
      (fun hit _ => hit.task = i ∧ Touches refreshToken hit)
      w.trace

/- Later events do not change what was before a look-up. -/
theorem SinceLookUp.append
    (hSince :
      SinceLookUp refreshToken i found trace newer older)
    (events : List AuthEvent) :
    SinceLookUp refreshToken i found (events ++ trace)
      (events ++ newer) older := by
  rcases hSince with ⟨before, after, hTrace⟩
  exact ⟨before, after, by rw [hTrace, List.append_assoc]⟩

theorem stable_inCall :
    (expiryContract refreshToken start ttl).Stable i
      fun w => InCall call i (w.own i) := by
  intro w v hCall hInterferes _
  rw [hInterferes.1.own_eq]
  exact hCall

theorem stable_lookedUp :
    (expiryContract refreshToken start ttl).Stable i
      (LookedUp refreshToken i session) := by
  intro w v hLooked hInterferes hInv
  rcases hLooked.since with
    ⟨newer, older, hSince, hRow, hPast⟩
  rcases hInterferes.2.row with ⟨events, hTrace, hRows⟩
  have hClock := hInterferes.2.clock
  refine
    ⟨stable_inCall w v hLooked.serves hInterferes hInv, ?_,
      events ++ newer, older, ?_, ?_, ?_⟩
  · rw [lastReading_of_grows hInterferes.1]
    exact hLooked.unread
  · rw [hTrace]
    exact hSince.append events
  · intro row hFind
    rcases hRows row hFind with
      hSame | ⟨event, hEvent, hTouches⟩
    · rcases hRow row hSame with
        hEq | ⟨event, hEvent, hTouches⟩
      · exact Or.inl hEq
      · exact
          Or.inr
            ⟨event, List.mem_append_right _ hEvent, hTouches⟩
    · exact
        Or.inr
          ⟨event, List.mem_append_left _ hEvent, hTouches⟩
  · intro hRejected
    have hExpired := hPast hRejected
    omega

theorem stable_goesOn :
    (expiryContract refreshToken start ttl).Stable i
      (GoesOn refreshToken i current) := by
  intro w v hGoes hInterferes hInv
  rcases hGoes.since with ⟨found, newer, older, hSince, hNone⟩
  rcases hInterferes.2.row with ⟨events, hTrace, _⟩
  refine
    ⟨stable_inCall w v hGoes.serves hInterferes hInv, ?_,
      found, events ++ newer, older, ?_, hNone⟩
  · rw [lastReading_of_grows hInterferes.1]
    exact hGoes.read
  · rw [hTrace]
    exact hSince.append events

/- A program of a call is safe, whatever happens. -/
abbrev SafeCall
    (config : AuthConfig)
    (refreshToken : String)
    (start ttl i : Nat)
    {α : Type}
    (program : AuthProgram α)
    (post : α → AuthWorld → Prop)
    (raised : AuthError → AuthWorld → Prop)
    (w : AuthWorld) : Prop :=
  (expiryContract refreshToken start ttl).Safe
    (authSystem config) keepAlivesFollow i program post raised
    w

theorem op_safe
    {J : AuthWorld → Prop}
    {post : op.Answer → AuthWorld → Prop}
    {raised : AuthError → AuthWorld → Prop}
    (hOp : OfKeepAlive op)
    (hEntitled :
      ∀ v, J v → keepAlivesFollow.perform i op v →
        Entitled refreshToken ttl i op v)
    (hPost :
      ∀ v choice answer after, J v →
        SessionInv refreshToken start ttl v →
          keepAlivesFollow.perform i op v →
            op.exec config choice v.state =
                some (answer, after) →
              post answer (v.perform i op answer after))
    (hStable :
      (expiryContract refreshToken start ttl).Stable i J)
    (hHere : J w) :
    SafeCall config refreshToken start ttl i (perform op) post
      raised w := by
  refine Contract.safe_await hStable hHere ?_
  intro v hThere hInv hOk choice answer after hExec
  have hRun :
      op.exec config choice v.state = some (answer, after) :=
    hExec
  exact
    ⟨keeps_perform hInv hOp hOk (hEntitled v hThere hOk) hRun,
      hPost v choice answer after hThere hInv hOk hRun⟩

/- What a statement of the session store does. -/
theorem exec_sessions
    {statement : SessionStatement}
    {answer : Except StoreError statement.Answer}
    (hExec :
      (AuthOp.sessions statement).exec config choice s =
        some (answer, t)) :
    t.clock = s.clock ∧
      (answer = .error .unavailable ∨
        (answer = (statement.run s.sessions).1 ∧
          t.sessions = (statement.run s.sessions).2)) := by
  by_cases hFails : choice.fails = true
  · simp only [AuthOp.exec, hFails, if_true,
      Option.some.injEq, Prod.mk.injEq] at hExec
    rw [← hExec.2]
    exact ⟨rfl, Or.inl hExec.1.symm⟩
  · simp only [AuthOp.exec, hFails, Bool.false_eq_true,
      if_false, Option.some.injEq, Prod.mk.injEq] at hExec
    rw [← hExec.2]
    exact ⟨rfl, Or.inr ⟨hExec.1.symm, rfl⟩⟩

/- A call that has not looked its session up. -/
structure Fresh
    (refreshToken : String)
    (i : Nat)
    (w : AuthWorld) : Prop where
  serves : InCall (.keepAlive refreshToken) i (w.own i)
  unread : lastReading reads i w.trace = none

theorem stable_fresh :
    (expiryContract refreshToken start ttl).Stable i
      (Fresh refreshToken i) := by
  intro w v hFresh hInterferes hInv
  constructor
  · exact stable_inCall w v hFresh.serves hInterferes hInv
  · rw [lastReading_of_grows hInterferes.1]
    exact hFresh.unread

/- What a keep-alive raises: when it says so, its session
   has expired. -/
structure Raised
    (refreshToken : String)
    (i : Nat)
    (error : AuthError)
    (w : AuthWorld) : Prop where
  serves : InCall (.keepAlive refreshToken) i (w.own i)
  expired :
    error = .sessionExpired →
      ∀ row,
        w.state.sessions.find? refreshToken = some row →
          row.expiresAt < w.state.clock

theorem lookUp_safe
    (hFresh : Fresh refreshToken i w) :
    SafeCall config refreshToken start ttl i
      (sessions (.get refreshToken))
      (fun found v =>
        match found with
        | none =>
            InCall (.keepAlive refreshToken) i (v.own i)
        | some session => LookedUp refreshToken i session v)
      (Raised refreshToken i) w := by
  refine Contract.safe_bind ?_
  refine op_safe trivial ?_ ?_ stable_fresh hFresh
  · intro v _ _ newExpiresAt hOp
    cases hOp
  · intro v choice answer after hFresh hInv _ hExec
    have hServes := hFresh.serves.perform
      (.sessions (.get refreshToken)) answer after
    rcases exec_sessions hExec with
      ⟨hClock, rfl | ⟨hAnswer, hAfter⟩⟩
    · exact ⟨hServes, by simp⟩
    · subst hAnswer
      have hFound :
          ((SessionStatement.get refreshToken).run
              v.state.sessions).1 =
            .ok (v.state.sessions.find? refreshToken) := rfl
      cases hFind : v.state.sessions.find? refreshToken with
      | none =>
          rw [hFound, hFind] at hServes ⊢
          exact hServes
      | some session =>
          rw [hFound, hFind] at hServes ⊢
          refine ⟨hServes, ?_, [], v.trace, ?_, ?_, ?_⟩
          · rw [lastReading_perform (by simp)]
            exact hFresh.unread
          · exact ⟨v.state, after, rfl⟩
          · intro row hRow
            have hSame : after.sessions = v.state.sessions :=
              hAfter
            rw [World.perform_state, hSame, hFind,
              Option.some.injEq] at hRow
            exact Or.inl hRow.symm
          · intro hRejected
            have hPast :=
              hInv.rejected hRejected session hFind
            have hSame : after.clock = v.state.clock := hClock
            rw [World.perform_state, hSame]
            exact hPast

/- Reading the clock does not touch the store. -/
theorem exec_now
    (hExec :
      AuthOp.now.exec config choice s = some (current, t)) :
    current = s.clock ∧ t = s := by
  cases hExec
  exact ⟨rfl, rfl⟩

/- The comparison with the clock: a session that has not
   expired was not found expired by another call. -/
theorem check_safe
    (hLooked : LookedUp refreshToken i session w) :
    SafeCall config refreshToken start ttl i now
      (fun current v =>
        if session.expiresAt < current then
          Raised refreshToken i .sessionExpired v
        else GoesOn refreshToken i current v)
      (Raised refreshToken i) w := by
  refine op_safe trivial ?_ ?_ stable_lookedUp hLooked
  · intro v _ _ newExpiresAt hOp
    cases hOp
  · intro v choice current after hLooked _ hOk hExec
    rcases exec_now hExec with ⟨rfl, rfl⟩
    have hServes :=
      hLooked.serves.perform .now v.state.clock v.state
    rcases hLooked.since with
      ⟨newer, older, hSince, hRow, hPast⟩
    by_cases hExpired : session.expiresAt < v.state.clock
    · rw [if_pos hExpired]
      refine ⟨hServes, ?_⟩
      intro _ row hFind
      have hNone :=
        hOk.2 rfl hLooked.unread refreshToken session newer
          older hSince hExpired
      rcases hRow row hFind with
        rfl | ⟨event, hEvent, hTouches⟩
      · exact hExpired
      · exact absurd hTouches (hNone event hEvent)
    · rw [if_neg hExpired]
      refine
        ⟨hServes, lastReading_now, some session,
          _ :: newer, older, hSince.append [_], ?_⟩
      exact fun hRejected => hExpired (hPast hRejected)

/- The second reading of the clock. -/
theorem reread_safe
    (hGoes : GoesOn refreshToken i current w) :
    SafeCall config refreshToken start ttl i now
      (fun current => GoesOn refreshToken i current)
      (Raised refreshToken i) w := by
  refine op_safe trivial ?_ ?_ stable_goesOn hGoes
  · intro v _ _ newExpiresAt hOp
    cases hOp
  · intro v choice next after hGoes _ _ _
    rcases hGoes.since with
      ⟨found, newer, older, hSince, hNone⟩
    exact
      ⟨hGoes.serves.perform .now next after, lastReading_now,
        found, _ :: newer, older, hSince.append [_], hNone⟩

/- No rejection before the look-up of a call and none since
   it. -/
theorem not_rejected
    (hSince :
      SinceLookUp refreshToken i found trace newer older)
    (hNewer :
      ∀ event ∈ newer, ¬ Rejects refreshToken event trace)
    (hOlder : ¬ Somewhere (Rejects refreshToken) older) :
    ¬ Somewhere (Rejects refreshToken) trace := by
  intro hRejected
  rcases hSince with ⟨before, after, hTrace⟩
  rcases somewhere_iff.mp hRejected with
    ⟨later, event, earlier, hWhere, j, hEvent, hStart⟩
  have hRejects : Rejects refreshToken event trace := by
    refine ⟨j, hEvent, ?_⟩
    rw [hWhere]
    exact
      List.mem_append_right _ (List.mem_cons_of_mem _ hStart)
  by_cases hNew : event ∈ newer
  · exact hNewer event hNew hRejects
  · apply hOlder
    have hSplit := hTrace.symm.trans hWhere
    rcases List.append_eq_append_iff.mp hSplit with
      ⟨between, hLater, hRest⟩ | ⟨between, hNewerEq, hRest⟩
    · cases between with
      | nil =>
          rw [hEvent] at hRest
          cases hRest
      | cons _ between =>
          cases hRest
          exact
            somewhere_iff.mpr
              ⟨between, event, earlier, rfl, j, hEvent, hStart⟩
    · cases between with
      | nil =>
          rw [hEvent] at hRest
          cases hRest
      | cons _ between =>
          cases hRest
          apply absurd _ hNew
          rw [hNewerEq]
          exact
            List.mem_append_right _ List.mem_cons_self

/- The update of a keep-alive. -/
theorem touch_safe
    (hGoes : GoesOn refreshToken i current w) :
    SafeCall config refreshToken start ttl i
      (sessions (.touch refreshToken (current + ttl)))
      (fun _ => Extended refreshToken i)
      (Raised refreshToken i) w := by
  refine Contract.safe_bind ?_
  refine op_safe trivial ?_ ?_ stable_goesOn hGoes
  · intro v hGoes hOk newExpiresAt hOp
    cases hOp
    rcases hGoes.since with
      ⟨found, newer, older, hSince, hNone⟩
    have hSilent :=
      (hOk.1 refreshToken (current + ttl) rfl).2 found newer
        older hSince
    exact
      ⟨not_rejected hSince hSilent hNone, current, rfl,
        hGoes.read⟩
  · intro v choice answer after hGoes _ _ hExec
    have hServes := hGoes.serves.perform
      (.sessions (.touch refreshToken (current + ttl))) answer
      after
    rcases exec_sessions hExec with ⟨_, rfl | ⟨hAnswer, _⟩⟩
    · exact ⟨hServes, by simp⟩
    · subst hAnswer
      exact
        ⟨hServes, Or.inl ⟨rfl, i, current + ttl, _, _, rfl⟩⟩

theorem keepAlive_safe
    (hFresh : Fresh refreshToken i w) :
    SafeCall config refreshToken start
      (config.sessionTtlSeconds * 1000) i
      (keepAlive config refreshToken)
      (fun _ => Extended refreshToken i)
      (Raised refreshToken i) w := by
  refine Contract.safe_bind (Contract.safe_bind ?_)
  refine Contract.safe_bind ?_
  refine Contract.safe_mono ?_ (fun _ _ h => h)
    (lookUp_safe hFresh)
  intro found v hFound
  cases found with
  | none => exact ⟨hFound, by simp⟩
  | some session =>
      refine Contract.safe_bind ?_
      refine Contract.safe_mono ?_ (fun _ _ h => h)
        (check_safe hFound)
      intro checked u hChecked
      by_cases hExpired : session.expiresAt < checked
      · rw [if_pos hExpired] at hChecked ⊢
        exact hChecked
      · rw [if_neg hExpired] at hChecked ⊢
        refine Contract.safe_bind ?_
        refine Contract.safe_mono ?_ (fun _ _ h => h)
          (reread_safe hChecked)
        intro current x hGoes
        exact touch_safe hGoes

------------------------------------------------------------
-- Every Run
------------------------------------------------------------

/- The operations that leave a session alone. -/
def LeavesAlone (refreshToken : String) (op : AuthOp) :
    Prop :=
  OfKeepAlive op ∧
    ∀ newExpiresAt,
      op ≠ .sessions (.touch refreshToken newExpiresAt)

theorem only_keepAlive
    {other : String}
    (hOther : other ≠ refreshToken) :
    (keepAlive config other).Only
      (LeavesAlone refreshToken) := by
  have hNow : LeavesAlone refreshToken .now :=
    ⟨trivial, by simp⟩
  have hSessions :
      ∀ statement,
        LeavesAlone refreshToken (.sessions statement) →
          (sessions statement).Only
            (LeavesAlone refreshToken) := by
    intro statement hStatement
    refine Async.only_bind (Async.only_call.mpr hStatement) ?_
    intro answer
    cases answer with
    | ok value => exact Async.only_returned value
    | error error => exact Async.only_threw _
  refine Async.only_bind (Async.only_bind ?_ ?_) ?_
  · refine Async.only_bind (hSessions _ ⟨trivial, by simp⟩) ?_
    intro found
    cases found with
    | none => exact Async.only_threw _
    | some session =>
        refine Async.only_bind (Async.only_call.mpr hNow) ?_
        intro current
        by_cases hExpired : session.expiresAt < current
        · rw [if_pos hExpired]
          exact Async.only_threw _
        · rw [if_neg hExpired]
          exact Async.only_returned _
  · intro _
    exact Async.only_returned ()
  · intro _
    refine Async.only_bind (Async.only_call.mpr hNow) ?_
    intro current
    refine hSessions _ ⟨trivial, ?_⟩
    intro newExpiresAt hEq
    cases hEq
    exact hOther rfl

/- A call that is not on the session ends safely. -/
theorem ends_other
    {outcome : Except AuthError AuthReturn}
    (hCall : call ≠ .keepAlive refreshToken)
    (hInv : SessionInv refreshToken start ttl w)
    (hServes : InCall call i (w.own i)) :
    (expiryContract refreshToken start ttl).Ends i outcome
      w := by
  refine
    keeps_event hInv rfl rfl (by simp) (by simp [Begins]) ?_
  constructor
  · rintro ⟨j, hEvent, hStart⟩
    cases hEvent
    exact absurd (hServes.started_iff hStart).symm hCall
  · intro k value hEvent hStart
    cases hEvent
    exact absurd (hServes.started_iff hStart).symm hCall

/- Nor does it disturb the session. -/
theorem other_safe
    {program : AuthProgram AuthReturn}
    (hCall : call ≠ .keepAlive refreshToken)
    (hOnly : program.Only (LeavesAlone refreshToken))
    (hInv : SessionInv refreshToken start ttl w)
    (hServes : InCall call i (w.own i)) :
    (expiryContract refreshToken start ttl).SafeTask
      (authSystem config) keepAlivesFollow i program w := by
  have hSafe :
      SafeCall config refreshToken start ttl i program
        (fun _ v => InCall call i (v.own i))
        (fun _ v => InCall call i (v.own i)) w := by
    refine Contract.safe_only hOnly stable_inCall ?_ hServes
    intro v op hServes hHere hOp hOk choice answer after hExec
    refine ⟨?_, hServes.perform op answer after⟩
    refine keeps_perform hHere hOp.1 hOk ?_ hExec
    intro newExpiresAt hTouch
    exact absurd hTouch (hOp.2 newExpiresAt)
  refine Contract.safe_mono ?_ ?_
    (Contract.safe_with_inv hInv hSafe)
  · rintro value v ⟨hHere, hServes⟩
    exact ends_other hCall hHere hServes
  · rintro error v ⟨hHere, hServes⟩
    exact ends_other hCall hHere hServes

theorem keeps_start
    (hInv : SessionInv refreshToken start ttl w)
    (hFresh : w.Fresh i) :
    (expiryContract refreshToken start ttl).Keeps i w
      (w.start i call) := by
  refine keeps_event hInv rfl rfl (by simp) ?_ ?_
  · intro k request hEvent other hOther
    cases hEvent
    exact hFresh other hOther
  · constructor
    · rintro ⟨j, hEvent, _⟩
      cases hEvent
    · intro k value hEvent
      cases hEvent

/- A task that has not started has read nothing. -/
theorem unread_start
    (hFresh : w.Fresh i) :
    lastReading reads i (w.start i call).trace = none := by
  have hNone :
      ∀ trace : List AuthEvent,
        (∀ event ∈ trace, event.task ≠ i) →
          lastReading reads i trace = none := by
    intro trace hTrace
    induction trace with
    | nil => rfl
    | cons event older ih =>
        rw [lastReading_cons_of_ne
          (hTrace event List.mem_cons_self)]
        apply ih
        intro other hOther
        exact hTrace other (List.mem_cons_of_mem _ hOther)
  exact (if_pos rfl).trans (hNone w.trace hFresh)

/- Every call keeps the contract. -/
theorem serveCall_safe
    (hInv :
      SessionInv refreshToken start
        (config.sessionTtlSeconds * 1000) w)
    (hFresh : w.Fresh i)
    (hCall : keepAlivesFollow.start i call w) :
    (expiryContract refreshToken start
        (config.sessionTtlSeconds * 1000)).SafeTask
      (authSystem config) keepAlivesFollow i
      (serveCall config call) (w.start i call) := by
  have hStarted :
      SessionInv refreshToken start
        (config.sessionTtlSeconds * 1000) (w.start i call) :=
    (keeps_start hInv hFresh).1
  have hServes : InCall call i ((w.start i call).own i) :=
    inCall_start hFresh
  rcases hCall with ⟨token, rfl⟩ | ⟨ms, rfl⟩
  · by_cases hToken : token = refreshToken
    · subst hToken
      refine Contract.safe_bind ?_
      refine Contract.safe_mono ?_ ?_
        (Contract.safe_with_inv hStarted
          (keepAlive_safe ⟨hServes, unread_start hFresh⟩))
      · rintro _ v ⟨hHere, hExtended⟩
        refine
          keeps_event hHere rfl rfl (by simp)
            (by simp [Begins]) ?_
        constructor
        · rintro ⟨j, hEvent, _⟩
          cases hEvent
        · intro k value hEvent _
          cases hEvent
          exact hExtended.hit
      · rintro error v ⟨hHere, hRaised⟩
        refine
          keeps_event hHere rfl rfl (by simp)
            (by simp [Begins]) ?_
        constructor
        · rintro ⟨j, hEvent, _⟩
          cases hEvent
          exact hRaised.expired rfl
        · intro k value hEvent
          cases hEvent
    · refine other_safe ?_ ?_ hStarted hServes
      · intro hEq
        cases hEq
        exact hToken rfl
      · refine Async.only_bind (only_keepAlive hToken) ?_
        intro _
        exact Async.only_returned _
  · refine other_safe (by simp) ?_ hStarted hServes
    refine Async.only_bind (Async.only_call.mpr ?_) ?_
    · exact ⟨trivial, by simp⟩
    · intro _
      exact Async.only_returned _

theorem sessionInv_initial
    {initial : AuthState}
    (hWithin :
      ∀ row,
        initial.sessions.find? refreshToken = some row →
          row.expiresAt ≤ initial.clock + ttl) :
    SessionInv refreshToken initial.clock ttl
      ⟨initial, []⟩ where
  begins := trivial
  started := le_refl _
  read := fun _ _ hRead => by cases hRead
  source := fun row hFind => Or.inl (hWithin row hFind)
  rejected := fun hRejected => hRejected.elim
  grows := fun _ _ _ _ _ hEvent =>
    absurd hEvent List.not_mem_nil
  order := trivial
  lapsed := trivial
  succeeded := trivial

/- What the invariant says of its session. -/
theorem slides_of_inv
    (hInv : SessionInv refreshToken start ttl w) :
    Slides (sessionWindow refreshToken) w.trace := by
  refine
    slides_of_order (fun event _ => Touches refreshToken event)
      (Rejects refreshToken) ?_ hInv.begins hInv.order ?_ ?_ ?_
  · intro k op answer before after hEvent earlier later
      hEarlier hLater
    rcases Option.map_eq_some_iff.mp hEarlier with
      ⟨row, hRow, rfl⟩
    rcases Option.map_eq_some_iff.mp hLater with
      ⟨next, hNext, rfl⟩
    exact
      hInv.grows k op answer before after hEvent row next hRow
        hNext
  · refine hInv.lapsed.mono ?_
    intro event older hOver k op answer before after hEvent
      hRejected expiresAt hExpiry
    rcases Option.map_eq_some_iff.mp hExpiry with
      ⟨row, hRow, rfl⟩
    exact hOver k op answer before after hEvent hRejected row
      hRow
  · refine throughout_iff.mpr ?_
    rintro _ event older _ k request hEvent hStart rfl
    exact Or.inl ⟨k, hEvent, hStart⟩
  · refine hInv.succeeded.mono ?_
    rintro event older hSucceeded k request value hEvent hStart
      rfl
    exact hSucceeded k value hEvent hStart

/-
  In every run of keep-alives that follow each other, every
  session's window slides, if its expiry was not too late at
  the start.
-/
theorem sessions_slide
    (config : AuthConfig)
    (initial : AuthState)
    (p :
      Pool AuthOp AuthOp.Answer AuthState AuthCall AuthError
        AuthReturn)
    (refreshToken : String)
    (hWithin :
      ∀ row,
        initial.sessions.find? refreshToken = some row →
          row.expiresAt ≤
            initial.clock + config.sessionTtlSeconds * 1000)
    (hRun :
      (authSystem config).Run keepAlivesFollow
        (Pool.initial initial) p) :
    Slides (sessionWindow refreshToken) p.world.trace := by
  have hPool :=
    Contract.sound
      (K :=
        expiryContract refreshToken initial.clock
          (config.sessionTtlSeconds * 1000))
      initial (sessionInv_initial hWithin)
      (fun w i call hInv hFresh hCall =>
        ⟨keeps_start hInv hFresh,
          serveCall_safe hInv hFresh hCall⟩)
      hRun
  exact slides_of_inv hPool.inv

end SessionExpiry

end Auth
