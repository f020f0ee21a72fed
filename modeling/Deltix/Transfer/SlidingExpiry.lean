import Deltix.Auth.SessionExpiry
import Deltix.Transfer.TicketExpiry
import Deltix.Transfer.TransferSystem

/-
  The sliding windows of tickets and sessions together: both
  slide in the runs whose writers follow the clock, and
  neither does when a slow writer comes last.

  Key definitions include:
    * `activeTicket`
    * `agedSession`

  Key theorems include:
    * `windows_slide`
    * `slow_writers_unslide`
-/

namespace Transfer

namespace SlidingExpiry

open Auth Concurrency Relational

/-
  The windows of all tickets and of all sessions slide, in
  every run of heartbeats and in every run of keep-alives
  whose updates follow the readings of the clock.
-/
theorem windows_slide
    (config : TransferConfig)
    (authConfig : AuthConfig)
    (initial : TicketState)
    (authInitial : AuthState)
    (p : TicketPool)
    (q :
      Pool AuthOp AuthOp.Answer AuthState AuthCall AuthError
        AuthReturn)
    (hTickets :
      ∀ id row, initial.tickets.find? id = some row →
        row.expiresAt ≤
          initial.clock + config.ttlSeconds * 1000)
    (hSessions :
      ∀ refreshToken row,
        authInitial.sessions.find? refreshToken = some row →
          row.expiresAt ≤
            authInitial.clock +
              authConfig.sessionTtlSeconds * 1000)
    (hRun :
      (ticketSystem config TicketExpiry.forward).Run
        TicketExpiry.renewalsFollow (Pool.initial initial) p)
    (hAuthRun :
      (authSystem authConfig).Run
        SessionExpiry.keepAlivesFollow
        (Pool.initial authInitial) q) :
    (∀ id, Slides (TicketExpiry.ticketWindow id)
      p.world.trace) ∧
      ∀ refreshToken,
        Slides (SessionExpiry.sessionWindow refreshToken)
          q.world.trace := by
  constructor
  · intro id
    exact
      TicketExpiry.tickets_slide config initial p hTickets hRun
        id
  · intro refreshToken
    exact
      SessionExpiry.sessions_slide authConfig authInitial q
        refreshToken (hSessions refreshToken) hAuthRun

/- An active ticket, issued at zero. -/
def activeTicket : TicketState where
  clock := 0
  tickets :=
    { rows :=
        [ { id := "t"
            username := "eve"
            operation := .push
            repo := "r"
            status := .active
            issuedAt := 0
            expiresAt := 60000
            syncOptions := none } ]
      distinct := by simp }

def answers (clock : Nat) : TicketChoice where
  role := .ok (some .writer)
  clock := clock

/- Two heartbeats, of which the first reads the clock first
   and writes last. -/
def slowHeartbeat : List (Label TicketChoice TicketCall) :=
  [ .start 1 (.renew "t")
  , .resume 1 (answers 5)
  , .start 2 (.renew "t")
  , .resume 2 (answers 7)
  , .resume 2 (answers 7)
  , .resume 2 (answers 7)
  , .resume 2 (answers 7)
  , .resume 1 (answers 7)
  , .resume 1 (answers 7)
  , .resume 1 (answers 7) ]

/- A session shortly before it expires. -/
def agedSession : AuthState :=
  { loggedInUser with clock := 3599991 }

/- Two keep-alives, of which the first finds the session in
   time, the second finds it expired, and the first writes
   last. -/
def slowKeepAlive : List (Label AuthChoice AuthCall) :=
  [ .start 1 (.keepAlive "t")
  , .resume 1 (yields "")
  , .resume 1 (yields "")
  , .resume 1 (yields "")
  , .start 2 (.elapse 10)
  , .resume 2 (yields "")
  , .start 3 (.keepAlive "t")
  , .resume 3 (yields "")
  , .resume 3 (yields "")
  , .resume 1 (yields "") ]

/-
  The late renewal moves the expiry of its ticket back, and
  the late keep-alive revives a session that another call
  was told had expired.
-/
theorem slow_writers_unslide :
    (∃ p,
      (ticketSystem smallConfig TicketExpiry.forward).replay?
          (Pool.initial activeTicket) slowHeartbeat =
            some p ∧
        ¬ Slides (TicketExpiry.ticketWindow "t")
          p.world.trace) ∧
      ∃ q,
        (authSystem trustingConfig).replay?
            (Pool.initial agedSession) slowKeepAlive =
              some q ∧
          ¬ Slides (SessionExpiry.sessionWindow "t")
            q.world.trace := by
  constructor
  · refine ⟨_, rfl, ?_⟩
    intro hSlides
    have hBack : 60007 ≤ 60005 :=
      hSlides.grows 1 (.tickets (.renew "t" 60005 5))
        (.ok true) _ _
        (List.mem_cons_of_mem _ List.mem_cons_self) 60007
        60005 rfl rfl
    omega
  · refine ⟨_, rfl, ?_⟩
    intro hSlides
    have hRevived : 7199991 ≤ 3600001 :=
      hSlides.lapsed
        [_, _] 3 _ (.keepAlive "t") rfl
        (List.mem_cons_of_mem _
          (List.mem_cons_of_mem _ List.mem_cons_self))
        rfl 1 (.sessions (.touch "t" 7199991)) (.ok ()) _ _
        (List.mem_cons_of_mem _ List.mem_cons_self) 7199991
        rfl
    omega

------------------------------------------------------------
-- Writers In Order
------------------------------------------------------------

/- A check for runs whose renewals follow each other. -/
def renewalFollows :
    Nat → TransferOp → TicketWorld → Bool
  | i, .tickets (.renew _ _ _), w =>
      followsClock TicketExpiry.reads
        (fun event =>
          match event with
          | .performed _ (.tickets (.renew _ _ _)) _ _ _ => true
          | _ => false)
        (lastReading TicketExpiry.reads i w.trace) w.trace
  | _, _, _ => true

theorem renewalsFollow_of_check
    (i : Nat)
    (op : TransferOp)
    (w : TicketWorld)
    (hCheck : renewalFollows i op w = true) :
    TicketExpiry.renewalsFollow.perform i op w := by
  intro ticketId newExpiresAt now row hOp _ _
  subst hOp
  refine followsClock_of_check ?_ hCheck
  intro event hRenews
  rcases hRenews with ⟨_, _, _, _, _, _, rfl⟩
  rfl

/- And one for keep-alives: none is rejected, and none is
   about to be. -/
def keepAliveFollows : Nat → AuthOp → AuthWorld → Bool
  | i, .sessions (.touch _ _), w =>
      followsClock SessionExpiry.reads
          (fun event =>
            match event with
            | .performed _ (.sessions (.touch _ _)) _ _ _ =>
                true
            | _ => false)
          (lastReading SessionExpiry.reads i w.trace) w.trace &&
        w.trace.all fun event =>
          match event with
          | .finished _ (.error _) => false
          | _ => true
  | _, .now, w =>
      w.trace.all fun event =>
        match event with
        | .performed _ (.sessions (.get _)) (.ok (some session))
            _ _ => w.state.clock ≤ session.expiresAt
        | _ => true
  | _, _, _ => true

theorem keepAlivesFollow_of_check
    (i : Nat)
    (op : AuthOp)
    (w : AuthWorld)
    (hCheck : keepAliveFollows i op w = true) :
    SessionExpiry.keepAlivesFollow.perform i op w := by
  constructor
  · intro refreshToken newExpiresAt hOp
    subst hOp
    have hBoth := Bool.and_eq_true_iff.mp hCheck
    constructor
    · refine followsClock_of_check ?_ hBoth.1
      intro event hTouches
      rcases hTouches with ⟨_, _, _, _, rfl⟩
      rfl
    · intro found newer older hSince event hEvent hRejects
      rcases hSince with ⟨before, after, hTrace⟩
      rcases hRejects with ⟨j, rfl, _⟩
      have hMember :
          .finished j (.error .sessionExpired) ∈ w.trace := by
        rw [hTrace]
        exact List.mem_append_left _ hEvent
      have hNot := List.all_eq_true.mp hBoth.2 _ hMember
      cases hNot
  · intro hOp _ refreshToken session newer older hSince hPast
    subst hOp
    rcases hSince with ⟨before, after, hTrace⟩
    have hMember :
        .performed i (.sessions (.get refreshToken))
          (.ok (some session)) before after ∈ w.trace := by
      rw [hTrace]
      exact List.mem_append_right _ List.mem_cons_self
    have hHere := List.all_eq_true.mp hCheck _ hMember
    have hLate : w.state.clock ≤ session.expiresAt := by
      simpa using hHere
    omega

/- Two heartbeats and two keep-alives that overlap, and
   write in the order of their readings. -/
def heartbeats : List (Label TicketChoice TicketCall) :=
  [ .start 1 (.renew "t")
  , .resume 1 (answers 5)
  , .start 2 (.renew "t")
  , .resume 2 (answers 7)
  , .resume 2 (answers 7)
  , .resume 2 (answers 7)
  , .resume 1 (answers 7)
  , .resume 1 (answers 7)
  , .resume 1 (answers 7)
  , .resume 2 (answers 7) ]

def keepAlives : List (Label AuthChoice AuthCall) :=
  [ .start 1 (.keepAlive "t")
  , .resume 1 (yields "")
  , .resume 1 (yields "")
  , .resume 1 (yields "")
  , .start 2 (.elapse 5)
  , .resume 2 (yields "")
  , .start 3 (.keepAlive "t")
  , .resume 3 (yields "")
  , .resume 3 (yields "")
  , .resume 3 (yields "")
  , .resume 1 (yields "")
  , .resume 3 (yields "") ]

/- The last writer decides when each window ends. -/
theorem windows_slide_of_order :
    ∃ p q,
      (ticketSystem smallConfig TicketExpiry.forward).replay?
          (Pool.initial activeTicket) heartbeats = some p ∧
        (authSystem trustingConfig).replay?
            (Pool.initial loggedInUser) keepAlives = some q ∧
        (TicketExpiry.ticketWindow "t").expiry p.world.state =
          some 60007 ∧
        (SessionExpiry.sessionWindow "t").expiry
            q.world.state =
          some 3600006 ∧
        Slides (TicketExpiry.ticketWindow "t")
          p.world.trace ∧
        Slides (SessionExpiry.sessionWindow "t")
          q.world.trace := by
  have hTickets :
      ∃ p,
        (ticketSystem smallConfig
            TicketExpiry.forward).replay?
            (Pool.initial activeTicket) heartbeats = some p ∧
          (TicketExpiry.ticketWindow "t").expiry
              p.world.state =
            some 60007 :=
    ⟨_, rfl, rfl⟩
  have hSessions :
      ∃ q,
        (authSystem trustingConfig).replay?
            (Pool.initial loggedInUser) keepAlives = some q ∧
          (SessionExpiry.sessionWindow "t").expiry
              q.world.state =
            some 3600006 :=
    ⟨_, rfl, rfl⟩
  rcases hTickets with ⟨p, hReplay, hExpiry⟩
  rcases hSessions with ⟨q, hAuthReplay, hAuthExpiry⟩
  have hRun :
      (ticketSystem smallConfig TicketExpiry.forward).Run
        TicketExpiry.renewalsFollow
        (Pool.initial activeTicket) p := by
    refine System.run_of_checks ?_ renewalsFollow_of_check
      (by decide) hReplay
    intro i call hMember w
    simp only [heartbeats, List.mem_cons, List.not_mem_nil,
      reduceCtorEq, or_false, false_or,
      Label.start.injEq] at hMember
    rcases hMember with ⟨_, rfl⟩ | ⟨_, rfl⟩
    · exact ⟨"t", rfl⟩
    · exact ⟨"t", rfl⟩
  have hAuthRun :
      (authSystem trustingConfig).Run
        SessionExpiry.keepAlivesFollow
        (Pool.initial loggedInUser) q := by
    refine System.run_of_checks ?_ keepAlivesFollow_of_check
      (by decide) hAuthReplay
    intro i call hMember w
    simp only [keepAlives, List.mem_cons, List.not_mem_nil,
      reduceCtorEq, or_false, false_or,
      Label.start.injEq] at hMember
    rcases hMember with ⟨_, rfl⟩ | ⟨_, rfl⟩ | ⟨_, rfl⟩
    · exact Or.inl ⟨"t", rfl⟩
    · exact Or.inr ⟨5, rfl⟩
    · exact Or.inl ⟨"t", rfl⟩
  have hSlides :=
    windows_slide smallConfig trustingConfig activeTicket
      loggedInUser p q
      (by
        intro id row hFind
        have hMember := KeyedTable.mem_of_find? hFind
        cases List.mem_singleton.mp hMember
        decide)
      (by
        intro refreshToken row hFind
        have hMember := KeyedTable.mem_of_find? hFind
        cases List.mem_singleton.mp hMember
        decide)
      hRun hAuthRun
  exact
    ⟨p, q, hReplay, hAuthReplay, hExpiry, hAuthExpiry,
      hSlides.1 "t", hSlides.2 "t"⟩

end SlidingExpiry

end Transfer
