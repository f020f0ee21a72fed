import Deltix.Auth.AuthService

/-
  Whether users that are deactivated or deleted get tokens.

  A call that is in progress may hold on to a user: a login
  that has found the account, or a refresh or keep-alive
  with a token of the user.  When every statement that
  deactivates or deletes a user finds no such call, and no
  session of the user that has not expired, no token is
  issued for the user until it is readmitted.

  Key definitions include:
    * `bars`
    * `readmits`
    * `issues`
    * `Barred`
    * `HoldsOn`
    * `removalsFindNobody`
    * `NoTokensAfterRemoval`

  Key theorems include:
    * `keeps_perform`
    * `login_safe`
    * `refresh_safe`
    * `noTokensAfterRemoval`
-/

namespace Auth

open Concurrency Relational

abbrev AuthEvent :=
  Event AuthOp AuthOp.Answer AuthState AuthCall AuthError
    AuthReturn

abbrev AuthWorld :=
  World AuthOp AuthOp.Answer AuthState AuthCall AuthError
    AuthReturn

/- The statement that deactivated or deleted a user. -/
def bars (username : String) : AuthEvent → Bool
  | .performed _ (.users (.setActive name false))
      (.ok true) _ _ => name = username
  | .performed _ (.users (.delete name)) (.ok true) _ _ =>
      name = username
  | _ => false

/- The statement that reactivated or created a user. -/
def readmits (username : String) : AuthEvent → Bool
  | .performed _ (.users (.setActive name true))
      (.ok true) _ _ => name = username
  | .performed _ (.users (.create user)) (.ok ()) _ _ =>
      user.username = username
  | .performed _ (.users (.tryCreateFirstUser user))
      (.ok true) _ _ => user.username = username
  | _ => false

/-
  A token is issued for a user: an access token is signed, a
  refresh token is stored, or a call returns both.
-/
def issues (username : String) : AuthEvent → Bool
  | .performed _ (.issueAccessToken name) (.ok _) _ _ =>
      name = username
  | .performed _ (.sessions (.create _ name _ _))
      (.ok ()) _ _ => name = username
  | .finished _ (.ok (.loggedIn result)) =>
      result.username = username
  | _ => false

/-
  The user was deactivated or deleted, and not readmitted
  since.
-/
def Barred (username : String) : List AuthEvent → Prop
  | [] => False
  | event :: older =>
      bars username event = true ∨
        (readmits username event = false ∧
          Barred username older)

/-
  After a `deactivateUser` or `deleteUser` has returned, and
  until its user is readmitted, no token is issued for it.
-/
def NoTokensAfterRemoval (trace : List AuthEvent) : Prop :=
  ∀ newer i value older username,
    trace = newer ++ .finished i (.ok value) :: older →
      (.started i (.deactivateUser username) ∈ older ∨
        .started i (.deleteUser username) ∈ older) →
      (∀ event ∈ newer, readmits username event = false) →
      ∀ event ∈ newer, issues username event = false

/- The events of a task that serves one call. -/
structure InCall
    (call : AuthCall)
    (i : Nat)
    (own : List AuthEvent) : Prop where
  started : .started i call ∈ own
  only : ∀ other, .started i other ∈ own → other = call
  unfinished : ∀ outcome, .finished i outcome ∉ own

/- The login of a user has found its account. -/
def FoundAccount
    (config : AuthConfig)
    (username : String)
    (i : Nat)
    (own : List AuthEvent) : Prop :=
  ∃ password found before after,
    InCall (.login username password) i own ∧
      .performed i (.users (.getByUsername username))
        (.ok found) before after ∈ own ∧
      match found with
      | some user => user.active = true
      | none =>
          ∃ legacy ∈ config.legacySeedUsers,
            legacy.username = username

/- A refresh or a keep-alive presents a token. -/
def Presents
    (refreshToken : String)
    (i : Nat)
    (own : List AuthEvent) : Prop :=
  InCall (.refresh refreshToken) i own ∨
    InCall (.keepAlive refreshToken) i own

/- A refresh or a keep-alive has read a session of a user. -/
def ReadSession
    (username : String)
    (i : Nat)
    (own : List AuthEvent) : Prop :=
  ∃ refreshToken session before after,
    Presents refreshToken i own ∧
      .performed i (.sessions (.get refreshToken))
        (.ok (some session)) before after ∈ own ∧
      session.username = username

/-
  A call in progress has the account of a user, or a token
  under which a session of the user is or was stored.
-/
def HoldsOn
    (config : AuthConfig)
    (username : String)
    (i : Nat)
    (w : AuthWorld) : Prop :=
  FoundAccount config username i (w.own i) ∨
    ReadSession username i (w.own i) ∨
    ∃ refreshToken session,
      Presents refreshToken i (w.own i) ∧
        w.state.sessions.find? refreshToken = some session ∧
        session.username = username

/- Nothing of a user is left that could yield a token. -/
structure Quiet
    (config : AuthConfig)
    (username : String)
    (w : AuthWorld) : Prop where
  expired :
    ∀ session ∈ w.state.sessions.rows,
      session.username = username →
        session.expiresAt < w.state.clock
  nobody : ∀ i, ¬ HoldsOn config username i w

/-
  Every statement that deactivates or deletes a user finds
  it quiet, and deletes no user of the environment.
-/
def removalsFindNobody (config : AuthConfig) :
    Allowed AuthOp AuthOp.Answer AuthState AuthCall AuthError
      AuthReturn where
  start := fun _ _ _ => True
  perform := fun _ op w =>
    (∀ username,
      op = .users (.setActive username false) →
        Quiet config username w) ∧
      ∀ username,
        op = .users (.delete username) →
          Quiet config username w ∧
            ∀ legacy ∈ config.legacySeedUsers,
              legacy.username ≠ username

variable (config : AuthConfig)

/- No token was issued while its user was barred. -/
def Clean : List AuthEvent → Prop
  | [] => True
  | event :: older =>
      (∀ username, issues username event = true →
        ¬ Barred username older) ∧
        Clean older

/- A removal that has returned had barred its user. -/
def ReturnsBarred : List AuthEvent → Prop
  | [] => True
  | event :: older =>
      (∀ i value username,
        event = .finished i (.ok value) →
          (.started i (.deactivateUser username) ∈ older ∨
            .started i (.deleteUser username) ∈ older) →
          Barred username older) ∧
        ReturnsBarred older

/- What links the trace to the two stores. -/
structure TokenInv (w : AuthWorld) : Prop where
  clean : Clean w.trace
  returns : ReturnsBarred w.trace
  inactive :
    ∀ username, Barred username w.trace →
      ∀ user, w.state.db.users.find? username = some user →
        user.active = false
  gone :
    ∀ username, Barred username w.trace →
      w.state.db.users.find? username = none →
        ∀ legacy ∈ config.legacySeedUsers,
          legacy.username ≠ username
  expired :
    ∀ session ∈ w.state.sessions.rows,
      Barred session.username w.trace →
        session.expiresAt < w.state.clock

/- The session under a token is of no barred user. -/
def LiveToken (refreshToken : String) (w : AuthWorld) :
    Prop :=
  ∀ session,
    w.state.sessions.find? refreshToken = some session →
      ¬ Barred session.username w.trace

/-
  While a call is in progress, time does not run backwards,
  the users it holds on to are not barred, and neither is
  the owner of the token it presents.
-/
structure TokenRely (i : Nat) (w v : AuthWorld) : Prop where
  own : v.own i = w.own i
  clock : w.state.clock ≤ v.state.clock
  users :
    ∀ username,
      FoundAccount config username i (w.own i) ∨
        ReadSession username i (w.own i) →
      ¬ Barred username w.trace →
      ¬ Barred username v.trace
  token :
    ∀ refreshToken, Presents refreshToken i (w.own i) →
      LiveToken refreshToken w → LiveToken refreshToken v

def tokenContract :
    Contract AuthOp AuthOp.Answer AuthState AuthCall AuthError
      AuthReturn where
  inv := TokenInv config
  rely := TokenRely config
  rely_refl := fun _ _ =>
    { own := rfl
      clock := le_refl _
      users := fun _ _ hBarred => hBarred
      token := fun _ _ hLive => hLive }
  rely_trans := fun i w v u hFirst hSecond =>
    { own := by rw [hSecond.own, hFirst.own]
      clock := le_trans hFirst.clock hSecond.clock
      users := by
        intro username hHolds hBarred
        refine hSecond.users username ?_
          (hFirst.users username hHolds hBarred)
        rw [hFirst.own]
        exact hHolds
      token := by
        intro refreshToken hPresents hLive
        refine hSecond.token refreshToken ?_
          (hFirst.token refreshToken hPresents hLive)
        rw [hFirst.own]
        exact hPresents }

------------------------------------------------------------
-- What A Statement Does To A Barred User
------------------------------------------------------------

variable {username : String} {statement : UserStatement}
variable {db : UserDb} {i : Nat} {before after : AuthState}

/-
  A statement that does not readmit an inactive user leaves
  it inactive.
-/
theorem inactive_run
    (hReadmits :
      readmits username
        (.performed i (.users statement) (statement.run db).1
          before after) = false)
    (hInactive :
      ∀ user, db.users.find? username = some user →
        user.active = false) :
    ∀ user,
      (statement.run db).2.users.find? username = some user →
        user.active = false := by
  intro user hUser
  have hSet :
      ∀ name set keeps,
        (∀ row, username = name → row.active = false →
          db.users.find? username = some row →
          (set row).active = false) →
        (db.setUser name set keeps).users.find? username =
          some user →
        user.active = false := by
    intro name set keeps hRow hFind
    rw [UserDb.find?_setUser] at hFind
    by_cases hName : username = name
    · rw [if_pos hName] at hFind
      rcases Option.map_eq_some_iff.mp hFind with
        ⟨row, hOld, hEq⟩
      rw [← hEq]
      exact hRow row hName (hInactive row hOld) hOld
    · rw [if_neg hName] at hFind
      exact hInactive user hFind
  have hInserted :
      ∀ created : UserRecord,
        created.username ≠ username →
        (if created.username = username then some created
          else db.users.find? username) = some user →
        user.active = false := by
    intro created hOther hFind
    rw [if_neg hOther] at hFind
    exact hInactive user hFind
  cases statement with
  | setActive name active =>
      refine hSet name _ _ ?_ hUser
      intro row hName _ hRow
      cases active with
      | false => rfl
      | true =>
          have hUpdated : db.updated name = true := by
            rw [UserDb.updated_iff, ← hName, hRow]
            rfl
          simp [readmits, UserStatement.run, hUpdated,
            hName] at hReadmits
  | setGlobalAdmin name isGlobalAdmin =>
      refine hSet name _ _ ?_ hUser
      exact fun _ _ hOld _ => hOld
  | setCanCreateRepos name canCreateRepos =>
      refine hSet name _ _ ?_ hUser
      exact fun _ _ hOld _ => hOld
  | updateLastLogin name lastLoginAt =>
      refine hSet name _ _ ?_ hUser
      exact fun _ _ hOld _ => hOld
  | delete name =>
      rw [UserStatement.run, UserDb.find?_deleteUser] at hUser
      by_cases hName : username = name
      · rw [if_pos hName] at hUser
        cases hUser
      · rw [if_neg hName] at hUser
        exact hInactive user hUser
  | create created =>
      rcases db.createUser_cases created with
        hSame | ⟨hOk, _, hRun⟩
      · rw [UserStatement.run, hSame] at hUser
        exact hInactive user hUser
      · rw [UserStatement.run, hRun] at hUser
        refine hInserted created ?_ hUser
        intro hName
        simp [readmits, UserStatement.run, hOk, hName]
          at hReadmits
  | tryCreateFirstUser created =>
      rcases db.createFirstUser_cases created with
        hSame | ⟨hOk, _, hRun⟩
      · rw [UserStatement.run, hSame] at hUser
        exact hInactive user hUser
      · rw [UserStatement.run, hRun] at hUser
        refine hInserted created ?_ hUser
        intro hName
        simp [readmits, UserStatement.run, hOk, hName]
          at hReadmits
  | upsertRepoRole assignment =>
      rw [UserStatement.run, UserDb.upsertRole_users] at hUser
      exact hInactive user hUser
  | _ => exact hInactive user hUser

/-
  A user that is absent after a statement that does not bar
  it was absent before.
-/
theorem absent_run
    (hBars :
      bars username
        (.performed i (.users statement) (statement.run db).1
          before after) = false)
    (hAbsent :
      (statement.run db).2.users.find? username = none) :
    db.users.find? username = none := by
  rcases statement.users_run_cases db with
    hSame | ⟨name, set, _, hRun⟩ | ⟨name, rfl, hRun⟩ |
      ⟨created, _, hFree, hRun⟩
  · rw [hSame] at hAbsent
    exact hAbsent
  · rw [hRun] at hAbsent
    by_cases hName : username = name
    · rw [if_pos hName] at hAbsent
      exact Option.map_eq_none_iff.mp hAbsent
    · rw [if_neg hName] at hAbsent
      exact hAbsent
  · cases hFind : db.users.find? username with
    | none => rfl
    | some row =>
        rw [hRun] at hAbsent
        by_cases hName : username = name
        · have hUpdated : db.updated name = true := by
            rw [UserDb.updated_iff, ← hName, hFind]
            rfl
          simp [bars, UserStatement.run, hUpdated, hName]
            at hBars
        · rw [if_neg hName, hFind] at hAbsent
          cases hAbsent
  · rw [hRun] at hAbsent
    by_cases hName : created.username = username
    · rw [if_pos hName] at hAbsent
      cases hAbsent
    · rw [if_neg hName] at hAbsent
      exact hAbsent

/- Who is barred is inactive, or gone. -/
theorem inactive_or_absent_of_bars
    (hBars :
      bars username
        (.performed i (.users statement) (statement.run db).1
          before after) = true) :
    (statement = .setActive username false ∧
      ∃ user,
        (statement.run db).2.users.find? username =
          some user ∧ user.active = false) ∨
      (statement = .delete username ∧
        (statement.run db).2.users.find? username =
          none) := by
  cases statement with
  | setActive name active =>
      cases active with
      | true => simp [bars] at hBars
      | false =>
          left
          cases hUpdated : db.updated name with
          | false =>
              simp [bars, UserStatement.run, hUpdated]
                at hBars
          | true =>
              have hName : name = username := by
                simpa [bars, UserStatement.run, hUpdated]
                  using hBars
              subst hName
              rw [UserDb.updated_iff,
                Option.isSome_iff_exists] at hUpdated
              rcases hUpdated with ⟨row, hRow⟩
              refine
                ⟨rfl, { row with active := false }, ?_, rfl⟩
              rw [UserStatement.run, UserDb.find?_setUser,
                if_pos rfl, hRow]
              rfl
  | delete name =>
      right
      cases hUpdated : db.updated name with
      | false =>
          simp [bars, UserStatement.run, hUpdated] at hBars
      | true =>
          have hName : name = username := by
            simpa [bars, UserStatement.run, hUpdated]
              using hBars
          subst hName
          refine ⟨rfl, ?_⟩
          rw [UserStatement.run, UserDb.find?_deleteUser,
            if_pos rfl]
  | _ => simp [bars] at hBars

------------------------------------------------------------
-- Every Step Keeps The Contract
------------------------------------------------------------

/-
  What a step has to know beyond the condition on removals:
  a token is issued, and a session extended, for no barred
  user.
-/
def Grounded (op : AuthOp) (w : AuthWorld) : Prop :=
  match op with
  | .issueAccessToken username => ¬ Barred username w.trace
  | .sessions (.create _ username _ _) =>
      ¬ Barred username w.trace
  | .sessions (.touch refreshToken _) =>
      LiveToken refreshToken w
  | _ => True

variable {config : AuthConfig}
variable {w : AuthWorld} {i : Nat} {op : AuthOp}
variable {choice : AuthChoice} {answer : op.Answer}
variable {after : AuthState} {username : String}

/- A statement that was not refused ran on the users. -/
theorem exec_users
    {statement : UserStatement}
    {result : Except StoreError statement.Answer}
    {s : AuthState}
    (hExec :
      (AuthOp.users statement).exec config choice s =
        some (result, after)) :
    (result = .error .unavailable ∧ after = s) ∨
      (result = (statement.run s.db).1 ∧
        after.db = (statement.run s.db).2 ∧
        after.sessions = s.sessions) := by
  cases hFails : choice.fails with
  | true =>
      left
      simp only [AuthOp.exec, hFails, if_true,
        Option.some.injEq, Prod.mk.injEq] at hExec
      exact ⟨hExec.1.symm, hExec.2.symm⟩
  | false =>
      right
      simp only [AuthOp.exec, hFails, Bool.false_eq_true,
        if_false, Option.some.injEq, Prod.mk.injEq] at hExec
      rw [← hExec.1, ← hExec.2]
      exact ⟨rfl, rfl, rfl⟩

/- A statement that was not refused ran on the sessions. -/
theorem exec_sessions
    {statement : SessionStatement}
    {result : Except StoreError statement.Answer}
    {s : AuthState}
    (hExec :
      (AuthOp.sessions statement).exec config choice s =
        some (result, after)) :
    (result = .error .unavailable ∧ after = s) ∨
      (result = (statement.run s.sessions).1 ∧
        after.sessions = (statement.run s.sessions).2 ∧
        after.clock = s.clock) := by
  cases hFails : choice.fails with
  | true =>
      left
      simp only [AuthOp.exec, hFails, if_true,
        Option.some.injEq, Prod.mk.injEq] at hExec
      exact ⟨hExec.1.symm, hExec.2.symm⟩
  | false =>
      right
      simp only [AuthOp.exec, hFails, Bool.false_eq_true,
        if_false, Option.some.injEq, Prod.mk.injEq] at hExec
      rw [← hExec.1, ← hExec.2]
      exact ⟨rfl, rfl, rfl⟩

/- Only a removal bars. -/
theorem op_of_bars
    (hBars :
      bars username
        (.performed i op answer w.state after) = true) :
    op = .users (.setActive username false) ∨
      op = .users (.delete username) := by
  cases op with
  | users statement =>
      cases statement with
      | setActive name active =>
          cases active with
          | true => simp [bars] at hBars
          | false =>
              left
              cases answer with
              | error _ => simp [bars] at hBars
              | ok updated =>
                  cases updated with
                  | false => simp [bars] at hBars
                  | true =>
                      have hName : name = username := by
                        simpa [bars] using hBars
                      rw [hName]
      | delete name =>
          right
          cases answer with
          | error _ => simp [bars] at hBars
          | ok updated =>
              cases updated with
              | false => simp [bars] at hBars
              | true =>
                  have hName : name = username := by
                    simpa [bars] using hBars
                  rw [hName]
      | _ => simp [bars] at hBars
  | _ => simp [bars] at hBars

/- Whoever is barred by a step is quiet before it. -/
theorem quiet_of_bars
    (hOk : (removalsFindNobody config).perform i op w)
    (hBars :
      bars username
        (.performed i op answer w.state after) = true) :
    Quiet config username w := by
  rcases op_of_bars hBars with hOp | hOp
  · exact hOk.1 username hOp
  · exact (hOk.2 username hOp).1

/- A step that issues a token has to be grounded. -/
theorem not_barred_of_issues
    (hGrounded : Grounded op w)
    (hIssues :
      issues username
        (.performed i op answer w.state after) = true) :
    ¬ Barred username w.trace := by
  cases op with
  | issueAccessToken name =>
      cases answer with
      | error _ => simp [issues] at hIssues
      | ok token =>
          have hName : name = username := by
            simpa [issues] using hIssues
          rw [← hName]
          exact hGrounded
  | sessions statement =>
      cases statement with
      | create refreshToken name createdAt expiresAt =>
          cases answer with
          | error _ => simp [issues] at hIssues
          | ok _ =>
              have hName : name = username := by
                simpa [issues] using hIssues
              rw [← hName]
              exact hGrounded
      | _ => simp [issues] at hIssues
  | _ => simp [issues] at hIssues

/-
  A session after a grounded step was there before, with the
  same expiry unless its user is not barred, or it is new
  and its user is not barred.
-/
theorem session_origin
    (hGrounded : Grounded op w)
    (hExec :
      op.exec config choice w.state = some (answer, after))
    {session : StoredSession}
    (hSession : session ∈ after.sessions.rows) :
    ¬ Barred session.username w.trace ∨
      ∃ before ∈ w.state.sessions.rows,
        before.refreshToken = session.refreshToken ∧
          before.username = session.username ∧
          before.expiresAt = session.expiresAt := by
  have hSame :
      after.sessions = w.state.sessions →
        ¬ Barred session.username w.trace ∨
          ∃ before ∈ w.state.sessions.rows,
            before.refreshToken = session.refreshToken ∧
              before.username = session.username ∧
              before.expiresAt = session.expiresAt := by
    intro hEq
    rw [hEq] at hSession
    exact Or.inr ⟨session, hSession, rfl, rfl, rfl⟩
  rcases (AuthOp.exec_frame hExec).2.2 with
    hEq | ⟨statement, hOp, hRun⟩
  · exact hSame hEq
  · subst hOp
    cases statement with
    | create refreshToken name createdAt expiresAt =>
        rw [SessionStatement.run] at hRun
        rcases insertSession_cases w.state.sessions
            { refreshToken := refreshToken
              username := name
              createdAt := createdAt
              expiresAt := expiresAt } with
          hFailed | ⟨_, hRows⟩
        · rw [hFailed] at hRun
          exact hSame hRun
        · rw [hRun, hRows] at hSession
          rcases List.mem_cons.mp hSession with hNew | hOld
          · left
            rw [hNew]
            exact hGrounded
          · exact Or.inr ⟨session, hOld, rfl, rfl, rfl⟩
    | get refreshToken => exact hSame hRun
    | touch refreshToken newExpiresAt =>
        rw [hRun] at hSession
        rcases List.mem_map.mp hSession with
          ⟨before, hBefore, hEq⟩
        by_cases hToken : before.refreshToken = refreshToken
        · left
          have hUser : session.username = before.username := by
            rw [← hEq]
            simp [hToken]
          rw [hUser]
          apply hGrounded before
          rw [← hToken]
          exact KeyedTable.find?_of_mem hBefore
        · right
          refine ⟨before, hBefore, ?_⟩
          have hSessionEq : before = session := by
            simpa [hToken] using hEq
          rw [hSessionEq]
          exact ⟨rfl, rfl, rfl⟩
    | revoke refreshToken =>
        rw [hRun] at hSession
        have hOld := (KeyedTable.mem_deleteWhere.mp hSession).1
        exact Or.inr ⟨session, hOld, rfl, rfl, rfl⟩
    | countActiveSessionsForUser name now => exact hSame hRun

/- A step that bars somebody leaves the sessions alone. -/
theorem sessions_eq_of_bars
    (hExec :
      op.exec config choice w.state = some (answer, after))
    (hBars :
      bars username
        (.performed i op answer w.state after) = true) :
    after.sessions = w.state.sessions := by
  rcases (AuthOp.exec_frame hExec).2.2 with
    hEq | ⟨statement, hOp, _⟩
  · exact hEq
  · rcases op_of_bars hBars with hBar | hBar
    · rw [hBar] at hOp
      cases hOp
    · rw [hBar] at hOp
      cases hOp

/- Who is barred after a step was so before, or the step
   bars. -/
theorem barred_cases
    (hBarred :
      Barred username (w.perform i op answer after).trace) :
    bars username
        (.performed i op answer w.state after) = true ∨
      (bars username
          (.performed i op answer w.state after) = false ∧
        readmits username
          (.performed i op answer w.state after) = false ∧
        Barred username w.trace) := by
  cases hBars :
      bars username
        (.performed i op answer w.state after) with
  | true => exact Or.inl rfl
  | false =>
      right
      rcases hBarred with hNow | hBefore
      · rw [hBars] at hNow
        cases hNow
      · exact ⟨rfl, hBefore.1, hBefore.2⟩

/- A step leaves the users alone or is a statement on them
   with its own answer. -/
theorem users_cases
    (hExec :
      op.exec config choice w.state = some (answer, after)) :
    after.db = w.state.db ∨
      ∃ statement,
        (.performed i op answer w.state after : AuthEvent) =
            .performed i (.users statement)
              (statement.run w.state.db).1 w.state after ∧
          after.db = (statement.run w.state.db).2 := by
  rcases (AuthOp.exec_frame hExec).2.1 with
    hSame | ⟨statement, hOp, _⟩
  · exact Or.inl hSame
  · subst hOp
    rcases exec_users hExec with
      ⟨_, hSame⟩ | ⟨hResult, hRun, _⟩
    · left
      rw [hSame]
    · refine Or.inr ⟨statement, ?_, hRun⟩
      rw [hResult]

/- Who is barred by a step is inactive or gone after it. -/
theorem barred_users
    (hExec :
      op.exec config choice w.state = some (answer, after))
    (hBars :
      bars username
        (.performed i op answer w.state after) = true) :
    (∃ user,
      after.db.users.find? username = some user ∧
        user.active = false) ∨
      (after.db.users.find? username = none ∧
        op = .users (.delete username)) := by
  rcases op_of_bars hBars with hOp | hOp
  · subst hOp
    rcases exec_users hExec with
      ⟨hFailed, _⟩ | ⟨hResult, hRun, _⟩
    · rw [hFailed] at hBars
      simp [bars] at hBars
    · rw [hResult] at hBars
      rcases inactive_or_absent_of_bars hBars with
        ⟨_, hInactive⟩ | ⟨hDelete, _⟩
      · rw [hRun]
        exact Or.inl hInactive
      · cases hDelete
  · subst hOp
    rcases exec_users hExec with
      ⟨hFailed, _⟩ | ⟨hResult, hRun, _⟩
    · rw [hFailed] at hBars
      simp [bars] at hBars
    · rw [hResult] at hBars
      rcases inactive_or_absent_of_bars hBars with
        ⟨hSet, _⟩ | ⟨_, hNone⟩
      · cases hSet
      · rw [hRun]
        exact Or.inr ⟨hNone, rfl⟩

/- A grounded step keeps the invariant. -/
theorem tokenInv_perform
    (hInv : TokenInv config w)
    (hOk : (removalsFindNobody config).perform i op w)
    (hGrounded : Grounded op w)
    (hExec :
      op.exec config choice w.state = some (answer, after)) :
    TokenInv config (w.perform i op answer after) where
  clean :=
    ⟨fun _ hIssues => not_barred_of_issues hGrounded hIssues,
      hInv.clean⟩
  returns := by
    refine ⟨?_, hInv.returns⟩
    intro j value name hEvent
    cases hEvent
  inactive := by
    intro name hBarred user hUser
    rw [World.perform_state] at hUser
    rcases barred_cases hBarred with
      hBars | ⟨_, hReadmits, hBefore⟩
    · rcases barred_users hExec hBars with
        ⟨row, hRow, hInactive⟩ | ⟨hNone, _⟩
      · rw [hRow] at hUser
        cases hUser
        exact hInactive
      · rw [hNone] at hUser
        cases hUser
    · rcases users_cases (i := i) hExec with
        hSame | ⟨statement, hEvent, hRun⟩
      · rw [hSame] at hUser
        exact hInv.inactive name hBefore user hUser
      · rw [hRun] at hUser
        rw [hEvent] at hReadmits
        exact inactive_run hReadmits
          (hInv.inactive name hBefore) user hUser
  gone := by
    intro name hBarred hNone
    rw [World.perform_state] at hNone
    rcases barred_cases hBarred with
      hBars | ⟨hBars, _, hBefore⟩
    · rcases barred_users hExec hBars with
        ⟨row, hRow, _⟩ | ⟨_, hOp⟩
      · rw [hRow] at hNone
        cases hNone
      · exact (hOk.2 name hOp).2
    · apply hInv.gone name hBefore
      rcases users_cases (i := i) hExec with
        hSame | ⟨statement, hEvent, hRun⟩
      · rw [hSame] at hNone
        exact hNone
      · rw [hRun] at hNone
        rw [hEvent] at hBars
        exact absent_run hBars hNone
  expired := by
    intro session hSession hBarred
    have hClock := (AuthOp.exec_frame hExec).1
    refine lt_of_lt_of_le ?_ hClock
    rcases barred_cases hBarred with hBars | ⟨_, _, hBefore⟩
    · have hEq := sessions_eq_of_bars hExec hBars
      rw [World.perform_state, hEq] at hSession
      exact (quiet_of_bars hOk hBars).expired session hSession
        rfl
    · rcases session_origin hGrounded hExec hSession with
        hNot | ⟨before, hMember, _, hUser, hExpires⟩
      · exact absurd hBefore hNot
      · rw [← hExpires]
        apply hInv.expired before hMember
        rw [hUser]
        exact hBefore

variable {j : Nat}

/- A grounded step stays within the rely of the others. -/
theorem tokenRely_perform
    (hOk : (removalsFindNobody config).perform i op w)
    (hGrounded : Grounded op w)
    (hExec :
      op.exec config choice w.state = some (answer, after))
    (hOther : j ≠ i) :
    TokenRely config j w (w.perform i op answer after) where
  own := World.own_perform_of_ne w op answer after hOther
  clock := (AuthOp.exec_frame hExec).1
  users := by
    intro name hHolds hFree hBarred
    rcases barred_cases hBarred with hBars | ⟨_, _, hBefore⟩
    · apply (quiet_of_bars hOk hBars).nobody j
      rcases hHolds with hFound | hRead
      · exact Or.inl hFound
      · exact Or.inr (Or.inl hRead)
    · exact hFree hBefore
  token := by
    intro refreshToken hPresents hLive session hFind hBarred
    rcases barred_cases hBarred with hBars | ⟨_, _, hBefore⟩
    · have hEq := sessions_eq_of_bars hExec hBars
      rw [World.perform_state, hEq] at hFind
      apply (quiet_of_bars hOk hBars).nobody j
      exact Or.inr (Or.inr
        ⟨refreshToken, session, hPresents, hFind, rfl⟩)
    · have hMember := KeyedTable.mem_of_find? hFind
      rcases session_origin hGrounded hExec hMember with
        hNot | ⟨before, hOld, hToken, hUser, _⟩
      · exact hNot hBefore
      · have hKey := KeyedTable.key_of_find? hFind
        have hOldFind := KeyedTable.find?_of_mem hOld
        rw [hToken, hKey] at hOldFind
        apply hLive before hOldFind
        rw [hUser]
        exact hBefore

/- A grounded step keeps the contract. -/
theorem keeps_perform
    (hInv : TokenInv config w)
    (hOk : (removalsFindNobody config).perform i op w)
    (hGrounded : Grounded op w)
    (hExec :
      (authSystem config).exec op choice w.state =
        some (answer, after)) :
    (tokenContract config).Keeps i w
      (w.perform i op answer after) :=
  ⟨tokenInv_perform hInv hOk hGrounded hExec,
    fun _ hOther =>
      tokenRely_perform hOk hGrounded hExec hOther⟩

/- An event that is no operation changes nobody's state. -/
theorem barred_cons_of_neutral
    {event : AuthEvent}
    {trace : List AuthEvent}
    (hBars : ∀ name, bars name event = false)
    (hReadmits : ∀ name, readmits name event = false) :
    Barred username (event :: trace) ↔
      Barred username trace := by
  simp [Barred, hBars, hReadmits]

/- An event that bars and readmits nobody keeps the
   contract, if the trace stays clean. -/
theorem keeps_event
    {v : AuthWorld}
    {event : AuthEvent}
    (hInv : TokenInv config w)
    (hState : v.state = w.state)
    (hTrace : v.trace = event :: w.trace)
    (hTask : event.task = i)
    (hBars : ∀ name, bars name event = false)
    (hReadmits : ∀ name, readmits name event = false)
    (hClean : Clean v.trace)
    (hReturns : ReturnsBarred v.trace) :
    (tokenContract config).Keeps i w v := by
  have hBarred :
      ∀ name, Barred name v.trace ↔ Barred name w.trace := by
    intro name
    rw [hTrace]
    exact barred_cons_of_neutral hBars hReadmits
  constructor
  · refine
      { clean := hClean
        returns := hReturns
        inactive := ?_
        gone := ?_
        expired := ?_ }
    · intro name hBarredNow
      rw [hState]
      exact hInv.inactive name ((hBarred name).mp hBarredNow)
    · intro name hBarredNow
      rw [hState]
      exact hInv.gone name ((hBarred name).mp hBarredNow)
    · intro session hSession hBarredNow
      rw [hState] at hSession ⊢
      exact hInv.expired session hSession
        ((hBarred _).mp hBarredNow)
  · intro k hOther
    have hGrows : World.Grows k w v :=
      World.Grows.cons event
        (by rw [hTask]; exact fun h => hOther h.symm) hTrace
    refine
      { own := hGrows.own_eq
        clock := by rw [hState]
        users := ?_
        token := ?_ }
    · intro name _ hFree hBarredNow
      exact hFree ((hBarred name).mp hBarredNow)
    · intro refreshToken _ hLive session hFind hBarredNow
      rw [hState] at hFind
      exact hLive session hFind ((hBarred _).mp hBarredNow)

/- The start of a call keeps the contract. -/
theorem keeps_start
    (call : AuthCall)
    (hInv : TokenInv config w) :
    (tokenContract config).Keeps i w (w.start i call) := by
  refine
    keeps_event hInv rfl rfl rfl (fun _ => rfl) (fun _ => rfl)
      ⟨?_, hInv.clean⟩ ⟨?_, hInv.returns⟩
  · intro name hIssues
    cases hIssues
  · intro k value name hEvent
    cases hEvent

/-
  The end of a call keeps the contract, when the user it
  logs in is not barred and the user it removes is.
-/
theorem keeps_finish
    {outcome : Except AuthError AuthReturn}
    (hInv : TokenInv config w)
    (hIssues :
      ∀ result, outcome = .ok (.loggedIn result) →
        ¬ Barred result.username w.trace)
    (hReturns :
      ∀ value name, outcome = .ok value →
        (.started i (.deactivateUser name) ∈ w.trace ∨
          .started i (.deleteUser name) ∈ w.trace) →
        Barred name w.trace) :
    (tokenContract config).Ends i outcome w := by
  refine
    keeps_event hInv rfl rfl rfl (fun _ => rfl) (fun _ => rfl)
      ⟨?_, hInv.clean⟩ ⟨?_, hInv.returns⟩
  · intro name hIssued
    cases outcome with
    | error error => simp [issues] at hIssued
    | ok value =>
        cases value with
        | loggedIn result =>
            have hName : result.username = name := by
              simpa [issues] using hIssued
            rw [← hName]
            exact hIssues result rfl
        | _ => simp [issues] at hIssued
  · intro k value name hEvent hStarted
    cases hEvent
    exact hReturns value name rfl hStarted

------------------------------------------------------------
-- Calls That Issue No Token
------------------------------------------------------------

variable {config : AuthConfig}
variable {w v : AuthWorld} {i : Nat} {call : AuthCall}
variable {own : List AuthEvent}

/- An operation that needs no ground. -/
def Plain (op : AuthOp) : Prop :=
  ∀ w, Grounded op w

theorem InCall.perform
    (hCall : InCall call i (w.own i))
    (op : AuthOp)
    (answer : op.Answer)
    (after : AuthState) :
    InCall call i ((w.perform i op answer after).own i) := by
  rw [World.own_perform]
  refine ⟨List.mem_cons_of_mem _ hCall.started, ?_, ?_⟩
  · intro other hOther
    rcases List.mem_cons.mp hOther with hEvent | hOld
    · cases hEvent
    · exact hCall.only other hOld
  · intro outcome hOutcome
    rcases List.mem_cons.mp hOutcome with hEvent | hOld
    · cases hEvent
    · exact hCall.unfinished outcome hOld

/- A task that has just started serves its call. -/
theorem inCall_start
    (hFresh : w.Fresh i) :
    InCall call i ((w.start i call).own i) := by
  rw [World.own_start, World.own_eq_nil_of_fresh hFresh]
  refine ⟨List.mem_singleton_self _, ?_, ?_⟩
  · intro other hOther
    have hEvent := List.mem_singleton.mp hOther
    cases hEvent
    rfl
  · intro outcome hOutcome
    cases List.mem_singleton.mp hOutcome

/- The task serves its call, in a world with the
   invariant. -/
def Serving
    (config : AuthConfig)
    (call : AuthCall)
    (i : Nat)
    (w : AuthWorld) : Prop :=
  TokenInv config w ∧ InCall call i (w.own i)

theorem stable_serving :
    (tokenContract config).Stable i
      (Serving config call i) := by
  intro w v hServing hInterferes hInv
  refine ⟨hInv, ?_⟩
  rw [hInterferes.1.own_eq]
  exact hServing.2

/- What started in the trace is the call itself. -/
theorem InCall.started_iff
    (hCall : InCall call i (w.own i))
    {other : AuthCall}
    (hStarted : .started i other ∈ w.trace) :
    other = call := by
  apply hCall.only
  simpa [World.own] using hStarted

/- A program of plain operations only serves its call. -/
theorem safe_plain
    {α : Type}
    {program : AuthProgram α}
    (hOnly : program.Only Plain)
    (hServing : Serving config call i w) :
    (tokenContract config).Safe (authSystem config)
      (removalsFindNobody config) i program
      (fun _ => Serving config call i)
      (fun _ => Serving config call i) w := by
  refine Contract.safe_only hOnly stable_serving ?_ hServing
  intro v op hServing hInv hPlain hOk choice answer after
    hExec
  have hKeeps :=
    keeps_perform hInv hOk (hPlain v) hExec
  exact ⟨hKeeps,
    ⟨hKeeps.1, hServing.2.perform op answer after⟩⟩

/- An error ends a call safely. -/
theorem ends_error
    (error : AuthError)
    (hInv : TokenInv config w) :
    (tokenContract config).Ends i (.error error) w := by
  apply keeps_finish hInv
  · intro result hOutcome
    cases hOutcome
  · intro value name hOutcome
    cases hOutcome

/- A call that removes nobody and logs nobody in. -/
theorem safeTask_plain
    {α : Type}
    {program : AuthProgram α}
    {value : α → AuthReturn}
    (hOnly : program.Only Plain)
    (hValue : ∀ a result, value a ≠ .loggedIn result)
    (hCall :
      ∀ name, call ≠ .deactivateUser name ∧
        call ≠ .deleteUser name)
    (hServing : Serving config call i w) :
    (tokenContract config).SafeTask (authSystem config)
      (removalsFindNobody config) i
      (program.bind fun a => .returned (value a)) w := by
  apply Contract.safe_bind
  refine Contract.safe_mono ?_ ?_ (safe_plain hOnly hServing)
  · intro a v hServed
    apply keeps_finish hServed.1
    · intro result hOutcome
      cases hEq : value a with
      | loggedIn other => exact absurd hEq (hValue a other)
      | _ => simp [hEq] at hOutcome
    · intro _ name _ hStarted
      rcases hStarted with hStarted | hStarted
      · have hEq := hServed.2.started_iff hStarted
        exact absurd hEq.symm (hCall name).1
      · have hEq := hServed.2.started_iff hStarted
        exact absurd hEq.symm (hCall name).2
  · intro error v hServed
    exact ends_error error hServed.1

section PlainPrograms

theorem only_users (statement : UserStatement) :
    (users statement).Only Plain := by
  apply Async.only_bind
  · exact Async.only_call.mpr (fun _ => trivial)
  · intro result
    cases result <;> trivial

theorem only_now : now.Only Plain :=
  Async.only_call.mpr fun _ => trivial

/- Counting and deleting sessions, and reading one. -/
theorem only_sessions
    {statement : SessionStatement}
    (hPlain : Plain (.sessions statement)) :
    (sessions statement).Only Plain := by
  apply Async.only_bind
  · exact Async.only_call.mpr hPlain
  · intro result
    cases result <;> trivial

theorem only_requireUser
    (username : String)
    (updated : Bool) :
    (requireUser username updated).Only Plain :=
  Async.only_ensure

theorem only_buildUserRecord
    (username password createdBy : String)
    (isGlobalAdmin canCreateRepos : Bool) :
    (buildUserRecord username password createdBy
      isGlobalAdmin canCreateRepos).Only Plain := by
  apply Async.only_bind
  · exact Async.only_call.mpr (fun _ => trivial)
  · intro _
    exact Async.only_bind only_now fun _ => trivial

theorem only_createUser (input : CreateUserInput) :
    (createUser input).Only Plain := by
  apply Async.only_bind (only_users _)
  intro existing
  apply Async.only_bind Async.only_ensure
  intro _
  apply Async.only_bind (only_buildUserRecord _ _ _ _ _)
  intro record
  exact Async.only_bind (only_users _) fun _ => trivial

theorem only_summarise (records : List UserRecord) :
    (listUsers.summarise records).Only Plain := by
  induction records with
  | nil => trivial
  | cons user rest ih =>
      apply Async.only_bind only_now
      intro current
      have hCount :
          Plain
            (.sessions
              (.countActiveSessionsForUser user.username
                current)) := fun _ => trivial
      apply Async.only_bind (only_sessions hCount)
      intro count
      exact Async.only_bind ih fun _ => trivial

theorem only_listUsers : listUsers.Only Plain :=
  Async.only_bind (only_users _) only_summarise

theorem only_reactivateUser (username : String) :
    (reactivateUser username).Only Plain :=
  Async.only_bind (only_users _) (only_requireUser username)

theorem only_setGlobalAdmin
    (username : String)
    (isGlobalAdmin : Bool) :
    (setGlobalAdmin username isGlobalAdmin).Only Plain :=
  Async.only_bind (only_users _) (only_requireUser username)

theorem only_setCanCreateRepos
    (username : String)
    (canCreateRepos : Bool) :
    (setCanCreateRepos username canCreateRepos).Only Plain :=
  Async.only_bind (only_users _) (only_requireUser username)

theorem only_getSetupStatus (config : AuthConfig) :
    (getSetupStatus config).Only Plain := by
  unfold getSetupStatus
  split
  · trivial
  · apply Async.only_bind (only_users _)
    intro count
    split <;> trivial

theorem only_setupFirstAdmin
    (config : AuthConfig)
    (username password : String) :
    (setupFirstAdmin config username password).Only
      Plain := by
  apply Async.only_bind (only_getSetupStatus config)
  intro status
  apply Async.only_bind Async.only_ensure
  intro _
  apply Async.only_bind (only_buildUserRecord _ _ _ _ _)
  intro record
  apply Async.only_bind (only_users _)
  intro created
  split <;> trivial

theorem only_ensureBootstrapAdmin
    (credentials : Option (String × String)) :
    (ensureBootstrapAdmin credentials).Only Plain := by
  unfold ensureBootstrapAdmin
  split
  · trivial
  · apply Async.only_bind (only_users _)
    intro count
    split
    · apply Async.only_bind (only_users _)
      intro existing
      split
      · split
        · trivial
        · exact Async.only_bind (only_users _)
            fun _ => trivial
      · trivial
    · apply Async.only_bind (only_buildUserRecord _ _ _ _ _)
      intro record
      apply Async.only_bind (only_users _)
      intro created
      split <;> trivial

end PlainPrograms

end Auth

namespace Auth

open Concurrency Relational

variable {config : AuthConfig}
variable {w v : AuthWorld} {i : Nat}
variable {username : String} {op : AuthOp}
variable {answer : op.Answer} {after : AuthState}
variable {call : AuthCall}

/- A removal that returns has just barred its user. -/
theorem ends_removal
    (hCall :
      call = .deactivateUser username ∨
        call = .deleteUser username)
    (hServing :
      Serving config call i (w.perform i op answer after))
    (hBars :
      bars username
        (.performed i op answer w.state after) = true) :
    (tokenContract config).Ends i (.ok .done)
      (w.perform i op answer after) := by
  apply keeps_finish hServing.1
  · intro result hOutcome
    cases hOutcome
  · intro value name _ hStarted
    have hName : name = username := by
      rcases hStarted with hStarted | hStarted
      · have hEq := hServing.2.started_iff hStarted
        rcases hCall with hCall | hCall
        · rw [hCall] at hEq
          cases hEq
          rfl
        · rw [hCall] at hEq
          cases hEq
      · have hEq := hServing.2.started_iff hStarted
        rcases hCall with hCall | hCall
        · rw [hCall] at hEq
          cases hEq
        · rw [hCall] at hEq
          cases hEq
          rfl
    rw [hName]
    exact Or.inl hBars

theorem deactivateUser_safe
    (hServing :
      Serving config (.deactivateUser username) i w) :
    (tokenContract config).SafeTask (authSystem config)
      (removalsFindNobody config) i
      (serveCall config (.deactivateUser username)) w := by
  refine Contract.safe_await stable_serving hServing ?_
  intro v hServing hInv hOk choice answer after hExec
  have hKeeps := keeps_perform hInv hOk trivial hExec
  refine ⟨hKeeps, ?_⟩
  have hServed :
      Serving config (.deactivateUser username) i
        (v.perform i (.users (.setActive username false))
          answer after) :=
    ⟨hKeeps.1, hServing.2.perform _ _ _⟩
  cases answer with
  | error error => exact ends_error _ hKeeps.1
  | ok updated =>
      cases updated with
      | false => exact ends_error _ hKeeps.1
      | true =>
          exact ends_removal (Or.inl rfl) hServed
            (by simp [bars])

theorem deleteUser_safe
    (hServing :
      Serving config (.deleteUser username) i w) :
    (tokenContract config).SafeTask (authSystem config)
      (removalsFindNobody config) i
      (serveCall config (.deleteUser username)) w := by
  have hCount :
      ∀ current,
        Plain
          (.sessions
            (.countActiveSessionsForUser username
              current)) := fun _ _ => trivial
  refine Contract.safe_bind (Contract.safe_bind
    (Contract.safe_mono ?_ ?_
      (safe_plain only_now hServing)))
  · intro current v hServing
    refine Contract.safe_bind (Contract.safe_mono ?_ ?_
      (safe_plain (only_sessions (hCount current)) hServing))
    · intro activeSessions v hServing
      apply Contract.safe_bind
      unfold Async.ensure
      split
      · refine Contract.safe_await stable_serving hServing ?_
        intro v hServing hInv hOk choice answer after hExec
        have hKeeps := keeps_perform hInv hOk trivial hExec
        refine ⟨hKeeps, ?_⟩
        have hServed :
            Serving config (.deleteUser username) i
              (v.perform i (.users (.delete username))
                answer after) :=
          ⟨hKeeps.1, hServing.2.perform _ _ _⟩
        cases answer with
        | error error => exact ends_error _ hKeeps.1
        | ok deleted =>
            cases deleted with
            | false => exact ends_error _ hKeeps.1
            | true =>
                exact ends_removal (Or.inr rfl) hServed
                  (by simp [bars])
      · exact ends_error _ hServing.1
    · intro error v hServing
      exact ends_error error hServing.1
  · intro error v hServing
    exact ends_error error hServing.1

------------------------------------------------------------
-- Logins
------------------------------------------------------------

variable {password : String}

/- The login has found an account that is not barred. -/
structure Admitted
    (config : AuthConfig)
    (username password : String)
    (i : Nat)
    (w : AuthWorld) : Prop where
  serving : Serving config (.login username password) i w
  found : FoundAccount config username i (w.own i)
  free : ¬ Barred username w.trace

theorem stable_admitted :
    (tokenContract config).Stable i
      (Admitted config username password i) := by
  intro w v hAdmitted hInterferes hInv
  refine ⟨?_, ?_, ?_⟩
  · exact stable_serving w v hAdmitted.serving hInterferes
      hInv
  · rw [hInterferes.1.own_eq]
    exact hAdmitted.found
  · exact hInterferes.2.users username
      (Or.inl hAdmitted.found) hAdmitted.free

theorem FoundAccount.perform
    (hFound : FoundAccount config username i (w.own i))
    (op : AuthOp)
    (answer : op.Answer)
    (after : AuthState) :
    FoundAccount config username i
      ((w.perform i op answer after).own i) := by
  rcases hFound with
    ⟨password, found, before, later, hCall, hEvent, hFound⟩
  refine ⟨password, found, before, later,
    hCall.perform op answer after, ?_, hFound⟩
  rw [World.own_perform]
  exact List.mem_cons_of_mem _ hEvent

/- A grounded step of the login that bars nobody. -/
theorem admitted_perform
    {op : AuthOp} {choice : AuthChoice}
    {answer : op.Answer} {after : AuthState}
    (hAdmitted : Admitted config username password i w)
    (hOk : (removalsFindNobody config).perform i op w)
    (hGrounded : Grounded op w)
    (hExec :
      (authSystem config).exec op choice w.state =
        some (answer, after))
    (hBars :
      bars username
        (.performed i op answer w.state after) = false) :
    (tokenContract config).Keeps i w
        (w.perform i op answer after) ∧
      Admitted config username password i
        (w.perform i op answer after) := by
  have hKeeps :=
    keeps_perform hAdmitted.serving.1 hOk hGrounded hExec
  refine ⟨hKeeps, ?_, ?_, ?_⟩
  · exact ⟨hKeeps.1,
      hAdmitted.serving.2.perform op answer after⟩
  · exact hAdmitted.found.perform op answer after
  · intro hBarred
    rcases barred_cases hBarred with hNow | ⟨_, _, hBefore⟩
    · rw [hBars] at hNow
      cases hNow
    · exact hAdmitted.free hBefore

/- What the look-up of a login knows about its record. -/
def LookedUp
    (config : AuthConfig)
    (username password : String)
    (i : Nat)
    (user : UserRecord)
    (w : AuthWorld) : Prop :=
  user.username = username ∧
    Serving config (.login username password) i w ∧
    (user.active = true →
      user.passwordHash = "" ∨
        Admitted config username password i w)

theorem findUserForLogin_safe
    (hServing :
      Serving config (.login username password) i w) :
    (tokenContract config).Safe (authSystem config)
      (removalsFindNobody config) i
      (findUserForLogin config username)
      (LookedUp config username password i)
      (fun _ =>
        Serving config (.login username password) i) w := by
  refine Contract.safe_await stable_serving hServing ?_
  intro v hServing hInv hOk choice answer after hExec
  have hKeeps := keeps_perform hInv hOk trivial hExec
  refine ⟨hKeeps, ?_⟩
  have hServed :
      Serving config (.login username password) i
        (v.perform i (.users (.getByUsername username))
          answer after) :=
    ⟨hKeeps.1, hServing.2.perform _ _ _⟩
  have hStatement :
      AuthOp.exec config
          (.users (.getByUsername username)) choice v.state =
        some (answer, after) := hExec
  rcases exec_users hStatement with
    ⟨hFailed, _⟩ | ⟨hResult, _, _⟩
  · subst hFailed
    exact hServed
  · have hFree :
        ¬ Barred username v.trace →
          ¬ Barred username
            (v.perform i (.users (.getByUsername username))
              answer after).trace := by
      intro hFree hBarred
      rcases barred_cases hBarred with hNow | ⟨_, _, hBefore⟩
      · simp [bars] at hNow
      · exact hFree hBefore
    subst hResult
    cases hFind : v.state.db.users.find? username with
    | some user =>
        simp only [UserStatement.run, hFind] at hServed hFree ⊢
        refine ⟨KeyedTable.key_of_find? hFind, hServed, ?_⟩
        intro hActive
        right
        refine ⟨hServed, ?_, ?_⟩
        · refine ⟨password, some user, v.state, after,
            hServed.2, ?_, hActive⟩
          rw [World.own_perform]
          exact List.mem_cons_self
        · apply hFree
          intro hBarred
          have hInactive :=
            hInv.inactive username hBarred user hFind
          rw [hActive] at hInactive
          cases hInactive
    | none =>
        simp only [UserStatement.run, hFind] at hServed hFree ⊢
        cases hLegacy :
            config.legacySeedUsers.find? (fun candidate =>
              candidate.username = username) with
        | none =>
            exact ⟨rfl, hServed, fun _ => Or.inl rfl⟩
        | some legacy =>
            have hName : legacy.username = username := by
              simpa using List.find?_some hLegacy
            have hMember :=
              List.mem_of_find?_eq_some hLegacy
            refine ⟨hName, hServed, fun _ => Or.inr ?_⟩
            refine ⟨hServed, ?_, ?_⟩
            · refine ⟨password, none, v.state, after,
                hServed.2, ?_, legacy, hMember, hName⟩
              rw [World.own_perform]
              exact List.mem_cons_self
            · apply hFree
              intro hBarred
              exact hInv.gone username hBarred hFind legacy
                hMember hName

end Auth

namespace Auth

open Concurrency Relational

variable {config : AuthConfig}
variable {w v : AuthWorld} {i : Nat}
variable {username password : String}

/- The operations of a login that has found its account. -/
def OfLogin (username : String) (op : AuthOp) : Prop :=
  Plain op ∧
      (∀ name,
        op ≠ .users (.setActive name false) ∧
          op ≠ .users (.delete name)) ∨
    op = .issueAccessToken username ∨
    ∃ refreshToken createdAt expiresAt,
      op = .sessions
        (.create refreshToken username createdAt expiresAt)

/- These keep the user admitted. -/
theorem safe_ofLogin
    {α : Type}
    {program : AuthProgram α}
    (hOnly : program.Only (OfLogin username))
    (hAdmitted : Admitted config username password i w) :
    (tokenContract config).Safe (authSystem config)
      (removalsFindNobody config) i program
      (fun _ => Admitted config username password i)
      (fun _ => Admitted config username password i) w := by
  refine Contract.safe_only hOnly stable_admitted ?_ hAdmitted
  intro v op hAdmitted hInv hOp hOk choice answer after hExec
  have hBars :
      (∀ name,
        op ≠ .users (.setActive name false) ∧
          op ≠ .users (.delete name)) →
        bars username
          (.performed i op answer v.state after) = false := by
    intro hNot
    cases hBars :
        bars username
          (.performed i op answer v.state after) with
    | false => rfl
    | true =>
        rcases op_of_bars hBars with hEq | hEq
        · exact absurd hEq (hNot username).1
        · exact absurd hEq (hNot username).2
  rcases hOp with ⟨hPlain, hNot⟩ | rfl |
    ⟨refreshToken, createdAt, expiresAt, rfl⟩
  · exact admitted_perform hAdmitted hOk (hPlain v) hExec
      (hBars hNot)
  · exact admitted_perform hAdmitted hOk hAdmitted.free hExec
      rfl
  · exact admitted_perform hAdmitted hOk hAdmitted.free hExec
      rfl

/- One part of the login after the other. -/
theorem safe_ofLogin_bind
    {α β : Type}
    {program : AuthProgram α}
    {next : α → AuthProgram β}
    {post : β → AuthWorld → Prop}
    (hOnly : program.Only (OfLogin username))
    (hAdmitted : Admitted config username password i w)
    (hNext :
      ∀ value v, Admitted config username password i v →
        (tokenContract config).Safe (authSystem config)
          (removalsFindNobody config) i (next value) post
          (fun error =>
            (tokenContract config).Ends i (.error error))
          v) :
    (tokenContract config).Safe (authSystem config)
      (removalsFindNobody config) i (program.bind next) post
      (fun error =>
        (tokenContract config).Ends i (.error error)) w := by
  apply Contract.safe_bind
  refine Contract.safe_mono hNext ?_
    (safe_ofLogin hOnly hAdmitted)
  intro error v hAdmitted
  exact ends_error error hAdmitted.serving.1

theorem only_call_ofLogin
    {op : AuthOp}
    (hPlain : Plain op)
    (hNot :
      ∀ name,
        op ≠ .users (.setActive name false) ∧
          op ≠ .users (.delete name)) :
    (perform op).Only (OfLogin username) :=
  Async.only_call.mpr (Or.inl ⟨hPlain, hNot⟩)

theorem only_now_ofLogin :
    now.Only (OfLogin username) :=
  only_call_ofLogin (fun _ => trivial) (by simp)

theorem only_createSession_ofLogin :
    (createSession config username).Only
      (OfLogin username) := by
  apply Async.only_bind
  · exact only_call_ofLogin (fun _ => trivial) (by simp)
  intro refreshToken
  apply Async.only_bind only_now_ofLogin
  intro expiresAt
  apply Async.only_bind only_now_ofLogin
  intro createdAt
  apply Async.only_bind
  · apply Async.only_bind
    · exact Async.only_call.mpr
        (Or.inr (Or.inr ⟨_, _, _, rfl⟩))
    · intro result
      cases result <;> trivial
  · exact fun _ => trivial

theorem only_updateLastLogin_ofLogin (lastLoginAt : Nat) :
    (users (.updateLastLogin username lastLoginAt)).Only
      (OfLogin username) := by
  apply Async.only_bind
  · exact only_call_ofLogin (fun _ => trivial) (by simp)
  · intro result
    cases result <;> trivial

theorem only_issueAccessToken_ofLogin :
    (issueAccessToken username).Only (OfLogin username) := by
  apply Async.only_bind
  · exact Async.only_call.mpr (Or.inr (Or.inl rfl))
  · intro result
    cases result <;> trivial

theorem stable_lookedUp
    (user : UserRecord) :
    (tokenContract config).Stable i
      (LookedUp config username password i user) := by
  intro w v hLooked hInterferes hInv
  refine ⟨hLooked.1, ?_, ?_⟩
  · exact stable_serving w v hLooked.2.1 hInterferes hInv
  · intro hActive
    rcases hLooked.2.2 hActive with hEmpty | hAdmitted
    · exact Or.inl hEmpty
    · exact Or.inr
        (stable_admitted w v hAdmitted hInterferes hInv)

/-
  Only the password of an account passes: the record that is
  made up for an unknown name has an empty hash.
-/
theorem verifyCredentials_safe
    {user : UserRecord}
    (hActive : user.active = true)
    (hLooked :
      LookedUp config username password i user w) :
    (tokenContract config).Safe (authSystem config)
      (removalsFindNobody config) i
      (verifyCredentials username password [user])
      (fun name v =>
        name = username ∧
          Admitted config username password i v)
      (fun error =>
        (tokenContract config).Ends i (.error error)) w := by
  have hUser :
      [user].find? (fun candidate =>
        candidate.username = username) = some user := by
    simp [hLooked.1]
  unfold verifyCredentials
  rw [hUser]
  refine Contract.safe_await (stable_lookedUp user) hLooked ?_
  intro v hLooked hInv hOk choice answer after hExec
  have hStep :
      AuthOp.exec config
          (.verifyPassword password user.passwordHash) choice
          v.state =
        some (answer, after) := hExec
  have hAnswer :
      answer = config.verifies password user.passwordHash := by
    have hPair := Option.some.inj hStep
    exact (congrArg Prod.fst hPair).symm
  have hKeeps := keeps_perform hInv hOk trivial hExec
  refine ⟨hKeeps, ?_⟩
  cases answer with
  | false => exact ends_error _ hKeeps.1
  | true =>
      rcases hLooked.2.2 hActive with hEmpty | hAdmitted
      · rw [hEmpty, config.verifies_empty] at hAnswer
        cases hAnswer
      · refine ⟨hLooked.1, ?_⟩
        exact (admitted_perform hAdmitted hOk trivial hExec
          rfl).2

theorem login_safe
    (hServing :
      Serving config (.login username password) i w) :
    (tokenContract config).SafeTask (authSystem config)
      (removalsFindNobody config) i
      (serveCall config (.login username password)) w := by
  refine Contract.safe_bind ?_
  refine Contract.safe_await stable_serving hServing ?_
  intro v hServing hInv hOk choice answer after hExec
  have hKeeps := keeps_perform hInv hOk trivial hExec
  have hServed :
      Serving config (.login username password) i
        (v.perform i (.admitAttempt username) answer after) :=
    ⟨hKeeps.1, hServing.2.perform _ _ _⟩
  refine ⟨hKeeps, ?_⟩
  cases answer with
  | error retryAfterMs => exact ends_error _ hKeeps.1
  | ok _ =>
      simp only [Async.bind_returned, Async.bind_eq]
      refine Contract.safe_bind (Contract.safe_mono ?_ ?_
        (findUserForLogin_safe hServed))
      · intro user u hLooked
        apply Contract.safe_bind
        unfold Async.ensure
        split
        case isFalse => exact ends_error _ hLooked.2.1.1
        case isTrue hActive =>
          refine Contract.safe_bind (Contract.safe_mono ?_
            (fun _ _ hEnds => hEnds)
            (verifyCredentials_safe hActive hLooked))
          rintro name u ⟨rfl, hAdmitted⟩
          refine safe_ofLogin_bind only_now_ofLogin
            hAdmitted ?_
          intro lastLoginAt u hAdmitted
          refine safe_ofLogin_bind
            (only_updateLastLogin_ofLogin lastLoginAt)
            hAdmitted ?_
          intro _ u hAdmitted
          refine safe_ofLogin_bind
            only_issueAccessToken_ofLogin hAdmitted ?_
          intro accessToken u hAdmitted
          refine safe_ofLogin_bind
            only_createSession_ofLogin hAdmitted ?_
          intro refreshToken u hAdmitted
          apply keeps_finish hAdmitted.serving.1
          · intro result hOutcome
            cases hOutcome
            exact hAdmitted.free
          · intro value other _ hStarted
            rcases hStarted with hStarted | hStarted
            · cases hAdmitted.serving.2.started_iff hStarted
            · cases hAdmitted.serving.2.started_iff hStarted
      · intro error u hServing
        exact ends_error error hServing.1

------------------------------------------------------------
-- Refreshes And Keep-Alives
------------------------------------------------------------

variable {config : AuthConfig}
variable {w v : AuthWorld} {i : Nat} {call : AuthCall}
variable {refreshToken username : String}

/- The calls that present a token. -/
def PresentsToken
    (refreshToken : String)
    (call : AuthCall) : Prop :=
  call = .refresh refreshToken ∨
    call = .keepAlive refreshToken

theorem PresentsToken.presents
    {own : List AuthEvent}
    (hToken : PresentsToken refreshToken call)
    (hCall : InCall call i own) :
    Presents refreshToken i own := by
  rcases hToken with rfl | rfl
  · exact Or.inl hCall
  · exact Or.inr hCall

/- The call has read a session, not yet its expiry. -/
structure Read
    (config : AuthConfig)
    (call : AuthCall)
    (refreshToken : String)
    (session : StoredSession)
    (i : Nat)
    (w : AuthWorld) : Prop where
  serving : Serving config call i w
  presents : PresentsToken refreshToken call
  read : ReadSession session.username i (w.own i)
  ground :
    session.expiresAt < w.state.clock ∨
      (¬ Barred session.username w.trace ∧
        LiveToken refreshToken w)

/- The call has found the session of a user unexpired. -/
structure Checked
    (config : AuthConfig)
    (call : AuthCall)
    (refreshToken username : String)
    (i : Nat)
    (w : AuthWorld) : Prop where
  serving : Serving config call i w
  presents : PresentsToken refreshToken call
  read : ReadSession username i (w.own i)
  free : ¬ Barred username w.trace
  live : LiveToken refreshToken w

theorem stable_read (session : StoredSession) :
    (tokenContract config).Stable i
      (Read config call refreshToken session i) := by
  intro w v hRead hInterferes hInv
  refine ⟨?_, hRead.presents, ?_, ?_⟩
  · exact stable_serving w v hRead.serving hInterferes hInv
  · rw [hInterferes.1.own_eq]
    exact hRead.read
  · rcases hRead.ground with hExpired | ⟨hFree, hLive⟩
    · left
      exact lt_of_lt_of_le hExpired hInterferes.2.clock
    · right
      refine ⟨?_, ?_⟩
      · exact hInterferes.2.users _ (Or.inr hRead.read) hFree
      · exact hInterferes.2.token refreshToken
          (hRead.presents.presents hRead.serving.2) hLive

theorem stable_checked :
    (tokenContract config).Stable i
      (Checked config call refreshToken username i) := by
  intro w v hChecked hInterferes hInv
  refine ⟨?_, hChecked.presents, ?_, ?_, ?_⟩
  · exact stable_serving w v hChecked.serving hInterferes hInv
  · rw [hInterferes.1.own_eq]
    exact hChecked.read
  · exact hInterferes.2.users username
      (Or.inr hChecked.read) hChecked.free
  · exact hInterferes.2.token refreshToken
      (hChecked.presents.presents hChecked.serving.2)
      hChecked.live

theorem ReadSession.perform
    (hRead : ReadSession username i (w.own i))
    (op : AuthOp)
    (answer : op.Answer)
    (after : AuthState) :
    ReadSession username i
      ((w.perform i op answer after).own i) := by
  rcases hRead with
    ⟨token, session, before, later, hPresents, hEvent, hUser⟩
  refine ⟨token, session, before, later, ?_, ?_, hUser⟩
  · rcases hPresents with hCall | hCall
    · exact Or.inl (hCall.perform op answer after)
    · exact Or.inr (hCall.perform op answer after)
  · rw [World.own_perform]
    exact List.mem_cons_of_mem _ hEvent

/- A step that bars nobody bars nobody in the end. -/
theorem not_barred_perform
    {op : AuthOp} {answer : op.Answer} {after : AuthState}
    (hBars :
      bars username
        (.performed i op answer w.state after) = false)
    (hFree : ¬ Barred username w.trace) :
    ¬ Barred username (w.perform i op answer after).trace := by
  intro hBarred
  rcases barred_cases hBarred with hNow | ⟨_, _, hBefore⟩
  · rw [hBars] at hNow
    cases hNow
  · exact hFree hBefore

theorem bars_of_not_removal
    {op : AuthOp} {answer : op.Answer} {after : AuthState}
    (hNot :
      ∀ name,
        op ≠ .users (.setActive name false) ∧
          op ≠ .users (.delete name)) :
    bars username (.performed i op answer w.state after) =
      false := by
  cases hBars :
      bars username
        (.performed i op answer w.state after) with
  | false => rfl
  | true =>
      rcases op_of_bars hBars with hEq | hEq
      · exact absurd hEq (hNot username).1
      · exact absurd hEq (hNot username).2

/- The operations after the session was checked. -/
structure OfSession
    (refreshToken username : String)
    (op : AuthOp) : Prop where
  grounded :
    Plain op ∨ op = .issueAccessToken username ∨
      ∃ newExpiresAt,
        op = .sessions (.touch refreshToken newExpiresAt)
  noRemoval :
    ∀ name,
      op ≠ .users (.setActive name false) ∧
        op ≠ .users (.delete name)

/- These keep the session checked. -/
theorem safe_ofSession
    {α : Type}
    {program : AuthProgram α}
    (hOnly : program.Only (OfSession refreshToken username))
    (hChecked :
      Checked config call refreshToken username i w) :
    (tokenContract config).Safe (authSystem config)
      (removalsFindNobody config) i program
      (fun _ => Checked config call refreshToken username i)
      (fun _ => Checked config call refreshToken username i)
      w := by
  refine Contract.safe_only hOnly stable_checked ?_ hChecked
  intro v op hChecked hInv hOp hOk choice answer after hExec
  have hGrounded : Grounded op v := by
    rcases hOp.grounded with hPlain | rfl | ⟨_, rfl⟩
    · exact hPlain v
    · exact hChecked.free
    · exact hChecked.live
  have hKeeps := keeps_perform hInv hOk hGrounded hExec
  refine ⟨hKeeps, ?_, hChecked.presents, ?_, ?_, ?_⟩
  · exact ⟨hKeeps.1,
      hChecked.serving.2.perform op answer after⟩
  · exact hChecked.read.perform op answer after
  · exact not_barred_perform
      (bars_of_not_removal hOp.noRemoval) hChecked.free
  · intro session hFind
    apply not_barred_perform
      (bars_of_not_removal hOp.noRemoval)
    have hMember := KeyedTable.mem_of_find? hFind
    rcases session_origin hGrounded hExec hMember with
      hFree | ⟨before, hOld, hToken, hUser, _⟩
    · exact hFree
    · have hOldFind := KeyedTable.find?_of_mem hOld
      rw [hToken, KeyedTable.key_of_find? hFind] at hOldFind
      rw [← hUser]
      exact hChecked.live before hOldFind

/- A session that is found unexpired is of no barred user. -/
theorem activeSession_safe
    (hToken : PresentsToken refreshToken call)
    (hServing : Serving config call i w) :
    (tokenContract config).Safe (authSystem config)
      (removalsFindNobody config) i
      (activeSession refreshToken)
      (fun session =>
        Checked config call refreshToken session.username i)
      (fun error =>
        (tokenContract config).Ends i (.error error)) w := by
  refine Contract.safe_await stable_serving hServing ?_
  intro v hServing hInv hOk choice answer after hExec
  have hKeeps := keeps_perform hInv hOk trivial hExec
  refine ⟨hKeeps, ?_⟩
  have hServed :
      Serving config call i
        (v.perform i (.sessions (.get refreshToken)) answer
          after) :=
    ⟨hKeeps.1, hServing.2.perform _ _ _⟩
  have hStatement :
      AuthOp.exec config (.sessions (.get refreshToken))
          choice v.state = some (answer, after) := hExec
  rcases exec_sessions hStatement with
    ⟨hFailed, _⟩ | ⟨hResult, hSame, hClock⟩
  · subst hFailed
    exact ends_error _ hKeeps.1
  subst hResult
  cases hFind : v.state.sessions.find? refreshToken with
  | none =>
      simp only [SessionStatement.run, hFind] at hKeeps ⊢
      exact ends_error _ hKeeps.1
  | some session =>
      simp only [SessionStatement.run, hFind] at hServed ⊢
      have hRead :
          Read config call refreshToken session i
            (v.perform i (.sessions (.get refreshToken))
              (.ok (some session)) after) := by
        refine ⟨hServed, hToken, ?_, ?_⟩
        · refine ⟨refreshToken, session, v.state, after,
            hToken.presents hServed.2, ?_, rfl⟩
          rw [World.own_perform]
          exact List.mem_cons_self
        · by_cases hBarred : Barred session.username v.trace
          · left
            rw [World.perform_state, hClock]
            exact hInv.expired session
              (KeyedTable.mem_of_find? hFind) hBarred
          · right
            refine ⟨not_barred_perform rfl hBarred, ?_⟩
            intro other hOther
            rw [World.perform_state, hSame] at hOther
            rw [SessionStatement.run, hFind] at hOther
            cases hOther
            exact not_barred_perform rfl hBarred
      refine Contract.safe_await (stable_read session) hRead ?_
      intro u hRead hInv hOk choice current later hExec
      have hKeeps := keeps_perform hInv hOk trivial hExec
      refine ⟨hKeeps, ?_⟩
      have hPair := Option.some.inj hExec
      have hCurrent : current = u.state.clock :=
        (congrArg Prod.fst hPair).symm
      have hLater : later = u.state :=
        (congrArg Prod.snd hPair).symm
      simp only [Async.bind_returned]
      split
      · exact ends_error _ hKeeps.1
      · rename_i hFresh
        rw [hCurrent] at hFresh
        rcases hRead.ground with hExpired | ⟨hFree, hLive⟩
        · exact absurd hExpired hFresh
        · refine ⟨?_, hToken, ?_, ?_, ?_⟩
          · exact ⟨hKeeps.1,
              hRead.serving.2.perform _ _ _⟩
          · exact hRead.read.perform _ _ _
          · exact not_barred_perform rfl hFree
          · intro other hOther
            rw [World.perform_state, hLater] at hOther
            exact not_barred_perform rfl
              (hLive other hOther)

theorem only_call_ofSession
    {op : AuthOp}
    (hPlain : Plain op)
    (hNot :
      ∀ name,
        op ≠ .users (.setActive name false) ∧
          op ≠ .users (.delete name)) :
    (perform op).Only (OfSession refreshToken username) :=
  Async.only_call.mpr ⟨Or.inl hPlain, hNot⟩

theorem only_now_ofSession :
    now.Only (OfSession refreshToken username) :=
  only_call_ofSession (fun _ => trivial) (by simp)

theorem only_touch_ofSession (newExpiresAt : Nat) :
    (sessions (.touch refreshToken newExpiresAt)).Only
      (OfSession refreshToken username) := by
  apply Async.only_bind
  · exact Async.only_call.mpr
      ⟨Or.inr (Or.inr ⟨_, rfl⟩), by simp⟩
  · intro result
    cases result <;> trivial

theorem only_assertActive_ofSession :
    (assertActive refreshToken).Only
      (OfSession refreshToken username) := by
  apply Async.only_bind
  · apply Async.only_bind
    · apply Async.only_bind
      · exact only_call_ofSession (fun _ => trivial) (by simp)
      · intro result
        cases result <;> trivial
    · intro session
      split
      · trivial
      · apply Async.only_bind only_now_ofSession
        intro current
        split <;> trivial
  · exact fun _ => trivial

theorem only_keepAlive_ofSession :
    (keepAlive config refreshToken).Only
      (OfSession refreshToken username) := by
  apply Async.only_bind only_assertActive_ofSession
  intro _
  apply Async.only_bind only_now_ofSession
  intro current
  exact only_touch_ofSession _

theorem only_issueAccessToken_ofSession :
    (issueAccessToken username).Only
      (OfSession refreshToken username) := by
  apply Async.only_bind
  · exact Async.only_call.mpr
      ⟨Or.inr (Or.inl rfl), by simp⟩
  · intro result
    cases result <;> trivial

theorem only_getByUsername_ofSession :
    (users (.getByUsername username)).Only
      (OfSession refreshToken username) := by
  apply Async.only_bind
  · exact only_call_ofSession (fun _ => trivial) (by simp)
  · intro result
    cases result <;> trivial

/- One part of the call after the other. -/
theorem safe_ofSession_bind
    {α β : Type}
    {program : AuthProgram α}
    {next : α → AuthProgram β}
    {post : β → AuthWorld → Prop}
    (hOnly : program.Only (OfSession refreshToken username))
    (hChecked :
      Checked config call refreshToken username i w)
    (hNext :
      ∀ value v,
        Checked config call refreshToken username i v →
        (tokenContract config).Safe (authSystem config)
          (removalsFindNobody config) i (next value) post
          (fun error =>
            (tokenContract config).Ends i (.error error))
          v) :
    (tokenContract config).Safe (authSystem config)
      (removalsFindNobody config) i (program.bind next) post
      (fun error =>
        (tokenContract config).Ends i (.error error)) w := by
  apply Contract.safe_bind
  refine Contract.safe_mono hNext ?_
    (safe_ofSession hOnly hChecked)
  intro error v hChecked
  exact ends_error error hChecked.serving.1

/- A call that presents a token ends safely. -/
theorem ends_checked
    {value : AuthReturn}
    (hChecked :
      Checked config call refreshToken username i w)
    (hValue :
      ∀ result, value = .loggedIn result →
        result.username = username) :
    (tokenContract config).Ends i (.ok value) w := by
  apply keeps_finish hChecked.serving.1
  · intro result hOutcome
    cases hOutcome
    rw [hValue result rfl]
    exact hChecked.free
  · intro other name _ hStarted
    rcases hStarted with hStarted | hStarted
    · have hEq := hChecked.serving.2.started_iff hStarted
      rcases hChecked.presents with hCall | hCall
      · rw [hCall] at hEq
        cases hEq
      · rw [hCall] at hEq
        cases hEq
    · have hEq := hChecked.serving.2.started_iff hStarted
      rcases hChecked.presents with hCall | hCall
      · rw [hCall] at hEq
        cases hEq
      · rw [hCall] at hEq
        cases hEq

theorem refresh_safe
    (hServing : Serving config (.refresh refreshToken) i w) :
    (tokenContract config).SafeTask (authSystem config)
      (removalsFindNobody config) i
      (serveCall config (.refresh refreshToken)) w := by
  refine Contract.safe_bind (Contract.safe_bind
    (Contract.safe_bind (Contract.safe_mono ?_
      (fun _ _ hEnds => hEnds)
      (activeSession_safe (Or.inl rfl) hServing))))
  intro session v hChecked
  refine safe_ofSession_bind only_keepAlive_ofSession
    hChecked ?_
  intro _ v hChecked
  refine safe_ofSession_bind only_issueAccessToken_ofSession
    hChecked ?_
  intro accessToken v hChecked
  refine safe_ofSession_bind only_getByUsername_ofSession
    hChecked ?_
  intro user v hChecked
  apply ends_checked hChecked
  intro result hValue
  cases hValue
  rfl

theorem keepAlive_safe
    (hServing : Serving config (.keepAlive refreshToken) i w) :
    (tokenContract config).SafeTask (authSystem config)
      (removalsFindNobody config) i
      (serveCall config (.keepAlive refreshToken)) w := by
  refine Contract.safe_bind (Contract.safe_bind
    (Contract.safe_bind (Contract.safe_mono ?_
      (fun _ _ hEnds => hEnds)
      (activeSession_safe (Or.inr rfl) hServing))))
  intro session v hChecked
  refine safe_ofSession_bind only_now_ofSession hChecked ?_
  intro current v hChecked
  refine Contract.safe_mono ?_ ?_
    (safe_ofSession (only_touch_ofSession _) hChecked)
  · intro _ v hChecked
    apply ends_checked hChecked
    intro result hValue
    cases hValue
  · intro error v hChecked
    exact ends_error error hChecked.serving.1

------------------------------------------------------------
-- Runs
------------------------------------------------------------

variable {config : AuthConfig}
variable {w : AuthWorld} {i : Nat}

theorem serveCall_safe
    (call : AuthCall)
    (hServing : Serving config call i w) :
    (tokenContract config).SafeTask (authSystem config)
      (removalsFindNobody config) i
      (serveCall config call) w := by
  cases call with
  | login username password => exact login_safe hServing
  | refresh refreshToken => exact refresh_safe hServing
  | keepAlive refreshToken => exact keepAlive_safe hServing
  | deactivateUser username =>
      exact deactivateUser_safe hServing
  | deleteUser username => exact deleteUser_safe hServing
  | logout refreshToken =>
      have hRevoke : Plain (.sessions (.revoke refreshToken)) :=
        fun _ => trivial
      exact safeTask_plain (only_sessions hRevoke)
        (by simp) (by simp) hServing
  | createUser input =>
      exact safeTask_plain (only_createUser input)
        (by simp) (by simp) hServing
  | listUsers =>
      exact safeTask_plain only_listUsers
        (by simp) (by simp) hServing
  | reactivateUser username =>
      exact safeTask_plain (only_reactivateUser username)
        (by simp) (by simp) hServing
  | setGlobalAdmin username isGlobalAdmin =>
      exact safeTask_plain
        (only_setGlobalAdmin username isGlobalAdmin)
        (by simp) (by simp) hServing
  | setCanCreateRepos username canCreateRepos =>
      exact safeTask_plain
        (only_setCanCreateRepos username canCreateRepos)
        (by simp) (by simp) hServing
  | setupFirstAdmin username password =>
      exact safeTask_plain
        (only_setupFirstAdmin config username password)
        (by simp) (by simp) hServing
  | ensureBootstrapAdmin credentials =>
      exact safeTask_plain
        (only_ensureBootstrapAdmin credentials)
        (by simp) (by simp) hServing
  | elapse ms =>
      exact safeTask_plain
        (Async.only_call.mpr fun _ => trivial)
        (by simp) (by simp) hServing

/- Nobody is barred before the first call. -/
theorem tokenInv_initial (initial : AuthState) :
    TokenInv config ⟨initial, []⟩ where
  clean := trivial
  returns := trivial
  inactive := fun _ hBarred => absurd hBarred id
  gone := fun _ hBarred => absurd hBarred id
  expired := fun _ _ hBarred => absurd hBarred id

/- Once barred, a user stays so until it is readmitted. -/
theorem barred_append
    {username : String}
    {newer older : List AuthEvent}
    (hBarred : Barred username older)
    (hReadmits :
      ∀ event ∈ newer, readmits username event = false) :
    Barred username (newer ++ older) := by
  induction newer with
  | nil => exact hBarred
  | cons event newer ih =>
      right
      refine ⟨hReadmits event List.mem_cons_self, ih ?_⟩
      intro other hOther
      exact hReadmits other (List.mem_cons_of_mem _ hOther)

theorem Clean.of_append
    {newer older : List AuthEvent}
    (hClean : Clean (newer ++ older)) :
    Clean older := by
  induction newer with
  | nil => exact hClean
  | cons event newer ih => exact ih hClean.2

theorem ReturnsBarred.of_append
    {newer older : List AuthEvent}
    (hReturns : ReturnsBarred (newer ++ older)) :
    ReturnsBarred older := by
  induction newer with
  | nil => exact hReturns
  | cons event newer ih => exact ih hReturns.2

theorem noTokensAfterRemoval_of_inv
    (hInv : TokenInv config w) :
    NoTokensAfterRemoval w.trace := by
  intro newer j value older username hTrace hStarted hReadmits
    event hEvent
  have hClean := hInv.clean
  have hReturns := hInv.returns
  rw [hTrace] at hClean hReturns
  have hBarred : Barred username older :=
    hReturns.of_append.1 j value username rfl hStarted
  rcases List.mem_iff_append.mp hEvent with
    ⟨later, earlier, hSplit⟩
  cases hIssues : issues username event with
  | false => rfl
  | true =>
      exfalso
      subst hSplit
      rw [List.append_assoc, List.cons_append] at hClean
      apply hClean.of_append.1 username hIssues
      have hEarlier :
          Barred username
            (earlier ++ .finished j (.ok value) :: older) := by
        apply barred_append
        · exact Or.inr ⟨rfl, hBarred⟩
        · intro other hOther
          apply hReadmits
          simp [hOther]
      exact hEarlier

/-
  In every run in which each statement that deactivates or
  deletes a user finds no unexpired session of the user and
  no call in progress that holds on to it, and deletes no
  user of the environment: after a removal has returned, and
  until its user is readmitted, no token is issued for it.
-/
theorem noTokensAfterRemoval
    (config : AuthConfig)
    (initial : AuthState)
    (p :
      Pool AuthOp AuthOp.Answer AuthState AuthCall AuthError
        AuthReturn)
    (hRun :
      (authSystem config).Run (removalsFindNobody config)
        (Pool.initial initial) p) :
    NoTokensAfterRemoval p.world.trace := by
  have hSound :
      (tokenContract config).PoolSafe (authSystem config)
        (removalsFindNobody config) p :=
    Contract.sound initial (tokenInv_initial initial)
      (fun w i call hInv hFresh _ => by
        have hKeeps := keeps_start (i := i) call hInv
        exact ⟨hKeeps,
          serveCall_safe call
            ⟨hKeeps.1, inCall_start hFresh⟩⟩)
      hRun
  exact noTokensAfterRemoval_of_inv hSound.inv

------------------------------------------------------------
-- Two Small Runs
------------------------------------------------------------

/- A configuration in which every password verifies. -/
def trustingConfig : AuthConfig where
  accessTokenTtlSeconds := 900
  sessionTtlSeconds := 3600
  bootstrapAdminConfigured := false
  legacySeedUsers := []
  verifies := fun _ hash => hash ≠ ""
  verifies_empty := by
    intro password
    rfl

def activeUser (username : String) : UserRecord where
  username := username
  passwordHash := "hash"
  createdAt := 0
  createdBy := "root"
  active := true
  lastLoginAt := none
  isGlobalAdmin := false
  canCreateRepos := true

/- One active user with a session that is good for an hour. -/
def loggedInUser : AuthState where
  clock := 1
  db :=
    { users :=
        { rows := [activeUser "eve"]
          distinct := by decide }
      roles := KeyedTable.empty
      foreignKeys := false }
  sessions :=
    { rows :=
        [ { refreshToken := "t"
            username := "eve"
            createdAt := 0
            expiresAt := 3600000 } ]
      distinct := by decide }
  rateLimiter :=
    { maxAttempts := 5
      windowMs := 60000
      attempts := fun _ => none }

def yields (text : String) : AuthChoice where
  fails := false
  text := text

/- The statement read at a position of the events. -/
theorem NoTokensAfterRemoval.after
    {events : List AuthEvent}
    {i : Nat}
    {value : AuthReturn}
    {username : String}
    (hNone : NoTokensAfterRemoval events)
    (n : Nat)
    (hReturned :
      events[n]? = some (.finished i (.ok value)))
    (hStarted :
      .started i (.deactivateUser username) ∈
          events.drop (n + 1) ∨
        .started i (.deleteUser username) ∈
          events.drop (n + 1))
    (hReadmits :
      ∀ event ∈ events.take n,
        readmits username event = false) :
    ∀ event ∈ events.take n,
      issues username event = false := by
  rcases List.getElem?_eq_some_iff.mp hReturned with
    ⟨hLength, hEvent⟩
  have hSplit :
      events =
        events.take n ++
          .finished i (.ok value) :: events.drop (n + 1) := by
    rw [← hEvent, List.getElem_cons_drop,
      List.take_append_drop]
  exact hNone _ i value _ username hSplit hStarted hReadmits

/-
  The session outlives the deactivation of its user, and a
  later refresh issues a token.
-/
theorem refresh_after_deactivation :
    ∃ q,
      (authSystem trustingConfig).replay?
          (Pool.initial loggedInUser)
          [ .start 0 (.deactivateUser "eve")
          , .resume 0 (yields "")
          , .start 1 (.refresh "t")
          , .resume 1 (yields "")
          , .resume 1 (yields "")
          , .resume 1 (yields "")
          , .resume 1 (yields "")
          , .resume 1 (yields "")
          , .resume 1 (yields "")
          , .resume 1 (yields "access token") ] = some q ∧
        ¬ NoTokensAfterRemoval q.world.trace := by
  refine ⟨_, rfl, ?_⟩
  intro hNone
  -- the first call returned eight events ago
  have hQuiet :=
    hNone.after 8 rfl
      (Or.inl
        (List.mem_cons_of_mem _ List.mem_cons_self))
      (by decide)
  have hIssued := hQuiet _ List.mem_cons_self
  exact absurd hIssued (by decide)

/- The same user without a session. -/
def loggedOutUser : AuthState :=
  { loggedInUser with sessions := KeyedTable.empty }

/- The deactivation is the only call, and has read nothing. -/
theorem quiet_of_firstCall :
    Quiet trustingConfig "eve"
      (World.start ⟨loggedOutUser, []⟩ 0
        (.deactivateUser "eve")) where
  expired := by
    intro session hSession
    cases hSession
  nobody := by
    intro i hHolds
    have hOwn :
        ∀ event : AuthEvent,
          event ∈
              (World.start ⟨loggedOutUser, []⟩ 0
                (.deactivateUser "eve") : AuthWorld).own i →
            event = .started 0 (.deactivateUser "eve") := by
      intro event hEvent
      exact List.mem_singleton.mp (List.mem_filter.mp hEvent).1
    rcases hHolds with hFound | hRead | hPresents
    · rcases hFound with ⟨_, _, _, _, _, hEvent, _⟩
      cases hOwn _ hEvent
    · rcases hRead with ⟨_, _, _, _, _, hEvent, _⟩
      cases hOwn _ hEvent
    · rcases hPresents with ⟨_, _, hCall | hCall, _⟩
      · cases hOwn _ hCall.started
      · cases hOwn _ hCall.started

/-
  With no session and no call in progress, the deactivated
  user is refused at its next login.
-/
theorem noTokensAfterRemoval_of_loggedOut :
    ∃ q,
      (authSystem trustingConfig).replay?
          (Pool.initial loggedOutUser)
          [ .start 0 (.deactivateUser "eve")
          , .resume 0 (yields "")
          , .start 1 (.login "eve" "password")
          , .resume 1 (yields "")
          , .resume 1 (yields "") ] = some q ∧
        NoTokensAfterRemoval q.world.trace := by
  refine ⟨_, rfl, ?_⟩
  refine noTokensAfterRemoval trustingConfig loggedOutUser _
    ?_
  refine .step (.resume 1 (yields ""))
    (.step (.resume 1 (yields ""))
      (.step (.start 1 (.login "eve" "password"))
        (.step (.resume 0 (yields ""))
          (.step (.start 0 (.deactivateUser "eve")) .refl
            trivial rfl) ?_ rfl) trivial rfl) ?_ rfl) ?_ rfl
  · intro op resume hTask
    cases hTask
    refine ⟨?_, ?_⟩
    · intro username hOp
      cases hOp
      exact quiet_of_firstCall
    · intro username hOp
      cases hOp
  all_goals
    intro op resume hTask
    cases hTask
    refine ⟨?_, ?_⟩
    · intro username hOp
      cases hOp
    · intro username hOp
      cases hOp

end Auth
