import Deltix.Auth.AuthRouter
import Deltix.Auth.FirstAdmin
import Deltix.Concurrency.Footprints

/-
  Who may change the users, over whole runs of the routes: a
  caller who was found to be a global admin, or the setup of
  the first user.

  Key definitions include:
    * `standing`
    * `Vetted`
    * `Mediated`

  Key theorems include:
    * `precedes_serveRoute`
    * `users_managed_by_admins`
-/

------------------------------------------------------------
-- The Properties
------------------------------------------------------------

namespace Auth

namespace AdminGate

open Concurrency

abbrev AuthApiEvent :=
  Event AuthOp AuthOp.Answer AuthState AuthRoute AuthError
    Response

abbrev AuthApiPool :=
  Pool AuthOp AuthOp.Answer AuthState AuthRoute AuthError
    Response

/- What the users and the roles are, but for the times of
   the last logins. -/
def standing (db : UserDb) :
    List UserRecord × List RepoRoleAssignment :=
  (db.users.rows.map fun user =>
      { user with lastLoginAt := none },
    db.roles.rows)

/- Some user is a global admin. -/
def HasAdmin (s : AuthState) : Prop :=
  ∃ user ∈ s.db.users.rows, user.isGlobalAdmin = true

instance (s : AuthState) : Decidable (HasAdmin s) :=
  inferInstanceAs
    (Decidable (∃ user ∈ s.db.users.rows, _ = true))

/- The caller of a route that manages users. -/
def caller? : AuthRoute → Option String
  | .listUsers caller => caller
  | .createUser caller _ => caller
  | .deactivate caller _ => caller
  | .reactivate caller _ => caller
  | .deleteUser caller _ => caller
  | .grantGlobalAdmin caller _ => caller
  | .revokeGlobalAdmin caller _ => caller
  | .setCanCreateRepos caller _ _ => caller
  | _ => none

/- The task has found its caller to be a global admin, who
   was one in the database. -/
def Vetted
    (i : Nat)
    (route : AuthRoute)
    (trace : List AuthApiEvent) : Prop :=
  ∃ caller record found later,
    caller? route = some caller ∧
      .performed i (.users (.getByUsername caller))
          (.ok (some record)) found later ∈ trace ∧
      found.db.users.find? caller = some record ∧
      record.isGlobalAdmin = true

/- The operation inserts a first user for the setup route. -/
def SetsUp
    (config : AuthConfig)
    (route : AuthRoute)
    (op : AuthOp) : Prop :=
  config.bootstrapAdminConfigured = false ∧
    ∃ body record,
      route = .setup (some body) ∧
        op = .users (.tryCreateFirstUser record) ∧
        record.username = body.username

/- Where a user stands is only changed for a global admin, or
   as the first user of an empty table is set up. -/
def Mediated
    (config : AuthConfig)
    (trace : List AuthApiEvent) : Prop :=
  ∀ newer i op answer before after older,
    trace =
        newer ++ .performed i op answer before after :: older →
      standing after.db ≠ standing before.db →
        ∃ route, .started i route ∈ older ∧
          (Vetted i route older ∨
            SetsUp config route op ∧
              before.db.users.rows = [])

/- The first user was set up. -/
def WasSetUp
    (config : AuthConfig)
    (trace : List AuthApiEvent) : Prop :=
  ∃ i route op answer before after,
    .started i route ∈ trace ∧
      .performed i op answer before after ∈ trace ∧
      SetsUp config route op ∧
      before.db.users.rows = []

def Manages : AuthOp → Prop
  | .users (.create _) => True
  | .users (.setGlobalAdmin _ _) => True
  | .users (.setCanCreateRepos _ _) => True
  | .users (.setActive _ _) => True
  | .users (.delete _) => True
  | .users (.tryCreateFirstUser _) => True
  | .users (.upsertRepoRole _) => True
  | .users (.deleteRepoRole _ _) => True
  | _ => False

variable {config : AuthConfig} {op : AuthOp}
variable {answer : op.Answer} {choice : AuthChoice}
variable {s t : AuthState}

theorem standing_updateLastLogin
    (username : String)
    (lastLoginAt : Nat)
    (db : UserDb) :
    standing
        ((UserStatement.updateLastLogin username
          lastLoginAt).run db).2 =
      standing db := by
  unfold standing
  simp only [UserStatement.run, UserDb.setUser,
    Relational.KeyedTable.updateWhere, Prod.mk.injEq, and_true,
    List.map_map]
  apply List.map_congr_left
  intro user _
  simp only [Function.comp_apply]
  split <;> rfl

/- Nothing else changes where the users stand. -/
theorem manages_of_changed
    (hExec : op.exec config choice s = some (answer, t))
    (hChanged : standing t.db ≠ standing s.db) :
    Manages op := by
  rcases (AuthOp.exec_frame hExec).2.1 with
    hSame | ⟨statement, hOp, hRun⟩
  · rw [hSame] at hChanged
    exact absurd rfl hChanged
  · subst hOp
    rw [hRun] at hChanged
    cases statement with
    | updateLastLogin username lastLoginAt =>
        exact absurd (standing_updateLastLogin ..) hChanged
    | count => exact absurd rfl hChanged
    | list => exact absurd rfl hChanged
    | getByUsername username => exact absurd rfl hChanged
    | getRepoRole username repoId => exact absurd rfl hChanged
    | listRepoRoles repoId => exact absurd rfl hChanged
    | _ => trivial

theorem empty_of_setsUp
    {route : AuthRoute}
    (hSetsUp : SetsUp config route op)
    (hExec : op.exec config choice s = some (answer, t))
    (hChanged : standing t.db ≠ standing s.db) :
    s.db.users.rows = [] := by
  rcases hSetsUp with ⟨_, _, record, _, hOp, _⟩
  subst hOp
  rcases (AuthOp.exec_frame hExec).2.1 with
    hSame | ⟨statement, hOp, hRun⟩
  · rw [hSame] at hChanged
    exact absurd rfl hChanged
  · cases hOp
    rw [hRun] at hChanged
    simp only [UserStatement.run, UserDb.createFirstUser]
      at hChanged
    split at hChanged
    · rename_i hEmpty
      exact List.isEmpty_iff.mp hEmpty
    · exact absurd rfl hChanged

theorem find?_of_getByUsername
    {username : String}
    {record : UserRecord}
    (hExec :
      (AuthOp.users (.getByUsername username)).exec config
          choice s =
        some (.ok (some record), t)) :
    s.db.users.find? username = some record := by
  simp only [AuthOp.exec] at hExec
  split at hExec
  · cases hExec
  · simp only [UserStatement.run, Option.some.injEq,
      Prod.mk.injEq, Except.ok.injEq] at hExec
    exact hExec.1

/- An admin stays one as long as nobody is managed. -/
theorem hasAdmin_of_standing
    (hSame : standing t.db = standing s.db)
    (hAdmin : HasAdmin t) :
    HasAdmin s := by
  rcases hAdmin with ⟨user, hMember, hIsAdmin⟩
  have hThere :
      { user with lastLoginAt := none } ∈
        (standing t.db).1 :=
    List.mem_map.mpr ⟨user, hMember, rfl⟩
  rw [hSame] at hThere
  rcases List.mem_map.mp hThere with ⟨other, hOther, hEq⟩
  refine ⟨other, hOther, ?_⟩
  have hFlags := congrArg UserRecord.isGlobalAdmin hEq
  exact hFlags.trans hIsAdmin

------------------------------------------------------------
-- What The Routes Do First
------------------------------------------------------------

/- The answer shows that the caller is a global admin. -/
def Clears (route : AuthRoute) :
    (op : AuthOp) → op.Answer → Prop
  | .users (.getByUsername username), .ok (some record) =>
      caller? route = some username ∧
        record.isGlobalAdmin = true
  | _, _ => False

/- The operation manages users, and does not set up. -/
def NeedsAdmin
    (config : AuthConfig)
    (route : AuthRoute)
    (op : AuthOp) : Prop :=
  Manages op ∧ ¬ SetsUp config route op

variable {cond : AuthOp → Prop} {route : AuthRoute}
variable {α : Type}

theorem only_statement
    {statement : UserStatement}
    (hStatement : cond (.users statement)) :
    (users statement).Only cond := by
  apply Async.only_bind (Async.only_call.mpr hStatement)
  intro result
  cases result <;> trivial

/- A caller who is no global admin is turned away. -/
theorem precedes_asGlobalAdmin
    {caller : Option String}
    (hCaller : caller? route = caller)
    (body : String → AuthProgram Response) :
    (asGlobalAdmin caller body).Precedes
      (NeedsAdmin config route) (Clears route) := by
  cases caller with
  | none => trivial
  | some caller =>
      have hYields :
          (isGlobalAdmin caller).Yields (Clears route)
            fun admin => admin = false := by
        intro answer
        cases answer with
        | error error => exact Or.inr trivial
        | ok found =>
            cases found with
            | none => exact Or.inr rfl
            | some record =>
                cases hAdmin : record.isGlobalAdmin with
                | true => exact Or.inl ⟨hCaller, hAdmin⟩
                | false => exact Or.inr hAdmin
      refine precedes_bind ?_ hYields ?_
      · apply precedes_of_only
        apply Async.only_bind
        · exact only_statement fun hNeeds => hNeeds.1
        · intro user
          trivial
      · intro admin hNot
        subst hNot
        trivial

theorem only_setupRoute (body : Option CreateUserBody) :
    (setupRoute config body).Only fun op =>
      ¬ NeedsAdmin config (.setup body) op := by
  have hStatus :
      (getSetupStatus config).Only fun op =>
        ¬ NeedsAdmin config (.setup body) op := by
    unfold getSetupStatus
    split
    · trivial
    · apply Async.only_bind
      · exact only_statement fun hNeeds => hNeeds.1
      · intro count
        split <;> trivial
  cases hConfigured : config.bootstrapAdminConfigured with
  | true =>
      unfold setupRoute getSetupStatus
      rw [if_pos hConfigured]
      trivial
  | false =>
      apply Async.only_bind hStatus
      intro status
      split
      · cases body with
        | none => trivial
        | some body =>
            apply Async.only_catchError
            · refine Async.only_bind ?_ fun _ => trivial
              apply Async.only_bind hStatus
              intro status
              apply Async.only_bind Async.only_ensure
              intro _
              simp only [buildUserRecord, Async.bind_eq,
                Async.bind_assoc, Async.pure_eq_returned,
                Async.bind_returned]
              apply Async.only_bind
              · exact Async.only_call.mpr fun hNeeds => hNeeds.1
              intro passwordHash
              apply Async.only_bind
              · exact Async.only_call.mpr fun hNeeds => hNeeds.1
              intro createdAt
              apply Async.only_bind
              · apply only_statement
                intro hNeeds
                exact
                  hNeeds.2
                    ⟨hConfigured, body, _, rfl, rfl, rfl⟩
              · intro created
                split <;> trivial
            · intro error
              split <;> trivial
      · trivial

/- A part of a route that manages nobody. -/
abbrev Tame (program : AuthProgram α) : Prop :=
  program.Only fun op => ¬ Manages op

theorem tame_perform (hOp : ¬ Manages op) :
    Tame (perform op) :=
  Async.only_call.mpr hOp

theorem tame_session (statement : SessionStatement) :
    Tame (sessions statement) := by
  apply Async.only_bind (tame_perform id)
  intro result
  cases result <;> trivial

theorem tame_activeSession (refreshToken : String) :
    Tame (activeSession refreshToken) := by
  apply Async.only_bind (tame_session _)
  intro session
  cases session with
  | none => trivial
  | some session =>
      apply Async.only_bind (tame_perform id)
      intro current
      split <;> trivial

theorem tame_keepAlive (refreshToken : String) :
    Tame (keepAlive config refreshToken) := by
  apply Async.only_bind
  · exact
      Async.only_bind (tame_activeSession _) fun _ => trivial
  intro _
  apply Async.only_bind (tame_perform id)
  intro current
  exact tame_session _

theorem tame_issueAccessToken (username : String) :
    Tame (issueAccessToken username) := by
  apply Async.only_bind (tame_perform id)
  intro result
  cases result <;> trivial

theorem tame_refresh (refreshToken : String) :
    Tame (refresh config refreshToken) := by
  apply Async.only_bind
  · exact
      Async.only_bind (tame_activeSession _) fun _ => trivial
  intro username
  apply Async.only_bind (tame_keepAlive _)
  intro _
  apply Async.only_bind (tame_issueAccessToken _)
  intro accessToken
  exact Async.only_bind (only_statement id) fun _ => trivial

theorem tame_login (username password : String) :
    Tame (login config username password) := by
  apply Async.only_bind (tame_perform id)
  intro admitted
  cases admitted with
  | error retryAfterMs => trivial
  | ok =>
      apply Async.only_bind
      · apply Async.only_bind (only_statement id)
        intro dbUser
        cases dbUser with
        | some user => trivial
        | none =>
            dsimp only
            split <;> trivial
      intro user
      apply Async.only_bind Async.only_ensure
      intro _
      apply Async.only_bind
      · apply Async.only_bind (tame_perform id)
        intro isValid
        split
        · split <;> trivial
        · trivial
      intro name
      apply Async.only_bind (tame_perform id)
      intro lastLoginAt
      apply Async.only_bind (only_statement id)
      intro _
      apply Async.only_bind (tame_issueAccessToken _)
      intro accessToken
      refine Async.only_bind ?_ fun _ => trivial
      apply Async.only_bind (tame_perform id)
      intro refreshToken
      apply Async.only_bind (tame_perform id)
      intro expiresAt
      apply Async.only_bind (tame_perform id)
      intro createdAt
      exact Async.only_bind (tame_session _) fun _ => trivial

theorem tame_answerErrors
    {program : AuthProgram Response}
    {statuses : AuthError → Option (Nat × String)}
    (hTame : Tame program) :
    Tame (answerErrors program statuses) := by
  apply Async.only_catchError hTame
  intro error
  split <;> trivial

theorem precedes_of_tame
    {program : AuthProgram Response}
    (hTame : Tame program) :
    program.Precedes (NeedsAdmin config route)
      (Clears route) :=
  precedes_of_only
    (Async.only_mono (fun _ hNot hNeeds => hNot hNeeds.1) hTame)

theorem precedes_serveRoute (route : AuthRoute) :
    (serveRoute config route).Precedes
      (NeedsAdmin config route) (Clears route) := by
  cases route with
  | setup body => exact precedes_of_only (only_setupRoute body)
  | setupStatus =>
      apply precedes_of_tame
      refine Async.only_bind ?_ fun _ => trivial
      unfold getSetupStatus
      split
      · trivial
      · apply Async.only_bind (only_statement id)
        intro count
        split <;> trivial
  | login body =>
      apply precedes_of_tame
      cases body with
      | none => trivial
      | some body =>
          apply tame_answerErrors
          exact Async.only_bind (tame_login ..) fun _ => trivial
  | refresh request =>
      apply precedes_of_tame
      show Tame (refreshRoute config request)
      unfold refreshRoute
      split
      · trivial
      split
      · trivial
      apply tame_answerErrors
      exact Async.only_bind (tame_refresh _) fun _ => trivial
  | keepAlive request =>
      apply precedes_of_tame
      show Tame (keepAliveRoute config request)
      unfold keepAliveRoute
      split
      · trivial
      split
      · trivial
      apply tame_answerErrors
      exact Async.only_bind (tame_keepAlive _) fun _ => trivial
  | logout request =>
      apply precedes_of_tame
      show Tame (logoutRoute request)
      unfold logoutRoute
      split
      · trivial
      split
      · trivial
      exact Async.only_bind (tame_session _) fun _ => trivial
  | elapse ms =>
      apply precedes_of_tame
      exact Async.only_bind (tame_perform id) fun _ => trivial
  | _ => exact precedes_asGlobalAdmin rfl _

------------------------------------------------------------
-- Whole Runs
------------------------------------------------------------

variable {initial : AuthState} {p : AuthApiPool}

theorem mediated_run
    (hRun :
      (authApi config).Run .everything (Pool.initial initial)
        p) :
    Mediated config p.world.trace := by
  intro newer i op answer before after older hTrace hChanged
  rcases reached_before hRun hTrace with
    ⟨q, resume, choice, hReached, hWorld, hTask, _, hPerformed⟩
  have hExec :
      op.exec config choice before = some (answer, after) :=
    hPerformed
  rcases (begun_run hReached).task i _ hTask with
    ⟨route, hStarted⟩
  rw [hWorld] at hStarted
  refine ⟨route, hStarted, ?_⟩
  by_cases hSetsUp : SetsUp config route op
  · exact
      Or.inr ⟨hSetsUp, empty_of_setsUp hSetsUp hExec hChanged⟩
  left
  rcases
      precedes_run (NeedsAdmin config) Clears
        (fun _ request _ _ => precedes_serveRoute request) hRun
        hTrace hStarted
        ⟨manages_of_changed hExec hChanged, hSetsUp⟩ with
    ⟨check, reply, found, later, hMember, hClears⟩
  unfold Clears at hClears
  split at hClears
  · rename_i caller record
    rcases List.append_of_mem hMember with ⟨mid, rest, hOlder⟩
    have hCheck :
        p.world.trace =
          (newer ++
              .performed i op answer before after :: mid) ++
            .performed i (.users (.getByUsername caller))
                (.ok (some record)) found later ::
              rest := by
      rw [hTrace, hOlder]
      simp
    rcases reached_before hRun hCheck with
      ⟨_, _, asked, _, _, _, _, hAsked⟩
    have hGet :
        (AuthOp.users (.getByUsername caller)).exec config
            asked found =
          some (.ok (some record), later) :=
      hAsked
    exact
      ⟨caller, record, found, later, hClears.1, hMember,
        find?_of_getByUsername hGet, hClears.2⟩
  · exact hClears.elim

theorem WasSetUp.mono
    {trace more : List AuthApiEvent}
    (hMore : ∀ event ∈ trace, event ∈ more)
    (hSetUp : WasSetUp config trace) :
    WasSetUp config more := by
  rcases hSetUp with
    ⟨i, route, op, answer, before, after, hStarted, hPerformed,
      hFirst⟩
  exact
    ⟨i, route, op, answer, before, after, hMore _ hStarted,
      hMore _ hPerformed, hFirst⟩

/- A state that the run is or was in. -/
def Seen
    (w : World AuthOp AuthOp.Answer AuthState AuthRoute
      AuthError Response)
    (s : AuthState) : Prop :=
  s = w.state ∨
    ∃ i op answer after,
      .performed i op answer s after ∈ w.trace

/- An admin that was seen has a reason. -/
def Explained
    (config : AuthConfig)
    (initial : AuthState)
    (w : World AuthOp AuthOp.Answer AuthState AuthRoute
      AuthError Response) : Prop :=
  ∀ s, Seen w s → HasAdmin s →
    HasAdmin initial ∨ WasSetUp config w.trace

theorem explained_alike
    {w v :
      World AuthOp AuthOp.Answer AuthState AuthRoute AuthError
        Response}
    (hAlike : w.Alike v)
    (hMore : ∀ event ∈ w.trace, event ∈ v.trace)
    (hExplained : Explained config initial w) :
    Explained config initial v := by
  intro s hSeen hAdmin
  have hBefore : Seen w s := by
    rcases hSeen with hNow | ⟨i, op, answer, after, hMember⟩
    · left
      rw [hNow, hAlike.1]
    · right
      exact ⟨i, op, answer, after, (hAlike.2 ..).mp hMember⟩
  exact (hExplained s hBefore hAdmin).imp id (.mono hMore)

theorem explained_run
    (hRun :
      (authApi config).Run .everything (Pool.initial initial)
        p) :
    Explained config initial p.world := by
  induction hRun with
  | refl =>
      rintro s (hNow | ⟨_, _, _, _, hMember⟩) hAdmin
      · left
        rw [hNow] at hAdmin
        exact hAdmin
      · cases hMember
  | @step q r label hReached hAllowed hMoved ih =>
      have hMediated :=
        mediated_run (.step label hReached hAllowed hMoved)
      cases label with
      | start i route =>
          rcases System.start_cases hMoved with ⟨_, hNext⟩
          subst hNext
          apply explained_alike (alike_settle ..)
          · intro event hMember
            exact mem_settle_of_mem hMember
          apply explained_alike (alike_start ..) _ ih
          intro event hMember
          exact List.mem_cons_of_mem _ hMember
      | resume i choice =>
          rcases System.resume_cases hMoved with
            ⟨op, resume, answer, after, _, hExec, hNext⟩
          subst hNext
          apply explained_alike (alike_settle ..)
          · intro event hMember
            exact mem_settle_of_mem hMember
          intro s hSeen hAdmin
          have hMore :
              ∀ event ∈ q.world.trace,
                event ∈ (q.world.perform i op answer after).trace :=
            fun event hMember => List.mem_cons_of_mem _ hMember
          have hOld (u : AuthState) (hThere : Seen q.world u)
              (hIsAdmin : HasAdmin u) :=
            (ih u hThere hIsAdmin).imp id (WasSetUp.mono hMore)
          rcases hSeen with
            hNow | ⟨k, other, reply, later, hMember⟩
          · rw [World.perform_state] at hNow
            subst hNow
            by_cases hSame :
                standing s.db = standing q.world.state.db
            · exact
                hOld _ (Or.inl rfl)
                  (hasAdmin_of_standing hSame hAdmin)
            · have hTrace :
                  (q.advance i (q.world.perform i op answer s)
                      (resume answer)).world.trace =
                    endOf i (resume answer) ++
                      .performed i op answer q.world.state s ::
                        q.world.trace :=
                trace_settle ..
              rcases hMediated _ _ _ _ _ _ _ hTrace hSame with
                ⟨route, hStarted, hVetted | hSetsUp⟩
              · rcases hVetted with
                  ⟨_, record, found, _, _, hMember, hFind,
                    hIsAdmin⟩
                exact
                  hOld found (Or.inr ⟨_, _, _, _, hMember⟩)
                    ⟨record, Relational.KeyedTable.mem_of_find? hFind,
                      hIsAdmin⟩
              · right
                exact
                  ⟨i, route, op, answer, _, s,
                    List.mem_cons_of_mem _ hStarted,
                    List.mem_cons_self, hSetsUp⟩
          · rcases List.mem_cons.mp hMember with hNew | hThere
            · cases hNew
              exact hOld _ (Or.inl rfl) hAdmin
            · exact
                hOld s (Or.inr ⟨_, _, _, _, hThere⟩) hAdmin

/-
  Whatever interleaves and fails: who is a user, with which
  flags and roles, is only changed for a caller who has been
  found to be a global admin, or by the first setup.  So
  global admins come from global admins, or from that setup.
-/
theorem users_managed_by_admins
    (config : AuthConfig)
    (initial : AuthState)
    (p : AuthApiPool)
    (hRun :
      (authApi config).Run .everything (Pool.initial initial)
        p) :
    Mediated config p.world.trace ∧
      (HasAdmin p.world.state →
        HasAdmin initial ∨ WasSetUp config p.world.trace) := by
  refine ⟨mediated_run hRun, ?_⟩
  exact explained_run hRun _ (Or.inl rfl)

/- The wizard creates alice, who creates bob, who may not do
   the same. -/
def threeRequests : List (Label AuthChoice AuthRoute) :=
  let body (username : String) : Option CreateUserBody :=
    some ⟨username, "password", none⟩
  .start 1 (.setup (body "alice")) ::
    (List.replicate 5 (.resume 1 ⟨false, ""⟩) ++
      .start 2 (.createUser (some "alice") (body "bob")) ::
        (List.replicate 5 (.resume 2 ⟨false, ""⟩) ++
          [ .start 3 (.createUser (some "bob") (body "eve"))
          , .resume 3 ⟨false, ""⟩ ]))

theorem users_managed_by_admins_three :
    ∃ p : AuthApiPool,
      (authApi FirstAdmin.freshInstall).replay?
            (Pool.initial FirstAdmin.nobody) threeRequests =
          some p ∧
        p.world.state.db.users.rows.map UserRecord.username =
          ["bob", "alice"] ∧
        Mediated FirstAdmin.freshInstall p.world.trace ∧
        WasSetUp FirstAdmin.freshInstall p.world.trace := by
  have hReplay :
      ∃ p : AuthApiPool,
        (authApi FirstAdmin.freshInstall).replay?
              (Pool.initial FirstAdmin.nobody) threeRequests =
            some p ∧
          p.world.state.db.users.rows.map UserRecord.username =
            ["bob", "alice"] ∧
          HasAdmin p.world.state :=
    ⟨_, rfl, by decide, by decide⟩
  rcases hReplay with ⟨p, hReplay, hRows, hAdmin⟩
  rcases
      users_managed_by_admins FirstAdmin.freshInstall
        FirstAdmin.nobody p (System.run_of_replay? hReplay) with
    ⟨hMediated, hReason⟩
  refine ⟨p, hReplay, hRows, hMediated, ?_⟩
  rcases hReason hAdmin with ⟨user, hMember, _⟩ | hSetUp
  · cases hMember
  · exact hSetUp

end AdminGate

end Auth
