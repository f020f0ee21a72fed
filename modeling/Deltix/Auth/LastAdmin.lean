import Deltix.Auth.AuthRouter

/-
  Whether the instance keeps an active global admin.

  Of the statements that the routes run, three take an
  active admin away: deactivating, deleting and demoting a
  user.  A run in which each of them leaves another active
  admin keeps one for ever.

  Key definitions include:
    * `UserDb.HasActiveAdmin`
    * `UserStatement.removes`
    * `removalsLeaveAdmin`

  Key theorems include:
    * `UserStatement.hasActiveAdmin_run_iff`
    * `activeAdmin_kept`
    * `deactivate_takes_last_admin`
-/

namespace Auth

open Concurrency Relational

/- A user that is both active and global admin. -/
def UserRecord.IsActiveAdmin (user : UserRecord) : Prop :=
  user.active = true ∧ user.isGlobalAdmin = true

instance (user : UserRecord) :
    Decidable user.IsActiveAdmin := by
  unfold UserRecord.IsActiveAdmin
  infer_instance

namespace UserDb

/- Some user is both active and global admin. -/
def HasActiveAdmin (db : UserDb) : Prop :=
  ∃ user ∈ db.users.rows, user.IsActiveAdmin

/- Some other user is. -/
def HasOtherActiveAdmin
    (db : UserDb)
    (username : String) : Prop :=
  ∃ user ∈ db.users.rows,
    user.IsActiveAdmin ∧ user.username ≠ username

instance (db : UserDb) : Decidable db.HasActiveAdmin := by
  unfold HasActiveAdmin
  infer_instance

instance (db : UserDb) (username : String) :
    Decidable (db.HasOtherActiveAdmin username) := by
  unfold HasOtherActiveAdmin
  infer_instance

theorem hasActiveAdmin_iff {db : UserDb} :
    db.HasActiveAdmin ↔
      ∃ username user, db.users.find? username = some user ∧
        user.IsActiveAdmin := by
  constructor
  · rintro ⟨user, hMember, hAdmin⟩
    exact ⟨user.username, user,
      KeyedTable.find?_of_mem hMember, hAdmin⟩
  · rintro ⟨username, user, hFind, hAdmin⟩
    exact ⟨user, KeyedTable.mem_of_find? hFind, hAdmin⟩

theorem hasOtherActiveAdmin_iff
    {db : UserDb}
    {username : String} :
    db.HasOtherActiveAdmin username ↔
      ∃ other user, other ≠ username ∧
        db.users.find? other = some user ∧
        user.IsActiveAdmin := by
  constructor
  · rintro ⟨user, hMember, hAdmin, hOther⟩
    exact ⟨user.username, user, hOther,
      KeyedTable.find?_of_mem hMember, hAdmin⟩
  · rintro ⟨other, user, hOther, hFind, hAdmin⟩
    have hKey := KeyedTable.key_of_find? hFind
    refine
      ⟨user, KeyedTable.mem_of_find? hFind, hAdmin, ?_⟩
    rw [hKey]
    exact hOther

end UserDb

end Auth

------------------------------------------------------------
-- One Statement
------------------------------------------------------------

namespace Auth

open Relational

namespace UserStatement

variable {statement : UserStatement} {db : UserDb}
variable {target : String}

/- The user whom a statement deactivates, deletes or
   demotes. -/
def removes : UserStatement → Option String
  | .setActive username false => some username
  | .setGlobalAdmin username false => some username
  | .delete username => some username
  | _ => none

/- Other updates leave an active admin what it is. -/
theorem isActiveAdmin_sets
    {username : String}
    {set : UserRecord → UserRecord}
    {user : UserRecord}
    (hSets : statement.sets = some (username, set))
    (hRemoves : statement.removes = none)
    (hAdmin : user.IsActiveAdmin) :
    (set user).IsActiveAdmin := by
  unfold UserRecord.IsActiveAdmin at hAdmin ⊢
  cases statement with
  | setGlobalAdmin name isGlobalAdmin =>
      cases isGlobalAdmin with
      | false => simp [removes] at hRemoves
      | true =>
          cases hSets
          exact ⟨hAdmin.1, rfl⟩
  | setActive name active =>
      cases active with
      | false => simp [removes] at hRemoves
      | true =>
          cases hSets
          exact ⟨rfl, hAdmin.2⟩
  | setCanCreateRepos name canCreateRepos =>
      cases hSets
      exact hAdmin
  | updateLastLogin name lastLoginAt =>
      cases hSets
      exact hAdmin
  | _ => cases hSets

/-
  After the removal of a user, this user is no active admin,
  and the other users are what they were.
-/
theorem find?_run_of_removes
    (hRemoves : statement.removes = some target) :
    (∀ other, other ≠ target →
      (statement.run db).2.users.find? other =
        db.users.find? other) ∧
      ∀ user,
        (statement.run db).2.users.find? target =
          some user →
          ¬ user.IsActiveAdmin := by
  have hSet :
      ∀ set keeps,
        (∀ user, ¬ (set user).IsActiveAdmin) →
        (∀ other, other ≠ target →
          (db.setUser target set keeps).users.find? other =
            db.users.find? other) ∧
          ∀ user,
            (db.setUser target set keeps).users.find?
                target = some user →
              ¬ user.IsActiveAdmin := by
    intro set keeps hNever
    refine ⟨?_, ?_⟩
    · intro other hOther
      rw [UserDb.find?_setUser, if_neg hOther]
    · intro user hUser
      rw [UserDb.find?_setUser, if_pos rfl] at hUser
      rcases Option.map_eq_some_iff.mp hUser with
        ⟨before, _, hEq⟩
      rw [← hEq]
      exact hNever before
  cases statement with
  | setGlobalAdmin name isGlobalAdmin =>
      cases isGlobalAdmin with
      | true => cases hRemoves
      | false =>
          cases hRemoves
          apply hSet
          simp [UserRecord.IsActiveAdmin]
  | setActive name active =>
      cases active with
      | true => cases hRemoves
      | false =>
          cases hRemoves
          apply hSet
          simp [UserRecord.IsActiveAdmin]
  | delete name =>
      cases hRemoves
      refine ⟨?_, ?_⟩
      · intro other hOther
        rw [run, UserDb.find?_deleteUser, if_neg hOther]
      · intro user hUser
        rw [run, UserDb.find?_deleteUser, if_pos rfl]
          at hUser
        cases hUser
  | _ => cases hRemoves

/-
  A statement that removes nobody keeps every active admin.
-/
theorem hasActiveAdmin_run
    (hRemoves : statement.removes = none)
    (hAdmin : db.HasActiveAdmin) :
    (statement.run db).2.HasActiveAdmin := by
  rw [UserDb.hasActiveAdmin_iff] at hAdmin ⊢
  rcases hAdmin with ⟨name, user, hFind, hAdmin⟩
  rcases statement.users_run_cases db with
    hSame | ⟨target, set, hSets, hRun⟩ |
      ⟨target, rfl, hRun⟩ | ⟨created, _, hFree, hRun⟩
  · exact ⟨name, user, by rw [hSame, hFind], hAdmin⟩
  · by_cases hName : name = target
    · refine ⟨name, set user, ?_,
        isActiveAdmin_sets hSets hRemoves hAdmin⟩
      rw [hRun, if_pos hName, hFind]
      rfl
    · refine ⟨name, user, ?_, hAdmin⟩
      rw [hRun, if_neg hName, hFind]
  · simp [removes] at hRemoves
  · have hName : created.username ≠ name := by
      intro hEq
      rw [hEq, hFind] at hFree
      cases hFree
    refine ⟨name, user, ?_, hAdmin⟩
    rw [hRun, if_neg hName, hFind]

/-
  A statement that removes a user leaves an active admin
  exactly if another user is one.
-/
theorem hasActiveAdmin_run_iff
    (hRemoves : statement.removes = some target) :
    (statement.run db).2.HasActiveAdmin ↔
      db.HasOtherActiveAdmin target := by
  have hRun := @find?_run_of_removes statement db target
  rcases hRun hRemoves with ⟨hOthers, hTarget⟩
  rw [UserDb.hasActiveAdmin_iff,
    UserDb.hasOtherActiveAdmin_iff]
  constructor
  · rintro ⟨name, user, hFind, hAdmin⟩
    have hName : name ≠ target := by
      intro hEq
      rw [hEq] at hFind
      exact hTarget user hFind hAdmin
    rw [hOthers name hName] at hFind
    exact ⟨name, user, hName, hFind, hAdmin⟩
  · rintro ⟨name, user, hName, hFind, hAdmin⟩
    refine ⟨name, user, ?_, hAdmin⟩
    rw [hOthers name hName, hFind]

end UserStatement

end Auth

namespace Auth

open Concurrency Relational

/-
  Whoever is deactivated, deleted or demoted, at that moment
  another user is both active and global admin.
-/
def removalsLeaveAdmin :
    Allowed AuthOp AuthOp.Answer AuthState AuthRoute AuthError
      Response where
  start := fun _ _ _ => True
  perform := fun _ op w =>
    ∀ statement target,
      op = .users statement →
        statement.removes = some target →
          w.state.db.HasOtherActiveAdmin target

/-
  The first-admin setup is over: the count it asks for is
  not zero, and its insert does nothing.
-/
def UserDb.SetupClosed (db : UserDb) : Prop :=
  (∀ count,
    (UserStatement.count.run db).1 = .ok count →
      count ≠ 0) ∧
    ∀ user,
      (UserStatement.tryCreateFirstUser user).run db =
        (.ok false, db)

theorem UserDb.setupClosed_of_hasActiveAdmin
    {db : UserDb}
    (hAdmin : db.HasActiveAdmin) :
    db.SetupClosed := by
  rcases hAdmin with ⟨admin, hMember, _⟩
  have hRows : db.users.rows ≠ [] := by
    intro hNil
    rw [hNil] at hMember
    cases hMember
  refine ⟨?_, ?_⟩
  · intro count hCount
    have hLength : db.users.rows.length = count := by
      simpa [UserStatement.run] using hCount
    rw [← hLength]
    simpa using hRows
  · intro user
    simp [UserStatement.run, UserDb.createFirstUser, hRows]

variable {config : AuthConfig}
variable
  {p q : Pool AuthOp AuthOp.Answer AuthState AuthRoute
    AuthError Response}

/- One step of the API keeps an active admin. -/
theorem hasActiveAdmin_step
    {label : Label AuthChoice AuthRoute}
    (hAdmin : p.world.state.db.HasActiveAdmin)
    (hAllowed : removalsLeaveAdmin.holds p label)
    (hStep : (authApi config).step? p label = some q) :
    q.world.state.db.HasActiveAdmin := by
  cases label with
  | start i route =>
      rcases System.start_cases hStep with ⟨_, hEq⟩
      subst hEq
      simpa [Pool.advance] using hAdmin
  | resume i choice =>
      rcases System.resume_cases hStep with
        ⟨op, resume, answer, after, hTask, hExec, hEq⟩
      subst hEq
      simp only [Pool.advance, World.settle_state,
        World.perform_state]
      have hFrame := AuthOp.exec_frame hExec
      rcases hFrame.2.1 with hSame | ⟨statement, hOp, hDb⟩
      · rw [hSame]
        exact hAdmin
      · rw [hDb]
        cases hRemoves : statement.removes with
        | none =>
            exact UserStatement.hasActiveAdmin_run hRemoves
              hAdmin
        | some target =>
            rw [UserStatement.hasActiveAdmin_run_iff hRemoves]
            exact hAllowed op resume hTask statement target
              hOp hRemoves

/-
  From the moment an active global admin exists, a run in
  which every removal leaves another one always has one, and
  the first-admin setup stays closed.
-/
theorem activeAdmin_kept
    (config : AuthConfig)
    (p q :
      Pool AuthOp AuthOp.Answer AuthState AuthRoute AuthError
        Response)
    (hAdmin : p.world.state.db.HasActiveAdmin)
    (hRun : (authApi config).Run removalsLeaveAdmin p q) :
    q.world.state.db.HasActiveAdmin ∧
      q.world.state.db.SetupClosed := by
  have hKept : q.world.state.db.HasActiveAdmin :=
    System.Run.invariant
      (P := fun r => r.world.state.db.HasActiveAdmin) hAdmin
      (fun _ _ _ hBefore hAllowed hStep =>
        hasActiveAdmin_step hBefore hAllowed hStep)
      hRun
  exact ⟨hKept, UserDb.setupClosed_of_hasActiveAdmin hKept⟩

/- A configuration in which no password verifies. -/
def sampleConfig : AuthConfig where
  accessTokenTtlSeconds := 900
  sessionTtlSeconds := 3600
  bootstrapAdminConfigured := false
  legacySeedUsers := []
  verifies := fun _ _ => false
  verifies_empty := fun _ => rfl

def sampleAdmin (username : String) : UserRecord where
  username := username
  passwordHash := "hash"
  createdAt := 0
  createdBy := "setup-wizard"
  active := true
  lastLoginAt := none
  isGlobalAdmin := true
  canCreateRepos := true

/- The state with the given users and nothing else. -/
def stateOfUsers (users : UserTable) : AuthState where
  clock := 0
  db :=
    { users := users
      roles := KeyedTable.empty
      foreignKeys := false }
  sessions := KeyedTable.empty
  rateLimiter :=
    { maxAttempts := 5
      windowMs := 60000
      attempts := fun _ => none }

def oneAdmin : UserTable where
  rows := [sampleAdmin "root"]
  distinct := by decide

def twoAdmins : UserTable where
  rows := [sampleAdmin "root", sampleAdmin "eve"]
  distinct := by decide

def plainChoice : AuthChoice where
  fails := false
  text := ""

/-
  The only admin deactivates itself: no route refuses.
-/
theorem deactivate_takes_last_admin :
    ∃ q,
      (authApi sampleConfig).replay?
          (Pool.initial (stateOfUsers oneAdmin))
          [ .start 0 (.deactivate (some "root") "root")
          , .resume 0 plainChoice
          , .resume 0 plainChoice ] = some q ∧
        (stateOfUsers oneAdmin).db.HasActiveAdmin ∧
        ¬ q.world.state.db.HasActiveAdmin := by
  refine ⟨_, rfl, ?_, ?_⟩
  · decide
  · decide

/- With a second admin the same request is harmless. -/
theorem activeAdmin_kept_of_two :
    ∃ q,
      (authApi sampleConfig).replay?
          (Pool.initial (stateOfUsers twoAdmins))
          [ .start 0 (.deactivate (some "root") "root")
          , .resume 0 plainChoice
          , .resume 0 plainChoice ] = some q ∧
        q.world.state.db.HasActiveAdmin ∧
        q.world.state.db.SetupClosed := by
  refine ⟨_, rfl, ?_⟩
  refine activeAdmin_kept sampleConfig
    (Pool.initial (stateOfUsers twoAdmins)) _ (by decide) ?_
  refine .step (.resume 0 plainChoice)
    (.step (.resume 0 plainChoice)
      (.step (.start 0 (.deactivate (some "root") "root"))
        .refl trivial rfl) ?_ rfl) ?_ rfl
  · intro op resume hTask statement target hOp hRemoves
    cases hTask
    cases hOp
    cases hRemoves
  · intro op resume hTask statement target hOp hRemoves
    cases hTask
    cases hOp
    cases hRemoves
    decide

end Auth
