import Deltix.Relational.KeyedTable
import Mathlib.Data.List.Sort

/-
  The user store: the tables `users` and `repo_roles`, and
  the SQL statements on them.  Each statement is atomic.

  Key definitions include:
    * `UserRecord`
    * `RepoRoleAssignment`
    * `UserDb`
    * `UserStatement`
    * `UserStatement.run`

  Key theorems include:
    * `UserDb.find?_setUser`
    * `UserDb.find?_deleteUser`
    * `UserStatement.users_run_cases`
    * `UserDb.upsertRole_cases`
    * `UserDb.find?_roles_deleteUser`
-/

namespace Auth

inductive RepoRole where
  | reader
  | writer
  | admin
  deriving DecidableEq, Repr

structure UserRecord where
  username : String
  passwordHash : String
  createdAt : Nat
  createdBy : String
  active : Bool
  lastLoginAt : Option Nat
  isGlobalAdmin : Bool
  canCreateRepos : Bool
  deriving DecidableEq, Repr

structure LegacyUserRecord where
  username : String
  passwordHash : String
  deriving DecidableEq, Repr

structure RepoRoleAssignment where
  username : String
  repoId : String
  role : RepoRole
  grantedAt : Nat
  grantedBy : String
  deriving DecidableEq, Repr

/- Why a statement is refused. -/
inductive StoreError where
  | uniqueConstraint
  | foreignKeyConstraint
  | unavailable
  deriving DecidableEq, Repr

------------------------------------------------------------
-- The Tables
------------------------------------------------------------

open Relational

abbrev UserTable :=
  KeyedTable UserRecord.username

abbrev RoleTable :=
  KeyedTable fun assignment : RepoRoleAssignment =>
    (assignment.username, assignment.repoId)

/-
  The database.  `foreignKeys` is the pragma that turns on
  the reference from `repo_roles` to `users`; the store
  never sets it.
-/
structure UserDb where
  users : UserTable
  roles : RoleTable
  foreignKeys : Bool

def UserDb.empty (foreignKeys : Bool) : UserDb where
  users := KeyedTable.empty
  roles := KeyedTable.empty
  foreignKeys := foreignKeys

/- The statements of the store, under its method names. -/
inductive UserStatement where
  | count
  | list
  | getByUsername (username : String)
  | create (user : UserRecord)
  | setGlobalAdmin (username : String) (isGlobalAdmin : Bool)
  | setCanCreateRepos
      (username : String)
      (canCreateRepos : Bool)
  | setActive (username : String) (active : Bool)
  | delete (username : String)
  | updateLastLogin (username : String) (lastLoginAt : Nat)
  | tryCreateFirstUser (user : UserRecord)
  | getRepoRole (username repoId : String)
  | listRepoRoles (repoId : String)
  | upsertRepoRole (assignment : RepoRoleAssignment)
  | deleteRepoRole (username repoId : String)

namespace UserStatement

/- What a statement answers when it is not refused. -/
abbrev Answer : UserStatement → Type
  | .count => Nat
  | .list => List UserRecord
  | .getByUsername _ => Option UserRecord
  | .create _ => Unit
  | .setGlobalAdmin _ _ => Bool
  | .setCanCreateRepos _ _ => Bool
  | .setActive _ _ => Bool
  | .delete _ => Bool
  | .updateLastLogin _ _ => Bool
  | .tryCreateFirstUser _ => Bool
  | .getRepoRole _ _ => Option RepoRole
  | .listRepoRoles _ => List RepoRoleAssignment
  | .upsertRepoRole _ => Unit
  | .deleteRepoRole _ _ => Bool

end UserStatement

namespace UserDb

/- `ORDER BY created_at ASC, username ASC` -/
def listed (db : UserDb) : List UserRecord :=
  db.users.rows.mergeSort fun first second =>
    first.createdAt < second.createdAt ||
      (first.createdAt == second.createdAt &&
        first.username ≤ second.username)

/- Whether `UPDATE users ... WHERE username = ?` hits. -/
def updated (db : UserDb) (username : String) : Bool :=
  db.users.affected
    (fun user => user.username = username) == 1

/- `UPDATE users SET ... WHERE username = ?` -/
def setUser
    (db : UserDb)
    (username : String)
    (set : UserRecord → UserRecord)
    (keeps : ∀ user, (set user).username = user.username) :
    UserDb :=
  { db with
    users :=
      db.users.updateWhere
        (fun user => user.username = username) set keeps }

/- `DELETE FROM users WHERE username = ?`, which cascades
   where the reference is enforced and a row is deleted. -/
def deleteUser (db : UserDb) (username : String) : UserDb :=
  { db with
    users :=
      db.users.deleteWhere fun user =>
        user.username = username
    roles :=
      if db.foreignKeys && db.updated username then
        db.roles.deleteWhere fun assignment =>
          assignment.username = username
      else db.roles }

/- `INSERT INTO users` -/
def createUser
    (db : UserDb)
    (user : UserRecord) :
    Except StoreError Unit × UserDb :=
  match db.users.insert? user with
  | some users => (.ok (), { db with users := users })
  | none => (.error .uniqueConstraint, db)

/- `INSERT INTO users ... WHERE NOT EXISTS` -/
def createFirstUser
    (db : UserDb)
    (user : UserRecord) :
    Except StoreError Bool × UserDb :=
  if db.users.rows.isEmpty then
    match db.users.insert? user with
    | some users => (.ok true, { db with users := users })
    | none => (.error .uniqueConstraint, db)
  else (.ok false, db)

/- `INSERT INTO repo_roles ... ON CONFLICT DO UPDATE` -/
def upsertRole
    (db : UserDb)
    (assignment : RepoRoleAssignment) :
    Except StoreError Unit × UserDb :=
  if db.foreignKeys ∧
      db.users.find? assignment.username = none then
    (.error .foreignKeyConstraint, db)
  else
    let others :=
      db.roles.deleteWhere fun other =>
        other.username = assignment.username &&
          other.repoId = assignment.repoId
    match others.insert? assignment with
    | some roles => (.ok (), { db with roles := roles })
    | none => (.error .uniqueConstraint, db)

end UserDb

namespace UserStatement

/- Run a statement on the database. -/
def run :
    (statement : UserStatement) → UserDb →
      Except StoreError statement.Answer × UserDb
  | .count, db => (.ok db.users.rows.length, db)
  | .list, db => (.ok db.listed, db)
  | .getByUsername username, db =>
      (.ok (db.users.find? username), db)
  | .create user, db => db.createUser user
  | .setGlobalAdmin username isGlobalAdmin, db =>
      (.ok (db.updated username),
        db.setUser username
          (fun user =>
            { user with isGlobalAdmin := isGlobalAdmin })
          (fun _ => rfl))
  | .setCanCreateRepos username canCreateRepos, db =>
      (.ok (db.updated username),
        db.setUser username
          (fun user =>
            { user with canCreateRepos := canCreateRepos })
          (fun _ => rfl))
  | .setActive username active, db =>
      (.ok (db.updated username),
        db.setUser username
          (fun user => { user with active := active })
          (fun _ => rfl))
  | .delete username, db =>
      (.ok (db.updated username), db.deleteUser username)
  | .updateLastLogin username lastLoginAt, db =>
      (.ok (db.updated username),
        db.setUser username
          (fun user =>
            { user with lastLoginAt := some lastLoginAt })
          (fun _ => rfl))
  | .tryCreateFirstUser user, db => db.createFirstUser user
  | .getRepoRole username repoId, db =>
      (.ok
        ((db.roles.find? (username, repoId)).map
          RepoRoleAssignment.role),
        db)
  | .listRepoRoles repoId, db =>
      (.ok
        ((db.roles.rows.filter fun assignment =>
          assignment.repoId = repoId).mergeSort
          fun first second =>
            first.username ≤ second.username),
        db)
  | .upsertRepoRole assignment, db =>
      db.upsertRole assignment
  | .deleteRepoRole username repoId, db =>
      (.ok
        (db.roles.affected (fun assignment =>
          (assignment.username, assignment.repoId) =
            (username, repoId)) == 1),
        { db with
          roles :=
            db.roles.deleteWhere fun assignment =>
              assignment.username = username &&
                assignment.repoId = repoId })

end UserStatement

end Auth

------------------------------------------------------------
-- What A Statement Does To The Users
------------------------------------------------------------

namespace Auth

open Relational

variable {db : UserDb} {username other : String}

theorem UserDb.find?_setUser
    {set : UserRecord → UserRecord}
    {keeps :
      ∀ user, (set user).username = user.username} :
    (db.setUser username set keeps).users.find? other =
      if other = username then
        (db.users.find? other).map set
      else db.users.find? other := by
  unfold UserDb.setUser
  rw [KeyedTable.find?_updateWhere]
  cases hFind : db.users.find? other with
  | none => simp
  | some user =>
      have hKey : user.username = other :=
        KeyedTable.key_of_find? hFind
      by_cases hName : other = username
      · simp [hKey, hName]
      · simp [hKey, hName]

theorem UserDb.find?_deleteUser :
    (db.deleteUser username).users.find? other =
      if other = username then none
      else db.users.find? other := by
  unfold UserDb.deleteUser
  rw [KeyedTable.find?_deleteWhere]
  cases hFind : db.users.find? other with
  | none => simp
  | some user =>
      have hKey : user.username = other :=
        KeyedTable.key_of_find? hFind
      by_cases hName : other = username
      · simp [hKey, hName, Option.filter]
      · simp [hKey, hName, Option.filter]

theorem UserDb.updated_iff :
    db.updated username = true ↔
      (db.users.find? username).isSome := by
  unfold UserDb.updated
  rw [beq_iff_eq, KeyedTable.affected_key_eq_one]

theorem UserDb.upsertRole_users
    (assignment : RepoRoleAssignment) :
    (db.upsertRole assignment).2.users = db.users := by
  unfold UserDb.upsertRole
  split
  · rfl
  · dsimp only
    split
    · rfl
    · rfl

/- Creating a user inserts it or changes nothing. -/
theorem UserDb.createUser_cases
    (db : UserDb)
    (user : UserRecord) :
    (db.createUser user =
        (.error .uniqueConstraint, db)) ∨
      ((db.createUser user).1 = .ok () ∧
        db.users.find? user.username = none ∧
        ∀ other,
          (db.createUser user).2.users.find? other =
            if user.username = other then some user
            else db.users.find? other) := by
  unfold UserDb.createUser
  cases hInsert : db.users.insert? user with
  | none => exact Or.inl rfl
  | some users =>
      refine Or.inr ⟨rfl, ?_, ?_⟩
      · exact (KeyedTable.insert?_eq_some_iff.mp hInsert).1
      · intro other
        exact KeyedTable.find?_insert? hInsert

/- Creating the first user creates it or does nothing. -/
theorem UserDb.createFirstUser_cases
    (db : UserDb)
    (user : UserRecord) :
    (db.createFirstUser user = (.ok false, db)) ∨
      ((db.createFirstUser user).1 = .ok true ∧
        db.users.find? user.username = none ∧
        ∀ other,
          (db.createFirstUser user).2.users.find? other =
            if user.username = other then some user
            else db.users.find? other) := by
  unfold UserDb.createFirstUser
  by_cases hEmpty : db.users.rows.isEmpty = true
  · rw [if_pos hEmpty]
    have hNone : db.users.find? user.username = none := by
      rw [KeyedTable.find?_eq_none_iff]
      simp [List.isEmpty_iff.mp hEmpty]
    cases hInsert : db.users.insert? user with
    | none => simp [KeyedTable.insert?, hNone] at hInsert
    | some users =>
        refine Or.inr ⟨rfl, hNone, ?_⟩
        intro other
        exact KeyedTable.find?_insert? hInsert
  · rw [if_neg hEmpty]
    exact Or.inl rfl

namespace UserStatement

/- How a statement changes the record of its user. -/
def sets :
    UserStatement →
      Option (String × (UserRecord → UserRecord))
  | .setGlobalAdmin username isGlobalAdmin =>
      some (username, fun user =>
        { user with isGlobalAdmin := isGlobalAdmin })
  | .setCanCreateRepos username canCreateRepos =>
      some (username, fun user =>
        { user with canCreateRepos := canCreateRepos })
  | .setActive username active =>
      some (username, fun user =>
        { user with active := active })
  | .updateLastLogin username lastLoginAt =>
      some (username, fun user =>
        { user with lastLoginAt := some lastLoginAt })
  | _ => none

/- The user that a statement inserts. -/
def inserts : UserStatement → Option UserRecord
  | .create user => some user
  | .tryCreateFirstUser user => some user
  | _ => none

/-
  A statement leaves the users alone, updates one of them,
  deletes one or inserts one.
-/
theorem users_run_cases
    (statement : UserStatement)
    (db : UserDb) :
    (statement.run db).2.users = db.users ∨
      (∃ username set,
        statement.sets = some (username, set) ∧
        ∀ other,
          (statement.run db).2.users.find? other =
            if other = username then
              (db.users.find? other).map set
            else db.users.find? other) ∨
      (∃ username,
        statement = .delete username ∧
        ∀ other,
          (statement.run db).2.users.find? other =
            if other = username then none
            else db.users.find? other) ∨
      (∃ user,
        statement.inserts = some user ∧
        db.users.find? user.username = none ∧
        ∀ other,
          (statement.run db).2.users.find? other =
            if user.username = other then some user
            else db.users.find? other) := by
  cases statement with
  | count => exact Or.inl rfl
  | list => exact Or.inl rfl
  | getByUsername username => exact Or.inl rfl
  | getRepoRole username repoId => exact Or.inl rfl
  | listRepoRoles repoId => exact Or.inl rfl
  | deleteRepoRole username repoId => exact Or.inl rfl
  | upsertRepoRole assignment =>
      exact Or.inl (UserDb.upsertRole_users assignment)
  | setGlobalAdmin username isGlobalAdmin =>
      exact Or.inr (Or.inl
        ⟨_, _, rfl, fun _ => UserDb.find?_setUser⟩)
  | setCanCreateRepos username canCreateRepos =>
      exact Or.inr (Or.inl
        ⟨_, _, rfl, fun _ => UserDb.find?_setUser⟩)
  | setActive username active =>
      exact Or.inr (Or.inl
        ⟨_, _, rfl, fun _ => UserDb.find?_setUser⟩)
  | updateLastLogin username lastLoginAt =>
      exact Or.inr (Or.inl
        ⟨_, _, rfl, fun _ => UserDb.find?_setUser⟩)
  | delete username =>
      exact Or.inr (Or.inr (Or.inl
        ⟨_, rfl, fun _ => UserDb.find?_deleteUser⟩))
  | create user =>
      rcases db.createUser_cases user with hSame | hNew
      · left
        exact congrArg (fun result => result.2.users) hSame
      · exact Or.inr (Or.inr (Or.inr ⟨user, rfl, hNew.2⟩))
  | tryCreateFirstUser user =>
      rcases db.createFirstUser_cases user with
        hSame | hNew
      · left
        exact congrArg (fun result => result.2.users) hSame
      · exact Or.inr (Or.inr (Or.inr ⟨user, rfl, hNew.2⟩))

end UserStatement

end Auth

namespace Auth

open Relational

variable {db : UserDb} {username repoId : String}

theorem UserDb.role_key
    {key : String × String}
    {row : RepoRoleAssignment}
    (hFind : db.roles.find? key = some row) :
    (row.username, row.repoId) = key := by
  have hKey := KeyedTable.key_of_find? hFind
  exact hKey

/- A revocation removes the role under its key. -/
theorem UserDb.find?_deleteRole
    (key : String × String) :
    (db.roles.deleteWhere fun assignment =>
        assignment.username = username &&
          assignment.repoId = repoId).find? key =
      if (username, repoId) = key then none
      else db.roles.find? key := by
  rw [KeyedTable.find?_deleteWhere]
  cases hFind : db.roles.find? key with
  | none => simp
  | some row =>
      have hKey : (row.username, row.repoId) = key :=
        UserDb.role_key hFind
      subst hKey
      by_cases hSame :
          (username, repoId) = (row.username, row.repoId)
      · rw [if_pos hSame]
        simp only [Prod.mk.injEq] at hSame
        simp [Option.filter, hSame.1, hSame.2]
      · rw [if_neg hSame]
        simp only [Prod.mk.injEq, not_and] at hSame
        have hKept :
            ¬ (row.username = username ∧
              row.repoId = repoId) := by
          rintro ⟨hName, hRepo⟩
          exact hSame hName.symm hRepo.symm
        simpa [Option.filter] using hKept

/- A grant replaces the role under its key, unless the
   reference to the user is enforced and has no target. -/
theorem UserDb.upsertRole_cases
    (db : UserDb)
    (assignment : RepoRoleAssignment) :
    (db.foreignKeys = true ∧
        db.users.find? assignment.username = none ∧
        db.upsertRole assignment =
          (.error .foreignKeyConstraint, db)) ∨
      ((db.foreignKeys = true →
          db.users.find? assignment.username ≠ none) ∧
        ∃ roles : RoleTable,
          db.upsertRole assignment =
            (.ok (), { db with roles := roles }) ∧
          ∀ key,
            roles.find? key =
              if (assignment.username, assignment.repoId) = key
              then some assignment
              else db.roles.find? key) := by
  unfold UserDb.upsertRole
  by_cases hRefused :
      db.foreignKeys ∧
        db.users.find? assignment.username = none
  · rw [if_pos hRefused]
    exact Or.inl ⟨hRefused.1, hRefused.2, rfl⟩
  · rw [if_neg hRefused]
    right
    refine ⟨fun hKeys hNone => hRefused ⟨hKeys, hNone⟩, ?_⟩
    dsimp only
    split
    · rename_i roles hInsert
      refine ⟨roles, rfl, ?_⟩
      intro key
      rw [KeyedTable.find?_insert? hInsert,
        UserDb.find?_deleteRole]
      split
      · rfl
      · rfl
    · rename_i hInsert
      exfalso
      simp [KeyedTable.insert?, UserDb.find?_deleteRole]
        at hInsert

/- The roles of a deleted user go with it only where the
   reference is enforced. -/
theorem UserDb.find?_roles_deleteUser
    (key : String × String) :
    (db.deleteUser username).roles.find? key =
      if db.foreignKeys = true ∧
          db.updated username = true ∧ key.1 = username then
        none
      else db.roles.find? key := by
  unfold UserDb.deleteUser
  by_cases hCascades :
      (db.foreignKeys && db.updated username) = true
  · simp only [hCascades, if_true]
    rw [Bool.and_eq_true] at hCascades
    simp only [hCascades.1, hCascades.2, true_and]
    rw [KeyedTable.find?_deleteWhere]
    cases hFind : db.roles.find? key with
    | none => simp
    | some row =>
        have hKey : (row.username, row.repoId) = key :=
          UserDb.role_key hFind
        subst hKey
        by_cases hName : row.username = username
        · simp [Option.filter, hName]
        · simp [Option.filter, hName]
  · rw [if_neg hCascades, if_neg]
    intro hAll
    apply hCascades
    rw [hAll.1, hAll.2.1]
    rfl

end Auth
