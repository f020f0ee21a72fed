import Deltix.Auth.AuthService
import Deltix.Concurrency.Solo

/-
  Roles and the users they belong to, when grants,
  revocations, deletions and creations interleave.

  The table `repo_roles` refers to `users` with a cascade,
  and whether the engine enforces the reference is left
  open: the store never sets the pragma.

  Key definitions include:
    * `roleSystem`
    * `GrantsHold`
    * `NoneInherited`
    * `RolesRevised`

  Key theorems include:
    * `roles_exec`
    * `chronicle_run`
    * `noneInherited_iff`
    * `grantsHold_iff`
    * `roles_follow`
-/

namespace Auth

namespace RepoRoles

open Concurrency

/- The calls on accounts and on roles. -/
inductive RoleCall where
  | account (call : AuthCall)
  | getRepoRole (username repoId : String)
  | listRepoRoles (repoId : String)
  | grantRepoRole
      (username repoId : String)
      (role : RepoRole)
      (grantedBy : String)
  | revokeRepoRole (username repoId : String)
  | grantRepoAdminToCreator (repoId username : String)
  | backfillOrphanedRepoAdmin
      (repoId bootstrapAdminUsername : String)

inductive RoleReturn where
  | account (value : AuthReturn)
  | role (role : Option RepoRole)
  | roles (assignments : List RepoRoleAssignment)
  | granted (assignment : RepoRoleAssignment)
  | revoked
  | recovered (assignment : Option RepoRoleAssignment)

def serveRole (config : AuthConfig) :
    RoleCall → AuthProgram RoleReturn
  | .account call => do
      let value ← serveCall config call
      return .account value
  | .getRepoRole username repoId => do
      let role ← getRepoRole username repoId
      return .role role
  | .listRepoRoles repoId => do
      let assignments ← listRepoRoles repoId
      return .roles assignments
  | .grantRepoRole username repoId role grantedBy => do
      let assignment ←
        grantRepoRole config username repoId role grantedBy
      return .granted assignment
  | .revokeRepoRole username repoId => do
      revokeRepoRole username repoId
      return .revoked
  | .grantRepoAdminToCreator repoId username => do
      let assignment ←
        grantRepoAdminToCreator config repoId username
      return .granted assignment
  | .backfillOrphanedRepoAdmin repoId bootstrapAdmin => do
      let assignment ←
        backfillOrphanedRepoAdmin config repoId bootstrapAdmin
      return .recovered assignment

def roleSystem (config : AuthConfig) :
    System AuthOp AuthOp.Answer AuthState AuthChoice RoleCall
      AuthError RoleReturn where
  serve := fun _ => serveRole config
  exec := AuthOp.exec config

abbrev RoleEvent : Type :=
  Event AuthOp AuthOp.Answer AuthState RoleCall AuthError
    RoleReturn

abbrev RoleWorld : Type :=
  World AuthOp AuthOp.Answer AuthState RoleCall AuthError
    RoleReturn

/- The event has deleted the user. -/
def deletes (username : String) : RoleEvent → Bool
  | .performed _ (.users (.delete other)) (.ok true) _ _ =>
      other = username
  | _ => false

/- The event has created the user. -/
def creates (username : String) : RoleEvent → Bool
  | .performed _ (.users (.create user)) (.ok _) _ _ =>
      user.username = username
  | .performed _ (.users (.tryCreateFirstUser user))
      (.ok true) _ _ =>
      user.username = username
  | _ => false

/- The assignment that the event has granted. -/
def grants : RoleEvent → Option RepoRoleAssignment
  | .performed _ (.users (.upsertRepoRole assignment))
      (.ok _) _ _ => some assignment
  | _ => none

/- The event has granted or revoked the role under a key. -/
def revises (key : String × String) : RoleEvent → Bool
  | .performed _ (.users (.upsertRepoRole assignment))
      (.ok _) _ _ =>
      (assignment.username, assignment.repoId) = key
  | .performed _ (.users (.deleteRepoRole username repoId))
      (.ok _) _ _ => (username, repoId) = key
  | _ => false

/- The role under a key before the event. -/
def heldBefore (key : String × String) :
    RoleEvent → Option RepoRoleAssignment
  | .performed _ _ _ before _ => before.db.roles.find? key
  | _ => none

/- A grant, and what is read of the role after it. -/
def grantThenRead
    (config : AuthConfig)
    (username repoId : String)
    (role : RepoRole)
    (grantedBy : String) :
    AuthProgram (Option RepoRole) := do
  let _ ← grantRepoRole config username repoId role grantedBy
  getRepoRole username repoId

/-
  Whoever passes the check for existence can be granted any
  role, and is then found to have it.
-/
def GrantsHold
    (config : AuthConfig)
    (s : AuthState) : Prop :=
  ∀ choice username repoId role grantedBy,
    runWith (AuthOp.steady config) choice
        (assertUserExists config username) s =
      some (.ok (), s) →
    ∃ t,
      runWith (AuthOp.steady config) choice
          (grantThenRead config username repoId role grantedBy)
          s =
        some (.ok (some role), t)

/-
  Whatever role a user has that was deleted and created
  again has been granted after the deletion.
-/
def NoneInherited (w : RoleWorld) : Prop :=
  ∀ username deletion newer older,
    w.trace = newer ++ deletion :: older →
      deletes username deletion = true →
      (∃ event ∈ newer, creates username event = true) →
      ∀ repoId assignment,
        w.state.db.roles.find? (username, repoId) =
            some assignment →
          ∃ event ∈ newer, grants event = some assignment

structure RolesFollow
    (config : AuthConfig)
    (w : RoleWorld) : Prop where
  grantsHold : GrantsHold config w.state
  noneInherited : NoneInherited w

/-
  Every role that a user had when it was deleted has been
  granted or revoked since, when the user was created again.
-/
def RolesRevised (w : RoleWorld) : Prop :=
  ∀ username deletion newer older,
    w.trace = newer ++ deletion :: older →
      deletes username deletion = true →
      (∃ event ∈ newer, creates username event = true) →
      ∀ repoId,
        (heldBefore (username, repoId) deletion).isSome →
          ∃ event ∈ newer,
            revises (username, repoId) event = true

/- Every legacy user has a row. -/
def LegacyHaveRows (config : AuthConfig) (db : UserDb) : Prop :=
  ∀ legacyUser ∈ config.legacySeedUsers,
    (db.users.find? legacyUser.username).isSome

------------------------------------------------------------
-- What A Step Does To The Roles
------------------------------------------------------------

open Relational

variable {config : AuthConfig} {op : AuthOp}
variable {choice : AuthChoice} {answer : op.Answer}
variable {s t : AuthState}
variable {event : RoleEvent}

theorem key_of_grants
    {assignment : RepoRoleAssignment}
    (hGrants : grants event = some assignment) :
    revises (assignment.username, assignment.repoId) event =
      true := by
  unfold grants at hGrants
  split at hGrants
  · simp only [Option.some.injEq] at hGrants
    simp [revises, hGrants]
  · cases hGrants

theorem foreignKeys_run
    (statement : UserStatement)
    (db : UserDb) :
    (statement.run db).2.foreignKeys = db.foreignKeys := by
  cases statement with
  | create user =>
      simp only [UserStatement.run, UserDb.createUser]
      split
      · rfl
      · rfl
  | tryCreateFirstUser user =>
      simp only [UserStatement.run, UserDb.createFirstUser]
      split
      · split
        · rfl
        · rfl
      · rfl
  | upsertRepoRole assignment =>
      rcases db.upsertRole_cases assignment with
        ⟨_, _, hSame⟩ | ⟨_, roles, hNew, _⟩
      · simp only [UserStatement.run, hSame]
      · simp only [UserStatement.run, hNew]
  | _ => rfl

/- The pragma never changes. -/
theorem foreignKeys_exec
    (hExec : op.exec config choice s = some (answer, t)) :
    t.db.foreignKeys = s.db.foreignKeys := by
  rcases (AuthOp.exec_frame hExec).2.1 with
    hSame | ⟨statement, _, hRun⟩
  · rw [hSame]
  · rw [hRun, foreignKeys_run]

/-
  A revision leaves the role that it grants, if any.  Else a
  role only goes with its user, where that is enforced.
-/
def roleAfter
    (foreignKeys : Bool)
    (key : String × String)
    (event : RoleEvent)
    (before : Option RepoRoleAssignment) :
    Option RepoRoleAssignment :=
  if revises key event = true then grants event
  else if foreignKeys = true ∧
      deletes key.1 event = true then none
  else before

theorem roles_upsert
    (i : Nat)
    (key : String × String)
    (assignment : RepoRoleAssignment) :
    (s.db.upsertRole assignment).2.roles.find? key =
      roleAfter s.db.foreignKeys key
        (.performed i (.users (.upsertRepoRole assignment))
          (s.db.upsertRole assignment).1 s t)
        (s.db.roles.find? key) := by
  rcases s.db.upsertRole_cases assignment with
    ⟨_, _, hRefused⟩ | ⟨_, roles, hGranted, hFind⟩
  · rw [hRefused]
    simp [roleAfter, revises, deletes]
  · rw [hGranted]
    simp only [roleAfter, revises, deletes, grants,
      decide_eq_true_eq, Bool.false_eq_true, and_false,
      if_false]
    exact hFind key

theorem roles_revoke
    (i : Nat)
    (key : String × String)
    (username repoId : String)
    (deleted : Bool) :
    (s.db.roles.deleteWhere fun assignment =>
        assignment.username = username &&
          assignment.repoId = repoId).find? key =
      roleAfter s.db.foreignKeys key
        (.performed i
          (.users (.deleteRepoRole username repoId))
          (.ok deleted) s t)
        (s.db.roles.find? key) := by
  rw [UserDb.find?_deleteRole]
  simp only [roleAfter, revises, deletes, grants,
    decide_eq_true_eq, Bool.false_eq_true, and_false,
    if_false]

theorem roles_delete
    (i : Nat)
    (key : String × String)
    (username : String) :
    (s.db.deleteUser username).roles.find? key =
      roleAfter s.db.foreignKeys key
        (.performed i (.users (.delete username))
          (.ok (s.db.updated username)) s t)
        (s.db.roles.find? key) := by
  rw [UserDb.find?_roles_deleteUser]
  cases hUpdated : s.db.updated username with
  | false => simp [roleAfter, revises, deletes]
  | true =>
      simp only [roleAfter, revises, deletes,
        decide_eq_true_eq, Bool.false_eq_true, if_false,
        true_and]
      by_cases hName : key.1 = username
      · simp [hName]
      · have hOther : ¬ username = key.1 :=
          fun hSame => hName hSame.symm
        simp [hName, hOther]

theorem roleAfter_of_same
    {key : String × String}
    {foreignKeys : Bool}
    {before : Option RepoRoleAssignment}
    (hRevises : revises key event = false)
    (hDeletes : deletes key.1 event = false) :
    roleAfter foreignKeys key event before = before := by
  simp [roleAfter, hRevises, hDeletes]

theorem roles_statement
    (i : Nat)
    (key : String × String)
    (statement : UserStatement) :
    (statement.run s.db).2.roles.find? key =
      roleAfter s.db.foreignKeys key
        (.performed i (.users statement)
          (statement.run s.db).1 s t)
        (s.db.roles.find? key) := by
  cases statement with
  | upsertRepoRole assignment => exact roles_upsert i key _
  | deleteRepoRole username repoId =>
      exact roles_revoke i key username repoId _
  | delete username => exact roles_delete i key username
  | create user =>
      rw [roleAfter_of_same rfl rfl]
      simp only [UserStatement.run, UserDb.createUser]
      split
      · rfl
      · rfl
  | tryCreateFirstUser user =>
      rw [roleAfter_of_same rfl rfl]
      simp only [UserStatement.run, UserDb.createFirstUser]
      split
      · split
        · rfl
        · rfl
      · rfl
  | _ => exact (roleAfter_of_same rfl rfl).symm

theorem roles_exec
    (i : Nat)
    (key : String × String)
    (hExec : op.exec config choice s = some (answer, t)) :
    t.db.roles.find? key =
      roleAfter s.db.foreignKeys key
        (.performed i op answer s t)
        (s.db.roles.find? key) := by
  cases op with
  | users statement =>
      by_cases hFails : choice.fails = true
      · simp only [AuthOp.exec, hFails, if_true,
          Option.some.injEq, Prod.mk.injEq] at hExec
        rw [← hExec.1, ← hExec.2]
        cases statement with
        | _ => exact (roleAfter_of_same rfl rfl).symm
      · simp only [AuthOp.exec, hFails, Bool.false_eq_true,
          if_false, Option.some.injEq, Prod.mk.injEq] at hExec
        rw [← hExec.1, ← hExec.2]
        exact roles_statement i key statement
  | _ =>
      rw [roleAfter_of_same rfl rfl]
      rcases (AuthOp.exec_frame hExec).2.1 with
        hSame | ⟨statement, hUsers, _⟩
      · rw [hSame]
      · cases hUsers

------------------------------------------------------------
-- The Roles Since A Deletion
------------------------------------------------------------

variable {initial : AuthState} {after : AuthState}
variable {w : RoleWorld} {event : RoleEvent}
variable {foreignKeys : Bool} {i : Nat}

/- What the events since a deletion have made of a role. -/
def rolesSince
    (foreignKeys : Bool)
    (key : String × String)
    (newer : List RoleEvent)
    (deletion : RoleEvent) : Option RepoRoleAssignment :=
  newer.foldr (roleAfter foreignKeys key)
    (if foreignKeys = true then none
      else heldBefore key deletion)

/- The table holds what the history says. -/
structure Chronicle
    (foreignKeys : Bool)
    (w : RoleWorld) : Prop where
  constant : w.state.db.foreignKeys = foreignKeys
  since :
    ∀ username repoId deletion newer older,
      w.trace = newer ++ deletion :: older →
        deletes username deletion = true →
        w.state.db.roles.find? (username, repoId) =
          rolesSince foreignKeys (username, repoId) newer
            deletion

/- An event that performs nothing adds nothing. -/
theorem chronicle_silent
    {later : RoleWorld}
    (hChronicle : Chronicle foreignKeys w)
    (hState : later.state = w.state)
    (hTrace : later.trace = event :: w.trace)
    (hDeletes : ∀ username, deletes username event = false)
    (hRevises : ∀ key, revises key event = false) :
    Chronicle foreignKeys later := by
  constructor
  · rw [hState]
    exact hChronicle.constant
  · intro username repoId deletion newer older hSplit hDeleted
    rw [hTrace, List.cons_eq_append_iff] at hSplit
    rcases hSplit with ⟨_, hHead⟩ | ⟨rest, hNewer, hRest⟩
    · have hEvent : deletion = event := by
        injection hHead
      rw [hEvent, hDeletes username] at hDeleted
      cases hDeleted
    · rw [hState, hNewer,
        hChronicle.since _ repoId _ _ _ hRest hDeleted]
      unfold rolesSince
      rw [List.foldr_cons,
        roleAfter_of_same (hRevises _) (hDeletes _)]

theorem chronicle_perform
    (hChronicle : Chronicle foreignKeys w)
    (hExec :
      op.exec config choice w.state = some (answer, after)) :
    Chronicle foreignKeys (w.perform i op answer after) := by
  constructor
  · rw [World.perform_state, foreignKeys_exec hExec]
    exact hChronicle.constant
  · intro username repoId deletion newer older hSplit hDeleted
    have hAfter := roles_exec i (username, repoId) hExec
    rw [hChronicle.constant] at hAfter
    rw [World.perform_trace, List.cons_eq_append_iff] at hSplit
    rcases hSplit with ⟨hNewer, hHead⟩ | ⟨rest, hNewer, hRest⟩
    · -- The deletion is the newest event.
      have hEvent :
          deletion =
            .performed i op answer w.state after := by
        injection hHead
      subst hEvent
      have hRevises :
          revises (username, repoId)
              (.performed i op answer w.state after) =
            false := by
        unfold deletes at hDeleted
        split at hDeleted
        · rename_i hSame
          cases hSame
          rfl
        · cases hDeleted
      simpa [rolesSince, roleAfter, hNewer, hRevises,
        hDeleted, heldBefore] using hAfter
    · have hBefore :=
        hChronicle.since _ repoId _ _ _ hRest hDeleted
      rw [hNewer, World.perform_state, hAfter, hBefore]
      unfold rolesSince
      rw [List.foldr_cons]

theorem chronicle_settle
    {rest : Async AuthOp AuthOp.Answer AuthError RoleReturn}
    (hChronicle : Chronicle foreignKeys w) :
    Chronicle foreignKeys (w.settle i rest) := by
  unfold World.settle
  split
  · apply chronicle_silent hChronicle
    · exact World.finish_state w i _
    · exact World.finish_trace w i _
    · intro username
      rfl
    · intro key
      rfl
  · exact hChronicle

/- Every run keeps the chronicle. -/
theorem chronicle_run
    {p : Pool AuthOp AuthOp.Answer AuthState RoleCall AuthError
      RoleReturn}
    (hRun :
      (roleSystem config).Run .everything
        (Pool.initial initial) p) :
    Chronicle initial.db.foreignKeys p.world := by
  refine
    System.Run.invariant
      (P := fun q =>
        Chronicle initial.db.foreignKeys q.world)
      ?_ ?_ hRun
  · constructor
    · rfl
    · intro username repoId deletion newer older hSplit
      simp [Pool.initial] at hSplit
  · intro q r label hChronicle _ hMoved
    cases label with
    | start i call =>
        rw [(System.start_cases hMoved).2]
        apply chronicle_settle
        apply chronicle_silent hChronicle
        · exact World.start_state q.world i call
        · exact World.start_trace q.world i call
        · intro username
          rfl
        · intro key
          rfl
    | resume i choice =>
        rcases System.resume_cases hMoved with
          ⟨op, resume, answer, after, _, hExec, hNext⟩
        rw [hNext]
        apply chronicle_settle
        exact chronicle_perform hChronicle hExec

variable {key : String × String} {newer : List RoleEvent}
variable {deletion : RoleEvent}
variable {assignment : RepoRoleAssignment}

/- A role that was not granted since the deletion is the one
   from before it, and nobody has touched it. -/
theorem granted_or_held
    (hSince :
      rolesSince foreignKeys key newer deletion =
        some assignment) :
    (∃ event ∈ newer, grants event = some assignment) ∨
      foreignKeys = false ∧
        heldBefore key deletion = some assignment ∧
        ∀ event ∈ newer, revises key event = false := by
  unfold rolesSince at hSince
  induction newer with
  | nil =>
      right
      cases foreignKeys with
      | true => cases hSince
      | false =>
          refine ⟨rfl, hSince, ?_⟩
          intro event hMember
          cases hMember
  | cons event rest ih =>
      rw [List.foldr_cons] at hSince
      unfold roleAfter at hSince
      split at hSince
      · left
        exact ⟨event, List.mem_cons_self, hSince⟩
      · rename_i hRevises
        split at hSince
        · cases hSince
        · rcases ih hSince with
            ⟨other, hMember, hGrants⟩ | ⟨hOff, hHeld, hNone⟩
          · left
            exact
              ⟨other, List.mem_cons_of_mem _ hMember, hGrants⟩
          · right
            refine ⟨hOff, hHeld, ?_⟩
            intro other hMember
            rcases List.mem_cons.mp hMember with hNew | hOld
            · rw [hNew]
              simpa using hRevises
            · exact hNone other hOld

theorem rolesSince_of_unrevised
    (hNone : ∀ event ∈ newer, revises key event = false) :
    rolesSince false key newer deletion =
      heldBefore key deletion := by
  unfold rolesSince
  induction newer with
  | nil => rfl
  | cons event rest ih =>
      have hRest :
          ∀ other ∈ rest, revises key other = false := by
        intro other hMember
        exact hNone other (List.mem_cons_of_mem _ hMember)
      rw [List.foldr_cons, ih hRest]
      simp [roleAfter, hNone event List.mem_cons_self]

theorem noneInherited_iff
    (hChronicle : Chronicle foreignKeys w) :
    NoneInherited w ↔ foreignKeys = true ∨ RolesRevised w := by
  constructor
  · intro hNone
    cases hKeys : foreignKeys with
    | true => exact Or.inl rfl
    | false =>
        right
        intro username deletion newer older hSplit hDeleted
          hCreated repoId hHeld
        by_contra hUnrevised
        have hAll :
            ∀ event ∈ newer,
              revises (username, repoId) event = false := by
          intro event hMember
          by_contra hRevises
          apply hUnrevised
          exact
            ⟨event, hMember, Bool.eq_true_of_not_eq_false
              hRevises⟩
        have hFind :=
          hChronicle.since _ repoId _ _ _ hSplit hDeleted
        rw [hKeys, rolesSince_of_unrevised hAll] at hFind
        rcases Option.isSome_iff_exists.mp hHeld with
          ⟨assignment, hAssignment⟩
        rw [hAssignment] at hFind
        rcases
            hNone _ _ _ _ hSplit hDeleted hCreated _ _ hFind
          with ⟨event, hMember, hGrants⟩
        have hRevises := key_of_grants hGrants
        rw [UserDb.role_key hFind, hAll event hMember]
          at hRevises
        cases hRevises
  · intro hRevised username deletion newer older hSplit
      hDeleted hCreated repoId assignment hFind
    rw [hChronicle.since _ repoId _ _ _ hSplit hDeleted]
      at hFind
    rcases granted_or_held hFind with
      hGranted | ⟨hOff, hHeld, hNone⟩
    · exact hGranted
    · exfalso
      rcases hRevised with hOn | hRevised
      · rw [hOn] at hOff
        cases hOff
      · have hSome :
            (heldBefore (username, repoId) deletion).isSome := by
          rw [hHeld]
          rfl
        rcases
            hRevised _ _ _ _ hSplit hDeleted hCreated _ hSome
          with ⟨event, hMember, hRevises⟩
        rw [hNone event hMember] at hRevises
        cases hRevises

------------------------------------------------------------
-- Grants To Accepted Users
------------------------------------------------------------

variable {username : String}

theorem runWith_users
    (statement : UserStatement) :
    runWith (AuthOp.steady config) choice
        (users statement) s =
      some
        ((statement.run s.db).1.mapError AuthError.store,
          { s with db := (statement.run s.db).2 }) := by
  unfold users perform Async.call
  rw [Async.bind_await, runWith_await rfl]
  rw [Async.bind_returned]
  cases hAnswer : (statement.run s.db).1 with
  | ok answer => simp [Except.mapError]
  | error error => simp [Except.mapError]

/- Who passes: whoever has a row, and the legacy users. -/
theorem runWith_assertUserExists :
    runWith (AuthOp.steady config) choice
        (assertUserExists config username) s =
      some
        (if (s.db.users.find? username).isSome = true ∨
            config.legacySeedUsers.any (fun candidate =>
              candidate.username = username) = true then
          .ok ()
        else .error (.userNotFound username), s) := by
  unfold assertUserExists
  change runWith _ _ ((users _).bind _) s = _
  rw [runWith_bind, runWith_users]
  simp only [UserStatement.run, Except.mapError]
  cases hFind : s.db.users.find? username with
  | some user => simp
  | none =>
      unfold Async.ensure
      by_cases hLegacy :
          config.legacySeedUsers.any (fun candidate =>
            candidate.username = username) = true
      · simp [hLegacy]
      · simp only [hLegacy]
        simp

/- A grant to an accepted user, alone, is refused by the
   engine or read back. -/
theorem runWith_grantThenRead
    {repoId : String}
    {role : RepoRole}
    {grantedBy : String}
    (hAccepted :
      runWith (AuthOp.steady config) choice
          (assertUserExists config username) s =
        some (.ok (), s)) :
    (s.db.foreignKeys = true ∧
        s.db.users.find? username = none ∧
        runWith (AuthOp.steady config) choice
            (grantThenRead config username repoId role
              grantedBy) s =
          some (.error (.store .foreignKeyConstraint), s)) ∨
      ((s.db.foreignKeys = true →
          s.db.users.find? username ≠ none) ∧
        ∃ t,
          runWith (AuthOp.steady config) choice
              (grantThenRead config username repoId role
                grantedBy) s =
            some (.ok (some role), t)) := by
  have hGrant :
      runWith (AuthOp.steady config) choice
          (grantRepoRole config username repoId role grantedBy)
          s =
        runWith (AuthOp.steady config) choice
          ((users
            (.upsertRepoRole
              { username := username
                repoId := repoId
                role := role
                grantedAt := s.clock
                grantedBy := grantedBy })).bind
            fun _ =>
              .returned
                { username := username
                  repoId := repoId
                  role := role
                  grantedAt := s.clock
                  grantedBy := grantedBy }) s := by
    unfold grantRepoRole
    rw [Async.bind_eq, runWith_bind_ok hAccepted]
    rfl
  unfold grantThenRead
  rw [Async.bind_eq, runWith_bind, hGrant, runWith_bind,
    runWith_users]
  rcases
      s.db.upsertRole_cases
        { username := username
          repoId := repoId
          role := role
          grantedAt := s.clock
          grantedBy := grantedBy } with
    ⟨hKeys, hNone, hRefused⟩ | ⟨hRow, roles, hGranted, hFind⟩
  · left
    refine ⟨hKeys, hNone, ?_⟩
    simp [UserStatement.run, hRefused, Except.mapError]
  · right
    refine ⟨hRow, ?_⟩
    have hRead := hFind (username, repoId)
    rw [if_pos rfl] at hRead
    simp only [UserStatement.run, hGranted, Except.mapError,
      runWith_returned]
    unfold getRepoRole
    rw [runWith_users]
    simp [UserStatement.run, hRead, Except.mapError]

theorem accepted_iff :
    runWith (AuthOp.steady config) choice
        (assertUserExists config username) s =
      some (.ok (), s) ↔
    (s.db.users.find? username).isSome = true ∨
      config.legacySeedUsers.any (fun candidate =>
        candidate.username = username) = true := by
  rw [runWith_assertUserExists]
  constructor
  · intro hOk
    by_contra hNot
    rw [if_neg hNot] at hOk
    simp at hOk
  · intro hAccepted
    rw [if_pos hAccepted]

theorem grantsHold_iff :
    GrantsHold config s ↔
      (s.db.foreignKeys = true →
        LegacyHaveRows config s.db) := by
  constructor
  · intro hGrants hKeys legacyUser hMember
    have hAccepted :
        runWith (AuthOp.steady config) ⟨false, ""⟩
            (assertUserExists config legacyUser.username) s =
          some (.ok (), s) := by
      rw [accepted_iff]
      right
      rw [List.any_eq_true]
      exact ⟨legacyUser, hMember, by simp⟩
    rcases
        hGrants ⟨false, ""⟩ legacyUser.username "" .reader ""
          hAccepted with
      ⟨t, hRead⟩
    rcases runWith_grantThenRead hAccepted with
      ⟨_, _, hRefused⟩ | ⟨hRow, _⟩
    · rw [hRefused] at hRead
      simp at hRead
    · exact Option.isSome_iff_ne_none.mpr (hRow hKeys)
  · intro hLegacy choice username repoId role grantedBy
      hAccepted
    rcases runWith_grantThenRead hAccepted with
      ⟨hKeys, hNone, _⟩ | ⟨_, hRead⟩
    · exfalso
      rcases accepted_iff.mp hAccepted with hSome | hListed
      · rw [hNone] at hSome
        cases hSome
      · rw [List.any_eq_true] at hListed
        rcases hListed with ⟨legacyUser, hMember, hName⟩
        have hRow := hLegacy hKeys legacyUser hMember
        rw [of_decide_eq_true hName, hNone] at hRow
        cases hRow
    · exact hRead

------------------------------------------------------------
-- Role Rows Follow Users
------------------------------------------------------------

/-
  In every state that any interleaving of the calls reaches,
  the roles follow the users exactly when the legacy users
  have rows, where the engine enforces the reference, and
  where it does not, when the roles of the users created
  again have been revised.
-/
theorem roles_follow
    (config : AuthConfig)
    (initial : AuthState)
    (p : Pool AuthOp AuthOp.Answer AuthState RoleCall AuthError
      RoleReturn)
    (hRun :
      (roleSystem config).Run .everything
        (Pool.initial initial) p) :
    RolesFollow config p.world ↔
      if initial.db.foreignKeys = true then
        LegacyHaveRows config p.world.state.db
      else RolesRevised p.world := by
  have hChronicle := chronicle_run hRun
  have hConstant := hChronicle.constant
  constructor
  · rintro ⟨hGrants, hNone⟩
    split
    · rename_i hKeys
      apply grantsHold_iff.mp hGrants
      rw [hConstant, hKeys]
    · rename_i hKeys
      rcases (noneInherited_iff hChronicle).mp hNone with
        hOn | hRevised
      · exact absurd hOn hKeys
      · exact hRevised
  · intro hCondition
    constructor
    · rw [grantsHold_iff]
      intro hKeys
      rw [hConstant] at hKeys
      rw [if_pos hKeys] at hCondition
      exact hCondition
    · rw [noneInherited_iff hChronicle]
      by_cases hKeys : initial.db.foreignKeys = true
      · exact Or.inl hKeys
      · rw [if_neg hKeys] at hCondition
        exact Or.inr hCondition

/- One user of the environment, without a row. -/
def legacyInstall : AuthConfig where
  accessTokenTtlSeconds := 900
  sessionTtlSeconds := 3600
  bootstrapAdminConfigured := false
  legacySeedUsers := [⟨"old", ""⟩]
  verifies := fun _ _ => false
  verifies_empty := fun _ => rfl

def nobodyYet (foreignKeys : Bool) : AuthState where
  clock := 0
  db := UserDb.empty foreignKeys
  sessions := KeyedTable.empty
  rateLimiter :=
    { maxAttempts := 5
      windowMs := 60000
      attempts := fun _ => none }

def eve : CreateUserInput where
  username := "eve"
  password := "secret"
  createdBy := "root"
  isGlobalAdmin := none
  canCreateRepos := none

/- A user is created, made admin of `r`, deleted, and
   created again. -/
def recreated : List (Label AuthChoice RoleCall) :=
  [ .start 1 (.account (.createUser eve)) ] ++
    List.replicate 4 (.resume 1 ⟨false, "hash"⟩) ++
  [ .start 2 (.grantRepoRole "eve" "r" .admin "root") ] ++
    List.replicate 3 (.resume 2 ⟨false, ""⟩) ++
  [ .start 3 (.account (.deleteUser "eve")) ] ++
    List.replicate 3 (.resume 3 ⟨false, ""⟩) ++
  [ .start 4 (.account (.createUser eve)) ] ++
    List.replicate 4 (.resume 4 ⟨false, "hash"⟩)

theorem roles_follow_of_grant :
    ∃ q : Pool AuthOp AuthOp.Answer AuthState RoleCall
        AuthError RoleReturn,
      (roleSystem legacyInstall).replay?
          (Pool.initial (nobodyYet false))
          [.start 1 (.grantRepoRole "old" "r" .writer "root"),
            .resume 1 ⟨false, ""⟩, .resume 1 ⟨false, ""⟩,
            .resume 1 ⟨false, ""⟩] =
        some q ∧
        q.world.state.db.roles.rows.length = 1 ∧
        (RolesFollow legacyInstall q.world ↔
          RolesRevised q.world) := by
  have hReplay :
      ∃ q : Pool AuthOp AuthOp.Answer AuthState RoleCall
          AuthError RoleReturn,
        (roleSystem legacyInstall).replay?
            (Pool.initial (nobodyYet false))
            [.start 1
              (.grantRepoRole "old" "r" .writer "root"),
              .resume 1 ⟨false, ""⟩, .resume 1 ⟨false, ""⟩,
              .resume 1 ⟨false, ""⟩] =
          some q ∧
          q.world.state.db.roles.rows.length = 1 :=
    ⟨_, rfl, by decide⟩
  rcases hReplay with ⟨q, hReplay, hRows⟩
  refine ⟨q, hReplay, hRows, ?_⟩
  exact
    roles_follow legacyInstall (nobodyYet false) q
      (System.run_of_replay? hReplay)

theorem granted_after
    {repoId : String}
    {k : Nat}
    (hNone : NoneInherited w)
    (hDeleted :
      (w.trace[k]?).any (deletes username) = true)
    (hCreated :
      (w.trace.take k).any (creates username) = true)
    (hHeld :
      (w.state.db.roles.find? (username, repoId)).isSome) :
    ∃ event ∈ w.trace.take k, (grants event).isSome := by
  rw [Option.any_eq_true] at hDeleted
  rcases hDeleted with ⟨deletion, hAt, hDeletes⟩
  rcases List.getElem?_eq_some_iff.mp hAt with ⟨hBound, hGet⟩
  have hSplit :
      w.trace =
        w.trace.take k ++ deletion :: w.trace.drop (k + 1) := by
    rw [← hGet, List.getElem_cons_drop, List.take_append_drop]
  rcases Option.isSome_iff_exists.mp hHeld with
    ⟨assignment, hFind⟩
  rcases
      hNone _ _ _ _ hSplit hDeletes (List.any_eq_true.mp hCreated)
        _ _ hFind with
    ⟨event, hMember, hGrants⟩
  refine ⟨event, hMember, ?_⟩
  rw [hGrants]
  rfl

/-
  Without enforcement the recreated user is admin of `r`
  still.  With it the legacy user passes the check and
  cannot be granted a role.
-/
theorem recreated_inherits :
    (∃ q : Pool AuthOp AuthOp.Answer AuthState RoleCall
        AuthError RoleReturn,
      (roleSystem legacyInstall).replay?
          (Pool.initial (nobodyYet false)) recreated =
        some q ∧
        ¬ RolesFollow legacyInstall q.world) ∧
      ¬ RolesFollow legacyInstall
        (Pool.initial (nobodyYet true) :
          Pool AuthOp AuthOp.Answer AuthState RoleCall AuthError
            RoleReturn).world := by
  constructor
  · have hReplay :
        ∃ q : Pool AuthOp AuthOp.Answer AuthState RoleCall
            AuthError RoleReturn,
          (roleSystem legacyInstall).replay?
              (Pool.initial (nobodyYet false)) recreated =
            some q ∧
            (q.world.trace[7]?).any (deletes "eve") = true ∧
            (q.world.trace.take 7).any (creates "eve") =
              true ∧
            (q.world.state.db.roles.find? ("eve", "r")).isSome ∧
            (q.world.trace.take 7).all (fun event =>
              (grants event).isNone) = true :=
      ⟨_, rfl, by decide⟩
    rcases hReplay with
      ⟨q, hReplay, hDeleted, hCreated, hHeld, hUngranted⟩
    refine ⟨q, hReplay, ?_⟩
    intro hFollow
    rcases
        granted_after hFollow.noneInherited hDeleted hCreated
          hHeld with
      ⟨event, hMember, hGranted⟩
    have hNone := List.all_eq_true.mp hUngranted event hMember
    rw [Option.isNone_iff_eq_none.mp hNone] at hGranted
    cases hGranted
  · intro hFollow
    have hLegacy := grantsHold_iff.mp hFollow.grantsHold rfl
    have hRow := hLegacy ⟨"old", ""⟩ List.mem_cons_self
    cases hRow

end RepoRoles

end Auth
