import Deltix.Auth.UserStore

/-
  The session store: the table `sessions` and the SQL
  statements on it.

  Key definitions include:
    * `StoredSession`
    * `SessionTable`
    * `SessionStatement`
    * `SessionStatement.run`
-/

------------------------------------------------------------
-- Sessions
------------------------------------------------------------

namespace Auth

open Relational

structure StoredSession where
  refreshToken : String
  username : String
  createdAt : Nat
  expiresAt : Nat
  deriving DecidableEq, Repr

abbrev SessionTable :=
  KeyedTable StoredSession.refreshToken

/- The statements of the store, under its method names. -/
inductive SessionStatement where
  | create
      (refreshToken username : String)
      (createdAt expiresAt : Nat)
  | get (refreshToken : String)
  | touch (refreshToken : String) (newExpiresAt : Nat)
  | revoke (refreshToken : String)
  | countActiveSessionsForUser (username : String) (now : Nat)

/- `INSERT INTO sessions` -/
def insertSession
    (sessions : SessionTable)
    (session : StoredSession) :
    Except StoreError Unit × SessionTable :=
  match sessions.insert? session with
  | some next => (.ok (), next)
  | none => (.error .uniqueConstraint, sessions)

theorem insertSession_cases
    (sessions : SessionTable)
    (session : StoredSession) :
    insertSession sessions session =
        (.error .uniqueConstraint, sessions) ∨
      ((insertSession sessions session).1 = .ok () ∧
        (insertSession sessions session).2.rows =
          session :: sessions.rows) := by
  unfold insertSession
  cases hInsert : sessions.insert? session with
  | none => exact Or.inl rfl
  | some next =>
      refine Or.inr ⟨rfl, ?_⟩
      exact (KeyedTable.insert?_eq_some_iff.mp hInsert).2

namespace SessionStatement

/- What a statement answers when it is not refused. -/
abbrev Answer : SessionStatement → Type
  | .create _ _ _ _ => Unit
  | .get _ => Option StoredSession
  | .touch _ _ => Unit
  | .revoke _ => Unit
  | .countActiveSessionsForUser _ _ => Nat

/- Run a statement on the table. -/
def run :
    (statement : SessionStatement) → SessionTable →
      Except StoreError statement.Answer × SessionTable
  | .create refreshToken username createdAt expiresAt,
    sessions =>
      insertSession sessions
        { refreshToken := refreshToken
          username := username
          createdAt := createdAt
          expiresAt := expiresAt }
  | .get refreshToken, sessions =>
      (.ok (sessions.find? refreshToken), sessions)
  | .touch refreshToken newExpiresAt, sessions =>
      (.ok (),
        sessions.updateWhere
          (fun session =>
            session.refreshToken = refreshToken)
          (fun session =>
            { session with expiresAt := newExpiresAt })
          (fun _ => rfl))
  | .revoke refreshToken, sessions =>
      (.ok (),
        sessions.deleteWhere fun session =>
          session.refreshToken = refreshToken)
  | .countActiveSessionsForUser username now, sessions =>
      (.ok
        (sessions.affected fun session =>
          session.username = username &&
            now ≤ session.expiresAt),
        sessions)

section Touch

variable {sessions : SessionTable} {newExpiresAt : Nat}
variable {refreshToken other : String}

theorem find?_touch_self :
    ((touch refreshToken newExpiresAt).run
        sessions).2.find? refreshToken =
      (sessions.find? refreshToken).map fun session =>
        { session with expiresAt := newExpiresAt } := by
  simp only [run, KeyedTable.find?_updateWhere]
  apply Option.map_congr
  intro session hFind
  have hKey : session.refreshToken = refreshToken :=
    KeyedTable.key_of_find? hFind
  simp [hKey]

theorem find?_touch_of_ne (hNe : other ≠ refreshToken) :
    ((touch other newExpiresAt).run
        sessions).2.find? refreshToken =
      sessions.find? refreshToken := by
  simp only [run, KeyedTable.find?_updateWhere]
  cases hFind : sessions.find? refreshToken with
  | none => rfl
  | some session =>
      have hKey : session.refreshToken = refreshToken :=
        KeyedTable.key_of_find? hFind
      simp [hKey, hNe.symm]

end Touch

end SessionStatement

end Auth
