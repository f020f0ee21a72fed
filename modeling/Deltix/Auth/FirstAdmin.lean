import Deltix.Auth.TokenRevocation
import Deltix.Concurrency.Records

/-
  The race for the first admin: the setup wizard and the
  bootstrap of the configured admin, called any number of
  times at once on an empty user store.

  Key definitions include:
    * `setupSystem`
    * `Creates`
    * `RaceFree`
    * `SetupInv`

  Key theorems include:
    * `setupInv_perform`
    * `setupFirstAdmin_safe`
    * `setup_race`
-/

namespace Auth

namespace FirstAdmin

open Concurrency Relational

/- The service, with stores that do not fail. -/
def setupSystem (config : AuthConfig) :
    System AuthOp AuthOp.Answer AuthState AuthChoice AuthCall
      AuthError AuthReturn where
  serve := fun _ => serveCall config
  exec := AuthOp.steady config

/- The calls that set the server up, and time. -/
def IsSetup : AuthCall → Prop
  | .setupFirstAdmin _ _ => True
  | .ensureBootstrapAdmin _ => True
  | .elapse _ => True
  | _ => False

def setupCalls :
    Allowed AuthOp AuthOp.Answer AuthState AuthCall AuthError
      AuthReturn where
  start := fun _ call _ => IsSetup call
  perform := fun _ _ _ => True

/- The user that an event has inserted, and its task. -/
def creation : AuthEvent → Option (Nat × UserRecord)
  | .performed i (.users (.tryCreateFirstUser user))
      (.ok true) _ _ => some (i, user)
  | _ => none

/- A call has inserted the first user. -/
def Creates
    (i : Nat)
    (user : UserRecord)
    (trace : List AuthEvent) : Prop :=
  ∃ event ∈ trace, creation event = some (i, user)

/- How a call of the setup wizard ends. -/
def EndsWell
    (event : AuthEvent)
    (older : List AuthEvent) : Prop :=
  ∀ i outcome username password,
    event = .finished i outcome →
      .started i (.setupFirstAdmin username password) ∈ older →
        (∃ user, Creates i user older ∧
            outcome = .ok (.user user)) ∨
          outcome =
            .error
              (.setupAlreadyConfigured
                setupAlreadyConfiguredMessage)

/-
  One user at most is created, an active global admin whose
  record nobody changes, and every call of the wizard but
  the one that created it is turned away.
-/
structure RaceFree (w : AuthWorld) : Prop where
  one :
    ∀ i j user other, Creates i user w.trace →
      Creates j other w.trace → i = j ∧ user = other
  kept :
    ∀ i user, Creates i user w.trace →
      w.state.db.users.rows = [user]
  created :
    ∀ user ∈ w.state.db.users.rows,
      (∃ i, Creates i user w.trace) ∧
        user.active = true ∧ user.isGlobalAdmin = true
  losers : Throughout EndsWell w.trace

------------------------------------------------------------
-- The Invariant
------------------------------------------------------------

/- The store is empty, or holds the one user created. -/
inductive Held
    (rows : List UserRecord)
    (trace : List AuthEvent) : Prop where
  | nobody
      (empty : rows = [])
      (none : ∀ i user, ¬ Creates i user trace)
  | somebody
      (i : Nat)
      (user : UserRecord)
      (row : rows = [user])
      (active : user.active = true)
      (admin : user.isGlobalAdmin = true)
      (created : Creates i user trace)
      (only :
        ∀ j other, Creates j other trace → j = i ∧ other = user)

structure SetupInv (w : AuthWorld) : Prop where
  once : StartsOnce w.trace
  held : Held w.state.db.users.rows w.trace
  ends : Throughout EndsWell w.trace

def setupContract :
    Contract AuthOp AuthOp.Answer AuthState AuthCall AuthError
      AuthReturn where
  inv := SetupInv
  rely := fun _ _ _ => True
  rely_refl := fun _ _ => trivial
  rely_trans := fun _ _ _ _ _ _ => trivial

/- What the setup does with the stores. -/
def Owes : AuthOp → Prop
  | .users .count => True
  | .users (.getByUsername _) => True
  | .users (.setGlobalAdmin _ isGlobalAdmin) =>
      isGlobalAdmin = true
  | .users (.tryCreateFirstUser user) =>
      user.active = true ∧ user.isGlobalAdmin = true
  | .users _ => False
  | .sessions _ => False
  | .admitAttempt _ => False
  | _ => True

variable {config : AuthConfig} {op : AuthOp}
variable {choice : AuthChoice} {answer : op.Answer}
variable {after : AuthState} {w v : AuthWorld} {i j : Nat}
variable {user : UserRecord} {event : AuthEvent}
variable {rows : List UserRecord} {trace : List AuthEvent}
variable {username : String}
variable {raised : AuthError → AuthWorld → Prop}
variable {call : AuthCall}

theorem creates_cons
    {trace : List AuthEvent} :
    Creates j user (event :: trace) ↔
      creation event = some (j, user) ∨ Creates j user trace :=
  recorded_cons

/- What a step of the setup does to the table. -/
inductive SetupStep
    (i : Nat)
    (event : AuthEvent)
    (rows later : List UserRecord) : Prop where
  | same
      (none : creation event = none)
      (rows : later = rows)
  | promotes
      (none : creation event = none)
      (username : String)
      (rows :
        later =
          rows.map fun user =>
            if user.username = username then
              { user with isGlobalAdmin := true }
            else user)
  | inserts
      (user : UserRecord)
      (creates : creation event = some (i, user))
      (active : user.active = true)
      (admin : user.isGlobalAdmin = true)
      (empty : rows = [])
      (rows : later = [user])

theorem createFirstUser_of_empty
    {db : UserDb}
    (user : UserRecord)
    (hEmpty : db.users.rows.isEmpty = true) :
    ∃ users : UserTable,
      db.createFirstUser user =
          (.ok true, { db with users := users }) ∧
        users.rows = [user] := by
  have hFree : db.users.find? user.username = none := by
    rw [KeyedTable.find?_eq_none_iff]
    simp [List.isEmpty_iff.mp hEmpty]
  unfold UserDb.createFirstUser KeyedTable.insert?
  rw [if_pos hEmpty, dif_pos hFree]
  refine ⟨_, rfl, ?_⟩
  exact congrArg (user :: ·) (List.isEmpty_iff.mp hEmpty)

theorem setupStep_exec
    (hOwes : Owes op)
    (hExec :
      op.steady config choice w.state = some (answer, after)) :
    SetupStep i
      (.performed i op answer w.state after)
      w.state.db.users.rows after.db.users.rows := by
  cases op with
  | users statement =>
      cases statement with
      | count =>
          cases hExec
          exact .same rfl rfl
      | getByUsername username =>
          cases hExec
          exact .same rfl rfl
      | setGlobalAdmin username isGlobalAdmin =>
          have hTrue : isGlobalAdmin = true := hOwes
          subst hTrue
          cases hExec
          refine .promotes rfl username ?_
          simp [UserDb.setUser, KeyedTable.updateWhere,
            UserStatement.run]
      | tryCreateFirstUser user =>
          by_cases hEmpty :
              w.state.db.users.rows.isEmpty = true
          · rcases createFirstUser_of_empty user hEmpty with
              ⟨users, hCreate, hRows⟩
            simp only [AuthOp.steady, AuthOp.exec,
              Bool.false_eq_true, if_false,
              UserStatement.run, hCreate, Option.some.injEq,
              Prod.mk.injEq] at hExec
            rw [← hExec.1, ← hExec.2]
            exact
              .inserts user rfl hOwes.1 hOwes.2
                (List.isEmpty_iff.mp hEmpty) hRows
          · simp only [AuthOp.steady, AuthOp.exec,
              Bool.false_eq_true, if_false,
              UserStatement.run, UserDb.createFirstUser,
              if_neg hEmpty, Option.some.injEq,
              Prod.mk.injEq] at hExec
            rw [← hExec.1, ← hExec.2]
            exact .same rfl rfl
      | _ => cases hOwes
  | sessions statement => cases hOwes
  | now =>
      cases hExec
      exact .same rfl rfl
  | elapse ms =>
      cases hExec
      exact .same rfl rfl
  | admitAttempt username => cases hOwes
  | verifyPassword plainPassword hash =>
      cases hExec
      exact .same rfl rfl
  | hashPassword plainPassword =>
      cases hExec
      exact .same rfl rfl
  | issueAccessToken username =>
      cases hExec
      exact .same rfl rfl
  | randomBytes =>
      cases hExec
      exact .same rfl rfl

theorem Held.keeps
    (hHeld : Held rows trace)
    (hNone : creation event = none) :
    Held rows (event :: trace) := by
  have hOld :
      ∀ k other, Creates k other (event :: trace) →
        Creates k other trace := by
    intro k other hCreates
    rcases creates_cons.mp hCreates with hNew | hOld
    · rw [hNone] at hNew
      cases hNew
    · exact hOld
  cases hHeld with
  | nobody hEmpty hNo =>
      exact .nobody hEmpty fun k other hCreates =>
        hNo k other (hOld k other hCreates)
  | somebody k user hRow hActive hAdmin hCreated hOnly =>
      exact
        .somebody k user hRow hActive hAdmin
          (creates_cons.mpr (Or.inr hCreated))
          fun m other hCreates =>
            hOnly m other (hOld m other hCreates)

/- The one user is an admin already. -/
theorem Held.promoted
    (hHeld : Held rows trace) :
    (rows.map fun user =>
        if user.username = username then
          { user with isGlobalAdmin := true }
        else user) =
      rows := by
  cases hHeld with
  | nobody hEmpty _ =>
      rw [hEmpty]
      rfl
  | somebody k user hRow _ hAdmin _ _ =>
      have hSame :
          ({ user with isGlobalAdmin := true } : UserRecord) =
            user := by
        rw [← hAdmin]
      rw [hRow, List.map_singleton, hSame, ite_self]

theorem Held.step
    {later : List UserRecord}
    (hHeld : Held rows trace)
    (hStep : SetupStep i event rows later) :
    Held later (event :: trace) := by
  cases hStep with
  | same hNone hRows =>
      rw [hRows]
      exact hHeld.keeps hNone
  | promotes hNone username hRows =>
      rw [hRows, hHeld.promoted]
      exact hHeld.keeps hNone
  | inserts user hCreates hActive hAdmin hEmpty hRows =>
      cases hHeld with
      | nobody _ hNo =>
          refine
            .somebody i user hRows hActive hAdmin
              (creates_cons.mpr (Or.inl hCreates)) ?_
          intro k other hOther
          rcases creates_cons.mp hOther with hNew | hOld
          · rw [hCreates] at hNew
            cases hNew
            exact ⟨rfl, rfl⟩
          · exact absurd hOld (hNo k other)
      | somebody k other hRow =>
          rw [hEmpty] at hRow
          cases hRow

------------------------------------------------------------
-- The Calls
------------------------------------------------------------

theorem keeps_perform
    (hInv : SetupInv w)
    (hOwes : Owes op)
    (hExec :
      op.steady config choice w.state = some (answer, after)) :
    setupContract.Keeps i w (w.perform i op answer after) := by
  refine ⟨⟨?_, ?_, ?_⟩, fun _ _ => trivial⟩
  · apply hInv.once.cons
    intro j request hEvent
    cases hEvent
  · exact hInv.held.step (setupStep_exec hOwes hExec)
  · refine ⟨?_, hInv.ends⟩
    intro j outcome username password hEvent
    cases hEvent

theorem keeps_event
    (hInv : SetupInv w)
    (hState : v.state = w.state)
    (hTrace : v.trace = event :: w.trace)
    (hNone : creation event = none)
    (hFresh :
      ∀ j request, event = .started j request → w.Fresh j)
    (hEnds : EndsWell event w.trace) :
    setupContract.Keeps i w v := by
  refine ⟨⟨?_, ?_, ?_⟩, fun _ _ => trivial⟩
  · rw [hTrace]
    exact hInv.once.cons hFresh
  · rw [hState, hTrace]
    exact hInv.held.keeps hNone
  · rw [hTrace]
    exact ⟨hEnds, hInv.ends⟩

/- What holds of a program of the setup throughout. -/
abbrev SafeSetup
    (config : AuthConfig)
    (i : Nat)
    {α : Type}
    (program : AuthProgram α)
    (post : α → AuthWorld → Prop)
    (raised : AuthError → AuthWorld → Prop)
    (w : AuthWorld) : Prop :=
  setupContract.Safe (setupSystem config) setupCalls i program
    post raised w

theorem call_safe
    {post : op.Answer → AuthWorld → Prop}
    (hOwes : Owes op)
    (hPost :
      ∀ (v : AuthWorld) choice answer after,
        op.steady config choice v.state = some (answer, after) →
          post answer (v.perform i op answer after)) :
    SafeSetup config i (perform op) post raised w := by
  intro v _ hInv _ choice answer after hExec
  exact
    ⟨keeps_perform hInv hOwes hExec,
      hPost v choice answer after hExec⟩

/- A statement that does not fail answers. -/
theorem users_safe
    {statement : UserStatement}
    {post : statement.Answer → AuthWorld → Prop}
    (hOwes : Owes (.users statement))
    (hPost :
      ∀ (v : AuthWorld) (answer : statement.Answer) db,
        statement.run v.state.db = (.ok answer, db) →
          post answer
            (v.perform i (.users statement) (.ok answer)
              { v.state with db := db }))
    (hAnswers :
      ∀ db error, (statement.run db).1 ≠ .error error) :
    SafeSetup config i (users statement) post raised w := by
  refine Contract.safe_bind ?_
  refine call_safe hOwes ?_
  intro v choice answer after hExec
  have hRun :
      some (statement.run v.state.db).1 = some answer ∧
        after =
          { v.state with db := (statement.run v.state.db).2 } := by
    cases hExec
    exact ⟨rfl, rfl⟩
  rcases hRun with ⟨hAnswer, hAfter⟩
  cases hResult : statement.run v.state.db with
  | mk result db =>
      rw [hResult] at hAnswer hAfter
      cases hAnswer
      subst hAfter
      cases result with
      | ok value => exact hPost v value db hResult
      | error error =>
          have hNot := hAnswers v.state.db error
          rw [hResult] at hNot
          exact absurd rfl hNot

theorem count_safe
    {raised : AuthError → AuthWorld → Prop} :
    SafeSetup config i (users .count) (fun _ _ => True) raised
      w := by
  refine users_safe trivial (fun _ _ _ _ => trivial) ?_
  intro db error hError
  cases hError

/- The record of a first user is one of an active admin. -/
theorem buildUserRecord_safe
    {password createdBy : String}
    {canCreateRepos : Bool}
    {raised : AuthError → AuthWorld → Prop} :
    SafeSetup config i
      (buildUserRecord username password createdBy true
        canCreateRepos)
      (fun user _ =>
        user.active = true ∧ user.isGlobalAdmin = true)
      raised w := by
  refine Contract.safe_bind ?_
  refine call_safe trivial ?_
  intro v choice passwordHash after _
  refine Contract.safe_bind ?_
  refine call_safe trivial ?_
  intro u choice createdAt later _
  exact ⟨rfl, rfl⟩

/- The insert tells its call whether it has created the
   user. -/
theorem tryCreate_safe
    (hActive : user.active = true)
    (hAdmin : user.isGlobalAdmin = true) :
    SafeSetup config i (users (.tryCreateFirstUser user))
      (fun created v =>
        created = true → Creates i user v.trace)
      raised w := by
  refine users_safe ⟨hActive, hAdmin⟩ ?_ ?_
  · intro v created db _ hTrue
    subst hTrue
    exact creates_cons.mpr (Or.inl rfl)
  · intro db error hError
    rcases db.createFirstUser_cases user with hSame | hNew
    · have hRun :
          (db.createFirstUser user).1 = .ok false :=
        congrArg Prod.fst hSame
      change (db.createFirstUser user).1 = .error error
        at hError
      rw [hRun] at hError
      cases hError
    · change (db.createFirstUser user).1 = .error error
        at hError
      rw [hNew.1] at hError
      cases hError

theorem getSetupStatus_safe
    {raised : AuthError → AuthWorld → Prop} :
    SafeSetup config i (getSetupStatus config)
      (fun _ _ => True) raised w := by
  unfold getSetupStatus
  split
  · trivial
  · refine Contract.safe_bind ?_
    refine Contract.safe_mono ?_ (fun _ _ h => h) count_safe
    intro count v _
    by_cases hCount : count = 0
    · rw [if_pos hCount]
      trivial
    · rw [if_neg hCount]
      trivial

/- A call of the wizard creates the user it returns, or says
   that setup is over. -/
theorem setupFirstAdmin_safe
    {username password : String} :
    SafeSetup config i
      (setupFirstAdmin config username password)
      (fun user v => Creates i user v.trace)
      (fun error _ =>
        error =
          .setupAlreadyConfigured
            setupAlreadyConfiguredMessage)
      w := by
  refine Contract.safe_bind ?_
  refine Contract.safe_mono ?_ (fun _ _ h => h)
    getSetupStatus_safe
  intro status v _
  refine Contract.safe_bind ?_
  refine Contract.safe_ensure ?_ (fun _ => rfl)
  intro _
  refine Contract.safe_bind ?_
  refine Contract.safe_mono ?_ (fun _ _ h => h)
    buildUserRecord_safe
  rintro user u ⟨hActive, hAdmin⟩
  refine Contract.safe_bind ?_
  refine Contract.safe_mono ?_ (fun _ _ h => h)
    (tryCreate_safe hActive hAdmin)
  intro created x hCreates
  cases created with
  | true => exact hCreates rfl
  | false => exact rfl

/- The bootstrap does what the setup may do. -/
theorem ensureBootstrapAdmin_safe
    {credentials : Option (String × String)} :
    SafeSetup config i (ensureBootstrapAdmin credentials)
      (fun _ _ => True) (fun _ _ => True) w := by
  cases credentials with
  | none => trivial
  | some credentials =>
      rcases credentials with ⟨username, password⟩
      refine Contract.safe_bind ?_
      refine Contract.safe_mono ?_ (fun _ _ h => h) count_safe
      intro count v _
      by_cases hCount : count > 0
      · rw [if_pos hCount]
        refine Contract.safe_bind ?_
        refine users_safe trivial ?_ ?_
        · intro u existing db _
          cases existing with
          | none => trivial
          | some user =>
              dsimp only
              split
              · trivial
              · refine Contract.safe_bind ?_
                refine
                  users_safe rfl (fun _ _ _ _ => trivial) ?_
                intro db error hError
                cases hError
        · intro db error hError
          cases hError
      · rw [if_neg hCount]
        refine Contract.safe_bind ?_
        refine Contract.safe_mono ?_ (fun _ _ h => h)
          buildUserRecord_safe
        rintro user u ⟨hActive, hAdmin⟩
        refine Contract.safe_bind ?_
        refine Contract.safe_mono ?_ (fun _ _ h => h)
          (tryCreate_safe hActive hAdmin)
        intro created x _
        cases created with
        | true => trivial
        | false => trivial

theorem keeps_start
    (hInv : SetupInv w)
    (hFresh : w.Fresh i) :
    setupContract.Keeps i w (w.start i call) := by
  refine keeps_event hInv rfl rfl rfl ?_ ?_
  · intro j request hEvent
    cases hEvent
    exact hFresh
  · intro j outcome username password hEvent
    cases hEvent

/- What a task that serves a call has to show for its end. -/
def Settled
    (i : Nat)
    (call : AuthCall)
    (outcome : Except AuthError AuthReturn)
    (w : AuthWorld) : Prop :=
  match call with
  | .setupFirstAdmin _ _ =>
      (∃ user, Creates i user w.trace ∧
          outcome = .ok (.user user)) ∨
        outcome =
          .error
            (.setupAlreadyConfigured
              setupAlreadyConfiguredMessage)
  | _ => True

theorem ends_of_settled
    {outcome : Except AuthError AuthReturn}
    (hInv : SetupInv w)
    (hStarted : .started i call ∈ w.trace)
    (hSettled : Settled i call outcome w) :
    setupContract.Ends i outcome w := by
  refine keeps_event hInv rfl rfl rfl ?_ ?_
  · intro j request hEvent
    cases hEvent
  · intro j result username password hEvent hWizard
    cases hEvent
    have hCall := hInv.once _ _ _ hStarted hWizard
    subst hCall
    exact hSettled

theorem serveCall_safe
    (hSetup : IsSetup call) :
    SafeSetup config i (serveCall config call)
      (fun value => Settled i call (.ok value))
      (fun error => Settled i call (.error error)) w := by
  cases call with
  | setupFirstAdmin username password =>
      refine Contract.safe_bind ?_
      refine
        Contract.safe_mono ?_ ?_ setupFirstAdmin_safe
      · intro user v hCreates
        exact Or.inl ⟨user, hCreates, rfl⟩
      · intro error v hError
        subst hError
        exact Or.inr rfl
  | ensureBootstrapAdmin credentials =>
      refine Contract.safe_bind ?_
      exact
        Contract.safe_mono (fun _ _ _ => trivial)
          (fun _ _ _ => trivial) ensureBootstrapAdmin_safe
  | elapse ms =>
      refine Contract.safe_bind ?_
      exact call_safe trivial (fun _ _ _ _ _ => trivial)
  | _ => cases hSetup

------------------------------------------------------------
-- Every Run
------------------------------------------------------------

theorem raceFree_of_inv
    (hInv : SetupInv w) :
    RaceFree w := by
  have hHeld := hInv.held
  constructor
  · intro i j user other hCreates hOther
    cases hHeld with
    | nobody _ hNo => exact absurd hCreates (hNo i user)
    | somebody k first _ _ _ _ hOnly =>
        have hFirst := hOnly i user hCreates
        have hSecond := hOnly j other hOther
        exact
          ⟨hFirst.1.trans hSecond.1.symm,
            hFirst.2.trans hSecond.2.symm⟩
  · intro i user hCreates
    cases hHeld with
    | nobody _ hNo => exact absurd hCreates (hNo i user)
    | somebody k first hRow _ _ _ hOnly =>
        rw [(hOnly i user hCreates).2]
        exact hRow
  · intro user hMember
    cases hHeld with
    | nobody hEmpty _ =>
        rw [hEmpty] at hMember
        cases hMember
    | somebody k first hRow hActive hAdmin hCreated _ =>
        rw [hRow] at hMember
        rw [List.mem_singleton.mp hMember]
        exact ⟨⟨k, hCreated⟩, hActive, hAdmin⟩
  · exact hInv.ends

/- The race has one winner at most, in every run on an empty
   store. -/
theorem setup_race
    (config : AuthConfig)
    (initial : AuthState)
    (p : Pool AuthOp AuthOp.Answer AuthState AuthCall AuthError
      AuthReturn)
    (hEmpty : initial.db.users.rows = [])
    (hRun :
      (setupSystem config).Run setupCalls
        (Pool.initial initial) p) :
    RaceFree p.world := by
  have hInitial : SetupInv ⟨initial, []⟩ :=
    { once := fun _ _ _ hMember => absurd hMember (by simp)
      held :=
        .nobody hEmpty (by
          rintro i user ⟨event, hMember, _⟩
          cases hMember)
      ends := trivial }
  have hSound :
      setupContract.PoolSafe (setupSystem config) setupCalls
        p := by
    refine Contract.sound initial hInitial ?_ hRun
    intro w i call hInv hFresh hSetup
    have hKeeps : setupContract.Keeps i w (w.start i call) :=
      keeps_start hInv hFresh
    refine ⟨hKeeps, ?_⟩
    have hServe :
        SafeSetup config i (serveCall config call)
          (fun value => Settled i call (.ok value))
          (fun error => Settled i call (.error error))
          (w.start i call) :=
      serveCall_safe hSetup
    have hStarted :
        .started i call ∈ (w.start i call).trace :=
      List.mem_cons_self
    refine
      Contract.safe_mono ?_ ?_
        (Contract.safe_with_inv hKeeps.1
          (Contract.safe_with_event hStarted hServe))
    · rintro value v ⟨hHere, hStarted, hSettled⟩
      exact ends_of_settled hHere hStarted hSettled
    · rintro error v ⟨hHere, hStarted, hSettled⟩
      exact ends_of_settled hHere hStarted hSettled
  exact raceFree_of_inv hSound.inv

def freshInstall : AuthConfig where
  accessTokenTtlSeconds := 900
  sessionTtlSeconds := 3600
  bootstrapAdminConfigured := false
  legacySeedUsers := []
  verifies := fun _ _ => false
  verifies_empty := fun _ => rfl

def nobody : AuthState where
  clock := 0
  db := UserDb.empty false
  sessions := KeyedTable.empty
  rateLimiter :=
    { maxAttempts := 5
      windowMs := 60000
      attempts := fun _ => none }

/- Two calls of the wizard and one of the bootstrap, all of
   which find the store empty. -/
def threeCallers : List (Label AuthChoice AuthCall) :=
  [ .start 1 (.setupFirstAdmin "alice" "first")
  , .start 2 (.setupFirstAdmin "bob" "second")
  , .start 3 (.ensureBootstrapAdmin (some ("root", "third")))
  , .resume 1 ⟨false, ""⟩
  , .resume 2 ⟨false, ""⟩
  , .resume 3 ⟨false, ""⟩
  , .resume 2 ⟨false, "hash of second"⟩
  , .resume 1 ⟨false, "hash of first"⟩
  , .resume 3 ⟨false, "hash of third"⟩
  , .resume 1 ⟨false, ""⟩
  , .resume 2 ⟨false, ""⟩
  , .resume 3 ⟨false, ""⟩
  , .resume 2 ⟨false, ""⟩
  , .resume 3 ⟨false, ""⟩
  , .resume 1 ⟨false, ""⟩ ]

/- The one that inserts first wins. -/
theorem setup_race_of_three :
    ∃ q : Pool AuthOp AuthOp.Answer AuthState AuthCall AuthError
        AuthReturn,
      (setupSystem freshInstall).replay? (Pool.initial nobody)
          threeCallers =
        some q ∧
        RaceFree q.world ∧
        q.world.state.db.users.rows.map UserRecord.username =
          ["bob"] := by
  have hReplay :
      ∃ q : Pool AuthOp AuthOp.Answer AuthState AuthCall
          AuthError AuthReturn,
        (setupSystem freshInstall).replay? (Pool.initial nobody)
            threeCallers =
          some q ∧
          q.world.state.db.users.rows.map
              UserRecord.username =
            ["bob"] :=
    ⟨_, rfl, by decide⟩
  rcases hReplay with ⟨q, hReplay, hRows⟩
  refine ⟨q, hReplay, ?_, hRows⟩
  refine setup_race freshInstall nobody q rfl ?_
  have hChecks :
      (setupSystem freshInstall).checks (fun _ _ _ => true)
          (Pool.initial nobody) threeCallers =
        true := by
    decide
  refine
    System.run_of_checks ?_ (fun _ _ _ _ => trivial) hChecks
      hReplay
  intro i call hMember w
  simp [threeCallers] at hMember
  rcases hMember with ⟨_, hCall⟩ | ⟨_, hCall⟩ | ⟨_, hCall⟩
  · subst hCall
    trivial
  · subst hCall
    trivial
  · subst hCall
    trivial

end FirstAdmin

end Auth
