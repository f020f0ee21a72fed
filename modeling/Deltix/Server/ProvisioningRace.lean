import Deltix.Concurrency.Records
import Deltix.Server.ProvisioningAlone

/-
  Attempts to create the same repository, any number of them
  at once: the binary does not start over, so the one whose
  `dolt init` comes first is the only one that goes on.

  Key definitions include:
    * `provisionSystem`
    * `LateFree`
    * `Orderly`
    * `Fate`

  Key theorems include:
    * `raceStep_exec`
    * `Orderly.step`
    * `attempt_safe`
    * `raceInv_run`
-/

------------------------------------------------------------
-- The System
------------------------------------------------------------

namespace Server

namespace Provisioning

open Auth Concurrency Relational Transfer Versioning

def provisionSystem (config : ProvisionConfig) :
    System ProvisionOp ProvisionOp.Answer ProvisionState
      ProvisionChoice Attempt ProvisionError Attempted where
  serve := fun _ a => attempt config a
  exec := ProvisionOp.exec

abbrev ProvisionEvent : Type :=
  Event ProvisionOp ProvisionOp.Answer ProvisionState Attempt
    ProvisionError Attempted

abbrev ProvisionWorld : Type :=
  World ProvisionOp ProvisionOp.Answer ProvisionState Attempt
    ProvisionError Attempted

abbrev ProvisionPool : Type :=
  Pool ProvisionOp ProvisionOp.Answer ProvisionState Attempt
    ProvisionError Attempted

/- Attempts on one repository. -/
def attemptsOn (repoId : String) :
    Allowed ProvisionOp ProvisionOp.Answer ProvisionState
      Attempt ProvisionError Attempted where
  start := fun _ a _ => a.repoId = repoId
  perform := fun _ _ _ => True

/- What an event shows that its attempt has got to. -/
inductive Mark where
  | made
  | won
  | recorded (record : RepoRecord)
  | granted (username : String)
  deriving DecidableEq, Repr

def markOf : ProvisionEvent → Option (Nat × Mark)
  | .performed i (.mkdir _) (.ok _) _ _ => some (i, .made)
  | .performed i (.doltInit _) result _ _ =>
      if result.exitCode = 0 then some (i, .won) else none
  | .performed i (.createRepo record) (.ok _) _ _ =>
      some (i, .recorded record)
  | .performed i (.users (.upsertRepoRole assignment)) (.ok _)
      _ _ =>
      some (i, .granted assignment.username)
  | _ => none

/- An operation has failed.  The binary has not if it has been
   run in the directory before. -/
def eventFails : ProvisionEvent → Bool
  | .performed _ (.users _) (.error .unavailable) _ _ => true
  | .performed _ (.getRepo _) (.error _) _ _ => true
  | .performed _ (.createRepo _) (.error .unavailable) _ _ =>
      true
  | .performed _ (.mkdir _) (.error _) _ _ => true
  | .performed _ (.doltInit path) result before _ =>
      result.exitCode != 0 &&
        before.directories path != .initialized
  | _ => false

/- No attempt fails once it has made its directory. -/
def LateFree (trace : List ProvisionEvent) : Prop :=
  Throughout
    (fun event older =>
      eventFails event = true →
        ¬ Recorded markOf (event.task, .made) older)
    trace

def NoFailure (trace : List ProvisionEvent) : Prop :=
  ∀ event ∈ trace, eventFails event = false

theorem task_of_markOf
    (event : ProvisionEvent)
    (j : Nat)
    (m : Mark)
    (hMark : markOf event = some (j, m)) :
    event.task = j := by
  unfold markOf at hMark
  split at hMark
  · cases hMark
    rfl
  · split at hMark
    · cases hMark
      rfl
    · cases hMark
  · cases hMark
    rfl
  · cases hMark
    rfl
  · cases hMark

------------------------------------------------------------
-- What A Step Does
------------------------------------------------------------

variable {config : ProvisionConfig} {repoId : String}
variable {op : ProvisionOp} {choice : ProvisionChoice}
variable {answer : op.Answer} {s t : ProvisionState} {i : Nat}

/- What an operation of an attempt does to the repository. -/
inductive RaceStep
    (config : ProvisionConfig)
    (repoId : String)
    (i : Nat)
    (event : ProvisionEvent)
    (s t : ProvisionState) : Prop where
  | quiet
      (none : markOf event = none)
      (db : t.db = s.db)
      (repos : t.repos = s.repos)
      (directories : t.directories = s.directories)
  | made
      (mark : markOf event = some (i, .made))
      (db : t.db = s.db)
      (repos : t.repos = s.repos)
      (still :
        t.directories (config.doltPath repoId) = .initialized →
          s.directories (config.doltPath repoId) = .initialized)
      (kept :
        s.directories (config.doltPath repoId) = .initialized →
          t.directories (config.doltPath repoId) = .initialized)
  | won
      (mark : markOf event = some (i, .won))
      (db : t.db = s.db)
      (repos : t.repos = s.repos)
      (empty :
        s.directories (config.doltPath repoId) = .empty)
      (initialized :
        t.directories (config.doltPath repoId) = .initialized)
  | recorded
      (record : RepoRecord)
      (mark : markOf event = some (i, .recorded record))
      (db : t.db = s.db)
      (directories : t.directories = s.directories)
      (free : s.repos.find? repoId = none)
      (there : t.repos.find? repoId = some record)
  | granted
      (username : String)
      (mark : markOf event = some (i, .granted username))
      (users : t.db.users = s.db.users)
      (repos : t.repos = s.repos)
      (directories : t.directories = s.directories)
      (roles :
        ∀ user,
          roleOn t.db user repoId =
            if user = username then some .admin
            else roleOn s.db user repoId)

/- What an attempt on the repository does. -/
def Owes (config : ProvisionConfig) (repoId : String) :
    ProvisionOp → Prop
  | .now => True
  | .users (.getByUsername _) => True
  | .users (.upsertRepoRole assignment) =>
      assignment.repoId = repoId ∧ assignment.role = .admin
  | .users _ => False
  | .getRepo other => other = repoId
  | .createRepo record => record.repoId = repoId
  | .mkdir path => path = config.doltPath repoId
  | .doltInit path => path = config.doltPath repoId

theorem directories_makeDirectory
    (path : String)
    (s : ProvisionState) :
    (makeDirectory path s).db = s.db ∧
      (makeDirectory path s).repos = s.repos ∧
      ((makeDirectory path s).directories path = .initialized ↔
        s.directories path = .initialized) := by
  unfold makeDirectory
  cases hDirectory : s.directories path with
  | absent =>
      refine ⟨rfl, rfl, ?_⟩
      simp [ProvisionState.setDirectory]
  | empty =>
      refine ⟨rfl, rfl, ?_⟩
      rw [hDirectory]
  | initialized =>
      refine ⟨rfl, rfl, ?_⟩
      rw [hDirectory]

/- A run of the binary wins, is refused or fails. -/
theorem initDirectory_cases
    (path : String)
    (choice : ProvisionChoice)
    (s : ProvisionState) :
    (s.directories path = .empty ∧
        initDirectory path choice s =
          (⟨0, ""⟩, s.setDirectory path .initialized)) ∨
      ((initDirectory path choice s).1.exitCode ≠ 0 ∧
        (s.directories path ≠ .initialized ∨
          (initDirectory path choice s).2.directories =
              s.directories ∧
            (initDirectory path choice s).2.db = s.db ∧
            (initDirectory path choice s).2.repos =
              s.repos)) := by
  unfold initDirectory
  cases hFails : choice.fails with
  | true =>
      right
      refine ⟨by simp, ?_⟩
      by_cases hDirectory : s.directories path = .initialized
      · right
        simp only [if_true]
        cases choice.leaves with
        | true =>
            refine ⟨?_, rfl, rfl⟩
            simp only [if_true]
            unfold ProvisionState.setDirectory
            dsimp only
            rw [← hDirectory, Function.update_eq_self]
        | false => exact ⟨rfl, rfl, rfl⟩
      · exact Or.inl hDirectory
  | false =>
      cases hDirectory : s.directories path with
      | absent =>
          right
          simp
      | empty =>
          left
          simp
      | initialized =>
          right
          simp [alreadyInitialized]

theorem raceStep_exec
    (hOwes : Owes config repoId op)
    (hExec : op.exec choice s = some (answer, t))
    (hWorks :
      ∀ path, op = .doltInit path →
        eventFails (.performed i op answer s t) = false) :
    RaceStep config repoId i (.performed i op answer s t) s
      t := by
  cases op with
  | now =>
      cases hExec
      exact .quiet rfl rfl rfl rfl
  | users statement =>
      simp only [ProvisionOp.exec] at hExec
      cases hFails : choice.fails with
      | true =>
          rw [hFails] at hExec
          cases hExec
          refine .quiet ?_ rfl rfl rfl
          cases statement <;> rfl
      | false =>
          rw [hFails] at hExec
          cases statement with
          | getByUsername username =>
              cases hExec
              exact .quiet rfl rfl rfl rfl
          | upsertRepoRole assignment =>
              rcases hOwes with ⟨hRepo, hRole⟩
              rcases s.db.upsertRole_cases assignment with
                ⟨_, _, hRefused⟩ | ⟨_, roles, hGranted, hFind⟩
              · have hRun :
                    (UserStatement.upsertRepoRole
                        assignment).run s.db =
                      (.error .foreignKeyConstraint, s.db) :=
                  hRefused
                rw [hRun] at hExec
                cases hExec
                exact .quiet rfl rfl rfl rfl
              · have hRun :
                    (UserStatement.upsertRepoRole
                        assignment).run s.db =
                      (.ok (), { s.db with roles := roles }) :=
                  hGranted
                rw [hRun] at hExec
                cases hExec
                refine
                  .granted assignment.username rfl rfl rfl rfl
                    ?_
                intro user
                unfold roleOn
                rw [hFind, hRepo]
                by_cases hUser : user = assignment.username
                · rw [if_pos hUser, hUser, if_pos rfl,
                    Option.map_some, hRole]
                · have hOther :
                      (assignment.username, repoId) ≠
                        (user, repoId) := by
                    intro hSame
                    cases hSame
                    exact hUser rfl
                  rw [if_neg hUser, if_neg hOther]
          | _ => cases hOwes
  | getRepo other =>
      simp only [ProvisionOp.exec] at hExec
      split at hExec
      · cases hExec
        exact .quiet rfl rfl rfl rfl
      · cases hExec
        exact .quiet rfl rfl rfl rfl
  | createRepo record =>
      have hRepo : record.repoId = repoId := hOwes
      simp only [ProvisionOp.exec] at hExec
      split at hExec
      · cases hExec
        exact .quiet rfl rfl rfl rfl
      · unfold insertRepo at hExec
        cases hInsert : s.repos.insert? record with
        | none =>
            rw [hInsert] at hExec
            cases hExec
            exact .quiet rfl rfl rfl rfl
        | some after =>
            rw [hInsert] at hExec
            cases hExec
            have hFree : s.repos.find? record.repoId = none :=
              (KeyedTable.insert?_eq_some_iff.mp hInsert).1
            refine .recorded record rfl rfl rfl ?_ ?_
            · rw [← hRepo]
              exact hFree
            · dsimp only
              rw [KeyedTable.find?_insert? hInsert, if_pos hRepo]
  | mkdir path =>
      have hPath : path = config.doltPath repoId := hOwes
      subst hPath
      simp only [ProvisionOp.exec] at hExec
      split at hExec
      · cases hExec
        exact .quiet rfl rfl rfl rfl
      · cases hExec
        rcases
          directories_makeDirectory (config.doltPath repoId) s
          with ⟨hDb, hRepos, hInitialized⟩
        exact
          .made rfl hDb hRepos hInitialized.mp hInitialized.mpr
  | doltInit path =>
      have hPath : path = config.doltPath repoId := hOwes
      have hRun := hWorks path rfl
      subst hPath
      simp only [ProvisionOp.exec, Option.some.injEq] at hExec
      rcases
        initDirectory_cases (config.doltPath repoId) choice s
        with ⟨hEmpty, hWon⟩ | ⟨hExit, hRefused⟩
      · rw [hWon] at hExec
        cases hExec
        refine .won rfl rfl rfl hEmpty ?_
        simp [ProvisionState.setDirectory]
      · rw [hExec] at hExit hRefused
        have hNone :
            markOf
                (.performed i
                  (.doltInit (config.doltPath repoId)) answer s
                  t) =
              none :=
          if_neg hExit
        rcases hRefused with hBefore | ⟨hDir, hDb, hRepos⟩
        · simp [eventFails, hBefore, hExit] at hRun
        · exact .quiet hNone hDb hRepos hDir

------------------------------------------------------------
-- The Order Of A Race
------------------------------------------------------------

variable {start : ProvisionState} {j : Nat}
variable {event : ProvisionEvent}
variable {trace : List ProvisionEvent}
variable {record : RepoRecord} {username : String}

/- What there is of the repository is there by an attempt that
   has got that far, and one attempt at most has won. -/
structure Orderly
    (config : ProvisionConfig)
    (repoId : String)
    (start s : ProvisionState)
    (trace : List ProvisionEvent) : Prop where
  users : s.db.users = start.db.users
  made :
    s.directories (config.doltPath repoId) ≠ .absent →
      ∃ j, Recorded markOf (j, .made) trace
  won :
    s.directories (config.doltPath repoId) = .initialized →
      ∃ j, Recorded markOf (j, .won) trace
  stays :
    ∀ j, Recorded markOf (j, .won) trace →
      s.directories (config.doltPath repoId) = .initialized
  one :
    ∀ i j, Recorded markOf (i, .won) trace →
      Recorded markOf (j, .won) trace → i = j
  record :
    ∀ record, s.repos.find? repoId = some record →
      ∃ j, Recorded markOf (j, .recorded record) trace
  recorded :
    ∀ j record, Recorded markOf (j, .recorded record) trace →
      Recorded markOf (j, .won) trace ∧
        s.repos.find? repoId = some record
  role :
    ∀ user role, roleOn s.db user repoId = some role →
      ∃ j, Recorded markOf (j, .granted user) trace
  granted :
    ∀ j user, Recorded markOf (j, .granted user) trace →
      roleOn s.db user repoId = some .admin ∧
        ∃ record,
          Recorded markOf (j, .recorded record) trace ∧
            record.createdBy = user

theorem orderly_of_vacant
    (hVacant : Vacant config repoId start) :
    Orderly config repoId start start [] where
  users := rfl
  made := fun hThere => absurd hVacant.noDirectory hThere
  won := fun hThere => by
    rw [hVacant.noDirectory] at hThere
    cases hThere
  stays := fun _ hWon => absurd hWon not_recorded_nil
  one := fun _ _ hWon => absurd hWon not_recorded_nil
  record := fun record hFind => by
    rw [hVacant.noRecord] at hFind
    cases hFind
  recorded := fun _ _ hRecorded =>
    absurd hRecorded not_recorded_nil
  role := fun user role hRole => by
    rw [hVacant.noRoles] at hRole
    cases hRole
  granted := fun _ _ hGranted =>
    absurd hGranted not_recorded_nil

/- An event without a mark, with nothing changed. -/
theorem Orderly.keeps
    (hOrderly : Orderly config repoId start s trace)
    (hNone : markOf event = none)
    (hDb : t.db = s.db)
    (hRepos : t.repos = s.repos)
    (hDirectories : t.directories = s.directories) :
    Orderly config repoId start t (event :: trace) := by
  constructor
  · rw [hDb]
    exact hOrderly.users
  · simp only [hDirectories, recorded_cons_of_none hNone]
    exact hOrderly.made
  · simp only [hDirectories, recorded_cons_of_none hNone]
    exact hOrderly.won
  · simp only [hDirectories, recorded_cons_of_none hNone]
    exact hOrderly.stays
  · simp only [recorded_cons_of_none hNone]
    exact hOrderly.one
  · simp only [hRepos, recorded_cons_of_none hNone]
    exact hOrderly.record
  · simp only [hRepos, recorded_cons_of_none hNone]
    exact hOrderly.recorded
  · simp only [hDb, recorded_cons_of_none hNone]
    exact hOrderly.role
  · simp only [hDb, recorded_cons_of_none hNone]
    exact hOrderly.granted

/- An event with another mark says nothing new of a mark. -/
theorem recorded_cons_of_ne
    {mark : Nat × Mark}
    {m : Nat × Mark}
    (hMark : markOf event = some mark)
    (hOther : m ≠ mark) :
    Recorded markOf m (event :: trace) ↔
      Recorded markOf m trace := by
  rw [recorded_cons, hMark]
  constructor
  · intro hEither
    rcases hEither with hSame | hOld
    · cases hSame
      exact absurd rfl hOther
    · exact hOld
  · exact Or.inr

theorem Orderly.makes
    (hOrderly : Orderly config repoId start s trace)
    (hMark : markOf event = some (i, .made))
    (hDb : t.db = s.db)
    (hRepos : t.repos = s.repos)
    (hStill :
      t.directories (config.doltPath repoId) = .initialized →
        s.directories (config.doltPath repoId) = .initialized)
    (hKept :
      s.directories (config.doltPath repoId) = .initialized →
        t.directories (config.doltPath repoId) = .initialized) :
    Orderly config repoId start t (event :: trace) := by
  have hWon :
      ∀ j, Recorded markOf (j, .won) (event :: trace) ↔
        Recorded markOf (j, .won) trace := by
    intro j
    exact recorded_cons_of_ne hMark (by simp)
  have hRecorded :
      ∀ j record,
        Recorded markOf (j, .recorded record) (event :: trace) ↔
          Recorded markOf (j, .recorded record) trace := by
    intro j record
    exact recorded_cons_of_ne hMark (by simp)
  have hGranted :
      ∀ j user,
        Recorded markOf (j, .granted user) (event :: trace) ↔
          Recorded markOf (j, .granted user) trace := by
    intro j user
    exact recorded_cons_of_ne hMark (by simp)
  constructor
  · rw [hDb]
    exact hOrderly.users
  · intro _
    exact ⟨i, recorded_cons.mpr (Or.inl hMark)⟩
  · simp only [hWon]
    intro hThere
    exact hOrderly.won (hStill hThere)
  · simp only [hWon]
    intro j hHas
    exact hKept (hOrderly.stays j hHas)
  · simp only [hWon]
    exact hOrderly.one
  · simp only [hRepos, hRecorded]
    exact hOrderly.record
  · simp only [hRepos, hRecorded, hWon]
    exact hOrderly.recorded
  · simp only [hDb, hGranted]
    exact hOrderly.role
  · simp only [hDb, hGranted, hRecorded]
    exact hOrderly.granted

theorem Orderly.wins
    (hOrderly : Orderly config repoId start s trace)
    (hMark : markOf event = some (i, .won))
    (hDb : t.db = s.db)
    (hRepos : t.repos = s.repos)
    (hEmpty : s.directories (config.doltPath repoId) = .empty)
    (hInitialized :
      t.directories (config.doltPath repoId) = .initialized) :
    Orderly config repoId start t (event :: trace) := by
  have hNobody : ∀ j, ¬ Recorded markOf (j, .won) trace := by
    intro j hWon
    have hThere := hOrderly.stays j hWon
    rw [hEmpty] at hThere
    cases hThere
  have hWinner :
      ∀ j, Recorded markOf (j, .won) (event :: trace) →
        j = i := by
    intro j hWon
    rw [recorded_cons, hMark] at hWon
    rcases hWon with hSame | hOld
    · cases hSame
      rfl
    · exact absurd hOld (hNobody j)
  have hRecorded :
      ∀ j record,
        ¬ Recorded markOf (j, .recorded record)
          (event :: trace) := by
    intro j record hHas
    rw [recorded_cons_of_ne hMark (by simp)] at hHas
    exact hNobody j (hOrderly.recorded j record hHas).1
  have hGranted :
      ∀ j user,
        ¬ Recorded markOf (j, .granted user)
          (event :: trace) := by
    intro j user hHas
    rw [recorded_cons_of_ne hMark (by simp)] at hHas
    rcases (hOrderly.granted j user hHas).2 with
      ⟨record, hRecord, _⟩
    exact hNobody j (hOrderly.recorded j record hRecord).1
  have hHere : Recorded markOf (i, .won) (event :: trace) :=
    recorded_cons.mpr (Or.inl hMark)
  constructor
  · rw [hDb]
    exact hOrderly.users
  · intro _
    rcases
        hOrderly.made (by
          rw [hEmpty]
          intro hSame
          cases hSame) with
      ⟨j, hMade⟩
    exact ⟨j, recorded_cons.mpr (Or.inr hMade)⟩
  · intro _
    exact ⟨i, hHere⟩
  · intro _ _
    exact hInitialized
  · intro k j hFirst hSecond
    rw [hWinner k hFirst, hWinner j hSecond]
  · intro record hFind
    rw [hRepos] at hFind
    rcases hOrderly.record record hFind with ⟨j, hHas⟩
    exact ⟨j, recorded_cons.mpr (Or.inr hHas)⟩
  · intro j record hHas
    exact absurd hHas (hRecorded j record)
  · intro user role hRole
    rw [hDb] at hRole
    rcases hOrderly.role user role hRole with ⟨j, hHas⟩
    exact ⟨j, recorded_cons.mpr (Or.inr hHas)⟩
  · intro j user hHas
    exact absurd hHas (hGranted j user)

/- The winner records the repository. -/
theorem Orderly.records
    (hOrderly : Orderly config repoId start s trace)
    (hMark : markOf event = some (i, .recorded record))
    (hDb : t.db = s.db)
    (hDirectories : t.directories = s.directories)
    (hFree : s.repos.find? repoId = none)
    (hThere : t.repos.find? repoId = some record)
    (hWinner : Recorded markOf (i, .won) trace) :
    Orderly config repoId start t (event :: trace) := by
  have hWon :
      ∀ j, Recorded markOf (j, .won) (event :: trace) ↔
        Recorded markOf (j, .won) trace := by
    intro j
    exact recorded_cons_of_ne hMark (by simp)
  have hNone :
      ∀ j other,
        ¬ Recorded markOf (j, .recorded other) trace := by
    intro j other hHas
    have hFind := (hOrderly.recorded j other hHas).2
    rw [hFree] at hFind
    cases hFind
  have hGranted :
      ∀ j user,
        ¬ Recorded markOf (j, .granted user)
          (event :: trace) := by
    intro j user hHas
    rw [recorded_cons_of_ne hMark (by simp)] at hHas
    rcases (hOrderly.granted j user hHas).2 with
      ⟨other, hRecord, _⟩
    exact hNone j other hRecord
  constructor
  · rw [hDb]
    exact hOrderly.users
  · rw [hDirectories]
    intro hMade
    rcases hOrderly.made hMade with ⟨j, hHas⟩
    exact ⟨j, recorded_cons.mpr (Or.inr hHas)⟩
  · simp only [hDirectories, hWon]
    exact hOrderly.won
  · simp only [hDirectories, hWon]
    exact hOrderly.stays
  · simp only [hWon]
    exact hOrderly.one
  · intro other hFind
    rw [hThere] at hFind
    cases hFind
    exact ⟨i, recorded_cons.mpr (Or.inl hMark)⟩
  · intro j other hHas
    rw [recorded_cons, hMark] at hHas
    rcases hHas with hSame | hOld
    · cases hSame
      exact ⟨(hWon i).mpr hWinner, hThere⟩
    · exact absurd hOld (hNone j other)
  · intro user role hRole
    rw [hDb] at hRole
    rcases hOrderly.role user role hRole with ⟨j, hHas⟩
    exact ⟨j, recorded_cons.mpr (Or.inr hHas)⟩
  · intro j user hHas
    exact absurd hHas (hGranted j user)

/- And makes its user the admin. -/
theorem Orderly.grants
    (hOrderly : Orderly config repoId start s trace)
    (hMark : markOf event = some (i, .granted username))
    (hUsers : t.db.users = s.db.users)
    (hRepos : t.repos = s.repos)
    (hDirectories : t.directories = s.directories)
    (hRoles :
      ∀ user,
        roleOn t.db user repoId =
          if user = username then some .admin
          else roleOn s.db user repoId)
    (hRecord : Recorded markOf (i, .recorded record) trace)
    (hCreator : record.createdBy = username) :
    Orderly config repoId start t (event :: trace) := by
  have hWon :
      ∀ j, Recorded markOf (j, .won) (event :: trace) ↔
        Recorded markOf (j, .won) trace := by
    intro j
    exact recorded_cons_of_ne hMark (by simp)
  have hRecorded :
      ∀ j other,
        Recorded markOf (j, .recorded other) (event :: trace) ↔
          Recorded markOf (j, .recorded other) trace := by
    intro j other
    exact recorded_cons_of_ne hMark (by simp)
  constructor
  · rw [hUsers]
    exact hOrderly.users
  · rw [hDirectories]
    intro hMade
    rcases hOrderly.made hMade with ⟨j, hHas⟩
    exact ⟨j, recorded_cons.mpr (Or.inr hHas)⟩
  · simp only [hDirectories, hWon]
    exact hOrderly.won
  · simp only [hDirectories, hWon]
    exact hOrderly.stays
  · simp only [hWon]
    exact hOrderly.one
  · simp only [hRepos, hRecorded]
    exact hOrderly.record
  · simp only [hRepos, hRecorded, hWon]
    exact hOrderly.recorded
  · intro user role hRole
    rw [hRoles] at hRole
    by_cases hUser : user = username
    · subst hUser
      exact ⟨i, recorded_cons.mpr (Or.inl hMark)⟩
    · rw [if_neg hUser] at hRole
      rcases hOrderly.role user role hRole with ⟨j, hHas⟩
      exact ⟨j, recorded_cons.mpr (Or.inr hHas)⟩
  · intro j user hHas
    rw [hRoles]
    rw [recorded_cons, hMark] at hHas
    rcases hHas with hSame | hOld
    · cases hSame
      rw [if_pos rfl]
      exact ⟨rfl, record, (hRecorded _ _).mpr hRecord, hCreator⟩
    · rcases hOrderly.granted j user hOld with
        ⟨hRole, other, hOther, hBy⟩
      refine ⟨?_, other, (hRecorded _ _).mpr hOther, hBy⟩
      by_cases hUser : user = username
      · rw [if_pos hUser]
      · rw [if_neg hUser]
        exact hRole

/- What an attempt must have got to for an operation. -/
def Ready
    (i : Nat)
    (op : ProvisionOp)
    (trace : List ProvisionEvent) : Prop :=
  match op with
  | .createRepo _ => Recorded markOf (i, .won) trace
  | .users (.upsertRepoRole assignment) =>
      ∃ record,
        Recorded markOf (i, .recorded record) trace ∧
          record.createdBy = assignment.username
  | .doltInit _ => Recorded markOf (i, .made) trace
  | _ => True

theorem markOf_recorded
    (hMark :
      markOf (.performed i op answer s t) =
        some (j, .recorded record)) :
    op = .createRepo record := by
  unfold markOf at hMark
  split at hMark
  · cases hMark
  · split at hMark
    · cases hMark
    · cases hMark
  · rename_i hEvent
    cases hEvent
    cases hMark
    rfl
  · cases hMark
  · cases hMark

theorem markOf_granted
    (hMark :
      markOf (.performed i op answer s t) =
        some (j, .granted username)) :
    ∃ assignment,
      op = .users (.upsertRepoRole assignment) ∧
        assignment.username = username := by
  unfold markOf at hMark
  split at hMark
  · cases hMark
  · split at hMark
    · cases hMark
    · cases hMark
  · cases hMark
  · rename_i hEvent
    cases hEvent
    cases hMark
    exact ⟨_, rfl, rfl⟩
  · cases hMark

/- Every operation of an attempt keeps the order. -/
theorem Orderly.step
    (hOrderly : Orderly config repoId start s trace)
    (hOwes : Owes config repoId op)
    (hReady : Ready i op trace)
    (hExec : op.exec choice s = some (answer, t))
    (hFree :
      LateFree (.performed i op answer s t :: trace)) :
    Orderly config repoId start t
      (.performed i op answer s t :: trace) := by
  have hWorks :
      ∀ path, op = .doltInit path →
        eventFails (.performed i op answer s t) = false := by
    intro path hOp
    subst hOp
    cases hFails :
        eventFails (.performed i (.doltInit path) answer s t) with
    | true => exact absurd hReady (hFree.1 hFails)
    | false => rfl
  cases raceStep_exec (i := i) hOwes hExec hWorks with
  | quiet hNone hDb hRepos hDirectories =>
      exact hOrderly.keeps hNone hDb hRepos hDirectories
  | made hMark hDb hRepos hStill hKept =>
      exact hOrderly.makes hMark hDb hRepos hStill hKept
  | won hMark hDb hRepos hEmpty hInitialized =>
      exact hOrderly.wins hMark hDb hRepos hEmpty hInitialized
  | recorded record hMark hDb hDirectories hNew hThere =>
      have hOp := markOf_recorded hMark
      subst hOp
      exact
        hOrderly.records hMark hDb hDirectories hNew hThere
          hReady
  | granted username hMark hUsers hRepos hDirectories hRoles =>
      rcases markOf_granted hMark with ⟨assignment, hOp, hName⟩
      subst hOp
      rcases hReady with ⟨record, hRecord, hCreator⟩
      exact
        hOrderly.grants hMark hUsers hRepos hDirectories hRoles
          hRecord (hCreator.trans hName)

------------------------------------------------------------
-- How An Attempt Ends Among Others
------------------------------------------------------------

variable {username : String} {P : Prop} {marks : List Mark}
variable {m : Mark} {w v : ProvisionWorld}
variable {after : ProvisionState}
variable {record : RepoRecord}

/- The attempt has failed and has not won; if it has got to
   its directory, or if nothing has kept it from doing so,
   another one has. -/
structure Lost
    (start : ProvisionState)
    (username : String)
    (i : Nat)
    (trace : List ProvisionEvent) : Prop where
  behind : ¬ Recorded markOf (i, .won) trace
  beaten :
    Recorded markOf (i, .made) trace →
      ∃ k, Recorded markOf (k, .won) trace
  turned :
    FirstPush.mayCreateRepos start.db username = true →
      NoFailure trace → ∃ k, Recorded markOf (k, .won) trace

inductive Fate
    (start : ProvisionState)
    (i : Nat)
    (a : Attempt)
    (trace : List ProvisionEvent) :
    Except ProvisionError Attempted → Prop where
  | succeeds
      {record : RepoRecord}
      (recorded : Recorded markOf (i, .recorded record) trace)
      (granted :
        Recorded markOf (i, .granted a.username) trace)
      (creator : record.createdBy = a.username) :
      Fate start i a trace (.ok (.created record))
  | loses
      {outcome : Except ProvisionError Attempted}
      (error : ¬ Succeeds outcome)
      (lost : Lost start a.username i trace) :
      Fate start i a trace outcome

/- Every attempt that has ended has met its fate. -/
def EndsWell
    (start : ProvisionState)
    (event : ProvisionEvent)
    (older : List ProvisionEvent) : Prop :=
  ∀ i outcome, event = .finished i outcome →
    ∃ a, .started i a ∈ older ∧
      (LateFree older → Fate start i a older outcome)

structure RaceInv
    (config : ProvisionConfig)
    (repoId : String)
    (start : ProvisionState)
    (w : ProvisionWorld) : Prop where
  once : StartsOnce w.trace
  orderly :
    LateFree w.trace →
      Orderly config repoId start w.state w.trace
  ends : Throughout (EndsWell start) w.trace

def raceContract
    (config : ProvisionConfig)
    (repoId : String)
    (start : ProvisionState) :
    Contract ProvisionOp ProvisionOp.Answer ProvisionState
      Attempt ProvisionError Attempted where
  inv := RaceInv config repoId start
  rely := fun _ _ _ => True
  rely_refl := fun _ _ => trivial
  rely_trans := fun _ _ _ _ _ _ => trivial

/- How far an attempt has got, and what is known for as long
   as nothing fails late. -/
structure Stage
    (P : Prop)
    (i : Nat)
    (marks : List Mark)
    (w : ProvisionWorld) : Prop where
  only : ∀ m, Recorded markOf (i, m) w.trace ↔ m ∈ marks
  known : LateFree w.trace → P

theorem lateFree_of_grows
    (hGrows : World.Grows i w v)
    (hFree : LateFree v.trace) :
    LateFree w.trace := by
  rcases hGrows with ⟨events, hTrace, hOthers⟩
  rw [hTrace] at hFree
  clear hTrace hOthers
  induction events with
  | nil => exact hFree
  | cons event rest ih => exact ih hFree.2

theorem stage_stable :
    (raceContract config repoId start).Stable i
      (Stage P i marks) := by
  intro w v hStage hInterferes _
  constructor
  · intro m
    rw [← hStage.only m]
    constructor
    · exact Recorded.of_grows task_of_markOf hInterferes.1
    · exact Recorded.grows hInterferes.1
  · intro hFree
    exact hStage.known (lateFree_of_grows hInterferes.1 hFree)

theorem Stage.perform
    (hStage : Stage P i marks w)
    (hNone :
      markOf (.performed i op answer w.state after) = none) :
    Stage P i marks (w.perform i op answer after) := by
  constructor
  · intro m
    rw [World.perform_trace, recorded_cons_of_none hNone]
    exact hStage.only m
  · intro hFree
    exact hStage.known hFree.2

theorem Stage.reach
    (hStage : Stage P i marks w)
    (hMark :
      markOf (.performed i op answer w.state after) =
        some (i, m)) :
    Stage P i (m :: marks) (w.perform i op answer after) := by
  constructor
  · intro other
    rw [World.perform_trace, recorded_cons, hMark,
      List.mem_cons, hStage.only other]
    simp only [Option.some.injEq, Prod.mk.injEq, true_and]
    rw [eq_comm]
  · intro hFree
    exact hStage.known hFree.2

/- More may be known of it. -/
theorem Stage.knows
    {Q : Prop}
    (hStage : Stage P i marks w)
    (hKnown : LateFree w.trace → Q) :
    Stage Q i marks w :=
  ⟨hStage.only, hKnown⟩

/- An attempt that fails before its directory is made. -/
theorem Stage.lost_early
    (hStage : Stage P i [] w)
    (hTurned :
      FirstPush.mayCreateRepos start.db username = true →
        NoFailure w.trace →
          ∃ k, Recorded markOf (k, .won) w.trace) :
    Lost start username i w.trace := by
  constructor
  · intro hWon
    cases (hStage.only _).mp hWon
  · intro hMade
    cases (hStage.only _).mp hMade
  · exact hTurned

/- It may not fail any more once the directory is made. -/
theorem Stage.not_lateFree
    (hStage : Stage P i marks w)
    (hMade : .made ∈ marks)
    (hFails :
      eventFails (.performed i op answer w.state after) =
        true) :
    ¬ LateFree (w.perform i op answer after).trace := by
  intro hFree
  exact hFree.1 hFails ((hStage.only _).mpr hMade)

theorem keeps_of_event
    (event : ProvisionEvent)
    (hInv : RaceInv config repoId start w)
    (hState : v.state = w.state)
    (hTrace : v.trace = event :: w.trace)
    (hNone : markOf event = none)
    (hFresh :
      ∀ j a, event = .started j a → w.Fresh j)
    (hEnds : EndsWell start event w.trace) :
    (raceContract config repoId start).Keeps i w v := by
  refine ⟨⟨?_, ?_, ?_⟩, fun _ _ => trivial⟩
  · rw [hTrace]
    exact hInv.once.cons hFresh
  · rw [hTrace, hState]
    intro hFree
    exact
      (hInv.orderly hFree.2).keeps hNone rfl rfl rfl
  · rw [hTrace]
    exact ⟨hEnds, hInv.ends⟩

theorem keeps_perform
    (hInv : RaceInv config repoId start w)
    (hOwes : Owes config repoId op)
    (hReady : Ready i op w.trace)
    (hExec : op.exec choice w.state = some (answer, after)) :
    (raceContract config repoId start).Keeps i w
      (w.perform i op answer after) := by
  refine ⟨⟨?_, ?_, ?_⟩, fun _ _ => trivial⟩
  · apply hInv.once.cons
    intro j a hEvent
    cases hEvent
  · intro hFree
    exact
      (hInv.orderly hFree.2).step hOwes hReady hExec hFree
  · refine ⟨?_, hInv.ends⟩
    intro j outcome hEvent
    cases hEvent

/- What holds of a program of an attempt throughout. -/
abbrev SafeRace
    (config : ProvisionConfig)
    (repoId : String)
    (start : ProvisionState)
    (username : String)
    (i : Nat)
    {α : Type}
    (program : ProvisionProgram α)
    (post : α → ProvisionWorld → Prop)
    (w : ProvisionWorld) : Prop :=
  (raceContract config repoId start).Safe
    (provisionSystem config) (attemptsOn repoId) i program post
    (fun _ v =>
      LateFree v.trace → Lost start username i v.trace)
    w

/- An operation at some stage. -/
theorem op_safe
    {post : op.Answer → ProvisionWorld → Prop}
    (hOwes : Owes config repoId op)
    (hStage : Stage P i marks w)
    (hReady :
      ∀ v, Stage P i marks v → Ready i op v.trace)
    (hPost :
      ∀ (v : ProvisionWorld) choice answer after,
        Stage P i marks v →
          (LateFree v.trace →
            Orderly config repoId start v.state v.trace) →
            op.exec choice v.state = some (answer, after) →
              post answer (v.perform i op answer after)) :
    SafeRace config repoId start username i
      (Provisioning.perform op) post w := by
  refine Contract.safe_await stage_stable hStage ?_
  intro v hThere hInv _ choice answer after hExec
  constructor
  · exact keeps_perform hInv hOwes (hReady v hThere) hExec
  · exact
      hPost v choice answer after hThere hInv.orderly hExec

------------------------------------------------------------
-- The Parts Of An Attempt
------------------------------------------------------------

/- What is thrown while nothing is there yet has failed. -/
theorem lost_of_failure
    (hStage : Stage P i [] (w.perform i op answer after))
    (hFails :
      eventFails (.performed i op answer w.state after) =
        true) :
    Lost start username i
      (w.perform i op answer after).trace := by
  apply hStage.lost_early
  intro _ hNone
  have hWorks := hNone _ List.mem_cons_self
  rw [hFails] at hWorks
  cases hWorks

/- A query of the user, by an attempt at any stage. -/
theorem getByUsername_safe
    {post : Option UserRecord → ProvisionWorld → Prop}
    (hStage : Stage P i marks w)
    (hStarted : marks = [] ∨ Mark.made ∈ marks)
    (hPost :
      ∀ v : ProvisionWorld,
        Stage P i marks v →
          (∀ user,
            (LateFree v.trace →
              start.db.users.find? username = user) →
              post user v)) :
    SafeRace config repoId start username i
      (Provisioning.users (.getByUsername username)) post w := by
  unfold Provisioning.users
  simp only [Async.bind_eq]
  refine Contract.safe_bind ?_
  refine op_safe trivial hStage (fun _ _ => trivial) ?_
  intro v choice answer after hThere hOrderly hExec
  simp only [ProvisionOp.exec] at hExec
  have hHere :
      Stage P i marks
        (v.perform i (.users (.getByUsername username)) answer
          after) := by
    apply hThere.perform
    cases answer <;> rfl
  cases hChoice : choice.fails with
  | true =>
      rw [hChoice] at hExec
      cases hExec
      intro hFree
      rcases hStarted with hEmpty | hMade
      · subst hEmpty
        exact lost_of_failure hHere rfl
      · exact absurd hFree (hThere.not_lateFree hMade rfl)
  | false =>
      rw [hChoice] at hExec
      cases hExec
      apply hPost _ hHere
      intro hFree
      have hUsers := (hOrderly hFree.2).users
      rw [← hUsers]

theorem canUserCreateRepos_safe
    (hStage : Stage P i [] w) :
    SafeRace config repoId start username i
      (canUserCreateRepos username)
      (fun allowed v =>
        Stage P i [] v ∧
          (LateFree v.trace →
            FirstPush.mayCreateRepos start.db username =
              allowed))
      w := by
  unfold canUserCreateRepos
  simp only [Async.bind_eq]
  refine Contract.safe_bind ?_
  refine getByUsername_safe hStage (Or.inl rfl) ?_
  intro v hThere user hUser
  cases user with
  | none =>
      refine ⟨hThere, ?_⟩
      intro hFree
      unfold FirstPush.mayCreateRepos
      rw [hUser hFree]
  | some user =>
      refine ⟨hThere, ?_⟩
      intro hFree
      unfold FirstPush.mayCreateRepos
      rw [hUser hFree]

/- A record is there because another attempt has won. -/
theorem getRepo_safe
    {post : Option RepoRecord → ProvisionWorld → Prop}
    (hStage : Stage P i [] w)
    (hPost :
      ∀ (v : ProvisionWorld) existing,
        Stage P i [] v →
          (LateFree v.trace → existing ≠ none →
            ∃ k, Recorded markOf (k, .won) v.trace) →
            post existing v) :
    SafeRace config repoId start username i (getRepo repoId)
      post w := by
  unfold getRepo
  simp only [Async.bind_eq]
  refine Contract.safe_bind ?_
  refine op_safe rfl hStage (fun _ _ => trivial) ?_
  intro v choice answer after hThere hOrderly hExec
  simp only [ProvisionOp.exec] at hExec
  have hHere :
      Stage P i []
        (v.perform i (.getRepo repoId) answer after) :=
    hThere.perform rfl
  cases hChoice : choice.fails with
  | true =>
      rw [hChoice] at hExec
      cases hExec
      intro _
      exact lost_of_failure hHere rfl
  | false =>
      rw [hChoice] at hExec
      cases hExec
      apply hPost _ _ hHere
      intro hFree hSome
      rcases Option.ne_none_iff_exists'.mp hSome with
        ⟨record, hRecord⟩
      have hOrder := hOrderly hFree.2
      rcases hOrder.record record hRecord with ⟨k, hRecorded⟩
      exact
        ⟨k,
          recorded_cons.mpr
            (Or.inr (hOrder.recorded k record hRecorded).1)⟩

theorem mkdir_safe
    (hStage : Stage P i [] w) :
    SafeRace config repoId start username i
      (mkdir (config.doltPath repoId))
      (fun _ v => Stage P i [.made] v) w := by
  unfold mkdir
  simp only [Async.bind_eq]
  refine Contract.safe_bind ?_
  refine op_safe rfl hStage (fun _ _ => trivial) ?_
  intro v choice answer after hThere _ hExec
  cases answer with
  | ok value => exact hThere.reach rfl
  | error message =>
      intro _
      exact lost_of_failure (hThere.perform rfl) rfl

/- One attempt wins; the others find that it has. -/
theorem runDoltInit_safe
    (hStage : Stage P i [] w) :
    SafeRace config repoId start username i
      (runDoltInit (config.doltPath repoId))
      (fun _ v => Stage P i [.won, .made] v) w := by
  unfold runDoltInit
  simp only [Async.bind_eq]
  refine Contract.safe_bind ?_
  refine
    Contract.safe_mono ?_ (fun _ _ h => h) (mkdir_safe hStage)
  intro _ v hMade
  refine Contract.safe_bind ?_
  refine op_safe rfl hMade ?_ ?_
  · intro u hThere
    exact (hThere.only .made).mpr List.mem_cons_self
  · intro u choice result after hThere hOrderly hExec
    refine Contract.safe_ensure ?_ ?_
    · intro hZero
      rw [decide_eq_true_eq] at hZero
      exact hThere.reach (if_pos hZero)
    · intro hExit hFree
      rw [decide_eq_false_iff_not] at hExit
      have hNone :
          markOf
              (.performed i
                (.doltInit (config.doltPath repoId)) result
                u.state after) =
            none :=
        if_neg hExit
      have hHere := hThere.perform hNone
      have hWinner :
          ∃ k, Recorded markOf (k, .won) u.trace := by
        by_cases hDirectory :
            u.state.directories (config.doltPath repoId) =
              .initialized
        · exact (hOrderly hFree.2).won hDirectory
        · have hFails :
              eventFails
                  (.performed i
                    (.doltInit (config.doltPath repoId)) result
                    u.state after) =
                true := by
            simp [eventFails, hExit, hDirectory]
          exact
            absurd hFree
              (hThere.not_lateFree List.mem_cons_self hFails)
      rcases hWinner with ⟨k, hWon⟩
      have hLater :
          ∃ k,
            Recorded markOf (k, .won)
              (u.perform i
                (.doltInit (config.doltPath repoId)) result
                after).trace :=
        ⟨k, recorded_cons.mpr (Or.inr hWon)⟩
      constructor
      · intro hSelf
        have hMember := (hHere.only .won).mp hSelf
        simp at hMember
      · intro _
        exact hLater
      · intro _ _
        exact hLater

/- The winner finds no record. -/
theorem createRepo_safe
    (hRepo : record.repoId = repoId)
    (hStage : Stage P i [.won, .made] w) :
    SafeRace config repoId start username i
      (createRepo record)
      (fun _ v =>
        Stage P i [.recorded record, .won, .made] v)
      w := by
  have hWon :
      ∀ v, Stage P i [.won, .made] v →
        Recorded markOf (i, .won) v.trace := by
    intro v hThere
    exact (hThere.only .won).mpr List.mem_cons_self
  unfold createRepo
  simp only [Async.bind_eq]
  refine Contract.safe_bind ?_
  refine op_safe hRepo hStage hWon ?_
  intro v choice answer after hThere hOrderly hExec
  cases answer with
  | ok value => exact hThere.reach rfl
  | error error =>
      intro hFree
      exfalso
      simp only [ProvisionOp.exec] at hExec
      cases hChoice : choice.fails with
      | true =>
          rw [hChoice] at hExec
          cases hExec
          exact
            absurd hFree (hThere.not_lateFree (by simp) rfl)
      | false =>
          rw [hChoice] at hExec
          have hOrder := hOrderly hFree.2
          have hNew : v.state.repos.find? repoId = none := by
            cases hFind : v.state.repos.find? repoId with
            | none => rfl
            | some other =>
                rcases hOrder.record other hFind with
                  ⟨j, hRecorded⟩
                have hOther :=
                  (hOrder.recorded j other hRecorded).1
                have hSelf := hOrder.one j i hOther
                  (hWon v hThere)
                subst hSelf
                have hMember := (hThere.only _).mp hRecorded
                simp at hMember
          have hFree : v.state.repos.find? record.repoId = none := by
            rw [hRepo]
            exact hNew
          unfold insertRepo KeyedTable.insert? at hExec
          rw [dif_pos hFree] at hExec
          cases hExec

/- Who finds a record, or is refused by the binary, has
   lost. -/
theorem provision_safe
    (hValid : validRepoId repoId = true)
    (hStage : Stage P i [] w) :
    SafeRace config repoId start username i
      (provision config repoId username)
      (fun record v =>
        record.repoId = repoId ∧ record.createdBy = username ∧
          Stage P i [.recorded record, .won, .made] v)
      w := by
  unfold provision
  simp only [Async.bind_eq]
  refine Contract.safe_bind ?_
  refine Contract.safe_ensure ?_ ?_
  · intro _
    refine Contract.safe_bind ?_
    refine getRepo_safe hStage ?_
    intro v existing hThere hFound
    refine Contract.safe_bind ?_
    refine Contract.safe_ensure ?_ ?_
    · intro _
      refine Contract.safe_bind ?_
      refine Contract.safe_catchError ?_
      refine
        Contract.safe_mono ?_ (fun _ _ h => h)
          (runDoltInit_safe hThere)
      intro _ u hWon
      refine Contract.safe_bind ?_
      refine op_safe trivial hWon (fun _ _ => trivial) ?_
      intro x choice createdAt after hHere _ _
      refine Contract.safe_bind ?_
      refine
        Contract.safe_mono ?_ (fun _ _ h => h)
          (createRepo_safe rfl (hHere.perform rfl))
      intro _ y hRecorded
      exact ⟨rfl, rfl, hRecorded⟩
    · intro hSome hFree
      apply hThere.lost_early
      intro _ _
      apply hFound hFree
      intro hNone
      rw [hNone] at hSome
      cases hSome
  · intro hInvalid
    rw [hValid] at hInvalid
    cases hInvalid

/- The winner's user is there to be granted the role. -/
theorem grant_safe
    (hCreator : record.createdBy = username)
    (hStage :
      Stage (start.db.users.find? username ≠ none) i
        [.recorded record, .won, .made] w) :
    SafeRace config repoId start username i
      (grantRepoAdminToCreator config repoId username)
      (fun _ v =>
        Stage (start.db.users.find? username ≠ none) i
          [.granted username, .recorded record, .won, .made] v)
      w := by
  unfold grantRepoAdminToCreator grantRepoRole assertUserExists
  simp only [Async.bind_eq]
  refine Contract.safe_bind ?_
  refine Contract.safe_bind ?_
  refine getByUsername_safe hStage (Or.inr (by simp)) ?_
  intro v hThere user hUser
  have hGrant :
      SafeRace config repoId start username i
        ((Provisioning.perform .now).bind fun grantedAt =>
          Provisioning.users
            (.upsertRepoRole
              { username := username
                repoId := repoId
                role := .admin
                grantedAt := grantedAt
                grantedBy := "repo-bootstrap" }))
        (fun _ v =>
          Stage (start.db.users.find? username ≠ none) i
            [.granted username, .recorded record, .won, .made]
            v)
        v := by
    refine Contract.safe_bind ?_
    refine op_safe trivial hThere (fun _ _ => trivial) ?_
    intro u choice grantedAt after hHere _ _
    unfold Provisioning.users
    simp only [Async.bind_eq]
    refine Contract.safe_bind ?_
    refine op_safe ⟨rfl, rfl⟩ (hHere.perform rfl) ?_ ?_
    · intro x hStill
      exact
        ⟨record, (hStill.only _).mpr List.mem_cons_self, hCreator⟩
    · intro x again answer later hStill hOrderly hExec
      cases answer with
      | ok value => exact hStill.reach rfl
      | error error =>
          intro hFree
          exfalso
          simp only [ProvisionOp.exec] at hExec
          cases hChoice : again.fails with
          | true =>
              rw [hChoice] at hExec
              cases hExec
              exact
                absurd hFree (hStill.not_lateFree (by simp) rfl)
          | false =>
              rw [hChoice] at hExec
              have hUsers := (hOrderly hFree.2).users
              have hKnown := hStill.known hFree.2
              rcases
                x.state.db.upsertRole_cases
                  { username := username
                    repoId := repoId
                    role := .admin
                    grantedAt := grantedAt
                    grantedBy := "repo-bootstrap" } with
                ⟨_, hNone, _⟩ | ⟨_, roles, hGranted, _⟩
              · rw [hUsers] at hNone
                exact hKnown hNone
              · simp only [UserStatement.run] at hExec
                rw [hGranted] at hExec
                cases hExec
  cases user with
  | some user => exact hGrant
  | none =>
      refine Contract.safe_ensure ?_ ?_
      · intro _
        exact hGrant
      · intro _ hFree
        exact absurd (hUser hFree) (hThere.known hFree)

theorem provisionFor_safe
    (hValid : validRepoId repoId = true)
    (hStage :
      Stage (start.db.users.find? username ≠ none) i [] w) :
    SafeRace config repoId start username i
      (provisionFor config repoId username)
      (fun ended v =>
        ∃ record,
          ended = .created record ∧
            record.createdBy = username ∧
            Recorded markOf (i, .recorded record) v.trace ∧
            Recorded markOf (i, .granted username) v.trace)
      w := by
  unfold provisionFor
  simp only [Async.bind_eq]
  refine Contract.safe_bind ?_
  refine
    Contract.safe_mono ?_ (fun _ _ h => h)
      (provision_safe hValid hStage)
  intro record v hRecorded
  rcases hRecorded with ⟨hRepo, hCreator, hThere⟩
  rw [hRepo]
  refine Contract.safe_bind ?_
  refine
    Contract.safe_mono ?_ (fun _ _ h => h)
      (grant_safe hCreator hThere)
  intro _ u hGranted
  refine ⟨record, rfl, hCreator, ?_, ?_⟩
  · exact (hGranted.only _).mpr (by simp)
  · exact (hGranted.only _).mpr (by simp)

------------------------------------------------------------
-- A Whole Attempt
------------------------------------------------------------

variable {a : Attempt} {error : ProvisionError}
variable {outcome : Except ProvisionError Attempted}

theorem user_of_mayCreateRepos
    {db : UserDb}
    (hMay : FirstPush.mayCreateRepos db username = true) :
    db.users.find? username ≠ none := by
  intro hNone
  unfold FirstPush.mayCreateRepos at hMay
  rw [hNone] at hMay
  cases hMay

/- How an attempt ends, if nothing fails late. -/
abbrev Meets
    (start : ProvisionState)
    (i : Nat)
    (a : Attempt)
    (outcome : Except ProvisionError Attempted)
    (v : ProvisionWorld) : Prop :=
  LateFree v.trace → Fate start i a v.trace outcome

theorem meets_of_lost
    (hError : ¬ Succeeds outcome)
    (hLost :
      LateFree v.trace → Lost start a.username i v.trace) :
    Meets start i a outcome v := by
  intro hFree
  exact .loses hError (hLost hFree)

/- A user that may not create repositories is turned away. -/
theorem meets_of_denied
    (hStage : Stage P i [] v)
    (hError : ¬ Succeeds outcome)
    (hDenied :
      LateFree v.trace →
        FirstPush.mayCreateRepos start.db a.username = false) :
    Meets start i a outcome v := by
  apply meets_of_lost hError
  intro hFree
  apply hStage.lost_early
  intro hMay _
  rw [hDenied hFree] at hMay
  cases hMay

theorem meets_of_created
    {ended : Attempted}
    (hCreated :
      ∃ record,
        ended = .created record ∧
          record.createdBy = a.username ∧
          Recorded markOf (i, .recorded record) v.trace ∧
          Recorded markOf (i, .granted a.username) v.trace) :
    Meets start i a (.ok ended) v := by
  rcases hCreated with
    ⟨record, hEnded, hCreator, hRecorded, hGranted⟩
  intro _
  rw [hEnded]
  exact .succeeds hRecorded hGranted hCreator

/- What is known of the user that is allowed to. -/
theorem Stage.allowed
    {allowed : Bool}
    (hStage : Stage P i [] v)
    (hAllowed : allowed = true)
    (hMay :
      LateFree v.trace →
        FirstPush.mayCreateRepos start.db a.username =
          allowed) :
    Stage (start.db.users.find? a.username ≠ none) i [] v := by
  apply hStage.knows
  intro hFree
  apply user_of_mayCreateRepos
  rw [hMay hFree, hAllowed]

theorem postRepos_safe
    (hValid : validRepoId a.repoId = true)
    (hStage : Stage P i [] w) :
    (raceContract config a.repoId start).Safe
      (provisionSystem config) (attemptsOn a.repoId) i
      (postRepos config (some a.username) (some a.repoId))
      (fun ended v => Meets start i a (.ok ended) v)
      (fun error v => Meets start i a (.error error) v)
      w := by
  unfold postRepos
  simp only [Async.bind_eq]
  refine Contract.safe_bind ?_
  refine
    Contract.safe_mono ?_ ?_ (canUserCreateRepos_safe hStage)
  · intro allowed v hAnswer
    rcases hAnswer with ⟨hThere, hMay⟩
    cases allowed with
    | true =>
        simp only [if_true, parseRequest_of_valid hValid]
        refine Contract.safe_catchError ?_
        refine
          Contract.safe_mono ?_ ?_
            (provisionFor_safe hValid (hThere.allowed rfl hMay))
        · intro ended u hCreated
          exact meets_of_created hCreated
        · intro error u hLost
          exact meets_of_lost not_succeeds_refusal hLost
    | false =>
        apply meets_of_denied hThere _ hMay
        intro hSucceeds
        rcases hSucceeds with ⟨record, hOutcome⟩
        cases hOutcome
  · intro error v hLost
    exact meets_of_lost not_succeeds_error hLost

theorem autoCreate_safe
    (hValid : validRepoId a.repoId = true)
    (hStage : Stage P i [] w) :
    (raceContract config a.repoId start).Safe
      (provisionSystem config) (attemptsOn a.repoId) i
      (autoCreate config a.repoId a.username)
      (fun ended v => Meets start i a (.ok ended) v)
      (fun error v => Meets start i a (.error error) v)
      w := by
  have hThrown :
      ∀ error (v : ProvisionWorld),
        (LateFree v.trace → Lost start a.username i v.trace) →
          Meets start i a (.error error) v := by
    intro error v hLost
    exact meets_of_lost not_succeeds_error hLost
  unfold autoCreate
  simp only [Async.bind_eq]
  refine Contract.safe_bind ?_
  refine Contract.safe_mono (fun _ _ h => h) hThrown ?_
  refine getRepo_safe hStage ?_
  intro v existing hThere hFound
  rw [hValid, Bool.and_true]
  cases existing with
  | some record =>
      refine meets_of_lost ?_ ?_
      · intro hSucceeds
        rcases hSucceeds with ⟨record, hOutcome⟩
        cases hOutcome
      · intro hFree
        apply hThere.lost_early
        intro _ _
        apply hFound hFree
        simp
  | none =>
      simp only [Option.isNone_none, if_true]
      refine Contract.safe_bind ?_
      refine
        Contract.safe_mono ?_ hThrown
          (canUserCreateRepos_safe hThere)
      intro allowed u hAnswer
      rcases hAnswer with ⟨hHere, hMay⟩
      refine Contract.safe_bind ?_
      refine Contract.safe_ensure ?_ ?_
      · intro hAllowed
        refine
          Contract.safe_mono ?_ hThrown
            (provisionFor_safe hValid
              (hHere.allowed hAllowed hMay))
        intro ended x hCreated
        exact meets_of_created hCreated
      · intro hDenied
        apply meets_of_denied hHere not_succeeds_error
        intro hFree
        rw [hMay hFree, hDenied]

/- However it interleaves with others. -/
theorem attempt_safe
    (hValid : validRepoId a.repoId = true)
    (hStage : Stage P i [] w) :
    (raceContract config a.repoId start).Safe
      (provisionSystem config) (attemptsOn a.repoId) i
      (attempt config a)
      (fun ended v => Meets start i a (.ok ended) v)
      (fun error v => Meets start i a (.error error) v)
      w := by
  unfold attempt
  cases a.caller with
  | request => exact postRepos_safe hValid hStage
  | push => exact autoCreate_safe hValid hStage

/- Every run keeps the order of the race. -/
theorem raceInv_run
    {p : ProvisionPool}
    (hVacant : Vacant config repoId start)
    (hValid : validRepoId repoId = true)
    (hRun :
      (provisionSystem config).Run (attemptsOn repoId)
        (Pool.initial start) p) :
    RaceInv config repoId start p.world := by
  have hSafe :
      (raceContract config repoId start).PoolSafe
        (provisionSystem config) (attemptsOn repoId) p := by
    refine Contract.sound start ?_ ?_ hRun
    · refine ⟨?_, ?_, trivial⟩
      · intro j a other hStarted
        cases hStarted
      · intro _
        exact orderly_of_vacant hVacant
    · intro w i a hInv hFresh hOn
      have hRepo : a.repoId = repoId := hOn
      subst hRepo
      have hKeeps :
          (raceContract config a.repoId start).Keeps i w
            (w.start i a) := by
        refine
          keeps_of_event (.started i a) hInv rfl rfl rfl ?_ ?_
        · intro j other hEvent
          cases hEvent
          exact hFresh
        · intro j outcome hEvent
          cases hEvent
      refine ⟨hKeeps, ?_⟩
      have hStage : Stage True i [] (w.start i a) := by
        refine ⟨?_, fun _ => trivial⟩
        intro m
        constructor
        · intro hRecorded
          rcases hRecorded with ⟨event, hMember, hMark⟩
          rcases List.mem_cons.mp hMember with hNew | hOld
          · rw [hNew] at hMark
            cases hMark
          · exact
              absurd (task_of_markOf event i m hMark)
                (hFresh event hOld)
        · intro hMember
          cases hMember
      have hStarted :
          Event.started i a ∈ (w.start i a).trace :=
        List.mem_cons_self
      have hEnds :
          ∀ (outcome : Except ProvisionError Attempted)
            (v : ProvisionWorld),
            Event.started i a ∈ v.trace →
              RaceInv config a.repoId start v →
                Meets start i a outcome v →
                  (raceContract config a.repoId start).Ends i
                    outcome v := by
        intro outcome v hThere hHere hMeets
        refine
          keeps_of_event (.finished i outcome) hHere rfl rfl
            rfl ?_ ?_
        · intro j other hEvent
          cases hEvent
        · intro j ended hEvent
          cases hEvent
          exact ⟨a, hThere, hMeets⟩
      refine
        Contract.safe_mono ?_ ?_
          (Contract.safe_with_event hStarted
            (Contract.safe_with_inv hKeeps.1
              (attempt_safe hValid hStage)))
      · intro ended v hEnd
        exact hEnds _ v hEnd.1 hEnd.2.1 hEnd.2.2
      · intro error v hEnd
        exact hEnds _ v hEnd.1 hEnd.2.1 hEnd.2.2
  exact hSafe.inv

end Provisioning

end Server
