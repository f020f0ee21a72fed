import Deltix.Concurrency.Async
import Deltix.Storage.JobStore
import Deltix.Transfer.PushSession

/-
  The shared state of the transfer system and the operations
  its tasks await: statements on the user, ticket and job
  stores, file system calls, the steps of the push sessions
  and the passing of time.

  Key definitions include:
    * `TransferConfig`
    * `TransferState`
    * `TransferOp`
    * `TransferOp.run`
    * `TransferOp.exec`
    * `TransferProgram`

  Key theorems include:
    * `TransferOp.exec_frame`
-/

namespace Transfer

open Auth Storage

/- The error classes of the two contexts. -/
inductive TransferError where
  | ticketNotFound
  | ticketExpired
  | ticketAlreadyConsumed
  | ticketOperationMismatch
  | ticketRoleRevoked
  | pushSessionAborted (reason : String)
  | pullSessionAborted (reason : String)
  | pullNotFound (repo : String)
  | checksumMismatch
  | userNotFound (username : String)
  | repoRoleAssignmentNotFound (username repoId : String)
  | store (error : StoreError)
  | file (reason : String)
  | sink (reason : String)
  | versioning (reason : String)
  deriving DecidableEq, Repr

def TransferError.message : TransferError → String
  | .ticketNotFound => "Ticket not found"
  | .ticketExpired => "Ticket has expired"
  | .ticketAlreadyConsumed =>
      "Ticket has already been consumed"
  | .ticketOperationMismatch =>
      "Ticket does not authorize this operation/repo"
  | .ticketRoleRevoked =>
      "Repo role required for this ticket has been " ++
        "revoked or downgraded since issuance"
  | .pushSessionAborted reason =>
      "Push session aborted: " ++ reason
  | .pullSessionAborted reason =>
      "Pull session aborted: " ++ reason
  | .pullNotFound repo =>
      "No synced copy available for repo '" ++ repo ++ "'"
  | .checksumMismatch =>
      "Checksum mismatch between staged file and NAS copy"
  | .userNotFound username =>
      "User " ++ username ++ " was not found"
  | .repoRoleAssignmentNotFound username repoId =>
      "Repo role assignment not found for user " ++
        username ++ " on repo " ++ repoId
  | .store .uniqueConstraint => "UNIQUE constraint failed"
  | .store .foreignKeyConstraint =>
      "FOREIGN KEY constraint failed"
  | .store .unavailable => "database unavailable"
  | .file reason => reason
  | .sink reason => reason
  | .versioning reason => reason

------------------------------------------------------------
-- State And Operations
------------------------------------------------------------

/-
  What the two contexts are configured with.  The hash is
  the runtime's SHA-256, as a hexadecimal text.
-/
structure TransferConfig where
  ttlSeconds : Nat
  maxRetries : Nat
  backoffBaseMs : Nat
  backoffMaxMs : Nat
  stagingRootPath : String
  nasRootPath : String
  legacyUsers : List LegacyUserRecord
  sha256 : Content → String

/-
  `repos` are the ids that have a provisioned repository,
  and `pushes` the session of each push stream.
-/
structure TransferState where
  clock : Nat
  db : UserDb
  tickets : TicketTable
  jobs : JobTable
  repos : List String
  files : Files
  pushes : Nat → PushSession

/- What the hooks of a push ask the versioning context. -/
inductive RepoStatement where
  | get (repoId : String)
  | provision (repoId createdBy : String)
  | validatePushOptions
      (repoId : String)
      (mode : Option SyncMode)
      (tables : Option (Option (List String)))
      (dryRun : Bool)
  | recordPush
      (repo username jobId checksum : String)
      (resolvedTables : Option (List String))

/- The answer to a validation: the tables of the closure. -/
abbrev RepoStatement.Answer : RepoStatement → Type
  | .get _ => Bool
  | .provision _ _ => Unit
  | .validatePushOptions _ _ _ _ => Option (List String)
  | .recordPush _ _ _ _ _ => Unit

inductive TransferOp where
  | now
  | elapse (ms : Nat)
  | randomText
  | users (statement : UserStatement)
  | tickets (statement : TicketStatement)
  | jobs (statement : JobStatement)
  | files (statement : FileStatement)
  | repos (statement : RepoStatement)
  | session (stream : Nat) (step : SessionStep)

abbrev TransferOp.Answer : TransferOp → Type
  | .now => Nat
  | .elapse _ => Unit
  | .randomText => String
  | .users statement => Except StoreError statement.Answer
  | .tickets statement => Except StoreError statement.Answer
  | .jobs statement => Except StoreError statement.Answer
  | .files statement => Except String statement.Answer
  | .repos statement => Except String statement.Answer
  | .session _ step => step.Answer

/-
  What an operation leaves open: whether it fails, a random
  or an error text, what a copy writes when it is corrupted,
  and what the versioning context answers.
-/
structure TransferChoice where
  fails : Bool
  text : String
  copied : Option Content
  tables : Option (List String)

/- Run a statement unless the database is unavailable. -/
def attempt
    {α σ : Type}
    (fails : Bool)
    (result : Except StoreError α × σ)
    (same : σ) : Except StoreError α × σ :=
  if fails then (.error .unavailable, same) else result

/- A failing copy may leave something at its target. -/
def FileStatement.leftover
    (copied : Option Content) :
    FileStatement → Files → Files
  | .copyFile _ target, files =>
      match copied with
      | some content =>
          Function.update files target (some content)
      | none => files
  | _, files => files

def runFiles
    (config : TransferConfig)
    (choice : TransferChoice)
    (statement : FileStatement)
    (files : Files) :
    Except String statement.Answer × Files :=
  if choice.fails then
    (.error choice.text,
      FileStatement.leftover choice.copied statement files)
  else statement.run config.sha256 choice.copied files

def runRepos
    (choice : TransferChoice) :
    (statement : RepoStatement) → List String →
      Except String statement.Answer × List String
  | .get repoId, repos =>
      if choice.fails then (.error choice.text, repos)
      else (.ok (repos.contains repoId), repos)
  | .provision repoId _, repos =>
      if choice.fails then (.error choice.text, repos)
      else if repos.contains repoId then
        (.error
          ("repoId \"" ++ repoId ++
            "\" is already provisioned"),
          repos)
      else (.ok (), repoId :: repos)
  | .validatePushOptions _ _ _ _, repos =>
      if choice.fails then (.error choice.text, repos)
      else (.ok choice.tables, repos)
  | .recordPush _ _ _ _ _, repos =>
      if choice.fails then (.error choice.text, repos)
      else (.ok (), repos)

/- The staging file, once its writer has been ended. -/
def flush (before after : PushSession) (files : Files) :
    Files :=
  match before.fileSink, after.fileSink,
      after.stagingFilePath with
  | some open_, some sink, some path =>
      if sink.ended && !open_.ended then
        Function.update files path (some sink.written)
      else files
  | _, _, _ => files

/- Random texts are hexadecimal or base64url. -/
def isRandomText (text : String) : Bool :=
  text.toList.all fun c => c.isAlphanum || c = '-' || c = '_'

namespace TransferOp

/- The operations that draw a random text. -/
def draws : TransferOp → Bool
  | .randomText => true
  | .session _ (.ticketConsumed _ _) => true
  | _ => false

/- Run an operation. -/
def run
    (config : TransferConfig) :
    (op : TransferOp) → TransferChoice → TransferState →
      op.Answer × TransferState
  | .now, _, s => (s.clock, s)
  | .elapse ms, _, s => ((), { s with clock := s.clock + ms })
  | .randomText, choice, s => (choice.text, s)
  | .users statement, choice, s =>
      let result :=
        attempt choice.fails (statement.run s.db) s.db
      (result.1, { s with db := result.2 })
  | .tickets statement, choice, s =>
      let result :=
        attempt choice.fails (statement.run s.tickets)
          s.tickets
      (result.1, { s with tickets := result.2 })
  | .jobs statement, choice, s =>
      let result :=
        attempt choice.fails (statement.run s.clock s.jobs)
          s.jobs
      (result.1, { s with jobs := result.2 })
  | .files statement, choice, s =>
      let result := runFiles config choice statement s.files
      (result.1, { s with files := result.2 })
  | .repos statement, choice, s =>
      let result := runRepos choice statement s.repos
      (result.1, { s with repos := result.2 })
  | .session stream step, choice, s =>
      let result :=
        step.run config.stagingRootPath choice.text s.clock
          choice.fails (s.pushes stream)
      (result.1,
        { s with
          pushes :=
            Function.update s.pushes stream result.2
          files :=
            flush (s.pushes stream) result.2 s.files })

/- A choice has to be one that the runtime can make. -/
def exec
    (config : TransferConfig)
    (op : TransferOp)
    (choice : TransferChoice)
    (s : TransferState) :
    Option (op.Answer × TransferState) :=
  if op.draws && !isRandomText choice.text then none
  else some (op.run config choice s)

end TransferOp

end Transfer

------------------------------------------------------------
-- What An Operation Leaves Alone
------------------------------------------------------------

namespace Transfer

open Auth Storage

variable {config : TransferConfig} {op : TransferOp}
variable {choice : TransferChoice} {s t : TransferState}
variable {answer : op.Answer}
variable {statement : JobStatement}

/- A statement that is refused changes nothing. -/
theorem attempt_cases
    {α σ : Type}
    (fails : Bool)
    (result : Except StoreError α × σ)
    (same : σ) :
    attempt fails result same = (.error .unavailable, same) ∨
      attempt fails result same = result := by
  unfold attempt
  cases fails
  · exact Or.inr rfl
  · exact Or.inl rfl

/- Each table changes only by its own statements, and time
   does not run backwards. -/
structure Framed
    (op : TransferOp)
    (s t : TransferState) : Prop where
  clock : s.clock ≤ t.clock
  db :
    t.db = s.db ∨
      ∃ statement, op = .users statement ∧
        t.db = (statement.run s.db).2
  tickets :
    t.tickets = s.tickets ∨
      ∃ statement, op = .tickets statement ∧
        t.tickets = (statement.run s.tickets).2
  jobs :
    t.jobs = s.jobs ∨
      ∃ statement, op = .jobs statement ∧
        t.jobs = (statement.run s.clock s.jobs).2

theorem TransferOp.exec_eq_some_iff :
    op.exec config choice s = some (answer, t) ↔
      (op.draws = true → isRandomText choice.text = true) ∧
        op.run config choice s = (answer, t) := by
  unfold exec
  cases op.draws <;> cases isRandomText choice.text <;> simp

theorem TransferOp.exec_frame
    (hExec : op.exec config choice s = some (answer, t)) :
    Framed op s t := by
  have hSame :
      ∀ u : TransferState, u.clock = s.clock →
        u.db = s.db → u.tickets = s.tickets →
        u.jobs = s.jobs → Framed op s u := by
    intro u hClock hDb hTickets hJobs
    exact ⟨hClock.ge, Or.inl hDb, Or.inl hTickets,
      Or.inl hJobs⟩
  have hRun := (exec_eq_some_iff.mp hExec).2
  cases op with
  | now =>
      cases hRun
      exact hSame _ rfl rfl rfl rfl
  | elapse ms =>
      cases hRun
      exact ⟨Nat.le_add_right _ _, Or.inl rfl, Or.inl rfl,
        Or.inl rfl⟩
  | randomText =>
      cases hRun
      exact hSame _ rfl rfl rfl rfl
  | users statement =>
      cases hRun
      refine ⟨le_refl _, ?_, Or.inl rfl, Or.inl rfl⟩
      rcases attempt_cases choice.fails
          (statement.run s.db) s.db with hRefused | hRan
      · exact Or.inl (congrArg Prod.snd hRefused)
      · exact Or.inr
          ⟨statement, rfl, congrArg Prod.snd hRan⟩
  | tickets statement =>
      cases hRun
      refine ⟨le_refl _, Or.inl rfl, ?_, Or.inl rfl⟩
      rcases attempt_cases choice.fails
          (statement.run s.tickets) s.tickets with
        hRefused | hRan
      · exact Or.inl (congrArg Prod.snd hRefused)
      · exact Or.inr
          ⟨statement, rfl, congrArg Prod.snd hRan⟩
  | jobs statement =>
      cases hRun
      refine ⟨le_refl _, Or.inl rfl, Or.inl rfl, ?_⟩
      rcases attempt_cases choice.fails
          (statement.run s.clock s.jobs) s.jobs with
        hRefused | hRan
      · exact Or.inl (congrArg Prod.snd hRefused)
      · exact Or.inr
          ⟨statement, rfl, congrArg Prod.snd hRan⟩
  | files statement =>
      cases hRun
      exact hSame _ rfl rfl rfl rfl
  | repos statement =>
      cases hRun
      exact hSame _ rfl rfl rfl rfl
  | session stream step =>
      cases hRun
      exact hSame _ rfl rfl rfl rfl

/- A session changes only by a step of its stream. -/
theorem TransferOp.exec_pushes
    (hExec : op.exec config choice s = some (answer, t)) :
    t.pushes = s.pushes ∨
      ∃ stream step, op = .session stream step ∧
        t.pushes =
          Function.update s.pushes stream
            (step.run config.stagingRootPath choice.text
              s.clock choice.fails (s.pushes stream)).2 := by
  have hRun := (exec_eq_some_iff.mp hExec).2
  cases op with
  | session stream step =>
      cases hRun
      exact Or.inr ⟨stream, step, rfl, rfl⟩
  | _ =>
      cases hRun
      exact Or.inl rfl

/- The answer of a step is that of its session. -/
theorem exec_session
    {stream : Nat}
    {step : SessionStep}
    {reply : step.Answer}
    (hExec :
      (TransferOp.session stream step).exec config choice s =
        some (reply, t)) :
    ((step.run config.stagingRootPath choice.text s.clock
        choice.fails (s.pushes stream)).1 = reply) ∧
      t.pushes stream =
        (step.run config.stagingRootPath choice.text s.clock
          choice.fails (s.pushes stream)).2 := by
  have hRun := (TransferOp.exec_eq_some_iff.mp hExec).2
  cases hRun
  exact ⟨rfl, by simp⟩

/- A statement that was answered ran. -/
theorem exec_users_ok
    {statement : UserStatement}
    {value : statement.Answer}
    (hExec :
      (TransferOp.users statement).exec config choice s =
        some (.ok value, t)) :
    statement.run s.db = (.ok value, t.db) := by
  have hRun := (TransferOp.exec_eq_some_iff.mp hExec).2
  rcases attempt_cases choice.fails
      (statement.run s.db) s.db with hRefused | hRan
  · simp [TransferOp.run, hRefused] at hRun
  · simp only [TransferOp.run, hRan, Prod.mk.injEq] at hRun
    rw [← hRun.2, ← hRun.1]

theorem exec_tickets_ok
    {statement : TicketStatement}
    {value : statement.Answer}
    (hExec :
      (TransferOp.tickets statement).exec config choice s =
        some (.ok value, t)) :
    statement.run s.tickets = (.ok value, t.tickets) := by
  have hRun := (TransferOp.exec_eq_some_iff.mp hExec).2
  rcases attempt_cases choice.fails
      (statement.run s.tickets) s.tickets with
    hRefused | hRan
  · simp [TransferOp.run, hRefused] at hRun
  · simp only [TransferOp.run, hRan, Prod.mk.injEq] at hRun
    rw [← hRun.2, ← hRun.1]

theorem exec_jobs_ok
    {value : statement.Answer}
    (hExec :
      (TransferOp.jobs statement).exec config choice s =
        some (.ok value, t)) :
    statement.run s.clock s.jobs = (.ok value, t.jobs) := by
  have hRun := (TransferOp.exec_eq_some_iff.mp hExec).2
  rcases attempt_cases choice.fails
      (statement.run s.clock s.jobs) s.jobs with
    hRefused | hRan
  · simp [TransferOp.run, hRefused] at hRun
  · simp only [TransferOp.run, hRan, Prod.mk.injEq] at hRun
    rw [← hRun.2, ← hRun.1]

/- A statement that is refused leaves the jobs alone. -/
theorem exec_jobs_error
    {error : StoreError}
    (hExec :
      (TransferOp.jobs statement).exec config choice s =
        some (.error error, t)) :
    t.jobs = s.jobs := by
  have hRun := (TransferOp.exec_eq_some_iff.mp hExec).2
  rcases attempt_cases choice.fails
      (statement.run s.clock s.jobs) s.jobs with
    hRefused | hRan
  · simp only [TransferOp.run, hRefused,
      Prod.mk.injEq] at hRun
    rw [← hRun.2]
  · simp only [TransferOp.run, hRan, Prod.mk.injEq] at hRun
    rw [← hRun.2]
    exact statement.run_error hRun.1

/- No operation loses a job or what it records. -/
theorem recorded_exec
    {jobId : String}
    {job : TransferJob}
    (hExec : op.exec config choice s = some (answer, t))
    (hFind : s.jobs.find? jobId = some job) :
    ∃ later,
      t.jobs.find? jobId = some later ∧
        job.SameRecord later := by
  rcases (TransferOp.exec_frame hExec).jobs with
    hSame | ⟨statement, _, hRun⟩
  · rw [hSame]
    exact ⟨job, hFind, .refl job⟩
  · rw [hRun]
    exact statement.record_run s.clock hFind

open Concurrency

abbrev TransferProgram (α : Type) : Type :=
  Async TransferOp TransferOp.Answer TransferError α

/- Await an operation. -/
def perform (op : TransferOp) : TransferProgram op.Answer :=
  Async.call op

def now : TransferProgram Nat := perform .now

/- Continue with the answer of a statement, or throw. -/
def answered
    {ε α : Type}
    (toError : ε → TransferError) :
    Except ε α → TransferProgram α
  | .ok answer => .returned answer
  | .error error => .threw (toError error)

/- Await a statement of the user store. -/
def users
    (statement : UserStatement) :
    TransferProgram statement.Answer :=
  (perform (.users statement)).bind (answered .store)

/- Await a statement of the ticket store. -/
def tickets
    (statement : TicketStatement) :
    TransferProgram statement.Answer :=
  (perform (.tickets statement)).bind (answered .store)

/- Await a statement of the job store. -/
def jobs
    (statement : JobStatement) :
    TransferProgram statement.Answer :=
  (perform (.jobs statement)).bind (answered .store)

/- Await a file system call. -/
def files
    (statement : FileStatement) :
    TransferProgram statement.Answer :=
  (perform (.files statement)).bind (answered .file)

/- Await the versioning context. -/
def repos
    (statement : RepoStatement) :
    TransferProgram statement.Answer :=
  (perform (.repos statement)).bind (answered .versioning)

/- Run a step of a push session. -/
def session
    (stream : Nat)
    (step : SessionStep) : TransferProgram step.Answer :=
  perform (.session stream step)

end Transfer
