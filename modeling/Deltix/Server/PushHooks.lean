import Deltix.Transfer.GrpcServer
import Deltix.Versioning.PushRecord
import Deltix.Versioning.SyncPreference

/-
  The server as its start-up wires it: the hooks of a push
  call the services of the versioning context.

  One repository is followed.  A hook is one operation of
  the transfer context here, which runs a whole computation
  of the versioning context.

  Key definitions include:
    * `ServerState`
    * `ServerOp.exec`

  Key theorems include:
    * `exec_apart`
    * `exec_provision`
    * `exec_validate`
    * `exec_recordPush`
-/

------------------------------------------------------------
-- State And Operations
------------------------------------------------------------

namespace Server

open Concurrency Transfer Versioning

/- `created` is a repository as `dolt init` leaves it. -/
structure ServerConfig where
  transfer : TransferConfig
  versioning : VersioningConfig
  created : DoltRepo

structure ServerState where
  transfer : TransferState
  preference : String → Option SyncPreference
  versioning : VersioningState

/- `lookup` is for the query of the repository's row. -/
structure ServerChoice where
  transfer : TransferChoice
  sync : List SyncChoice
  lookup : VersioningChoice
  invocations : List VersioningChoice

/- The repository that is followed is known to the store. -/
def Provisioned
    (config : ServerConfig)
    (s : ServerState) : Prop :=
  s.transfer.repos.contains config.versioning.repoId = true

instance
    (config : ServerConfig)
    (s : ServerState) : Decidable (Provisioned config s) :=
  inferInstanceAs (Decidable (_ = true))

def syncMode : Transfer.SyncMode → Versioning.SyncMode
  | .schemaOnly => .schemaOnly
  | .schemaAndData => .schemaAndData

def ServerState.sync (s : ServerState) : SyncState where
  provisioned repoId := s.transfer.repos.contains repoId
  preference := s.preference

def ServerState.setVersioning
    (s : ServerState)
    (versioning : VersioningState) : ServerState where
  transfer := s.transfer
  preference := s.preference
  versioning := versioning

/- What the transfer context is told of an outcome. -/
def told
    {α β ε : Type}
    (message : ε → String)
    (value : α → β) : Except ε α → Except String β
  | .ok result => .ok (value result)
  | .error error => .error (message error)

/- An operation that no hook is involved in. -/
def execTransfer
    (config : ServerConfig)
    (op : TransferOp)
    (choice : ServerChoice)
    (s : ServerState) : Option (op.Answer × ServerState) :=
  (op.exec config.transfer choice.transfer s.transfer).map
    fun result =>
      (result.1, ⟨result.2, s.preference, s.versioning⟩)

/- A repository that is provisioned is initialized. -/
def execProvision
    (config : ServerConfig)
    (repoId createdBy : String)
    (choice : ServerChoice)
    (s : ServerState) :
    Option (Except String Unit × ServerState) :=
  (execTransfer config (.repos (.provision repoId createdBy))
    choice s).map fun result =>
      if repoId = config.versioning.repoId then
        match result.1 with
        | .ok _ =>
            (.ok (),
              result.2.setVersioning ⟨config.created, none⟩)
        | .error error => (.error error, result.2)
      else result

def execValidate
    (repoId : String)
    (mode : Option Transfer.SyncMode)
    (tables : Option (Option (List String)))
    (dryRun : Bool)
    (choice : ServerChoice)
    (s : ServerState) :
    Option (Except String (Option (List String)) × ServerState) :=
  (solo? SyncOp.exec
    (validatePushOptions repoId (mode.map syncMode) tables
      dryRun)
    s.sync choice.sync).map fun run =>
      (told SyncError.message
          (fun result => result.plan.resolvedTables) run.2.1,
        s)

def execRecordPush
    (config : ServerConfig)
    (params : PushCommitParams)
    (choice : ServerChoice)
    (s : ServerState) :
    Option (Except String Unit × ServerState) :=
  (solo? (VersioningOp.exec config.versioning)
    (recordPush params) s.versioning
    (choice.lookup :: choice.invocations)).map fun run =>
      (told VersioningError.message (fun _ => ()) run.2.1,
        s.setVersioning run.2.2)

/- Run an operation.  Pushes to other repositories are not
   followed any further. -/
def ServerOp.exec
    (config : ServerConfig) :
    (op : TransferOp) → ServerChoice → ServerState →
      Option (op.Answer × ServerState)
  | .repos (.provision repoId createdBy), choice, s =>
      execProvision config repoId createdBy choice s
  | .repos (.validatePushOptions repoId mode tables dryRun),
      choice, s =>
      execValidate repoId mode tables dryRun choice s
  | .repos
      (.recordPush repo username jobId checksum tables),
      choice, s =>
      if repo = config.versioning.repoId ∧
          Provisioned config s then
        execRecordPush config
          { repo := repo
            username := username
            jobId := jobId
            checksum := checksum
            resolvedTables := tables }
          choice s
      else
        execTransfer config
          (.repos
            (.recordPush repo username jobId checksum tables))
          choice s
  | .repos (.get repoId), choice, s =>
      execTransfer config (.repos (.get repoId)) choice s
  | .now, choice, s => execTransfer config .now choice s
  | .elapse ms, choice, s =>
      execTransfer config (.elapse ms) choice s
  | .randomText, choice, s =>
      execTransfer config .randomText choice s
  | .users statement, choice, s =>
      execTransfer config (.users statement) choice s
  | .tickets statement, choice, s =>
      execTransfer config (.tickets statement) choice s
  | .jobs statement, choice, s =>
      execTransfer config (.jobs statement) choice s
  | .files statement, choice, s =>
      execTransfer config (.files statement) choice s
  | .session stream step, choice, s =>
      execTransfer config (.session stream step) choice s

abbrev ServerTaken : Type :=
  Taken TransferOp TransferOp.Answer ServerState ServerChoice

------------------------------------------------------------
-- What An Operation Leaves Alone
------------------------------------------------------------

open Auth Storage

variable {config : ServerConfig} {op : TransferOp}
variable {choice : ServerChoice} {s t : ServerState}
variable {repoId : String} {answer : Except String Unit}

/- Neither the repositories nor their rows have changed. -/
structure Untouched (s t : ServerState) : Prop where
  repos : t.transfer.repos = s.transfer.repos
  preference : t.preference = s.preference
  versioning : t.versioning = s.versioning

theorem Untouched.trans
    {u : ServerState}
    (hFirst : Untouched s t)
    (hSecond : Untouched t u) :
    Untouched s u :=
  ⟨hSecond.repos.trans hFirst.repos,
    hSecond.preference.trans hFirst.preference,
    hSecond.versioning.trans hFirst.versioning⟩

theorem Untouched.provisioned
    (hSame : Untouched s t) :
    Provisioned config t ↔ Provisioned config s := by
  unfold Provisioned
  rw [hSame.repos]

/- Apart from the hooks and from the jobs. -/
def Apart : TransferOp → Prop
  | .repos _ => False
  | .jobs _ => False
  | _ => True

/- Only its own statements change the list of repositories. -/
theorem repos_of_execTransfer
    {answer : op.Answer}
    (hOp : ∀ statement, op ≠ .repos statement)
    (hExec :
      execTransfer config op choice s = some (answer, t)) :
    Untouched s t := by
  unfold execTransfer at hExec
  rw [Option.map_eq_some_iff] at hExec
  rcases hExec with ⟨⟨reply, next⟩, hNext, hEq⟩
  have hRun := (TransferOp.exec_eq_some_iff.mp hNext).2
  cases hEq
  refine ⟨?_, rfl, rfl⟩
  cases op with
  | repos statement => exact absurd rfl (hOp statement)
  | _ =>
      cases hRun
      rfl

theorem exec_apart
    {answer : op.Answer}
    (hApart : Apart op)
    (hExec : ServerOp.exec config op choice s = some (answer, t)) :
    Untouched s t := by
  cases op with
  | repos statement => exact hApart.elim
  | jobs statement => exact hApart.elim
  | _ =>
      apply repos_of_execTransfer _ hExec
      intro statement hEq
      cases hEq

theorem exec_jobs
    {statement : JobStatement}
    {answer : (TransferOp.jobs statement).Answer}
    (hExec :
      ServerOp.exec config (.jobs statement) choice s =
        some (answer, t)) :
    Untouched s t := by
  apply repos_of_execTransfer _ hExec
  intro other hEq
  cases hEq

/- The list of repositories is asked, or fails to answer. -/
theorem exec_get
    {answer : Except String Bool}
    (hExec :
      ServerOp.exec config (.repos (.get repoId)) choice s =
        some (answer, t)) :
    Untouched s t ∧
      ∀ found, answer = .ok found →
        found = s.transfer.repos.contains repoId := by
  simp only [ServerOp.exec, execTransfer,
    Option.map_eq_some_iff] at hExec
  rcases hExec with ⟨⟨reply, next⟩, hNext, hEq⟩
  have hRun := (TransferOp.exec_eq_some_iff.mp hNext).2
  cases hEq
  simp only [TransferOp.run, runRepos] at hRun
  split at hRun
  · cases hRun
    refine ⟨⟨rfl, rfl, rfl⟩, ?_⟩
    intro found hFound
    cases hFound
  · cases hRun
    refine ⟨⟨rfl, rfl, rfl⟩, ?_⟩
    intro found hFound
    cases hFound
    rfl

/- A new repository is initialized. -/
theorem exec_provision
    {createdBy : String}
    (hExec :
      ServerOp.exec config
          (.repos (.provision repoId createdBy)) choice s =
        some (answer, t))
    (hAnswer : answer = .ok ()) :
    t.preference = s.preference ∧
      (repoId = config.versioning.repoId →
        t.versioning.repo = config.created) := by
  simp only [ServerOp.exec, execProvision,
    Option.map_eq_some_iff] at hExec
  rcases hExec with ⟨⟨reply, next⟩, hNext, hEq⟩
  simp only [execTransfer, Option.map_eq_some_iff] at hNext
  rcases hNext with ⟨⟨inner, last⟩, _, hSame⟩
  cases hSame
  subst hAnswer
  by_cases hRepo : repoId = config.versioning.repoId
  · rw [if_pos hRepo] at hEq
    dsimp only at hEq
    split at hEq
    · cases hEq
      exact ⟨rfl, fun _ => rfl⟩
    · cases hEq
  · rw [if_neg hRepo] at hEq
    cases hEq
    exact ⟨rfl, fun hEq => absurd hEq hRepo⟩

/- A validation is a run of its own. -/
theorem exec_validate
    {mode : Option Transfer.SyncMode}
    {tables : Option (Option (List String))}
    {dryRun : Bool}
    {answer : Except String (Option (List String))}
    (hExec :
      ServerOp.exec config
          (.repos
            (.validatePushOptions repoId mode tables dryRun))
          choice s =
        some (answer, t)) :
    t = s ∧
      ∀ resolved, answer = .ok resolved →
        ∃ requested,
          normalizeTables
              (requestedOf (s.preference repoId) tables) =
            .ok requested ∧
            SameTables requested resolved := by
  simp only [ServerOp.exec, execValidate,
    Option.map_eq_some_iff] at hExec
  rcases hExec with ⟨⟨steps, outcome, last⟩, hRun, hEq⟩
  cases hEq
  refine ⟨rfl, ?_⟩
  intro resolved hResolved
  cases outcome with
  | error error => cases hResolved
  | ok result =>
      cases hResolved
      exact
        returns_validatePushOptions _ _ _ (solo_of_solo? hRun)

/- So is the recording of a push. -/
theorem exec_recordPush
    {params : PushCommitParams}
    (hRepo : params.repo = config.versioning.repoId)
    (hProvisioned : Provisioned config s)
    (hExec :
      ServerOp.exec config
          (.repos
            (.recordPush params.repo params.username
              params.jobId params.checksum
              params.resolvedTables))
          choice s =
        some (answer, t)) :
    ∃ steps outcome,
      solo? (VersioningOp.exec config.versioning)
          (recordPush params) s.versioning
          (choice.lookup :: choice.invocations) =
        some (steps, outcome, t.versioning) := by
  simp only [ServerOp.exec] at hExec
  rw [if_pos ⟨hRepo, hProvisioned⟩] at hExec
  simp only [execRecordPush, Option.map_eq_some_iff] at hExec
  rcases hExec with ⟨⟨steps, outcome, last⟩, hRun, hEq⟩
  cases hEq
  exact ⟨steps, outcome, hRun⟩

/- It provisions nothing. -/
theorem repos_of_recordPush
    {repo username jobId checksum : String}
    {tables : Option (List String)}
    (hExec :
      ServerOp.exec config
          (.repos
            (.recordPush repo username jobId checksum tables))
          choice s =
        some (answer, t)) :
    t.transfer.repos = s.transfer.repos := by
  simp only [ServerOp.exec] at hExec
  split at hExec
  · simp only [execRecordPush, Option.map_eq_some_iff] at hExec
    rcases hExec with ⟨run, _, hEq⟩
    cases hEq
    rfl
  · simp only [execTransfer, Option.map_eq_some_iff] at hExec
    rcases hExec with ⟨⟨reply, next⟩, hNext, hEq⟩
    have hRun := (TransferOp.exec_eq_some_iff.mp hNext).2
    cases hEq
    simp only [TransferOp.run, runRepos] at hRun
    split at hRun
    all_goals
      cases hRun
      rfl

end Server
