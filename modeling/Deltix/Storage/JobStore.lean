import Mathlib.Data.List.Sort
import Deltix.Auth.UserStore

/-
  The transfer job store: the table `transfer_jobs` and the
  SQL statements on it.  Each statement is atomic.

  Key definitions include:
    * `TransferJob`
    * `JobTable`
    * `JobStatement`
    * `JobStatement.run`

  Key theorems include:
    * `JobStatement.run_cases`
    * `JobStatement.record_run`
    * `JobStatement.updateOne_cases`
    * `JobStatement.ids_run`
-/

namespace Storage

open Auth Relational

inductive TransferJobStatus where
  | staged
  | syncing
  | synced
  | syncFailed
  | deadLetter
  deriving DecidableEq, Repr

structure TransferJob where
  id : String
  repo : String
  stagingPath : String
  checksum : String
  status : TransferJobStatus
  retryCount : Nat
  maxRetries : Nat
  nextRetryAt : Nat
  createdAt : Nat
  updatedAt : Nat
  lastError : Option String
  deriving DecidableEq, Repr

/- What no transition of a job changes. -/
structure TransferJob.SameRecord
    (job other : TransferJob) : Prop where
  id : other.id = job.id
  repo : other.repo = job.repo
  stagingPath : other.stagingPath = job.stagingPath
  checksum : other.checksum = job.checksum

theorem TransferJob.SameRecord.refl (job : TransferJob) :
    job.SameRecord job :=
  ⟨rfl, rfl, rfl, rfl⟩

theorem TransferJob.SameRecord.trans
    {job other third : TransferJob}
    (hFirst : job.SameRecord other)
    (hSecond : other.SameRecord third) :
    job.SameRecord third :=
  ⟨by rw [hSecond.id, hFirst.id],
    by rw [hSecond.repo, hFirst.repo],
    by rw [hSecond.stagingPath, hFirst.stagingPath],
    by rw [hSecond.checksum, hFirst.checksum]⟩

abbrev JobTable :=
  KeyedTable TransferJob.id

/-
  The statements of the store.  `candidates` and `claim` are
  the two that `claimNextEligible` consists of.
-/
inductive JobStatement where
  | create (job : TransferJob)
  | get (jobId : String)
  | candidates (now : Nat)
  | claim (jobId : String) (now : Nat)
  | markSynced (jobId : String)
  | markFailed
      (jobId error : String)
      (nextRetryAt : Nat)
  | requeueDeadLetter (jobId : String)
  | listDeadLetter

/- `INSERT INTO transfer_jobs` -/
def insertJob
    (jobs : JobTable)
    (job : TransferJob) :
    Except StoreError Unit × JobTable :=
  match jobs.insert? job with
  | some next => (.ok (), next)
  | none => (.error .uniqueConstraint, jobs)

namespace JobStatement

/- What a statement answers when it is not refused. -/
abbrev Answer : JobStatement → Type
  | .create _ => Unit
  | .get _ => Option TransferJob
  | .candidates _ => List String
  | .claim _ _ => Bool
  | .markSynced _ => Bool
  | .markFailed _ _ _ => Bool
  | .requeueDeadLetter _ => Bool
  | .listDeadLetter => List TransferJob

/- Staged, or failed and due for a retry. -/
def eligible (now : Nat) (job : TransferJob) : Bool :=
  job.status = .staged ∨
    (job.status = .syncFailed ∧ job.nextRetryAt ≤ now)

/- `ORDER BY created_at ASC LIMIT 5` -/
def nextCandidates (jobs : JobTable) (now : Nat) :
    List String :=
  let sorted :=
    (jobs.rows.reverse.filter (eligible now)).insertionSort
      fun first second => first.createdAt ≤ second.createdAt
  (sorted.map TransferJob.id).take 5

/- `ORDER BY updated_at DESC` -/
def deadLetters (jobs : JobTable) : List TransferJob :=
  (jobs.rows.reverse.filter fun job =>
    job.status = .deadLetter).insertionSort
      fun first second => second.updatedAt ≤ first.updatedAt

/- `UPDATE transfer_jobs SET ... WHERE id = ? AND ...` -/
def updateOne
    (jobs : JobTable)
    (jobId : String)
    (cond : TransferJob → Bool)
    (set : TransferJob → TransferJob)
    (keeps : ∀ job, (set job).id = job.id) :
    Except StoreError Bool × JobTable :=
  (.ok
    (jobs.affected (fun job =>
      job.id = jobId && cond job) == 1),
    jobs.updateWhere
      (fun job => job.id = jobId && cond job) set keeps)

/- The `SET` clauses. -/
def setSyncing (now : Nat) (job : TransferJob) :
    TransferJob :=
  { job with status := .syncing, updatedAt := now }

def setSynced (now : Nat) (job : TransferJob) :
    TransferJob :=
  { job with status := .synced, updatedAt := now }

def setFailed
    (error : String)
    (nextRetryAt now : Nat)
    (job : TransferJob) :
    TransferJob :=
  { job with
    status :=
      if job.retryCount + 1 ≥ job.maxRetries then
        .deadLetter
      else .syncFailed
    retryCount := job.retryCount + 1
    nextRetryAt := nextRetryAt
    lastError := some error
    updatedAt := now }

def setStaged (now : Nat) (job : TransferJob) :
    TransferJob :=
  { job with
    status := .staged
    retryCount := 0
    lastError := none
    updatedAt := now }

/- Run a statement on the table at a time. -/
def run
    (clock : Nat) :
    (statement : JobStatement) → JobTable →
      Except StoreError statement.Answer × JobTable
  | .create job, jobs => insertJob jobs job
  | .get jobId, jobs => (.ok (jobs.find? jobId), jobs)
  | .candidates now, jobs =>
      (.ok (nextCandidates jobs now), jobs)
  | .claim jobId now, jobs =>
      updateOne jobs jobId (eligible now) (setSyncing now)
        (fun _ => rfl)
  | .markSynced jobId, jobs =>
      updateOne jobs jobId
        (fun job => job.status = .syncing)
        (setSynced clock) (fun _ => rfl)
  | .markFailed jobId error nextRetryAt, jobs =>
      updateOne jobs jobId
        (fun job => job.status = .syncing)
        (setFailed error nextRetryAt clock) (fun _ => rfl)
  | .requeueDeadLetter jobId, jobs =>
      updateOne jobs jobId
        (fun job => job.status = .deadLetter)
        (setStaged clock) (fun _ => rfl)
  | .listDeadLetter, jobs => (.ok (deadLetters jobs), jobs)

end JobStatement

end Storage

------------------------------------------------------------
-- What A Statement Does
------------------------------------------------------------

namespace Storage

open Auth Relational

variable {jobs : JobTable} {job : TransferJob}
variable {jobId : String} {clock : Nat}

theorem insertJob_cases
    (jobs : JobTable)
    (job : TransferJob) :
    insertJob jobs job =
        (.error .uniqueConstraint, jobs) ∨
      ((insertJob jobs job).1 = .ok () ∧
        jobs.find? job.id = none ∧
        ∀ other,
          (insertJob jobs job).2.find? other =
            if job.id = other then some job
            else jobs.find? other) := by
  unfold insertJob
  cases hInsert : jobs.insert? job with
  | none => exact Or.inl rfl
  | some next =>
      refine Or.inr ⟨rfl, ?_, ?_⟩
      · exact (KeyedTable.insert?_eq_some_iff.mp hInsert).1
      · intro other
        exact KeyedTable.find?_insert? hInsert

namespace JobStatement

variable {cond : TransferJob → Bool}
variable {set : TransferJob → TransferJob}
variable {keeps : ∀ job, (set job).id = job.id}

theorem find?_updateOne
    (id : String) :
    (updateOne jobs jobId cond set keeps).2.find? id =
      (jobs.find? id).map fun job =>
        if job.id = jobId && cond job then set job
        else job := by
  unfold updateOne
  rw [KeyedTable.find?_updateWhere]

/- The rows a statement updates, and how. -/
def sets
    (clock : Nat) :
    JobStatement →
      Option
        ((TransferJob → Bool) ×
          (TransferJob → TransferJob))
  | .claim jobId now =>
      some
        (fun job => job.id = jobId && eligible now job,
          setSyncing now)
  | .markSynced jobId =>
      some
        (fun job => job.id = jobId && job.status = .syncing,
          setSynced clock)
  | .markFailed jobId error nextRetryAt =>
      some
        (fun job => job.id = jobId && job.status = .syncing,
          setFailed error nextRetryAt clock)
  | .requeueDeadLetter jobId =>
      some
        (fun job =>
          job.id = jobId && job.status = .deadLetter,
          setStaged clock)
  | _ => none

/-
  A statement changes nothing, updates the rows that meet
  its condition, or inserts a job under a new id.
-/
theorem run_cases
    (clock : Nat)
    (statement : JobStatement)
    (jobs : JobTable) :
    (statement.run clock jobs).2 = jobs ∨
      (∃ cond set,
        statement.sets clock = some (cond, set) ∧
        ∀ id,
          (statement.run clock jobs).2.find? id =
            (jobs.find? id).map fun job =>
              if cond job then set job else job) ∨
      (∃ job,
        statement = .create job ∧
        jobs.find? job.id = none ∧
        ∀ id,
          (statement.run clock jobs).2.find? id =
            if job.id = id then some job
            else jobs.find? id) := by
  cases statement with
  | get jobId => exact Or.inl rfl
  | candidates now => exact Or.inl rfl
  | listDeadLetter => exact Or.inl rfl
  | create job =>
      rcases insertJob_cases jobs job with hSame | hNew
      · exact Or.inl (congrArg Prod.snd hSame)
      · exact Or.inr (Or.inr ⟨job, rfl, hNew.2⟩)
  | claim jobId now =>
      exact Or.inr (Or.inl ⟨_, _, rfl, find?_updateOne⟩)
  | markSynced jobId =>
      exact Or.inr (Or.inl ⟨_, _, rfl, find?_updateOne⟩)
  | markFailed jobId error nextRetryAt =>
      exact Or.inr (Or.inl ⟨_, _, rfl, find?_updateOne⟩)
  | requeueDeadLetter jobId =>
      exact Or.inr (Or.inl ⟨_, _, rfl, find?_updateOne⟩)

/- A statement that fails changes nothing. -/
theorem run_error
    (statement : JobStatement)
    {error : StoreError}
    (hError :
      (statement.run clock jobs).1 = .error error) :
    (statement.run clock jobs).2 = jobs := by
  cases statement with
  | create job =>
      cases hInsert : jobs.insert? job with
      | none => simp [run, insertJob, hInsert]
      | some next =>
          simp [run, insertJob, hInsert] at hError
  | get jobId => rfl
  | candidates now => rfl
  | listDeadLetter => rfl
  | claim jobId now => cases hError
  | markSynced jobId => cases hError
  | markFailed jobId error nextRetryAt => cases hError
  | requeueDeadLetter jobId => cases hError

theorem sameRecord_of_sets
    {statement : JobStatement}
    (hSets : statement.sets clock = some (cond, set))
    (job : TransferJob) :
    job.SameRecord (set job) := by
  cases statement with
  | get jobId => cases hSets
  | candidates now => cases hSets
  | listDeadLetter => cases hSets
  | create job => cases hSets
  | claim jobId now =>
      cases hSets
      exact ⟨rfl, rfl, rfl, rfl⟩
  | markSynced jobId =>
      cases hSets
      exact ⟨rfl, rfl, rfl, rfl⟩
  | markFailed jobId error nextRetryAt =>
      cases hSets
      exact ⟨rfl, rfl, rfl, rfl⟩
  | requeueDeadLetter jobId =>
      cases hSets
      exact ⟨rfl, rfl, rfl, rfl⟩

/-
  No statement deletes a job or changes what it records of
  its push.
-/
theorem record_run
    (clock : Nat)
    (statement : JobStatement)
    (hFind : jobs.find? jobId = some job) :
    ∃ after,
      (statement.run clock jobs).2.find? jobId =
          some after ∧
        job.SameRecord after := by
  rcases statement.run_cases clock jobs with
    hSame | ⟨cond, set, hSets, hRun⟩ | ⟨other, _, hNone, hRun⟩
  · rw [hSame]
    exact ⟨job, hFind, .refl job⟩
  · rw [hRun, hFind]
    refine ⟨_, rfl, ?_⟩
    by_cases hCond : cond job = true
    · simp only [hCond, if_true]
      exact sameRecord_of_sets hSets job
    · simp only [hCond]
      exact .refl job
  · have hId : other.id ≠ jobId := by
      intro hEq
      rw [hEq, hFind] at hNone
      cases hNone
    rw [hRun, if_neg hId]
    exact ⟨job, hFind, .refl job⟩

/-
  An update of one job either finds it, meets its condition
  and answers `true`, or leaves it as it is.
-/
theorem updateOne_cases
    (id : String) :
    (jobId = id ∧
        ∃ job,
          jobs.find? id = some job ∧
            cond job = true ∧
            (updateOne jobs jobId cond set keeps).1 =
              .ok true ∧
            (updateOne jobs jobId cond set keeps).2.find?
              id = some (set job)) ∨
      ((updateOne jobs jobId cond set keeps).2.find? id =
          jobs.find? id ∧
        (jobId = id →
          (updateOne jobs jobId cond set keeps).1 =
              .ok false ∧
            ∀ job, jobs.find? id = some job →
              cond job = false)) := by
  have hAffected :
      jobs.affected (fun job =>
          job.id = jobId && cond job) = 1 ↔
        ∃ job, jobs.find? jobId = some job ∧ cond job :=
    KeyedTable.affected_key_eq_one_iff
  by_cases hId : jobId = id
  · subst hId
    by_cases hMet :
        ∃ job, jobs.find? jobId = some job ∧ cond job
    · rcases hMet with ⟨job, hFind, hCond⟩
      refine Or.inl ⟨rfl, job, hFind, hCond, ?_, ?_⟩
      · unfold updateOne
        rw [hAffected.mpr ⟨job, hFind, hCond⟩]
        rfl
      · have hKey := KeyedTable.key_of_find? hFind
        simp [find?_updateOne, hFind, hKey, hCond]
    · have hUnmet :
          ∀ job, jobs.find? jobId = some job →
            cond job = false := by
        intro job hFind
        by_contra hCond
        exact hMet ⟨job, hFind, by simpa using hCond⟩
      refine Or.inr ⟨?_, fun _ => ⟨?_, hUnmet⟩⟩
      · rw [find?_updateOne]
        cases hFind : jobs.find? jobId with
        | none => rfl
        | some job => simp [hUnmet job hFind]
      · unfold updateOne
        rw [Except.ok.injEq, beq_eq_false_iff_ne]
        exact fun hOne => hMet (hAffected.mp hOne)
  · refine Or.inr ⟨?_, fun hEq => absurd hEq hId⟩
    rw [find?_updateOne]
    cases hFind : jobs.find? id with
    | none => rfl
    | some job =>
        have hNe : job.id ≠ jobId := by
          rw [KeyedTable.key_of_find? hFind]
          exact fun hEq => hId hEq.symm
        simp [hNe]

/-
  A statement leaves the ids of the jobs as they are, or
  creates a job under an id that no job has.
-/
theorem ids_run
    (clock : Nat)
    (statement : JobStatement)
    (jobs : JobTable) :
    (statement.run clock jobs).2.rows.map TransferJob.id =
        jobs.rows.map TransferJob.id ∨
      ∃ job,
        statement = .create job ∧
          job.id ∉ jobs.rows.map TransferJob.id ∧
          (statement.run clock jobs).2.rows.map
              TransferJob.id =
            job.id :: jobs.rows.map TransferJob.id := by
  cases statement with
  | get jobId => exact Or.inl rfl
  | candidates now => exact Or.inl rfl
  | listDeadLetter => exact Or.inl rfl
  | claim jobId now =>
      exact Or.inl
        (jobs.keys_updateWhere _ (setSyncing now)
          fun _ => rfl)
  | markSynced jobId =>
      exact Or.inl
        (jobs.keys_updateWhere _ (setSynced clock)
          fun _ => rfl)
  | markFailed jobId error nextRetryAt =>
      exact Or.inl
        (jobs.keys_updateWhere _ (setFailed error nextRetryAt clock)
          fun _ => rfl)
  | requeueDeadLetter jobId =>
      exact Or.inl
        (jobs.keys_updateWhere _ (setStaged clock)
          fun _ => rfl)
  | create job =>
      cases hInsert : jobs.insert? job with
      | none =>
          simp [run, insertJob, hInsert]
      | some next =>
          rcases KeyedTable.insert?_eq_some_iff.mp
            hInsert with ⟨hFree, hRows⟩
          refine Or.inr ⟨job, rfl, ?_, ?_⟩
          · intro hMember
            rcases List.mem_map.mp hMember with
              ⟨other, hOther, hId⟩
            exact KeyedTable.find?_eq_none_iff.mp hFree
              other hOther hId
          · simp [run, insertJob, hInsert, hRows]

end JobStatement

end Storage
