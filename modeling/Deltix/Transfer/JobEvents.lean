import Deltix.Transfer.PushOutline

/-
  What happens to the jobs in a run: the events that claim,
  mark and requeue a job, which call holds it, and how the
  row of a job changes when an event happens.

  Key definitions include:
    * `claims`
    * `marks`
    * `pending`
    * `holds`
    * `owes`
    * `countSince`
    * `RowStep`

  Key theorems include:
    * `holds_or_finished`
    * `rowStep_exec`
-/

------------------------------------------------------------
-- Events Of A Job
------------------------------------------------------------

namespace Transfer

namespace JobEvents

open Auth Concurrency Relational Storage

/- The statement of an event updated the job. -/
def claims (id : String) : TransferEvent → Bool
  | .performed _ (.jobs (.claim jobId _)) (.ok true) _ _ =>
      jobId = id
  | _ => false

def syncs (id : String) : TransferEvent → Bool
  | .performed _ (.jobs (.markSynced jobId)) (.ok true)
      _ _ => jobId = id
  | _ => false

def fails (id : String) : TransferEvent → Bool
  | .performed _ (.jobs (.markFailed jobId _ _)) (.ok true)
      _ _ => jobId = id
  | _ => false

def requeues (id : String) : TransferEvent → Bool
  | .performed _ (.jobs (.requeueDeadLetter jobId))
      (.ok true) _ _ => jobId = id
  | _ => false

/- The store answered a statement that marks the job. -/
def marks (id : String) : TransferEvent → Bool
  | .performed _ (.jobs (.markSynced jobId)) (.ok _) _ _ =>
      jobId = id
  | .performed _ (.jobs (.markFailed jobId _ _)) (.ok _)
      _ _ => jobId = id
  | _ => false

/- The store refused to read the job or to mark it as
   failed. -/
def refuses (id : String) : TransferEvent → Bool
  | .performed _ (.jobs (.get jobId)) (.error _) _ _ =>
      jobId = id
  | .performed _ (.jobs (.markFailed jobId _ _)) (.error _)
      _ _ => jobId = id
  | _ => false

def ends : TransferEvent → Bool
  | .finished _ _ => true
  | _ => false

/- What the last event of a call that opens something is not
   followed by one of it that closes it. -/
def pending
    (i : Nat)
    (opens closes : TransferEvent → Bool) :
    List TransferEvent → Bool
  | [] => false
  | event :: older =>
      if event.task = i then
        opens event ||
          (!closes event && pending i opens closes older)
      else pending i opens closes older

/- A call owes a mark for a job that it has claimed. -/
def owes (i : Nat) (id : String) :
    List TransferEvent → Bool :=
  pending i (claims id) (marks id)

/- A call holds the jobs for which it owes a mark, until it
   ends. -/
def holds (i : Nat) (id : String) :
    List TransferEvent → Bool :=
  pending i (claims id) fun event =>
    marks id event || ends event

/- How many events count since the last reset. -/
def countSince (counts resets : TransferEvent → Bool) :
    List TransferEvent → Nat
  | [] => 0
  | event :: older =>
      if resets event then 0
      else
        countSince counts resets older +
          if counts event then 1 else 0

/- The attempts at a job since its last requeue, and those
   that were recorded as failed. -/
def attempts (id : String) : List TransferEvent → Nat :=
  countSince (claims id) (requeues id)

def failures (id : String) : List TransferEvent → Nat :=
  countSince (fails id) (requeues id)

/- A call has an event of a kind. -/
def Has
    (i : Nat)
    (kind : TransferEvent → Bool)
    (trace : List TransferEvent) : Prop :=
  ∃ event ∈ trace, event.task = i ∧ kind event = true

variable {i j : Nat} {id : String} {w v : TransferWorld}
variable {opens closes kind : TransferEvent → Bool}
variable {event : TransferEvent} {older : List TransferEvent}

theorem pending_cons_of_ne (hTask : event.task ≠ i) :
    pending i opens closes (event :: older) =
      pending i opens closes older := by
  simp [pending, hTask]

/- What is pending was just opened or was pending before. -/
theorem pending_cons_iff :
    pending i opens closes (event :: older) = true ↔
      (event.task = i ∧ opens event = true) ∨
        (pending i opens closes older = true ∧
          (event.task = i → closes event = false)) := by
  by_cases hTask : event.task = i
  · simp [pending, hTask, and_comm]
  · simp [pending, hTask]

/- The others neither open nor close for a call. -/
theorem pending_of_grows
    (hGrows : World.Grows i w v) :
    pending i opens closes v.trace =
      pending i opens closes w.trace := by
  rcases hGrows with ⟨events, hTrace, hOthers⟩
  rw [hTrace]
  clear hTrace
  induction events with
  | nil => rfl
  | cons event rest ih =>
      have hTask := hOthers event List.mem_cons_self
      rw [List.cons_append, pending_cons_of_ne hTask]
      apply ih
      intro other hOther
      exact hOthers other (List.mem_cons_of_mem _ hOther)

/- What is pending was opened. -/
theorem has_of_pending
    (hPending : pending i opens closes older = true) :
    Has i opens older := by
  induction older with
  | nil => cases hPending
  | cons event rest ih =>
      rcases pending_cons_iff.mp hPending with
        ⟨hTask, hOpens⟩ | ⟨hOld, _⟩
      · exact ⟨event, List.mem_cons_self, hTask, hOpens⟩
      · rcases ih hOld with ⟨other, hOther, hKind⟩
        exact ⟨other, List.mem_cons_of_mem _ hOther, hKind⟩

theorem Has.cons
    (hHas : Has i kind older) :
    Has i kind (event :: older) := by
  rcases hHas with ⟨other, hOther, hKind⟩
  exact ⟨other, List.mem_cons_of_mem _ hOther, hKind⟩

/- The others add nothing to what a call has. -/
theorem Has.of_grows
    (hHas : Has i kind v.trace)
    (hGrows : World.Grows i w v) :
    Has i kind w.trace := by
  rcases hHas with ⟨event, hEvent, hTask, hKind⟩
  exact ⟨event, hGrows.mem_own hTask hEvent, hTask, hKind⟩

theorem Has.of_cons
    (hHas : Has i kind (event :: older)) :
    (event.task = i ∧ kind event = true) ∨
      Has i kind older := by
  rcases hHas with ⟨other, hOther, hTask, hKind⟩
  rcases List.mem_cons.mp hOther with hNew | hOld
  · subst hNew
    exact Or.inl ⟨hTask, hKind⟩
  · exact Or.inr ⟨other, hOld, hTask, hKind⟩

/- A call that holds a job owes a mark for it. -/
theorem owes_of_holds
    (hHolds : holds i id older = true) :
    owes i id older = true := by
  induction older with
  | nil => cases hHolds
  | cons event rest ih =>
      rcases pending_cons_iff.mp hHolds with
        hClaims | ⟨hOld, hKept⟩
      · exact pending_cons_iff.mpr (Or.inl hClaims)
      · refine pending_cons_iff.mpr (Or.inr ⟨ih hOld, ?_⟩)
        intro hTask
        exact (Bool.or_eq_false_iff.mp (hKept hTask)).1

/- A call that owes a mark holds the job or has ended. -/
theorem holds_or_finished
    (hOwes : owes i id older = true) :
    holds i id older = true ∨
      ∃ newer outcome before,
        older = newer ++ .finished i outcome :: before ∧
          owes i id before = true := by
  induction older with
  | nil => cases hOwes
  | cons event rest ih =>
      rcases pending_cons_iff.mp hOwes with
        hClaims | ⟨hOld, hKept⟩
      · exact Or.inl (pending_cons_iff.mpr (Or.inl hClaims))
      · rcases ih hOld with
          hHolds | ⟨newer, outcome, before, hRest, hBefore⟩
        · by_cases hEnds :
              event.task = i ∧ ends event = true
          · rcases hEnds with ⟨hTask, hEnds⟩
            cases event with
            | finished k outcome =>
                cases hTask
                exact Or.inr ⟨[], outcome, rest, rfl, hOld⟩
            | started k request => cases hEnds
            | performed k op answer before after =>
                cases hEnds
          · refine Or.inl
              (pending_cons_iff.mpr (Or.inr ⟨hHolds, ?_⟩))
            intro hTask
            rw [hKept hTask, Bool.false_or]
            simpa [hTask] using hEnds
        · subst hRest
          exact Or.inr
            ⟨event :: newer, outcome, before, rfl, hBefore⟩

------------------------------------------------------------
-- The Row Of A Job
------------------------------------------------------------

/-
  How an event changes what is stored under an id.  Only
  the event that answers `true` to a statement on the id
  updates the row, and a mark misses only a job that is not
  being synced.
-/
inductive RowStep (id : String) :
    TransferEvent → Option TransferJob →
      Option TransferJob → Prop where
  | kept
      {event : TransferEvent}
      {row : Option TransferJob}
      (hClaims : claims id event = false)
      (hSyncs : syncs id event = false)
      (hFails : fails id event = false)
      (hRequeues : requeues id event = false)
      (hMarks :
        marks id event = true →
          ∀ job, row = some job → job.status ≠ .syncing) :
      RowStep id event row row
  | created
      {i : Nat}
      {job : TransferJob}
      {before after : TransferState}
      (hId : job.id = id) :
      RowStep id
        (.performed i (.jobs (.create job)) (.ok ()) before
          after)
        none (some job)
  | claimed
      {i now : Nat}
      {job : TransferJob}
      {before after : TransferState}
      (hEligible : JobStatement.eligible now job = true) :
      RowStep id
        (.performed i (.jobs (.claim id now)) (.ok true)
          before after)
        (some job) (some (JobStatement.setSyncing now job))
  | synced
      {i : Nat}
      {job : TransferJob}
      {before after : TransferState}
      (hStatus : job.status = .syncing) :
      RowStep id
        (.performed i (.jobs (.markSynced id)) (.ok true)
          before after)
        (some job)
        (some (JobStatement.setSynced before.clock job))
  | failed
      {i nextRetryAt : Nat}
      {error : String}
      {job : TransferJob}
      {before after : TransferState}
      (hStatus : job.status = .syncing) :
      RowStep id
        (.performed i
          (.jobs (.markFailed id error nextRetryAt))
          (.ok true) before after)
        (some job)
        (some
          (JobStatement.setFailed error nextRetryAt
            before.clock job))
  | requeued
      {i : Nat}
      {job : TransferJob}
      {before after : TransferState}
      (hStatus : job.status = .deadLetter) :
      RowStep id
        (.performed i (.jobs (.requeueDeadLetter id))
          (.ok true) before after)
        (some job)
        (some (JobStatement.setStaged before.clock job))

variable {config : TransferConfig} {op : TransferOp}
variable {choice : TransferChoice} {answer : op.Answer}
variable {s t : TransferState} {id : String}
variable {event : TransferEvent} {job : TransferJob}
variable {row next : Option TransferJob}

theorem eligible_iff {now : Nat} :
    JobStatement.eligible now job = true ↔
      job.status = .staged ∨
        (job.status = .syncFailed ∧ job.nextRetryAt ≤ now) := by
  simp [JobStatement.eligible]

theorem ne_syncing_of_eligible
    {now : Nat}
    (hEligible : JobStatement.eligible now job = true) :
    job.status ≠ .syncing ∧ job.status ≠ .synced ∧
      job.status ≠ .deadLetter := by
  rcases eligible_iff.mp hEligible with
    hStatus | ⟨hStatus, _⟩
  · simp [hStatus]
  · simp [hStatus]

/- Only a job that can be claimed is. -/
theorem RowStep.of_claims
    (hStep : RowStep id event row next)
    (hClaims : claims id event = true) :
    ∃ job now,
      row = some job ∧
        JobStatement.eligible now job = true ∧
        next = some (JobStatement.setSyncing now job) := by
  cases hStep with
  | kept hNot =>
      rw [hNot] at hClaims
      cases hClaims
  | claimed hEligible =>
      exact ⟨_, _, rfl, hEligible, rfl⟩
  | _ => cases hClaims

/- A job that is being synced stays so until it is marked,
   and not longer. -/
theorem RowStep.of_syncing
    (hStep : RowStep id event (some job) next)
    (hStatus : job.status = .syncing) :
    (next = some job ∧ marks id event = false) ∨
      (marks id event = true ∧
        ∀ later, next = some later →
          later.status ≠ .syncing) := by
  cases hStep with
  | kept _ _ _ _ hMarks =>
      refine Or.inl ⟨rfl, ?_⟩
      by_contra hMarked
      exact hMarks (by simpa using hMarked) job rfl hStatus
  | claimed hEligible =>
      exact absurd hStatus
        (ne_syncing_of_eligible hEligible).1
  | synced =>
      refine Or.inr ⟨by simp [marks], ?_⟩
      rintro _ ⟨⟩
      simp [JobStatement.setSynced]
  | failed =>
      refine Or.inr ⟨by simp [marks], ?_⟩
      rintro _ ⟨⟩
      simp only [JobStatement.setFailed]
      split <;> simp
  | requeued hDead =>
      rw [hStatus] at hDead
      cases hDead

/- A job comes to be synced only by a claim. -/
theorem RowStep.syncing_cases
    (hStep : RowStep id event row (some job))
    (hStatus : job.status = .syncing)
    (hCreated : row = none → job.status = .staged) :
    claims id event = true ∨
      (row = some job ∧ marks id event = false) := by
  generalize hNext : some job = next at hStep
  cases hStep with
  | kept _ _ _ _ hMarks =>
      refine Or.inr ⟨rfl, ?_⟩
      by_contra hMarked
      exact hMarks (by simpa using hMarked) job hNext.symm
        hStatus
  | created =>
      rw [hCreated rfl] at hStatus
      cases hStatus
  | claimed => exact Or.inl (by simp [claims])
  | synced =>
      cases hNext
      cases hStatus
  | failed =>
      cases hNext
      simp only [JobStatement.setFailed] at hStatus
      split at hStatus <;> cases hStatus
  | requeued =>
      cases hNext
      cases hStatus

/- An event that is no answered job statement. -/
theorem RowStep.of_not_jobs
    (hEvent :
      ∀ i statement value before after,
        event ≠
          .performed i (.jobs statement) (.ok value) before
            after) :
    RowStep id event row row := by
  have hMarks : marks id event = false := by
    unfold marks
    split
    · exact absurd rfl (hEvent _ _ _ _ _)
    · exact absurd rfl (hEvent _ _ _ _ _)
    · rfl
  refine .kept ?_ ?_ ?_ ?_ (by simp [hMarks])
  · unfold claims
    split
    · exact absurd rfl (hEvent _ _ _ _ _)
    · rfl
  · unfold syncs
    split
    · exact absurd rfl (hEvent _ _ _ _ _)
    · rfl
  · unfold fails
    split
    · exact absurd rfl (hEvent _ _ _ _ _)
    · rfl
  · unfold requeues
    split
    · exact absurd rfl (hEvent _ _ _ _ _)
    · rfl

/- An update hits the row and answers `true`, or misses. -/
theorem updateOne_row
    {P :
      Bool → Option TransferJob → Option TransferJob → Prop}
    {jobs : JobTable}
    {jobId : String}
    {cond : TransferJob → Bool}
    {set : TransferJob → TransferJob}
    {keeps : ∀ job, (set job).id = job.id}
    {value : Bool}
    (hAnswer :
      (JobStatement.updateOne jobs jobId cond set keeps).1 =
        .ok value)
    (hHit :
      jobId = id → ∀ job, cond job = true →
        P true (some job) (some (set job)))
    (hMiss :
      ∀ row,
        (jobId = id →
          value = false ∧
            ∀ job, row = some job → cond job = false) →
        P value row row) :
    P value (jobs.find? id)
      ((JobStatement.updateOne jobs jobId cond set
        keeps).2.find? id) := by
  rcases JobStatement.updateOne_cases id with
    ⟨hId, job, hFind, hCond, hTrue, hSet⟩ | ⟨hSame, hFalse⟩
  · rw [hTrue, Except.ok.injEq] at hAnswer
    rw [← hAnswer, hFind, hSet]
    exact hHit hId job hCond
  · rw [hSame]
    apply hMiss
    intro hId
    rcases hFalse hId with ⟨hRefused, hCond⟩
    rw [hRefused, Except.ok.injEq] at hAnswer
    exact ⟨hAnswer.symm, hCond⟩

/- What a statement on the jobs answers, it also does. -/
theorem rowStep_run
    (i : Nat)
    (statement : JobStatement)
    {value : statement.Answer}
    (hRun :
      statement.run s.clock s.jobs = (.ok value, t.jobs)) :
    RowStep id
      (.performed i (.jobs statement) (.ok value) s t)
      (s.jobs.find? id) (t.jobs.find? id) := by
  have hAnswer := congrArg Prod.fst hRun
  have hAfter := congrArg Prod.snd hRun
  dsimp only at hAnswer hAfter
  rw [← hAfter]
  have hPlain :
      ∀ {row : Option TransferJob} {event : TransferEvent},
        claims id event = false → syncs id event = false →
        fails id event = false → requeues id event = false →
        marks id event = false →
        RowStep id event row row :=
    fun hClaims hSyncs hFails hRequeues hMarks =>
      .kept hClaims hSyncs hFails hRequeues
        (by simp [hMarks])
  cases statement with
  | get jobId => exact hPlain rfl rfl rfl rfl rfl
  | candidates now => exact hPlain rfl rfl rfl rfl rfl
  | listDeadLetter => exact hPlain rfl rfl rfl rfl rfl
  | create job =>
      rcases insertJob_cases s.jobs job with hSame | hNew
      · have hRefused := congrArg Prod.fst hSame
        rw [show (insertJob s.jobs job).1 = .ok value from
          hAnswer] at hRefused
        cases hRefused
      · have hFind :
            ((JobStatement.create job).run s.clock
                s.jobs).2.find? id =
              if job.id = id then some job
              else s.jobs.find? id := hNew.2.2 id
        rw [hFind]
        by_cases hId : job.id = id
        · rw [if_pos hId, ← hId, hNew.2.1]
          exact .created rfl
        · rw [if_neg hId]
          exact hPlain rfl rfl rfl rfl rfl
  | claim jobId now =>
      refine updateOne_row
        (P := fun value =>
          RowStep id
            (.performed i (.jobs (.claim jobId now))
              (.ok value) s t)) hAnswer ?_ ?_
      · rintro rfl job hCond
        exact .claimed hCond
      · intro row hMiss
        refine hPlain ?_ rfl rfl rfl rfl
        cases value with
        | false => rfl
        | true =>
            simpa [claims] using fun hId => (hMiss hId).1
  | requeueDeadLetter jobId =>
      refine updateOne_row
        (P := fun value =>
          RowStep id
            (.performed i (.jobs (.requeueDeadLetter jobId))
              (.ok value) s t)) hAnswer ?_ ?_
      · rintro rfl job hCond
        exact .requeued (by simpa using hCond)
      · intro row hMiss
        refine hPlain rfl rfl rfl ?_ rfl
        cases value with
        | false => rfl
        | true =>
            simpa [requeues] using fun hId => (hMiss hId).1
  | markSynced jobId =>
      refine updateOne_row
        (P := fun value =>
          RowStep id
            (.performed i (.jobs (.markSynced jobId))
              (.ok value) s t)) hAnswer ?_ ?_
      · rintro rfl job hCond
        exact .synced (by simpa using hCond)
      · intro row hMiss
        refine .kept rfl ?_ rfl rfl ?_
        · cases value with
          | false => rfl
          | true =>
              simpa [syncs] using fun hId => (hMiss hId).1
        · intro hMarks job hJob
          have hId : jobId = id := by
            simpa [marks] using hMarks
          simpa using (hMiss hId).2 job hJob
  | markFailed jobId error nextRetryAt =>
      refine updateOne_row
        (P := fun value =>
          RowStep id
            (.performed i
              (.jobs (.markFailed jobId error nextRetryAt))
              (.ok value) s t)) hAnswer ?_ ?_
      · rintro rfl job hCond
        exact .failed (by simpa using hCond)
      · intro row hMiss
        refine .kept rfl rfl ?_ rfl ?_
        · cases value with
          | false => rfl
          | true =>
              simpa [fails] using fun hId => (hMiss hId).1
        · intro hMarks job hJob
          have hId : jobId = id := by
            simpa [marks] using hMarks
          simpa using (hMiss hId).2 job hJob

/- Every operation does to a row what its event says. -/
theorem rowStep_exec
    (i : Nat)
    (hExec : op.exec config choice s = some (answer, t))
    (id : String) :
    RowStep id (.performed i op answer s t)
      (s.jobs.find? id) (t.jobs.find? id) := by
  by_cases hJobs :
      ∃ statement value,
        op = .jobs statement ∧
          HEq answer (Except.ok value :
            Except StoreError statement.Answer)
  · rcases hJobs with ⟨statement, value, rfl, hValue⟩
    cases eq_of_heq hValue
    exact rowStep_run i statement (exec_jobs_ok hExec)
  · have hSame : t.jobs = s.jobs := by
      cases op with
      | jobs statement =>
          cases answer with
          | ok value =>
              exact absurd
                ⟨statement, value, rfl, HEq.rfl⟩ hJobs
          | error error => exact exec_jobs_error hExec
      | _ =>
          rcases (TransferOp.exec_frame hExec).jobs with
            hSame | ⟨_, hOp, _⟩
          · exact hSame
          · cases hOp
    rw [hSame]
    apply RowStep.of_not_jobs
    rintro k statement value before after hEvent
    cases hEvent
    exact hJobs ⟨statement, value, rfl, HEq.rfl⟩

/- A row is new only where its job is created. -/
theorem op_of_new
    (hExec : op.exec config choice s = some (answer, t))
    (hNone : s.jobs.find? id = none)
    (hSome : t.jobs.find? id = some job) :
    op = .jobs (.create job) := by
  have hStep := rowStep_exec 0 hExec id
  rw [hNone, hSome] at hStep
  generalize hRow : (none : Option TransferJob) = row,
    hNext : some job = next at hStep
  cases hStep with
  | kept =>
      rw [← hRow] at hNext
      cases hNext
  | created =>
      cases hNext
      rfl
  | _ => cases hRow

end JobEvents

end Transfer
