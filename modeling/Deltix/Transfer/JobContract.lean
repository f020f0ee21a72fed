import Deltix.Transfer.JobEvents
import Deltix.Transfer.WorkerOutline

/-
  The contract of the transfer jobs: what holds of the jobs
  and of the calls that claim them in every run, whatever
  fails.

  A call of the worker that has claimed a job owes a mark
  for it until the store answers one.  A job is being synced
  exactly while some call owes a mark for it, no two calls
  do, and a call ends owing one only if the store refused
  to read the job or to mark it as failed.

  Key definitions include:
    * `StepLaw`
    * `Sound`
    * `JobInv`
    * `jobContract`
    * `Entitled`

  Key theorems include:
    * `stepLaw_exec`
    * `jobInv_step`
    * `keeps_perform`
    * `jobInv_of_run`
-/

------------------------------------------------------------
-- What An Operation May Do
------------------------------------------------------------

namespace Transfer

namespace JobContract

open Auth Concurrency Relational Storage JobEvents

/- The ids of the jobs, row by row. -/
def ids (s : TransferState) : List String :=
  s.jobs.rows.map TransferJob.id

structure StepLaw
    (op : TransferOp)
    (before after : TransferState) : Prop where
  rows :
    ids after = ids before ∨
      ∃ job,
        op = .jobs (.create job) ∧
          job.id ∉ ids before ∧
          ids after = job.id :: ids before
  recorded :
    ∀ id job, before.jobs.find? id = some job →
      ∃ later,
        after.jobs.find? id = some later ∧
          job.SameRecord later
  synced :
    ∀ id job, before.jobs.find? id = some job →
      job.status = .synced →
        after.jobs.find? id = some job
  dead :
    ∀ id job, before.jobs.find? id = some job →
      job.status = .deadLetter →
        after.jobs.find? id = some job ∨
          op = .jobs (.requeueDeadLetter id)
  due :
    ∀ id job later, before.jobs.find? id = some job →
      after.jobs.find? id = some later →
      job.status = .syncFailed → later.status = .syncing →
        job.nextRetryAt ≤ before.clock

variable {config : TransferConfig} {op : TransferOp}
variable {choice : TransferChoice} {answer : op.Answer}
variable {s t : TransferState}

theorem stepLaw_exec
    (hExec : op.exec config choice s = some (answer, t))
    (hDue :
      ∀ id now, op = .jobs (.claim id now) →
        now ≤ s.clock) :
    StepLaw op s t where
  rows := by
    rcases (TransferOp.exec_frame hExec).jobs with
      hSame | ⟨statement, hOp, hRun⟩
    · exact Or.inl (by rw [ids, hSame, ids])
    · unfold ids
      rw [hRun]
      rcases statement.ids_run s.clock s.jobs with
        hKept | ⟨job, hCreate, hNew, hIds⟩
      · exact Or.inl hKept
      · rw [hCreate] at hOp
        exact Or.inr ⟨job, hOp, hNew, hIds⟩
  recorded := fun _ _ hFind => recorded_exec hExec hFind
  synced := by
    intro id job hFind hStatus
    have hStep := rowStep_exec 0 hExec id
    rw [hFind] at hStep
    generalize t.jobs.find? id = next at hStep
    cases hStep with
    | kept => rfl
    | claimed hEligible =>
        exact absurd hStatus
          (ne_syncing_of_eligible hEligible).2.1
    | synced hOther => simp [hStatus] at hOther
    | failed hOther => simp [hStatus] at hOther
    | requeued hOther => simp [hStatus] at hOther
  dead := by
    intro id job hFind hStatus
    have hStep := rowStep_exec 0 hExec id
    rw [hFind] at hStep
    generalize t.jobs.find? id = next at hStep
    cases hStep with
    | kept => exact Or.inl rfl
    | claimed hEligible =>
        exact absurd hStatus
          (ne_syncing_of_eligible hEligible).2.2
    | synced hOther => simp [hStatus] at hOther
    | failed hOther => simp [hStatus] at hOther
    | requeued => exact Or.inr rfl
  due := by
    intro id job later hFind hLater hFailed hSyncing
    have hStep := rowStep_exec 0 hExec id
    rw [hFind, hLater] at hStep
    generalize hNext : some later = next at hStep
    cases hStep with
    | kept =>
        cases hNext
        rw [hFailed] at hSyncing
        cases hSyncing
    | claimed hEligible =>
        rcases eligible_iff.mp hEligible with
          hStaged | ⟨_, hTime⟩
        · rw [hFailed] at hStaged
          cases hStaged
        · exact hTime.trans (hDue id _ rfl)
    | synced hOther => simp [hFailed] at hOther
    | failed hOther => simp [hFailed] at hOther
    | requeued hOther => simp [hFailed] at hOther

------------------------------------------------------------
-- Counting Attempts
------------------------------------------------------------

/- A dead letter has used up its retries, and no other job
   has. -/
structure Sound (job : TransferJob) : Prop where
  positive : 0 < job.maxRetries
  dead :
    job.status = .deadLetter →
      job.retryCount = job.maxRetries
  alive :
    job.status ≠ .deadLetter →
      job.retryCount < job.maxRetries

/- The attempts that a row accounts for, the failures among
   them, and its limit. -/
def used : Option TransferJob → Nat
  | none => 0
  | some job =>
      job.retryCount +
        if job.status = .syncing ∨ job.status = .synced then 1
        else 0

def failed : Option TransferJob → Nat
  | none => 0
  | some job => job.retryCount

def limit : Option TransferJob → Nat
  | none => 0
  | some job => job.maxRetries

variable {id : String} {event : TransferEvent}
variable {row next : Option TransferJob}
variable {older : List TransferEvent}

/- A job with an attempt under way has retries left. -/
theorem used_le_limit
    (hSound : ∀ job, row = some job → Sound job) :
    used row ≤ limit row := by
  cases row with
  | none => exact le_refl _
  | some job =>
      have hJob := hSound job rfl
      simp only [used, limit]
      by_cases hDead : job.status = .deadLetter
      · have hRetries := hJob.dead hDead
        simp [hDead, hRetries]
      · have hRetries := hJob.alive hDead
        split <;> omega

theorem failed_le_used : failed row ≤ used row := by
  cases row with
  | none => exact le_refl _
  | some job => exact Nat.le_add_right _ _

/- A row keeps its limit. -/
theorem limit_le_of_step
    (hStep : RowStep id event row next) :
    limit row ≤ limit next := by
  cases hStep with
  | created hId => exact Nat.zero_le _
  | _ => exact le_refl _

theorem sound_of_step
    (hStep : RowStep id event row next)
    (hCreated :
      ∀ job, row = none → next = some job → Sound job)
    (hSound : ∀ job, row = some job → Sound job) :
    ∀ job, next = some job → Sound job := by
  cases hStep with
  | kept => exact hSound
  | created hId =>
      intro job hJob
      exact hCreated job rfl hJob
  | claimed hEligible =>
      rename_i i now job before after
      have hJob := hSound job rfl
      have hAlive :=
        hJob.alive (ne_syncing_of_eligible hEligible).2.2
      rintro _ ⟨⟩
      exact ⟨hJob.positive, by simp [JobStatement.setSyncing],
        fun _ => hAlive⟩
  | synced hStatus =>
      rename_i i job before after
      have hJob := hSound job rfl
      have hAlive := hJob.alive (by simp [hStatus])
      rintro _ ⟨⟩
      exact ⟨hJob.positive, by simp [JobStatement.setSynced],
        fun _ => hAlive⟩
  | failed hStatus =>
      rename_i i nextRetryAt error job before after
      have hJob := hSound job rfl
      have hAlive := hJob.alive (by simp [hStatus])
      rintro _ ⟨⟩
      refine ⟨hJob.positive, ?_, ?_⟩
      · intro hDead
        simp only [JobStatement.setFailed] at hDead ⊢
        split at hDead
        · omega
        · cases hDead
      · intro hNotDead
        simp only [JobStatement.setFailed] at hNotDead ⊢
        split at hNotDead
        · exact absurd rfl hNotDead
        · omega
  | requeued hStatus =>
      rename_i i job before after
      have hJob := hSound job rfl
      rintro _ ⟨⟩
      exact ⟨hJob.positive, by simp [JobStatement.setStaged],
        fun _ => hJob.positive⟩

/- One event counts at most one attempt, and then the row
   accounts for it. -/
theorem attempts_of_step
    (hStep : RowStep id event row next)
    (hUsed : attempts id older ≤ used row) :
    attempts id (event :: older) ≤ used next := by
  unfold attempts countSince
  cases hStep with
  | kept hClaims hSyncs hFails hRequeues =>
      rw [hRequeues, hClaims]
      exact hUsed
  | created hId =>
      have hNone : attempts id older = 0 := by
        simpa [used] using hUsed
      unfold attempts at hNone
      simp [requeues, claims, hNone]
  | claimed hEligible =>
      have hStatus := ne_syncing_of_eligible hEligible
      unfold attempts used at hUsed
      simp only [hStatus.1, hStatus.2.1, or_self,
        if_false] at hUsed
      simp only [requeues, claims, used,
        JobStatement.setSyncing, Bool.false_eq_true, if_false,
        decide_true, if_true, true_or]
      omega
  | synced hStatus =>
      unfold attempts used at hUsed
      simp only [hStatus, true_or, if_true] at hUsed
      simpa [requeues, claims, used,
        JobStatement.setSynced] using hUsed
  | failed hStatus =>
      unfold attempts used at hUsed
      simp only [hStatus, true_or, if_true] at hUsed
      simp only [requeues, claims, used,
        JobStatement.setFailed, Bool.false_eq_true, if_false]
      omega
  | requeued hStatus =>
      simp [requeues]

theorem failures_of_step
    (hStep : RowStep id event row next)
    (hFailed : failures id older ≤ failed row) :
    failures id (event :: older) ≤ failed next := by
  unfold failures countSince
  cases hStep with
  | kept hClaims hSyncs hFails hRequeues =>
      rw [hRequeues, hFails]
      exact hFailed
  | created hId =>
      have hNone : failures id older = 0 := by
        simpa [failed] using hFailed
      unfold failures at hNone
      simp [requeues, fails, hNone]
  | claimed hEligible =>
      simpa [requeues, fails, failures, failed,
        JobStatement.setSyncing] using hFailed
  | synced hStatus =>
      simpa [requeues, fails, failures, failed,
        JobStatement.setSynced] using hFailed
  | failed hStatus =>
      simp only [failures, failed] at hFailed
      simp only [requeues, fails, failed,
        JobStatement.setFailed, Bool.false_eq_true, if_false,
        decide_true, if_true]
      omega
  | requeued hStatus =>
      simp [requeues]

------------------------------------------------------------
-- The Contract
------------------------------------------------------------

/- A call that ends owing a mark was refused one. -/
def Settles
    (event : TransferEvent)
    (older : List TransferEvent) : Prop :=
  ∀ i outcome, event = .finished i outcome →
    ∀ id, owes i id older = true →
      Has i (refuses id) older

/- The jobs that a call has claimed are not being synced,
   unless it was refused. -/
def Released
    (i : Nat)
    (trace : List TransferEvent)
    (s : TransferState) : Prop :=
  ∀ id, Has i (claims id) trace →
    Has i (refuses id) trace ∨
      ∀ job, s.jobs.find? id = some job →
        job.status ≠ .syncing

/- `stuck` are the jobs being synced before the run. -/
structure JobInv
    (stuck : Set String)
    (w : TransferWorld) : Prop where
  steps :
    ∀ i op answer before after,
      .performed i op answer before after ∈ w.trace →
        StepLaw op before after
  owed :
    ∀ i id, owes i id w.trace = true →
      ∃ job, w.state.jobs.find? id = some job ∧
        job.status = .syncing
  single :
    ∀ i j id, owes i id w.trace = true →
      owes j id w.trace = true → i = j
  owners :
    ∀ id job, w.state.jobs.find? id = some job →
      job.status = .syncing →
        id ∈ stuck ∨ ∃ i, owes i id w.trace = true
  settled : Throughout Settles w.trace
  ended :
    ∀ i outcome older, w.trace = .finished i outcome :: older →
      Released i older w.state
  sound :
    ∀ id job, w.state.jobs.find? id = some job → Sound job
  used :
    ∀ id,
      attempts id w.trace ≤ used (w.state.jobs.find? id)
  failed :
    ∀ id,
      failures id w.trace ≤ failed (w.state.jobs.find? id)
  earlier :
    ∀ older, older <:+ w.trace → ∀ id,
      attempts id older ≤ limit (w.state.jobs.find? id) ∧
        failures id older ≤ limit (w.state.jobs.find? id)

/- The others do not turn the clock back. -/
def jobContract (stuck : Set String) : TransferContract where
  inv := JobInv stuck
  rely := fun _ w v => w.state.clock ≤ v.state.clock
  rely_refl := fun _ _ => le_refl _
  rely_trans := fun _ _ _ _ hFirst hSecond =>
    hFirst.trans hSecond

/- What a task owes before it touches a job. -/
def Entitled
    (i : Nat)
    (op : TransferOp)
    (w : TransferWorld) : Prop :=
  match op with
  | .jobs (.create job) => Sound job ∧ job.status = .staged
  | .jobs (.claim _ now) => now ≤ w.state.clock
  | .jobs (.markSynced id) => owes i id w.trace = true
  | .jobs (.markFailed id _ _) => owes i id w.trace = true
  | _ => True

/- What a task owes when it ends. -/
structure Done (i : Nat) (w : TransferWorld) : Prop where
  settled :
    ∀ id, owes i id w.trace = true →
      Has i (refuses id) w.trace
  released : Released i w.trace w.state

variable {after : TransferState}
variable {w v : TransferWorld} {stuck : Set String}
variable {event : TransferEvent} {i : Nat}

/- An event keeps the invariant when its task owes a mark
   for the jobs it marks, creates sound jobs, and ends only
   when it is done. -/
theorem jobInv_step
    (hInv : JobInv stuck w)
    (hTrace : v.trace = event :: w.trace)
    (hRows :
      ∀ id,
        RowStep id event (w.state.jobs.find? id)
          (v.state.jobs.find? id))
    (hMarks :
      ∀ id, marks id event = true →
        owes event.task id w.trace = true)
    (hCreated :
      ∀ id job, w.state.jobs.find? id = none →
        v.state.jobs.find? id = some job →
          Sound job ∧ job.status = .staged)
    (hLaw :
      ∀ i op answer before after,
        event = .performed i op answer before after →
          StepLaw op before after)
    (hDone :
      ∀ i outcome, event = .finished i outcome →
        Done i w ∧ v.state = w.state) :
    JobInv stuck v := by
  have hSound :
      ∀ id job, v.state.jobs.find? id = some job →
        Sound job := by
    intro id
    exact sound_of_step (hRows id)
      (fun job hNone hSome => (hCreated id job hNone hSome).1)
      (hInv.sound id)
  have hUsed :
      ∀ id,
        attempts id v.trace ≤
          JobContract.used (v.state.jobs.find? id) := by
    intro id
    rw [hTrace]
    exact attempts_of_step (hRows id) (hInv.used id)
  have hFailed :
      ∀ id,
        failures id v.trace ≤
          JobContract.failed (v.state.jobs.find? id) := by
    intro id
    rw [hTrace]
    exact failures_of_step (hRows id) (hInv.failed id)
  refine
    { steps := ?_
      owed := ?_
      single := ?_
      owners := ?_
      settled := ?_
      ended := ?_
      sound := hSound
      used := hUsed
      failed := hFailed
      earlier := ?_ }
  · intro i op answer before after hEvent
    rw [hTrace] at hEvent
    rcases List.mem_cons.mp hEvent with hNew | hOld
    · exact hLaw i op answer before after hNew.symm
    · exact hInv.steps i op answer before after hOld
  · intro i id hOwes
    rw [hTrace] at hOwes
    rcases pending_cons_iff.mp hOwes with
      ⟨_, hClaims⟩ | ⟨hOwed, hKept⟩
    · rcases (hRows id).of_claims hClaims with
        ⟨job, now, _, _, hNext⟩
      exact ⟨_, hNext, rfl⟩
    · rcases hInv.owed i id hOwed with ⟨job, hFind, hStatus⟩
      have hStep := hRows id
      rw [hFind] at hStep
      rcases hStep.of_syncing hStatus with
        ⟨hSame, _⟩ | ⟨hMarked, _⟩
      · exact ⟨job, hSame, hStatus⟩
      · have hTask :=
          hInv.single _ i id (hMarks id hMarked) hOwed
        rw [hKept hTask] at hMarked
        cases hMarked
  · intro i j id hFirst hSecond
    rw [hTrace] at hFirst hSecond
    have hClaimed :
        ∀ k, claims id event = true →
          ¬ owes k id w.trace = true := by
      intro k hClaims hOwes
      rcases (hRows id).of_claims hClaims with
        ⟨job, now, hFind, hEligible, _⟩
      rcases hInv.owed k id hOwes with
        ⟨other, hOther, hStatus⟩
      rw [hFind, Option.some.injEq] at hOther
      subst hOther
      exact (ne_syncing_of_eligible hEligible).1 hStatus
    rcases pending_cons_iff.mp hFirst with
      ⟨hTask, hClaims⟩ | ⟨hOwed, _⟩
    · rcases pending_cons_iff.mp hSecond with
        ⟨hTask', _⟩ | ⟨hOwed', _⟩
      · rw [← hTask, hTask']
      · exact absurd hOwed' (hClaimed j hClaims)
    · rcases pending_cons_iff.mp hSecond with
        ⟨_, hClaims⟩ | ⟨hOwed', _⟩
      · exact absurd hOwed (hClaimed i hClaims)
      · exact hInv.single i j id hOwed hOwed'
  · intro id job hFind hStatus
    have hStep := hRows id
    rw [hFind] at hStep
    have hCases :=
      hStep.syncing_cases hStatus
        (fun hNone => (hCreated id job hNone hFind).2)
    rw [hTrace]
    rcases hCases with hClaims | ⟨hSame, hUnmarked⟩
    · exact Or.inr
        ⟨event.task,
          pending_cons_iff.mpr (Or.inl ⟨rfl, hClaims⟩)⟩
    · rcases hInv.owners id job hSame hStatus with
        hStuck | ⟨i, hOwes⟩
      · exact Or.inl hStuck
      · exact Or.inr
          ⟨i, pending_cons_iff.mpr
            (Or.inr ⟨hOwes, fun _ => hUnmarked⟩)⟩
  · rw [hTrace]
    refine ⟨?_, hInv.settled⟩
    intro i outcome hEvent
    exact (hDone i outcome hEvent).1.settled
  · intro i outcome older hTop
    rw [hTrace, List.cons.injEq] at hTop
    rcases hTop with ⟨hEvent, rfl⟩
    rcases hDone i outcome hEvent with ⟨hEnded, hState⟩
    rw [hState]
    exact hEnded.released
  · intro older hSuffix id
    rw [hTrace, List.suffix_cons_iff] at hSuffix
    rcases hSuffix with hWhole | hSuffix
    · rw [hWhole, ← hTrace]
      have hLimit := used_le_limit (hSound id)
      exact ⟨(hUsed id).trans hLimit,
        (hFailed id).trans (failed_le_used.trans hLimit)⟩
    · have hOld := hInv.earlier older hSuffix id
      have hLimit := limit_le_of_step (hRows id)
      exact ⟨hOld.1.trans hLimit, hOld.2.trans hLimit⟩

theorem keeps_perform
    (hInv : JobInv stuck w)
    (hEntitled : Entitled i op w)
    (hExec :
      op.exec config choice w.state = some (answer, after)) :
    (jobContract stuck).Keeps i w
      (w.perform i op answer after) := by
  constructor
  · refine
      jobInv_step hInv rfl (rowStep_exec i hExec) ?_ ?_ ?_
        (by simp)
    · intro id hMarks
      unfold marks at hMarks
      split at hMarks
      · rename_i hEvent
        cases hEvent
        rw [decide_eq_true_eq] at hMarks
        rw [← hMarks]
        exact hEntitled
      · rename_i hEvent
        cases hEvent
        rw [decide_eq_true_eq] at hMarks
        rw [← hMarks]
        exact hEntitled
      · cases hMarks
    · intro id job hNone hSome
      rw [World.perform_state] at hSome
      cases op_of_new hExec hNone hSome
      exact hEntitled
    · intro k other reply before later hEvent
      cases hEvent
      apply stepLaw_exec hExec
      rintro id now rfl
      exact hEntitled
  · intro j _
    exact (TransferOp.exec_frame hExec).clock

------------------------------------------------------------
-- Assertions Of A Call
------------------------------------------------------------

variable {ok : TransferAllowed}
variable {call : TransferCall} {initial : TransferState}

/- A call that has claimed no job. -/
def Idle (i : Nat) (w : TransferWorld) : Prop :=
  ∀ id, ¬ Has i (claims id) w.trace

/- It also knows a time that has come. -/
def Due (i now : Nat) (w : TransferWorld) : Prop :=
  Idle i w ∧ now ≤ w.state.clock

/- A call that owes a mark for the one job it claimed. -/
structure Owing
    (i : Nat)
    (id : String)
    (w : TransferWorld) : Prop where
  owes : owes i id w.trace = true
  only : ∀ other, Has i (claims other) w.trace → other = id

theorem stable_idle : (jobContract stuck).Stable i (Idle i) := by
  intro w v hIdle hInterferes _ id hClaims
  exact hIdle id (hClaims.of_grows hInterferes.1)

theorem stable_due (now : Nat) :
    (jobContract stuck).Stable i (Due i now) := by
  intro w v hDue hInterferes hInv
  exact ⟨stable_idle w v hDue.1 hInterferes hInv,
    hDue.2.trans hInterferes.2⟩

theorem stable_owing (id : String) :
    (jobContract stuck).Stable i (Owing i id) := by
  intro w v hOwing hInterferes _
  refine ⟨?_, ?_⟩
  · unfold JobEvents.owes
    rw [pending_of_grows hInterferes.1]
    exact hOwing.owes
  · intro other hClaims
    exact hOwing.only other (hClaims.of_grows hInterferes.1)

theorem done_of_idle (hIdle : Idle i w) : Done i w where
  settled := fun id hOwes =>
    absurd (has_of_pending hOwes) (hIdle id)
  released := fun id hClaims => absurd hClaims (hIdle id)

theorem Due.done {now : Nat} (hDue : Due i now w) : Done i w :=
  done_of_idle hDue.1

/- An event that claims nothing leaves a call idle. -/
theorem Idle.perform
    (hIdle : Idle i w)
    (hClaims :
      ∀ id,
        claims id
            (.performed i op answer w.state after) =
          false) :
    Idle i (w.perform i op answer after) := by
  intro id hHas
  rcases hHas.of_cons with ⟨_, hNew⟩ | hOld
  · rw [hClaims id] at hNew
    cases hNew
  · exact hIdle id hOld

/- An event that claims nothing leaves the claim alone. -/
theorem Owing.only_perform
    (hOwing : Owing i id w)
    (hClaims :
      ∀ other,
        claims other
            (.performed i op answer w.state after) =
          false)
    (other : String)
    (hHas :
      Has i (claims other)
        (w.perform i op answer after).trace) :
    other = id := by
  rcases hHas.of_cons with ⟨_, hNew⟩ | hOld
  · rw [hClaims other] at hNew
    cases hNew
  · exact hOwing.only other hOld

/- An event that neither claims nor marks leaves a debt. -/
theorem Owing.perform
    (hOwing : Owing i id w)
    (hClaims :
      ∀ other,
        claims other
            (.performed i op answer w.state after) =
          false)
    (hMarks :
      marks id (.performed i op answer w.state after) =
        false) :
    Owing i id (w.perform i op answer after) := by
  refine ⟨?_, ?_⟩
  · exact pending_cons_iff.mpr
      (Or.inr ⟨hOwing.owes, fun _ => hMarks⟩)
  · exact hOwing.only_perform hClaims

/- A mark that is answered settles the debt. -/
theorem done_of_marks
    (hOwing : Owing i id w)
    (hInv : JobInv stuck w)
    (hExec :
      op.exec config choice w.state = some (answer, after))
    (hClaims :
      ∀ other,
        claims other
            (.performed i op answer w.state after) =
          false)
    (hMarks :
      marks id (.performed i op answer w.state after) =
        true) :
    Done i (w.perform i op answer after) := by
  have hOnly := hOwing.only_perform hClaims
  refine ⟨?_, ?_⟩
  · intro other hOwes
    have hSame := hOnly other (has_of_pending hOwes)
    subst hSame
    rcases pending_cons_iff.mp hOwes with
      ⟨_, hNew⟩ | ⟨_, hKept⟩
    · rw [hClaims other] at hNew
      cases hNew
    · rw [hKept rfl] at hMarks
      cases hMarks
  · intro other hHas
    have hSame := hOnly other hHas
    subst hSame
    rcases hInv.owed i other hOwing.owes with
      ⟨job, hFind, hStatus⟩
    have hStep := rowStep_exec i hExec other
    rw [hFind] at hStep
    rcases hStep.of_syncing hStatus with
      ⟨_, hUnmarked⟩ | ⟨_, hLater⟩
    · rw [hUnmarked] at hMarks
      cases hMarks
    · exact Or.inr hLater

/- So does a refusal, in its way. -/
theorem done_of_refuses
    (hOwing : Owing i id w)
    (hClaims :
      ∀ other,
        claims other
            (.performed i op answer w.state after) =
          false)
    (hRefuses :
      refuses id (.performed i op answer w.state after) =
        true) :
    Done i (w.perform i op answer after) := by
  have hRefused :
      Has i (refuses id)
        (w.perform i op answer after).trace :=
    ⟨_, List.mem_cons_self, rfl, hRefuses⟩
  have hOnly := hOwing.only_perform hClaims
  refine ⟨?_, ?_⟩
  · intro other hOwes
    rw [hOnly other (has_of_pending hOwes)]
    exact hRefused
  · intro other hHas
    rw [hOnly other hHas]
    exact Or.inl hRefused

/- Who leaves the jobs to the worker stays idle. -/
theorem moves_idle
    (hRetries : 0 < config.maxRetries)
    (op : TransferOp)
    (hModest : Modest config op) :
    Moves config (jobContract stuck) ok i op (Idle i)
      fun _ => Idle i := by
  intro v hIdle hInv _ choice answer after hExec
  have hEntitled : Entitled i op v := by
    unfold Entitled
    split
    · rcases hModest with ⟨jobId, started, preparation, rfl⟩
      exact ⟨⟨hRetries, by simp [stagedJob],
        fun _ => hRetries⟩, rfl⟩
    · exact hModest.elim
    · exact hModest.elim
    · exact hModest.elim
    · trivial
  refine ⟨keeps_perform hInv hEntitled hExec, ?_⟩
  apply hIdle.perform
  intro id
  unfold claims
  split
  · rename_i hEvent
    cases hEvent
    exact hModest.elim
  · rfl

------------------------------------------------------------
-- A Call Of The Worker
------------------------------------------------------------

theorem moves_now :
    Moves config (jobContract stuck) ok i .now (Idle i)
      (Due i) := by
  intro v hIdle hInv _ choice answer after hExec
  have hRun :
      TransferOp.now.exec config choice v.state =
        some (answer, after) := hExec
  have hTime : answer = v.state.clock := by
    have hValue := (TransferOp.exec_eq_some_iff.mp hRun).2
    cases hValue
    rfl
  refine ⟨keeps_perform hInv trivial hRun, ?_, ?_⟩
  · exact hIdle.perform fun _ => rfl
  · rw [hTime]
    exact (TransferOp.exec_frame hRun).clock

theorem moves_candidates (now : Nat) :
    Moves config (jobContract stuck) ok i
      (.jobs (.candidates now)) (Due i now)
      (Answers (fun _ => Due i now) (Done i)) := by
  intro v hDue hInv _ choice answer after hExec
  have hIdle :
      Idle i
        (v.perform i (.jobs (.candidates now)) answer
          after) :=
    hDue.1.perform fun _ => rfl
  refine ⟨keeps_perform hInv trivial hExec, ?_⟩
  cases answer with
  | error refusal => exact done_of_idle hIdle
  | ok listed =>
      exact ⟨hIdle, hDue.2.trans
        (TransferOp.exec_frame hExec).clock⟩

theorem moves_claim (id : String) (now : Nat) :
    Moves config (jobContract stuck) ok i
      (.jobs (.claim id now)) (Due i now)
      (Answers
        (fun answer v =>
          (answer = true → Owing i id v) ∧
            (answer = false → Due i now v))
        (Done i)) := by
  intro v hDue hInv _ choice answer after hExec
  have hTime :=
    hDue.2.trans (TransferOp.exec_frame hExec).clock
  refine ⟨keeps_perform hInv hDue.2 hExec, ?_⟩
  cases answer with
  | error refusal =>
      exact done_of_idle (hDue.1.perform fun _ => rfl)
  | ok claimed =>
      cases claimed with
      | false =>
          exact ⟨by simp, fun _ =>
            ⟨hDue.1.perform fun _ => rfl, hTime⟩⟩
      | true =>
          refine ⟨fun _ => ⟨?_, ?_⟩, by simp⟩
          · exact pending_cons_iff.mpr
              (Or.inl ⟨rfl, by simp [claims]⟩)
          · intro other hHas
            rcases hHas.of_cons with ⟨_, hNew⟩ | hOld
            · have hId : id = other := by
                simpa [claims] using hNew
              exact hId.symm
            · exact absurd hOld (hDue.1 other)

/- The row of a job that is owed is there. -/
theorem moves_get (id : String) :
    Moves config (jobContract stuck) ok i (.jobs (.get id))
      (Owing i id)
      (Answers
        (fun found v =>
          (∀ job, found = some job → Owing i job.id v) ∧
            (found = none → Done i v))
        (Done i)) := by
  intro v hOwing hInv _ choice answer after hExec
  refine ⟨keeps_perform hInv trivial hExec, ?_⟩
  cases answer with
  | error refusal =>
      exact done_of_refuses hOwing (fun _ => rfl)
        (by simp [refuses])
  | ok found =>
      have hRun := exec_jobs_ok hExec
      simp only [JobStatement.run, Prod.mk.injEq,
        Except.ok.injEq] at hRun
      refine ⟨?_, ?_⟩
      · rintro job rfl
        rw [KeyedTable.key_of_find? hRun.1]
        exact hOwing.perform (fun _ => rfl) rfl
      · rintro rfl
        rcases hInv.owed i id hOwing.owes with
          ⟨job, hFind, _⟩
        rw [hFind] at hRun
        cases hRun.1

theorem moves_filing
    (id : String)
    (op : TransferOp)
    (hFiling : Filing op) :
    Moves config (jobContract stuck) ok i op (Owing i id)
      fun _ => Owing i id := by
  intro v hOwing hInv _ choice answer after hExec
  cases op with
  | now =>
      exact ⟨keeps_perform hInv trivial hExec,
        hOwing.perform (fun _ => rfl) rfl⟩
  | randomText =>
      exact ⟨keeps_perform hInv trivial hExec,
        hOwing.perform (fun _ => rfl) rfl⟩
  | files statement =>
      exact ⟨keeps_perform hInv trivial hExec,
        hOwing.perform (fun _ => rfl) rfl⟩
  | _ => exact hFiling.elim

theorem moves_markSynced (id : String) :
    Moves config (jobContract stuck) ok i
      (.jobs (.markSynced id)) (Owing i id)
      (Answers (fun _ => Done i) (Owing i id)) := by
  intro v hOwing hInv _ choice answer after hExec
  refine ⟨keeps_perform hInv hOwing.owes hExec, ?_⟩
  cases answer with
  | error refusal =>
      exact hOwing.perform (fun _ => rfl) rfl
  | ok marked =>
      exact done_of_marks hOwing hInv hExec (fun _ => rfl)
        (by simp [marks])

theorem moves_markFailed
    (id error : String)
    (nextRetryAt : Nat) :
    Moves config (jobContract stuck) ok i
      (.jobs (.markFailed id error nextRetryAt)) (Owing i id)
      (Answers (fun _ => Done i) (Done i)) := by
  intro v hOwing hInv _ choice answer after hExec
  refine ⟨keeps_perform hInv hOwing.owes hExec, ?_⟩
  cases answer with
  | error refusal =>
      exact done_of_refuses hOwing (fun _ => rfl)
        (by simp [refuses])
  | ok marked =>
      exact done_of_marks hOwing hInv hExec (fun _ => rfl)
        (by simp [marks])

/- The outline of any call of the worker. -/
def workerOutline
    (config : TransferConfig)
    (stuck : Set String)
    (ok : TransferAllowed)
    (i : Nat) :
    WorkerOutline config (jobContract stuck) ok i where
  idle := Idle i
  due := Due i
  claimed := Owing i
  holding := fun job => Owing i job.id
  copied := fun job _ => Owing i job.id
  failing := fun job => Owing i job.id
  done := Done i
  stable_idle := stable_idle
  stable_due := stable_due
  stable_claimed := stable_owing
  stable_copied := fun job _ => stable_owing job.id
  stable_failing := fun job => stable_owing job.id
  done_of_due := fun _ _ => Due.done
  failing_of_mismatch := fun _ _ _ hOwing _ => hOwing
  begin_ := moves_now
  looks := moves_candidates
  claims := moves_claim
  reads := moves_get
  copies := fun job _ hOwing =>
    safe_of_only (filing_copyToNas job.stagingPath job.repo)
      (moves_filing job.id) (stable_owing job.id) hOwing
  marks := fun job => moves_markSynced job.id
  waits := fun job => moves_filing job.id .now trivial
  records := fun job => moves_markFailed job.id

------------------------------------------------------------
-- Runs
------------------------------------------------------------

/- An event that is no operation keeps the contract. -/
theorem keeps_event
    (hInv : JobInv stuck w)
    (hState : v.state = w.state)
    (hTrace : v.trace = event :: w.trace)
    (hEvent :
      ∀ k op answer before later,
        event ≠ .performed k op answer before later)
    (hDone :
      ∀ k outcome, event = .finished k outcome → Done k w) :
    (jobContract stuck).Keeps i w v := by
  have hPlain :
      ∀ k statement value before later,
        event ≠
          .performed k (.jobs statement) (.ok value) before
            later :=
    fun _ _ _ _ _ => hEvent _ _ _ _ _
  refine ⟨?_, ?_⟩
  · refine jobInv_step hInv hTrace ?_ ?_ ?_ ?_ ?_
    · intro id
      rw [hState]
      exact RowStep.of_not_jobs hPlain
    · intro id hMarks
      unfold marks at hMarks
      split at hMarks
      · exact absurd rfl (hPlain _ _ _ _ _)
      · exact absurd rfl (hPlain _ _ _ _ _)
      · cases hMarks
    · intro id job hNone hSome
      rw [hState, hNone] at hSome
      cases hSome
    · intro k op answer before later hEq
      exact absurd hEq (hEvent _ _ _ _ _)
    · intro k outcome hEq
      exact ⟨hDone k outcome hEq, hState⟩
  · intro j _
    exact (congrArg TransferState.clock hState).ge

theorem keeps_start
    (hInv : JobInv stuck w) :
    (jobContract stuck).Keeps i w (w.start i call) :=
  keeps_event hInv rfl rfl (by simp) (by simp)

theorem ends_of_done
    (outcome : Except TransferError TransferReturn)
    (hInv : JobInv stuck w)
    (hDone : Done i w) :
    (jobContract stuck).Ends i outcome w := by
  refine keeps_event hInv rfl rfl (by simp) ?_
  intro k other hEvent
  cases hEvent
  exact hDone

/- Every task keeps the contract once it has started. -/
theorem serveCall_safe
    (hRetries : 0 < config.maxRetries)
    (hInv : JobInv stuck w)
    (hFresh : w.Fresh i) :
    (jobContract stuck).SafeTask (transferSystem config) ok i
      (serveCall config i call) (w.start i call) := by
  have hIdle : Idle i (w.start i call) := by
    intro id hHas
    rcases hHas.of_cons with ⟨_, hNew⟩ | hOld
    · cases hNew
    · rcases hOld with ⟨event, hEvent, hTask, _⟩
      exact hFresh event hEvent hTask
  have hSafe :
      SafeProgram config (jobContract stuck) ok i
        (serveCall config i call) (fun _ => Done i) (Done i)
        (w.start i call) := by
    by_cases hCall : call = .processNext
    · subst hCall
      refine Contract.safe_bind ?_
      exact Contract.safe_mono (fun _ _ h => h)
        (fun _ _ h => h)
        ((workerOutline config stuck ok i).processNext_safe
          hIdle)
    · refine Contract.safe_mono ?_ ?_
        (safe_of_only (modest_serveCall hCall i)
          (moves_idle hRetries) stable_idle hIdle)
      · intro _ v hIdle
        exact done_of_idle hIdle
      · intro _ v hIdle
        exact done_of_idle hIdle
  refine Contract.safe_mono ?_ ?_
    (Contract.safe_with_inv (keeps_start hInv).1 hSafe)
  · rintro value v ⟨hHere, hDone⟩
    exact ends_of_done _ hHere hDone
  · rintro error v ⟨hHere, hDone⟩
    exact ends_of_done _ hHere hDone

/- The jobs being synced in a state. -/
def syncingIds (s : TransferState) : Set String :=
  { id | ∃ job, s.jobs.find? id = some job ∧
    job.status = .syncing }

theorem jobInv_initial
    (hSound :
      ∀ id job, initial.jobs.find? id = some job →
        Sound job) :
    JobInv (syncingIds initial) ⟨initial, []⟩ where
  steps := fun _ _ _ _ _ hEvent =>
    absurd hEvent List.not_mem_nil
  owed := fun _ _ hOwes => by cases hOwes
  single := fun _ _ _ hOwes => by cases hOwes
  owners := fun _ job hFind hStatus =>
    Or.inl ⟨job, hFind, hStatus⟩
  settled := trivial
  ended := fun _ _ _ hTop => by cases hTop
  sound := hSound
  used := fun _ => Nat.zero_le _
  failed := fun _ => Nat.zero_le _
  earlier := by
    intro older hSuffix id
    rw [List.suffix_nil.mp hSuffix]
    exact ⟨Nat.zero_le _, Nat.zero_le _⟩

/- The invariant holds in every world that a run reaches. -/
theorem jobInv_of_run
    {p : TransferPool}
    (hRetries : 0 < config.maxRetries)
    (hSound :
      ∀ id job, initial.jobs.find? id = some job →
        Sound job)
    (hRun :
      (transferSystem config).Run ok (Pool.initial initial)
        p) :
    JobInv (syncingIds initial) p.world :=
  (Contract.sound (K := jobContract (syncingIds initial))
    initial (jobInv_initial hSound)
    (fun _ _ _ hInv hFresh _ =>
      ⟨keeps_start hInv, serveCall_safe hRetries hInv hFresh⟩)
    hRun).inv

theorem sound_oneStaged :
    ∀ id job, oneStaged.jobs.find? id = some job →
      Sound job := by
  intro id job hFind
  have hMember := KeyedTable.mem_of_find? hFind
  simp only [oneStaged, List.mem_singleton] at hMember
  subst hMember
  exact ⟨by decide, by simp, fun _ => by decide⟩

end JobContract

end Transfer
