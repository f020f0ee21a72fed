import Deltix.Transfer.PushOutline

/-
  A proof outline of a call of the sync worker.  What a
  contract has to show of the call is reduced to its
  statements on the jobs and to its copy: it claims a job,
  reads it, copies it, and marks it.

  Key definitions include:
    * `WorkerOutline`

  Key theorems include:
    * `WorkerOutline.processNext_safe`
-/

namespace Transfer

open Auth Concurrency Storage

variable {config : TransferConfig}

/-
  What a contract shows of call `i` of the worker: the
  assertions before it has claimed a job, between claim and
  reading, while it copies, when the copy has been made or
  has failed, and at the end.
-/
structure WorkerOutline
    (config : TransferConfig)
    (K : TransferContract)
    (ok : TransferAllowed)
    (i : Nat) where
  idle : TransferWorld → Prop
  due : Nat → TransferWorld → Prop
  claimed : String → TransferWorld → Prop
  holding : TransferJob → TransferWorld → Prop
  copied : TransferJob → String → TransferWorld → Prop
  failing : TransferJob → TransferWorld → Prop
  done : TransferWorld → Prop
  stable_idle : K.Stable i idle
  stable_due : ∀ now, K.Stable i (due now)
  stable_claimed : ∀ id, K.Stable i (claimed id)
  stable_copied :
    ∀ job checksum, K.Stable i (copied job checksum)
  stable_failing : ∀ job, K.Stable i (failing job)
  done_of_due : ∀ now v, due now v → done v
  failing_of_mismatch :
    ∀ job checksum v, copied job checksum v →
      checksum ≠ job.checksum → failing job v
  begin_ :
    Moves config K ok i .now idle due
  looks :
    ∀ now,
      Moves config K ok i (.jobs (.candidates now)) (due now)
        (Answers (fun _ => due now) done)
  claims :
    ∀ id now,
      Moves config K ok i (.jobs (.claim id now)) (due now)
        (Answers
          (fun answer v =>
            (answer = true → claimed id v) ∧
              (answer = false → due now v))
          done)
  reads :
    ∀ id,
      Moves config K ok i (.jobs (.get id)) (claimed id)
        (Answers
          (fun found v =>
            (∀ job, found = some job → holding job v) ∧
              (found = none → done v))
          done)
  copies :
    ∀ job w, holding job w →
      SafeProgram config K ok i
        (copyToNas config job.stagingPath job.repo)
        (copied job) (failing job) w
  marks :
    ∀ job,
      Moves config K ok i (.jobs (.markSynced job.id))
        (copied job job.checksum)
        (Answers (fun _ => done) (failing job))
  waits :
    ∀ job,
      Moves config K ok i .now (failing job)
        fun _ => failing job
  records :
    ∀ job error nextRetryAt,
      Moves config K ok i
        (.jobs (.markFailed job.id error nextRetryAt))
        (failing job) (Answers (fun _ => done) done)

namespace WorkerOutline

variable {config : TransferConfig} {K : TransferContract}
variable {ok : TransferAllowed} {i : Nat}
variable {w : TransferWorld} {job : TransferJob}
variable (outline : WorkerOutline config K ok i)

/- What a call has found to do. -/
def Found
    (found : Option TransferJob)
    (v : TransferWorld) : Prop :=
  match found with
  | some job => outline.holding job v
  | none => outline.done v

theorem claimFirst_safe
    (now : Nat)
    (candidates : List String)
    (hDue : outline.due now w) :
    SafeProgram config K ok i (claimFirst now candidates)
      (fun claimed v =>
        match claimed with
        | some found => outline.Found found v
        | none => outline.due now v)
      outline.done w := by
  induction candidates generalizing w with
  | nil => exact hDue
  | cons jobId rest ih =>
      refine Contract.safe_bind ?_
      refine Contract.safe_mono ?_ (fun _ _ h => h)
        (jobs_safe (outline.claims jobId now)
          (outline.stable_due now) hDue)
      rintro answer v ⟨hTrue, hFalse⟩
      cases answer with
      | false => exact ih (hFalse rfl)
      | true =>
          refine Contract.safe_bind ?_
          refine Contract.safe_mono ?_ (fun _ _ h => h)
            (jobs_safe (outline.reads jobId)
              (outline.stable_claimed jobId) (hTrue rfl))
          rintro found u ⟨hSome, hNone⟩
          cases found with
          | none => exact hNone rfl
          | some job => exact hSome job rfl

theorem claimNextEligible_safe
    (now attempts : Nat)
    (hDue : outline.due now w) :
    SafeProgram config K ok i
      (claimNextEligible now attempts) outline.Found
      outline.done w := by
  induction attempts generalizing w with
  | zero => exact outline.done_of_due now w hDue
  | succ attempts ih =>
      refine Contract.safe_bind ?_
      refine Contract.safe_mono ?_ (fun _ _ h => h)
        (jobs_safe (outline.looks now)
          (outline.stable_due now) hDue)
      intro candidates v hDue
      split
      · exact outline.done_of_due now v hDue
      · refine Contract.safe_bind ?_
        refine Contract.safe_mono ?_ (fun _ _ h => h)
          (outline.claimFirst_safe now candidates hDue)
        intro claimed u hClaimed
        cases claimed with
        | none => exact ih hClaimed
        | some found => exact hClaimed

theorem syncJob_safe
    (hHolding : outline.holding job w) :
    SafeProgram config K ok i (syncJob config job)
      (fun _ => outline.done) (outline.failing job) w := by
  refine Contract.safe_bind ?_
  refine Contract.safe_mono ?_ (fun _ _ h => h)
    (outline.copies job w hHolding)
  intro checksum v hCopied
  refine Contract.safe_bind (Contract.safe_ensure ?_ ?_)
  · intro hEqual
    rw [decide_eq_true_eq] at hEqual
    subst hEqual
    refine Contract.safe_bind ?_
    exact Contract.safe_mono (fun _ _ h => h)
      (fun _ _ h => h)
      (jobs_safe (outline.marks job)
        (outline.stable_copied job job.checksum) hCopied)
  · intro hMismatch
    rw [decide_eq_false_iff_not] at hMismatch
    exact outline.failing_of_mismatch job checksum v hCopied
      hMismatch

theorem recordFailure_safe
    (error : TransferError)
    (hFailing : outline.failing job w) :
    SafeProgram config K ok i (recordFailure config job error)
      (fun _ => outline.done) outline.done w := by
  refine Contract.safe_bind ?_
  refine Contract.safe_mono ?_ (fun _ _ h => h)
    ((outline.waits job).safe (outline.stable_failing job)
      hFailing)
  intro current v hFailing
  refine Contract.safe_bind ?_
  exact Contract.safe_mono (fun _ _ h => h) (fun _ _ h => h)
    (jobs_safe (outline.records job error.message _)
      (outline.stable_failing job) hFailing)

/- A call of the worker ends with its last assertion. -/
theorem processNext_safe
    (hIdle : outline.idle w) :
    SafeProgram config K ok i (processNext config)
      (fun _ => outline.done) outline.done w := by
  refine Contract.safe_bind ?_
  refine Contract.safe_mono ?_ (fun _ _ h => h)
    (outline.begin_.safe outline.stable_idle hIdle)
  intro current v hDue
  refine Contract.safe_bind ?_
  refine Contract.safe_mono ?_ (fun _ _ h => h)
    (outline.claimNextEligible_safe current 5 hDue)
  intro found u hFound
  cases found with
  | none => exact hFound
  | some job =>
      refine Contract.safe_bind (Contract.safe_catchError ?_)
      refine Contract.safe_mono ?_ ?_
        (outline.syncJob_safe hFound)
      · intro _ _ hDone
        exact hDone
      · intro error _ hFailing
        refine Contract.safe_mono ?_ (fun _ _ h => h)
          (outline.recordFailure_safe error hFailing)
        intro _ _ hDone
        exact hDone

end WorkerOutline

end Transfer
