import Deltix.Transfer.JobContract

/-
  The state machine of the transfer jobs, under any number
  of workers and any failures: no row is lost or duplicated,
  a job is held by at most one call of the worker, a synced
  job stays synced, a dead letter is left only by a requeue,
  a failed job is not claimed before its retry is due, and
  between two requeues a job has at most as many attempts as
  its limit.

  Key definitions include:
    * `WithinLimits`
    * `Lawful`

  Key theorems include:
    * `job_machine`
-/

namespace Transfer

namespace JobMachine

open Auth Concurrency Relational Storage JobEvents
open JobContract

/- The retries of a job, by its status. -/
structure WithinLimits (job : TransferJob) : Prop where
  retries : job.retryCount ≤ job.maxRetries
  failed :
    job.status = .syncFailed →
      job.retryCount < job.maxRetries
  dead :
    job.status = .deadLetter →
      job.retryCount = job.maxRetries

/- The state machine in a reachable world. -/
structure Lawful (w : TransferWorld) : Prop where
  steps :
    ∀ i op answer before after,
      .performed i op answer before after ∈ w.trace →
        StepLaw op before after
  held :
    ∀ i id, holds i id w.trace = true →
      ∃ job, w.state.jobs.find? id = some job ∧
        job.status = .syncing
  exclusive :
    ∀ i j id, holds i id w.trace = true →
      holds j id w.trace = true → i = j
  limits :
    ∀ id job, w.state.jobs.find? id = some job →
      WithinLimits job
  attempts :
    ∀ older, older <:+ w.trace →
      ∀ id job, w.state.jobs.find? id = some job →
        attempts id older ≤ job.maxRetries ∧
          failures id older ≤ job.maxRetries

theorem WithinLimits.of_sound
    {job : TransferJob}
    (hSound : Sound job) :
    WithinLimits job := by
  refine ⟨?_, ?_, hSound.dead⟩
  · by_cases hDead : job.status = .deadLetter
    · exact (hSound.dead hDead).le
    · exact (hSound.alive hDead).le
  · intro hFailed
    apply hSound.alive
    rw [hFailed]
    simp

/-
  In every run from a table whose jobs are within their
  limits, with any workers and any failing calls, the jobs
  follow their state machine.
-/
theorem job_machine
    (config : TransferConfig)
    (initial : TransferState)
    (p : TransferPool)
    (hRetries : 1 ≤ config.maxRetries)
    (hSound :
      ∀ id job, initial.jobs.find? id = some job →
        Sound job)
    (hRun :
      (transferSystem config).Run .everything
        (Pool.initial initial) p) :
    Lawful p.world := by
  have hInv := jobInv_of_run hRetries hSound hRun
  refine
    { steps := hInv.steps
      held := ?_
      exclusive := ?_
      limits := ?_
      attempts := ?_ }
  · intro i id hHolds
    exact hInv.owed i id (owes_of_holds hHolds)
  · intro i j id hFirst hSecond
    exact hInv.single i j id (owes_of_holds hFirst)
      (owes_of_holds hSecond)
  · intro id job hFind
    exact .of_sound (hInv.sound id job hFind)
  · intro older hSuffix id job hFind
    have hEarlier := hInv.earlier older hSuffix id
    rw [hFind] at hEarlier
    exact hEarlier

/- Two workers find the same job, and the second one looks
   again and ends. -/
def race : List (Label TransferChoice TransferCall) :=
  [ .start 1 .processNext
  , .start 2 .processNext
  , .resume 1 (draw "")
  , .resume 2 (draw "")
  , .resume 1 (draw "")
  , .resume 2 (draw "")
  , .resume 1 (draw "")
  , .resume 2 (draw "")
  , .resume 2 (draw "") ]

/- The job is held by the first worker only. -/
theorem job_machine_of_race :
    ∃ q,
      (transferSystem smallConfig).replay?
          (Pool.initial oneStaged) race = some q ∧
        holds 1 "job" q.world.trace = true ∧
        holds 2 "job" q.world.trace = false ∧
        Lawful q.world := by
  have hRace :
      ∃ q,
        (transferSystem smallConfig).replay?
            (Pool.initial oneStaged) race = some q ∧
          holds 1 "job" q.world.trace = true ∧
          holds 2 "job" q.world.trace = false :=
    ⟨_, rfl, by decide, by decide⟩
  rcases hRace with ⟨q, hReplay, hFirst, hSecond⟩
  refine ⟨q, hReplay, hFirst, hSecond, ?_⟩
  exact job_machine smallConfig oneStaged q (by decide)
    sound_oneStaged (System.run_of_replay? hReplay)

end JobMachine

end Transfer
