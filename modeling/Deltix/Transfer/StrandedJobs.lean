import Deltix.Transfer.JobContract

/-
  Jobs that are stranded in `syncing`: no call works on them
  and none will, since only staged and failed jobs are ever
  claimed.

  The process may stop at any time and start again with the
  stores and files it left.  A job is stranded when a call
  ends without the store having recorded how its sync went,
  or when the process stops during a sync.

  Key definitions include:
    * `Lives`
    * `NoneStranded`
    * `Smooth`

  Key theorems include:
    * `none_stranded`
    * `refused_mark_strands_job`
-/

namespace Transfer

namespace StrandedJobs

open Auth Concurrency Relational Storage JobEvents
open JobContract

/- A restart forgets the sessions and keeps the stores. -/
def restarted (s : TransferState) : TransferState :=
  { s with pushes := fun _ => PushSession.initial }

/-
  The lives of the process: the worlds in which it stopped,
  newest first, and the pool it has now.
-/
inductive Lives
    (config : TransferConfig)
    (initial : TransferState) :
    List TransferWorld → TransferPool → Prop where
  | first
      {p : TransferPool}
      (hRun :
        (transferSystem config).Run .everything
          (Pool.initial initial) p) :
      Lives config initial [] p
  | restart
      {stops : List TransferWorld}
      {p q : TransferPool}
      (hLives : Lives config initial stops p)
      (hRun :
        (transferSystem config).Run .everything
          (Pool.initial (restarted p.world.state)) q) :
      Lives config initial (p.world :: stops) q

/- No job is being synced. -/
def NoneSyncing (s : TransferState) : Prop :=
  ∀ id job, s.jobs.find? id = some job →
    job.status ≠ .syncing

/- A call that ends leaves no job it has claimed in
   `syncing`, and every job there is held by a call. -/
structure NoneStranded (w : TransferWorld) : Prop where
  ended :
    ∀ i outcome older, w.trace = .finished i outcome :: older →
      ∀ id, Has i (claims id) older →
        ∀ job, w.state.jobs.find? id = some job →
          job.status ≠ .syncing
  live :
    ∀ id job, w.state.jobs.find? id = some job →
      job.status = .syncing →
        ∃ i, holds i id w.trace = true

/- The store refuses to read a claimed job, or to record
   that its sync has failed. -/
def refusal : TransferEvent → Bool
  | .performed _ (.jobs (.get _)) (.error _) _ _ => true
  | .performed _ (.jobs (.markFailed _ _ _)) (.error _)
      _ _ => true
  | _ => false

/- No such refusal in this life, and no stop of an earlier
   one during a sync. -/
structure Smooth
    (stops : List TransferWorld)
    (w : TransferWorld) : Prop where
  answered : ∀ event ∈ w.trace, refusal event = false
  stopped : ∀ v ∈ stops, NoneSyncing v.state

variable {config : TransferConfig} {initial : TransferState}
variable {p : TransferPool} {stops : List TransferWorld}
variable {trace : List TransferEvent} {i : Nat}

theorem not_refuses
    {id : String}
    (hAnswered : ∀ event ∈ trace, refusal event = false) :
    ¬ Has i (refuses id) trace := by
  rintro ⟨event, hEvent, _, hRefuses⟩
  have hNot := hAnswered event hEvent
  unfold refuses at hRefuses
  split at hRefuses
  · cases hNot
  · cases hNot
  · cases hRefuses

/- One life that begins with no job being synced. -/
theorem noneStranded_of_run
    (hRetries : 1 ≤ config.maxRetries)
    (hSound :
      ∀ id job, initial.jobs.find? id = some job →
        Sound job)
    (hNone : NoneSyncing initial)
    (hRun :
      (transferSystem config).Run .everything
        (Pool.initial initial) p)
    (hAnswered :
      ∀ event ∈ p.world.trace, refusal event = false) :
    NoneStranded p.world := by
  have hInv := jobInv_of_run hRetries hSound hRun
  refine ⟨?_, ?_⟩
  · intro i outcome older hTop id hClaims
    rcases hInv.ended i outcome older hTop id hClaims with
      hRefused | hReleased
    · refine absurd hRefused (not_refuses ?_)
      intro event hEvent
      apply hAnswered
      rw [hTop]
      exact List.mem_cons_of_mem _ hEvent
    · exact hReleased
  · intro id job hFind hStatus
    rcases hInv.owners id job hFind hStatus with
      ⟨stuck, hStuck, hSyncing⟩ | ⟨i, hOwes⟩
    · exact absurd hSyncing (hNone id stuck hStuck)
    · rcases holds_or_finished hOwes with
        hHolds | ⟨newer, outcome, before, hTrace, hBefore⟩
      · exact ⟨i, hHolds⟩
      · have hRefused :=
          throughout_iff.mp hInv.settled newer _ before
            hTrace i outcome rfl id hBefore
        refine absurd hRefused (not_refuses ?_)
        intro event hEvent
        apply hAnswered
        rw [hTrace]
        simp [hEvent]

theorem sound_of_lives
    (hRetries : 1 ≤ config.maxRetries)
    (hSound :
      ∀ id job, initial.jobs.find? id = some job →
        Sound job)
    (hLives : Lives config initial stops p) :
    ∀ id job, p.world.state.jobs.find? id = some job →
      Sound job := by
  induction hLives with
  | first hRun =>
      exact (jobInv_of_run hRetries hSound hRun).sound
  | restart hLives hRun ih =>
      refine (jobInv_of_run hRetries ?_ hRun).sound
      exact ih

/-
  In all lives of the process in which the store answers
  the reads of claimed jobs and the failure marks, and which
  stop only when no job is being synced, no job is stranded.
-/
theorem none_stranded
    (config : TransferConfig)
    (initial : TransferState)
    (stops : List TransferWorld)
    (p : TransferPool)
    (hRetries : 1 ≤ config.maxRetries)
    (hSound :
      ∀ id job, initial.jobs.find? id = some job →
        Sound job)
    (hNone : NoneSyncing initial)
    (hLives : Lives config initial stops p)
    (hSmooth : Smooth stops p.world) :
    NoneStranded p.world := by
  cases hLives with
  | first hRun =>
      exact noneStranded_of_run hRetries hSound hNone hRun
        hSmooth.answered
  | restart hBefore hRun =>
      refine noneStranded_of_run hRetries ?_ ?_ hRun
        hSmooth.answered
      · exact sound_of_lives hRetries hSound hBefore
      · exact hSmooth.stopped _ List.mem_cons_self

/- The NAS cannot be reached, and the store then refuses to
   record the failure, or not. -/
def unreachable (refused : Bool) :
    List (Label TransferChoice TransferCall) :=
  [ .start 1 .processNext
  , .resume 1 (draw "")
  , .resume 1 (draw "")
  , .resume 1 (draw "")
  , .resume 1 (draw "")
  , .resume 1 { draw "unreachable" with fails := true }
  , .resume 1 (draw "")
  , .resume 1 { draw "" with fails := refused } ]

theorem has_of_any
    {kind : TransferEvent → Bool}
    (hAny :
      trace.any (fun event => event.task = i && kind event) =
        true) :
    Has i kind trace := by
  rcases List.any_eq_true.mp hAny with ⟨event, hEvent, hKind⟩
  rw [Bool.and_eq_true, decide_eq_true_eq] at hKind
  exact ⟨event, hEvent, hKind⟩

theorem noneSyncing_of_all
    {s : TransferState}
    (hRows :
      s.jobs.rows.all (fun job => job.status ≠ .syncing) =
        true) :
    NoneSyncing s := by
  intro id job hFind
  have hJob :=
    List.all_eq_true.mp hRows job
      (KeyedTable.mem_of_find? hFind)
  simpa using hJob

/- The call has ended, and its job is still being synced. -/
theorem refused_mark_strands_job :
    ∃ q,
      Lives smallConfig oneStaged [] q ∧
        ¬ NoneStranded q.world := by
  have hStranded :
      ∃ q,
        (transferSystem smallConfig).replay?
            (Pool.initial oneStaged) (unreachable true) =
              some q ∧
          (∃ outcome older,
            q.world.trace = .finished 1 outcome :: older ∧
              Has 1 (claims "job") older) ∧
          ∃ job, q.world.state.jobs.find? "job" = some job ∧
            job.status = .syncing :=
    ⟨_, rfl, ⟨_, _, rfl, has_of_any (by decide)⟩, _, rfl,
      by decide⟩
  rcases hStranded with
    ⟨q, hReplay, ⟨outcome, older, hTop, hClaims⟩, job,
      hFind, hStatus⟩
  refine ⟨q, .first (System.run_of_replay? hReplay), ?_⟩
  intro hNone
  exact hNone.ended 1 outcome older hTop "job" hClaims job
    hFind hStatus

theorem answered_of_all
    (hAll :
      trace.all (fun event => !refusal event) = true) :
    ∀ event ∈ trace, refusal event = false := by
  intro event hEvent
  have hNot := List.all_eq_true.mp hAll event hEvent
  simpa using hNot

/- In its next life the worker looks for a job. -/
def lookAgain : List (Label TransferChoice TransferCall) :=
  [ .start 1 .processNext
  , .resume 1 (draw "")
  , .resume 1 (draw "") ]

/- After a recorded failure the process may stop: its next
   life strands no job either. -/
theorem none_stranded_of_recorded :
    ∃ q r : TransferPool,
      Lives smallConfig oneStaged [q.world] r ∧
        NoneStranded r.world := by
  have hRecorded :
      ∃ q r,
        (transferSystem smallConfig).replay?
            (Pool.initial oneStaged) (unreachable false) =
              some q ∧
          (transferSystem smallConfig).replay?
              (Pool.initial (restarted q.world.state))
              lookAgain =
            some r ∧
          NoneSyncing q.world.state ∧
          (∀ event ∈ r.world.trace,
            refusal event = false) :=
    ⟨_, _, rfl, rfl, noneSyncing_of_all (by decide),
      answered_of_all (by decide)⟩
  rcases hRecorded with
    ⟨q, r, hFirst, hSecond, hStopped, hAnswered⟩
  have hLives : Lives smallConfig oneStaged [q.world] r :=
    .restart (.first (System.run_of_replay? hFirst))
      (System.run_of_replay? hSecond)
  refine ⟨q, r, hLives, ?_⟩
  refine none_stranded smallConfig oneStaged [q.world] r
    (by decide) sound_oneStaged
    (noneSyncing_of_all (by decide)) hLives
    ⟨hAnswered, ?_⟩
  intro v hStop
  rw [List.mem_singleton] at hStop
  subst hStop
  exact hStopped

end StrandedJobs

end Transfer
