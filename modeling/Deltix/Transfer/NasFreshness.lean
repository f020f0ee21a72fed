import Deltix.Transfer.NasPaths
import Deltix.Transfer.StrandedJobs

/-
  Freshness of the files on the NAS: once a job of a
  repository has been synced, no older job of it is what a
  pull reads.

  The worker claims the oldest job that is due, whatever has
  become of the other jobs of its repository, so the retry
  of an older job and a slower concurrent sync overwrite
  newer content.  Freshness holds of the runs in which a job
  is claimed only while no other job of its repository is
  being synced and none created later has been synced.

  Key definitions include:
    * `puts`
    * `lastPut`
    * `Fresh`
    * `inOrder`
    * `freshContract`

  Key theorems include:
    * `freshInv_step`
    * `nas_fresh`
    * `retry_overwrites_newer`
-/

namespace Transfer

namespace NasFreshness

open Auth Concurrency Relational Storage JobEvents

/- An event has renamed a copy onto a path. -/
def puts (path : String) : TransferEvent → Bool
  | .performed _ (.files (.rename _ target)) (.ok _) _ _ =>
      target = path
  | _ => false

/- The call that renamed a copy onto a path last. -/
def lastPut (path : String) :
    List TransferEvent → Option Nat
  | [] => none
  | event :: older =>
      if puts path event then some event.task
      else lastPut path older

variable (config : TransferConfig)

/- A file that pulls read changes only when a copy is
   renamed onto it. -/
def Written (event : TransferEvent) : Prop :=
  ∀ i op answer before after,
    event = .performed i op answer before after →
      ∀ repo,
        after.files (pullPath config repo) =
            before.files (pullPath config repo) ∨
          puts (pullPath config repo) event = true

/-
  What a pull of a repository reads was renamed into place
  by a call for a job that is not older than any synced job
  of the repository.
-/
structure Fresh (w : TransferWorld) : Prop where
  written : ∀ event ∈ w.trace, Written config event
  newest :
    ∀ newId newer, w.state.jobs.find? newId = some newer →
      newer.status = .synced →
      ∀ i, lastPut (pullPath config newer.repo) w.trace =
          some i →
        ∀ oldId older, Has i (claims oldId) w.trace →
          w.state.jobs.find? oldId = some older →
          older.repo = newer.repo →
            newer.createdAt ≤ older.createdAt

/- No other job of the repository of a job is being synced,
   and none created later has been synced. -/
def MayClaim (id : String) (w : TransferWorld) : Prop :=
  ∀ job, w.state.jobs.find? id = some job →
    ∀ otherId other,
      w.state.jobs.find? otherId = some other →
        other.repo = job.repo → otherId ≠ id →
          (∀ k, holds k otherId w.trace = false) ∧
            (other.status = .synced →
              other.createdAt ≤ job.createdAt)

/- A job that is due is claimed only while that holds. -/
def inOrder : TransferAllowed where
  start := fun _ _ _ => True
  perform := fun _ op w =>
    ∀ id now job, op = .jobs (.claim id now) →
      w.state.jobs.find? id = some job →
        JobStatement.eligible now job = true →
          MayClaim id w

variable {i : Nat} {id path : String} {event : TransferEvent}
variable {older : List TransferEvent}
variable {row : Option TransferJob} {job : TransferJob}
variable {other : String}

theorem has_of_lastPut
    (hLast : lastPut path older = some i) :
    Has i (puts path) older := by
  induction older with
  | nil => cases hLast
  | cons event rest ih =>
      unfold lastPut at hLast
      by_cases hPuts : puts path event = true
      · rw [if_pos hPuts, Option.some.injEq] at hLast
        exact ⟨event, List.mem_cons_self, hLast, hPuts⟩
      · rw [if_neg hPuts] at hLast
        exact (ih hLast).cons

theorem lastPut_cons
    (hLast : lastPut path (event :: older) = some i) :
    (puts path event = true ∧ event.task = i) ∨
      (puts path event = false ∧ lastPut path older = some i) := by
  unfold lastPut at hLast
  by_cases hPuts : puts path event = true
  · rw [if_pos hPuts, Option.some.injEq] at hLast
    exact Or.inl ⟨hPuts, hLast⟩
  · rw [if_neg hPuts] at hLast
    exact Or.inr ⟨by simpa using hPuts, hLast⟩

/- An event claims at most one job. -/
theorem claims_inj
    (hClaims : claims id event = true)
    (hOther : claims other event = true) :
    id = other := by
  unfold claims at hClaims hOther
  split at hClaims
  · rw [decide_eq_true_eq] at hClaims hOther
    exact hClaims.symm.trans hOther
  · cases hClaims

theorem not_puts_of_claims
    (hClaims : claims id event = true) :
    puts path event = false := by
  unfold claims at hClaims
  split at hClaims
  · rfl
  · cases hClaims

theorem not_puts_of_syncs
    (hSyncs : syncs id event = true) :
    puts path event = false := by
  unfold syncs at hSyncs
  split at hSyncs
  · rfl
  · cases hSyncs

theorem not_claims_of_syncs
    (hSyncs : syncs id event = true) :
    claims other event = false := by
  unfold syncs at hSyncs
  split at hSyncs
  · rfl
  · cases hSyncs

/- What no event changes about a job. -/
structure SameOrigin (job other : TransferJob) : Prop where
  repo : other.repo = job.repo
  createdAt : other.createdAt = job.createdAt

/- A synced job was synced before, or has just been marked
   so. -/
theorem rowStep_synced
    (hStep : RowStep id event row (some job))
    (hStatus : job.status = .synced)
    (hCreated : row = none → job.status = .staged) :
    row = some job ∨
      (syncs id event = true ∧
        ∃ before, row = some before ∧
          SameOrigin before job) := by
  generalize hNext : some job = next at hStep
  cases hStep with
  | kept => exact Or.inl rfl
  | created =>
      rw [hCreated rfl] at hStatus
      cases hStatus
  | claimed =>
      cases hNext
      cases hStatus
  | synced =>
      cases hNext
      exact Or.inr ⟨by simp [syncs], _, rfl, rfl, rfl⟩
  | failed =>
      cases hNext
      simp only [JobStatement.setFailed] at hStatus
      split at hStatus <;> cases hStatus
  | requeued =>
      cases hNext
      cases hStatus

/- A row stays, with its origin. -/
theorem rowStep_later
    {next : Option TransferJob}
    (hStep : RowStep id event (some job) next) :
    ∃ later, next = some later ∧ SameOrigin job later := by
  cases hStep with
  | kept => exact ⟨_, rfl, rfl, rfl⟩
  | claimed => exact ⟨_, rfl, rfl, rfl⟩
  | synced => exact ⟨_, rfl, rfl, rfl⟩
  | failed => exact ⟨_, rfl, rfl, rfl⟩
  | requeued => exact ⟨_, rfl, rfl, rfl⟩

open JobContract NasPaths

/-
  At most one job of a repository is held.  It is not older
  than any synced job of the repository, and once its call
  has put a copy in place, no call for another job of the
  repository has put one there later.
-/
structure FreshInv (w : TransferWorld) : Prop where
  staged : Staged w.state
  fresh : Fresh config w
  one :
    ∀ i id other, Has i (claims id) w.trace →
      Has i (claims other) w.trace → id = other
  rows :
    ∀ i id, Has i (claims id) w.trace →
      ∃ row, w.state.jobs.find? id = some row
  putters :
    ∀ i path, Has i (puts path) w.trace →
      ∃ id, Has i (claims id) w.trace
  alone :
    ∀ i j id other row otherRow,
      holds i id w.trace = true →
      holds j other w.trace = true →
      w.state.jobs.find? id = some row →
      w.state.jobs.find? other = some otherRow →
        row.repo = otherRow.repo → id = other
  newer :
    ∀ i id row, holds i id w.trace = true →
      w.state.jobs.find? id = some row →
        ∀ otherId other,
          w.state.jobs.find? otherId = some other →
            other.status = .synced →
              other.repo = row.repo →
                other.createdAt ≤ row.createdAt
  latest :
    ∀ i id row, holds i id w.trace = true →
      w.state.jobs.find? id = some row →
        Has i (puts (pullPath config row.repo)) w.trace →
          ∀ k other otherRow,
            lastPut (pullPath config row.repo) w.trace =
                some k →
              Has k (claims other) w.trace →
                w.state.jobs.find? other = some otherRow →
                  otherRow.repo = row.repo → k = i

/-
  What an event owes to freshness: only an idle call claims,
  and when the job may be claimed; only a call that holds a
  job puts a copy in place; and it marks the job as synced
  only after it has put one where the job is pulled from.
-/
structure FreshStep
    (event : TransferEvent)
    (w v : TransferWorld) : Prop where
  trace : v.trace = event :: w.trace
  rows :
    ∀ id,
      RowStep id event (w.state.jobs.find? id)
        (v.state.jobs.find? id)
  created :
    ∀ id job, w.state.jobs.find? id = none →
      v.state.jobs.find? id = some job →
        job.status = .staged
  staged : Staged v.state
  written : Written config event
  claim :
    ∀ id, claims id event = true →
      Idle event.task w ∧ MayClaim id w
  put :
    ∀ path, puts path event = true →
      ∃ id, holds event.task id w.trace = true
  sync :
    ∀ id row, syncs id event = true →
      w.state.jobs.find? id = some row →
        holds event.task id w.trace = true ∧
          Has event.task (puts (pullPath config row.repo))
            w.trace

------------------------------------------------------------
-- Steps Keep The Invariant
------------------------------------------------------------

open JobContract NasPaths

variable {config : TransferConfig} {stuck : Set String}
variable {w v : TransferWorld} {event : TransferEvent}
variable {i j : Nat} {id other path : String}
variable {row otherRow : TransferJob}

theorem claims_of_holds
    (hHolds : holds i id w.trace = true) :
    Has i (claims id) w.trace :=
  has_of_pending hHolds

/- What is held was just claimed or was held before. -/
theorem FreshStep.held
    (hStep : FreshStep config event w v)
    (hHolds : holds i id v.trace = true) :
    (event.task = i ∧ claims id event = true) ∨
      (holds i id w.trace = true ∧
        (event.task = i → marks id event = false)) := by
  rw [hStep.trace] at hHolds
  rcases pending_cons_iff.mp hHolds with
    hClaims | ⟨hOld, hKept⟩
  · exact Or.inl hClaims
  · refine Or.inr ⟨hOld, fun hTask => ?_⟩
    exact (Bool.or_eq_false_iff.mp (hKept hTask)).1

/- The job that an event claims had a row. -/
theorem FreshStep.claimed_row
    (hStep : FreshStep config event w v)
    (hClaims : claims id event = true)
    (hFind : v.state.jobs.find? id = some row) :
    ∃ before,
      w.state.jobs.find? id = some before ∧
        SameOrigin before row := by
  rcases (hStep.rows id).of_claims hClaims with
    ⟨job, now, hBefore, _, hNext⟩
  rw [hNext, Option.some.injEq] at hFind
  subst hFind
  exact ⟨job, hBefore, rfl, rfl⟩

/- The row of a job that a call has claimed was there. -/
theorem FreshStep.row_back
    (hStep : FreshStep config event w v)
    (hInv : FreshInv config w)
    (hClaims : Has i (claims id) w.trace)
    (hFind : v.state.jobs.find? id = some row) :
    ∃ before,
      w.state.jobs.find? id = some before ∧
        SameOrigin before row := by
  rcases hInv.rows i id hClaims with ⟨before, hBefore⟩
  have hRow := hStep.rows id
  rw [hBefore] at hRow
  rcases rowStep_later hRow with ⟨later, hLater, hOrigin⟩
  rw [hFind, Option.some.injEq] at hLater
  subst hLater
  exact ⟨before, hBefore, hOrigin⟩

/- So was the row of a job that is held. -/
theorem FreshStep.held_row
    (hStep : FreshStep config event w v)
    (hInv : FreshInv config w)
    (hHolds : holds i id v.trace = true)
    (hFind : v.state.jobs.find? id = some row) :
    ∃ before,
      w.state.jobs.find? id = some before ∧
        SameOrigin before row := by
  rcases hStep.held hHolds with ⟨_, hClaims⟩ | ⟨hOld, _⟩
  · exact hStep.claimed_row hClaims hFind
  · exact hStep.row_back hInv (claims_of_holds hOld) hFind

/- A call that has put a copy in place claims no more. -/
theorem FreshStep.not_claims_of_puts
    (hStep : FreshStep config event w v)
    (hInv : FreshInv config w)
    (hPuts : Has i (puts path) w.trace)
    (hTask : event.task = i) :
    claims id event = false := by
  by_contra hClaims
  rw [Bool.not_eq_false] at hClaims
  rcases hInv.putters i path hPuts with ⟨old, hOld⟩
  rw [← hTask] at hOld
  exact (hStep.claim id hClaims).1 old hOld

theorem FreshStep.one
    (hStep : FreshStep config event w v)
    (hInv : FreshInv config w)
    (hFirst : Has i (claims id) v.trace)
    (hSecond : Has i (claims other) v.trace) :
    id = other := by
  rw [hStep.trace] at hFirst hSecond
  rcases hFirst.of_cons with ⟨hTask, hNew⟩ | hOld
  · rcases hSecond.of_cons with ⟨_, hNew'⟩ | hOld'
    · exact claims_inj hNew hNew'
    · rw [← hTask] at hOld'
      exact absurd hOld' ((hStep.claim id hNew).1 other)
  · rcases hSecond.of_cons with ⟨hTask, hNew'⟩ | hOld'
    · rw [← hTask] at hOld
      exact absurd hOld ((hStep.claim other hNew').1 id)
    · exact hInv.one i id other hOld hOld'

theorem FreshStep.rows_kept
    (hStep : FreshStep config event w v)
    (hInv : FreshInv config w)
    (hClaims : Has i (claims id) v.trace) :
    ∃ row, v.state.jobs.find? id = some row := by
  rw [hStep.trace] at hClaims
  rcases hClaims.of_cons with ⟨_, hNew⟩ | hOld
  · rcases (hStep.rows id).of_claims hNew with
      ⟨job, now, _, _, hNext⟩
    exact ⟨_, hNext⟩
  · rcases hInv.rows i id hOld with ⟨before, hBefore⟩
    have hRow := hStep.rows id
    rw [hBefore] at hRow
    rcases rowStep_later hRow with ⟨later, hLater, _⟩
    exact ⟨later, hLater⟩

theorem FreshStep.putters
    (hStep : FreshStep config event w v)
    (hInv : FreshInv config w)
    (hPuts : Has i (puts path) v.trace) :
    ∃ id, Has i (claims id) v.trace := by
  rw [hStep.trace] at hPuts ⊢
  rcases hPuts.of_cons with ⟨hTask, hNew⟩ | hOld
  · rcases hStep.put path hNew with ⟨id, hHolds⟩
    rw [hTask] at hHolds
    exact ⟨id, (claims_of_holds hHolds).cons⟩
  · rcases hInv.putters i path hOld with ⟨id, hClaims⟩
    exact ⟨id, hClaims.cons⟩

/- A claim finds no other job of the repository held. -/
theorem FreshStep.claims_alone
    (hStep : FreshStep config event w v)
    (hInv : FreshInv config w)
    (hClaims : claims id event = true)
    (hHolds : holds j other w.trace = true)
    (hFind : v.state.jobs.find? id = some row)
    (hOther : v.state.jobs.find? other = some otherRow)
    (hRepo : row.repo = otherRow.repo) :
    id = other := by
  by_contra hNe
  rcases hStep.claimed_row hClaims hFind with
    ⟨before, hBefore, hOrigin⟩
  rcases hStep.row_back hInv (claims_of_holds hHolds) hOther
    with ⟨earlier, hEarlier, hOrigin'⟩
  have hFree :=
    ((hStep.claim id hClaims).2 before hBefore other earlier
      hEarlier
      (by rw [← hOrigin'.repo, ← hRepo, hOrigin.repo])
      (fun hEq => hNe hEq.symm)).1 j
  rw [hHolds] at hFree
  cases hFree

theorem FreshStep.alone
    (hStep : FreshStep config event w v)
    (hInv : FreshInv config w)
    (hFirst : holds i id v.trace = true)
    (hSecond : holds j other v.trace = true)
    (hFind : v.state.jobs.find? id = some row)
    (hOther : v.state.jobs.find? other = some otherRow)
    (hRepo : row.repo = otherRow.repo) :
    id = other := by
  rcases hStep.held hFirst with ⟨_, hNew⟩ | ⟨hOld, _⟩
  · rcases hStep.held hSecond with ⟨_, hNew'⟩ | ⟨hOld', _⟩
    · exact claims_inj hNew hNew'
    · exact hStep.claims_alone hInv hNew hOld' hFind hOther
        hRepo
  · rcases hStep.held hSecond with ⟨_, hNew'⟩ | ⟨hOld', _⟩
    · exact
        (hStep.claims_alone hInv hNew' hOld hOther hFind
          hRepo.symm).symm
    · rcases hStep.held_row hInv hFirst hFind with
        ⟨before, hBefore, hOrigin⟩
      rcases hStep.held_row hInv hSecond hOther with
        ⟨earlier, hEarlier, hOrigin'⟩
      exact
        hInv.alone i j id other before earlier hOld hOld'
          hBefore hEarlier
          (by rw [← hOrigin.repo, hRepo, hOrigin'.repo])

/- A call that puts a copy in place holds its job. -/
theorem FreshStep.holds_of_puts
    (hStep : FreshStep config event w v)
    (hInv : FreshInv config w)
    (hClaims : Has i (claims id) v.trace)
    (path : String)
    (hPuts : puts path event = true)
    (hTask : event.task = i) :
    holds i id w.trace = true := by
  rcases hStep.put path hPuts with ⟨held, hHeld⟩
  rw [hTask] at hHeld
  have hClaimed : Has i (claims held) v.trace := by
    rw [hStep.trace]
    exact (claims_of_holds hHeld).cons
  rw [hStep.one hInv hClaims hClaimed]
  exact hHeld

/- A job that is held stays as new as what was synced. -/
theorem FreshStep.newer
    {otherId : String}
    (hStep : FreshStep config event w v)
    (hInv : FreshInv config w)
    (hHolds : holds i id v.trace = true)
    (hFind : v.state.jobs.find? id = some row)
    (hOther : v.state.jobs.find? otherId = some otherRow)
    (hStatus : otherRow.status = .synced)
    (hRepo : otherRow.repo = row.repo) :
    otherRow.createdAt ≤ row.createdAt := by
  by_cases hSame : otherId = id
  · rw [hSame, hFind, Option.some.injEq] at hOther
    rw [hOther]
  · rcases hStep.held_row hInv hHolds hFind with
      ⟨before, hBefore, hOrigin⟩
    rw [hOrigin.createdAt]
    rw [hOrigin.repo] at hRepo
    have hRow := hStep.rows otherId
    rw [hOther] at hRow
    rcases rowStep_synced hRow hStatus
        (fun hNone => hStep.created _ _ hNone hOther) with
      hKept | ⟨hSyncs, earlier, hEarlier, hOrigin'⟩
    · rcases hStep.held hHolds with
        ⟨_, hClaims⟩ | ⟨hOld, _⟩
      · exact
          ((hStep.claim id hClaims).2 before hBefore otherId
            otherRow hKept hRepo hSame).2 hStatus
      · exact
          hInv.newer i id before hOld hBefore otherId
            otherRow hKept hStatus hRepo
    · rcases hStep.held hHolds with
        ⟨_, hClaims⟩ | ⟨hOld, _⟩
      · rw [not_claims_of_syncs hSyncs] at hClaims
        cases hClaims
      · have hHeld :=
          (hStep.sync otherId earlier hSyncs hEarlier).1
        rw [hOrigin'.repo] at hRepo
        exact absurd
          (hInv.alone _ i otherId id earlier before hHeld hOld
            hEarlier hBefore hRepo) hSame

/- A call for another job puts no copy over one in place. -/
theorem FreshStep.latest
    {k : Nat}
    (hStep : FreshStep config event w v)
    (hInv : FreshInv config w)
    (hJobs : JobInv stuck w)
    (hHolds : holds i id v.trace = true)
    (hFind : v.state.jobs.find? id = some row)
    (hPuts :
      Has i (puts (pullPath config row.repo)) v.trace)
    (hLast :
      lastPut (pullPath config row.repo) v.trace = some k)
    (hClaims : Has k (claims other) v.trace)
    (hOther : v.state.jobs.find? other = some otherRow)
    (hRepo : otherRow.repo = row.repo) :
    k = i := by
  have hMine := hStep.holds_of_puts hInv hClaims
  rw [hStep.trace] at hPuts hLast hClaims
  rcases hStep.held hHolds with ⟨hTask, hNew⟩ | ⟨hOld, _⟩
  · rcases hPuts.of_cons with ⟨_, hPut⟩ | hPut
    · rw [not_puts_of_claims hNew] at hPut
      cases hPut
    · rw [hStep.not_claims_of_puts hInv hPut hTask] at hNew
      cases hNew
  · rcases hStep.row_back hInv (claims_of_holds hOld) hFind
      with ⟨before, hBefore, hOrigin⟩
    rw [hOrigin.repo] at hPuts hLast hRepo
    rcases lastPut_cons hLast with
      ⟨hPut, hTask⟩ | ⟨hNoPut, hBeforeLast⟩
    · have hHeld := hMine _ hPut hTask
      rcases hStep.row_back hInv (claims_of_holds hHeld)
          hOther with
        ⟨earlier, hEarlier, hOrigin'⟩
      rw [hOrigin'.repo] at hRepo
      have hSame :=
        hInv.alone k i other id earlier before hHeld hOld
          hEarlier hBefore hRepo
      subst hSame
      exact
        hJobs.single k i other (owes_of_holds hHeld)
          (owes_of_holds hOld)
    · have hOwn :
          Has i (puts (pullPath config before.repo))
            w.trace := by
        rcases hPuts.of_cons with ⟨_, hPut⟩ | hPut
        · rw [hNoPut] at hPut
          cases hPut
        · exact hPut
      rcases hClaims.of_cons with ⟨hTask, hNew⟩ | hClaimed
      · rw [hStep.not_claims_of_puts hInv
          (has_of_lastPut hBeforeLast) hTask] at hNew
        cases hNew
      · rcases hStep.row_back hInv hClaimed hOther with
          ⟨earlier, hEarlier, hOrigin'⟩
        rw [hOrigin'.repo] at hRepo
        exact
          hInv.latest i id before hOld hBefore hOwn k other
            earlier hBeforeLast hClaimed hEarlier hRepo

/- What a pull reads stays as new as what was synced. -/
theorem FreshStep.newest
    {newId oldId : String}
    {newer older : TransferJob}
    (hStep : FreshStep config event w v)
    (hInv : FreshInv config w)
    (hNewer : v.state.jobs.find? newId = some newer)
    (hStatus : newer.status = .synced)
    (hLast :
      lastPut (pullPath config newer.repo) v.trace = some i)
    (hClaims : Has i (claims oldId) v.trace)
    (hOlder : v.state.jobs.find? oldId = some older)
    (hRepo : older.repo = newer.repo) :
    newer.createdAt ≤ older.createdAt := by
  have hMine := hStep.holds_of_puts hInv hClaims
  rw [hStep.trace] at hLast hClaims
  have hRow := hStep.rows newId
  rw [hNewer] at hRow
  rcases rowStep_synced hRow hStatus
      (fun hNone => hStep.created _ _ hNone hNewer) with
    hKept | ⟨hSyncs, before, hBefore, hOrigin⟩
  · rcases lastPut_cons hLast with
      ⟨hPut, hTask⟩ | ⟨_, hBeforeLast⟩
    · have hHeld := hMine _ hPut hTask
      rcases hStep.row_back hInv (claims_of_holds hHeld)
          hOlder with
        ⟨earlier, hEarlier, hOrigin⟩
      rw [hOrigin.createdAt]
      rw [hOrigin.repo] at hRepo
      exact
        hInv.newer i oldId earlier hHeld hEarlier newId newer
          hKept hStatus hRepo.symm
    · rcases hClaims.of_cons with ⟨hTask, hNew⟩ | hClaimed
      · rw [hStep.not_claims_of_puts hInv
          (has_of_lastPut hBeforeLast) hTask] at hNew
        cases hNew
      · rcases hStep.row_back hInv hClaimed hOlder with
          ⟨earlier, hEarlier, hOrigin⟩
        rw [hOrigin.createdAt]
        rw [hOrigin.repo] at hRepo
        exact
          hInv.fresh.newest newId newer hKept hStatus i
            hBeforeLast oldId earlier hClaimed hEarlier hRepo
  · rcases hStep.sync newId before hSyncs hBefore with
      ⟨hHeld, hPuts⟩
    have hClaimed : Has i (claims oldId) w.trace := by
      rcases hClaims.of_cons with ⟨_, hNew⟩ | hOld
      · rw [not_claims_of_syncs hSyncs] at hNew
        cases hNew
      · exact hOld
    rw [hOrigin.repo] at hLast hRepo
    rcases lastPut_cons hLast with
      ⟨hPut, _⟩ | ⟨_, hBeforeLast⟩
    · rw [not_puts_of_syncs hSyncs] at hPut
      cases hPut
    · rcases hStep.row_back hInv hClaimed hOlder with
        ⟨earlier, hEarlier, hOrigin'⟩
      rw [hOrigin'.repo] at hRepo
      have hTask :=
        hInv.latest event.task newId before hHeld hBefore
          hPuts i oldId earlier hBeforeLast hClaimed hEarlier
          hRepo
      subst hTask
      have hEq :=
        hInv.one event.task newId oldId
          (claims_of_holds hHeld) hClaimed
      subst hEq
      rw [hNewer, Option.some.injEq] at hOlder
      rw [hOlder]

theorem freshInv_step
    (hStep : FreshStep config event w v)
    (hInv : FreshInv config w)
    (hJobs : JobInv stuck w) :
    FreshInv config v where
  staged := hStep.staged
  fresh :=
    { written := by
        intro other hOther
        rw [hStep.trace] at hOther
        rcases List.mem_cons.mp hOther with hNew | hOld
        · rw [hNew]
          exact hStep.written
        · exact hInv.fresh.written other hOld
      newest := fun _ _ hNewer hStatus _ hLast _ _ hClaims
          hOlder hRepo =>
        hStep.newest hInv hNewer hStatus hLast hClaims hOlder
          hRepo }
  one := fun _ _ _ hFirst hSecond =>
    hStep.one hInv hFirst hSecond
  rows := fun _ _ hClaims => hStep.rows_kept hInv hClaims
  putters := fun _ _ hPuts => hStep.putters hInv hPuts
  alone := fun _ _ _ _ _ _ hFirst hSecond hFind hOther hRepo =>
    hStep.alone hInv hFirst hSecond hFind hOther hRepo
  newer := fun _ _ _ hHolds hFind _ _ hOther hStatus hRepo =>
    hStep.newer hInv hHolds hFind hOther hStatus hRepo
  latest := fun _ _ _ hHolds hFind hPuts _ _ _ hLast hClaims
      hOther hRepo =>
    hStep.latest hInv hJobs hHolds hFind hPuts hLast hClaims
      hOther hRepo

------------------------------------------------------------
-- The Contract
------------------------------------------------------------

/- What is recorded about the jobs stays. -/
def Recorded (s t : TransferState) : Prop :=
  ∀ id job, s.jobs.find? id = some job →
    ∃ later,
      t.jobs.find? id = some later ∧ job.SameRecord later

/- Freshness, beside the contract of the jobs. -/
def freshContract
    (config : TransferConfig)
    (stuck : Set String) : TransferContract where
  inv := fun w => JobInv stuck w ∧ FreshInv config w
  rely := fun _ w v =>
    w.state.clock ≤ v.state.clock ∧ Recorded w.state v.state
  rely_refl := fun _ _ =>
    ⟨le_refl _, fun _ job hFind => ⟨job, hFind, .refl job⟩⟩
  rely_trans := by
    rintro i w v u ⟨hClock, hFirst⟩ ⟨hClock', hSecond⟩
    refine ⟨hClock.trans hClock', ?_⟩
    intro id job hFind
    rcases hFirst id job hFind with ⟨next, hNext, hSame⟩
    rcases hSecond id next hNext with ⟨later, hLater, hSame'⟩
    exact ⟨later, hLater, hSame.trans hSame'⟩

/- What a task owes before it touches a job or a file. -/
def Careful
    (config : TransferConfig)
    (i : Nat)
    (op : TransferOp)
    (w : TransferWorld) : Prop :=
  match op with
  | .files (.copyFile _ target) => IsTmp target
  | .files (.unlink path) => IsTmp path
  | .files (.rename source _) =>
      IsTmp source ∧ ∃ id, holds i id w.trace = true
  | .files (.rm path) => ¬ OnNas path
  | .jobs (.create job) => job.status = .staged
  | .jobs (.claim _ _) => Idle i w
  | .jobs (.markSynced id) =>
      ∀ row, w.state.jobs.find? id = some row →
        holds i id w.trace = true ∧
          Has i (puts (pullPath config row.repo)) w.trace
  | _ => True

variable {config : TransferConfig} {op : TransferOp}
variable {choice : TransferChoice} {answer : op.Answer}
variable {s t after : TransferState}
variable {w v : TransferWorld} {stuck : Set String}
variable {event : TransferEvent} {i : Nat} {path : String}

theorem careful_of_light
    (hLight : Light op)
    (w : TransferWorld) :
    Careful config i op w := by
  have hQuiet := quiet_of_light hLight
  have hModest : Modest config op := modest_of_light hLight
  unfold Careful
  split
  all_goals trivial

/- A job that is claimed was due. -/
theorem eligible_of_claim
    {now : Nat}
    (hExec :
      (TransferOp.jobs (.claim id now)).exec config choice
        s = some (.ok true, t)) :
    ∃ job,
      s.jobs.find? id = some job ∧
        JobStatement.eligible now job = true := by
  have hStep := rowStep_exec 0 hExec id
  generalize s.jobs.find? id = row at hStep
  generalize t.jobs.find? id = next at hStep
  cases hStep with
  | kept hClaims => simp [claims] at hClaims
  | claimed hEligible => exact ⟨_, rfl, hEligible⟩

/- Only a rename changes what a pull reads. -/
theorem written_perform
    (hCareful : Careful config i op w)
    (hStaged : Staged after)
    (hExec :
      op.exec config choice w.state = some (answer, after)) :
    Written config
      (.performed i op answer w.state after) := by
  intro k other reply before later hEvent repo
  cases hEvent
  by_cases hWrites :
      ∃ statement, op = .files statement ∧
        pullPath config repo ∈ statement.writes
  · rcases hWrites with ⟨statement, rfl, hPath⟩
    cases statement with
    | mkdir other => exact absurd hPath List.not_mem_nil
    | stat other => exact absurd hPath List.not_mem_nil
    | readFile other => exact absurd hPath List.not_mem_nil
    | sha256File other => exact absurd hPath List.not_mem_nil
    | rm other =>
        rw [FileStatement.writes, List.mem_singleton] at hPath
        subst hPath
        exact absurd (onNas_pullPath config repo) hCareful
    | copyFile source target =>
        rw [FileStatement.writes, List.mem_singleton] at hPath
        subst hPath
        exact absurd hCareful (not_tmp_pullPath config repo)
    | unlink other =>
        rw [FileStatement.writes, List.mem_singleton] at hPath
        subst hPath
        exact absurd hCareful (not_tmp_pullPath config repo)
    | rename source target =>
        cases answer with
        | error reason =>
            rw [exec_rename_error hExec]
            exact Or.inl rfl
        | ok _ =>
            rcases List.mem_cons.mp hPath with
              hSource | hTarget
            · subst hSource
              exact absurd hCareful.1
                (not_tmp_pullPath config repo)
            · rw [List.mem_singleton] at hTarget
              exact Or.inr (by simp [puts, hTarget])
  · refine Or.inl (files_exec hExec ?_ ?_)
    · intro stream hStaging
      exact hStaged stream _ hStaging
        (onNas_pullPath config repo)
    · intro statement hOp hPath
      exact hWrites ⟨statement, hOp, hPath⟩

/- A careful operation, in order, owes nothing more. -/
theorem freshStep_perform
    (hInv : FreshInv config w)
    (hOk : inOrder.perform i op w)
    (hCareful : Careful config i op w)
    (hExec :
      op.exec config choice w.state = some (answer, after)) :
    FreshStep config (.performed i op answer w.state after) w
      (w.perform i op answer after) where
  trace := rfl
  rows := rowStep_exec i hExec
  created := by
    intro id job hNone hSome
    rw [World.perform_state] at hSome
    cases op_of_new hExec hNone hSome
    exact hCareful
  staged := staged_exec hInv.staged hExec
  written :=
    written_perform hCareful (staged_exec hInv.staged hExec)
      hExec
  claim := by
    intro id hClaims
    unfold claims at hClaims
    split at hClaims
    · rename_i hEvent
      cases hEvent
      rw [decide_eq_true_eq] at hClaims
      subst hClaims
      rcases eligible_of_claim hExec with
        ⟨job, hFind, hEligible⟩
      exact ⟨hCareful, hOk _ _ job rfl hFind hEligible⟩
    · cases hClaims
  put := by
    intro path hPuts
    unfold puts at hPuts
    split at hPuts
    · rename_i hEvent
      cases hEvent
      exact hCareful.2
    · cases hPuts
  sync := by
    intro id row hSyncs hFind
    unfold syncs at hSyncs
    split at hSyncs
    · rename_i hEvent
      cases hEvent
      rw [decide_eq_true_eq] at hSyncs
      subst hSyncs
      exact hCareful row hFind
    · cases hSyncs

/- What keeps the contract of the jobs keeps this one, when
   it is done carefully. -/
theorem moves_fresh
    {pre : TransferWorld → Prop}
    {post : op.Answer → TransferWorld → Prop}
    (hMoves :
      Moves config (jobContract stuck) inOrder i op pre post)
    (hCareful : ∀ v, pre v → Careful config i op v) :
    Moves config (freshContract config stuck) inOrder i op
      pre post := by
  intro v hPre hInv hOk choice answer after hExec
  rcases hMoves v hPre hInv.1 hOk choice answer after hExec
    with ⟨hKeeps, hPost⟩
  have hStep :=
    freshStep_perform hInv.2 hOk (hCareful v hPre) hExec
  refine ⟨⟨⟨hKeeps.1, ?_⟩, ?_⟩, hPost⟩
  · exact freshInv_step hStep hInv.2 hInv.1
  · intro j hOther
    exact ⟨hKeeps.2 j hOther,
      fun _ _ hFind => recorded_exec hExec hFind⟩

/- An event that is no operation owes nothing. -/
theorem freshStep_event
    (hInv : FreshInv config w)
    (hState : v.state = w.state)
    (hTrace : v.trace = event :: w.trace)
    (hEvent :
      ∀ k op answer before later,
        event ≠ .performed k op answer before later) :
    FreshStep config event w v where
  trace := hTrace
  rows := by
    intro id
    rw [hState]
    exact RowStep.of_not_jobs fun _ _ _ _ _ =>
      hEvent _ _ _ _ _
  created := by
    intro id job hNone hSome
    rw [hState, hNone] at hSome
    cases hSome
  staged := by
    rw [hState]
    exact hInv.staged
  written := fun _ _ _ _ _ hEq =>
    absurd hEq (hEvent _ _ _ _ _)
  claim := by
    intro id hClaims
    unfold claims at hClaims
    split at hClaims
    · exact absurd rfl (hEvent _ _ _ _ _)
    · cases hClaims
  put := by
    intro path hPuts
    unfold puts at hPuts
    split at hPuts
    · exact absurd rfl (hEvent _ _ _ _ _)
    · cases hPuts
  sync := by
    intro id row hSyncs
    unfold syncs at hSyncs
    split at hSyncs
    · exact absurd rfl (hEvent _ _ _ _ _)
    · cases hSyncs

theorem keeps_fresh
    (hKeeps : (jobContract stuck).Keeps i w v)
    (hJobs : JobInv stuck w)
    (hFresh : FreshInv config w)
    (hState : v.state = w.state)
    (hTrace : v.trace = event :: w.trace)
    (hEvent :
      ∀ k op answer before later,
        event ≠ .performed k op answer before later) :
    (freshContract config stuck).Keeps i w v := by
  have hStep := freshStep_event hFresh hState hTrace hEvent
  refine ⟨⟨hKeeps.1, freshInv_step hStep hFresh hJobs⟩, ?_⟩
  intro j hOther
  refine ⟨hKeeps.2 j hOther, ?_⟩
  intro id job hFind
  rw [hState]
  exact ⟨job, hFind, .refl job⟩

------------------------------------------------------------
-- A Call Of The Worker
------------------------------------------------------------

variable {job : TransferJob}
variable {tmp : String} {call : TransferCall}

/- A call holds the one job that it has claimed. -/
structure Holding
    (i : Nat)
    (id : String)
    (w : TransferWorld) : Prop where
  owing : Owing i id w
  held : holds i id w.trace = true

/- It has read the job, too. -/
structure Reading
    (i : Nat)
    (job : TransferJob)
    (w : TransferWorld) : Prop where
  holding : Holding i job.id w
  recorded :
    ∃ row,
      w.state.jobs.find? job.id = some row ∧
        job.SameRecord row

/- And has put a copy where the job is pulled from. -/
structure Placed
    (config : TransferConfig)
    (i : Nat)
    (job : TransferJob)
    (w : TransferWorld) : Prop where
  reading : Reading i job w
  placed : Has i (puts (pullPath config job.repo)) w.trace

theorem Has.of_own
    {kind : TransferEvent → Bool}
    (hHas : Has i kind w.trace)
    (hGrows : World.Grows i w v) :
    Has i kind v.trace := by
  rcases hHas with ⟨event, hEvent, hTask, hKind⟩
  exact ⟨event, hGrows.mem hEvent, hTask, hKind⟩

theorem stable_of_jobs
    {J : TransferWorld → Prop}
    (hStable : (jobContract stuck).Stable i J) :
    (freshContract config stuck).Stable i J :=
  fun w v hHere hInterferes hInv =>
    hStable w v hHere ⟨hInterferes.1, hInterferes.2.1⟩ hInv.1

theorem stable_holding (id : String) :
    (freshContract config stuck).Stable i (Holding i id) := by
  intro w v hHolding hInterferes hInv
  refine ⟨?_, ?_⟩
  · exact
      stable_of_jobs (stable_owing id) w v hHolding.owing
        hInterferes hInv
  · unfold holds
    rw [pending_of_grows hInterferes.1]
    exact hHolding.held

theorem stable_reading (job : TransferJob) :
    (freshContract config stuck).Stable i
      (Reading i job) := by
  intro w v hReading hInterferes hInv
  refine ⟨?_, ?_⟩
  · exact
      stable_holding job.id w v hReading.holding hInterferes
        hInv
  · rcases hReading.recorded with ⟨row, hRow, hSame⟩
    rcases hInterferes.2.2 job.id row hRow with
      ⟨later, hLater, hSame'⟩
    exact ⟨later, hLater, hSame.trans hSame'⟩

theorem stable_placed (job : TransferJob) :
    (freshContract config stuck).Stable i
      (Placed config i job) := by
  intro w v hPlaced hInterferes hInv
  refine ⟨?_, ?_⟩
  · exact
      stable_reading job w v hPlaced.reading hInterferes hInv
  · exact Has.of_own hPlaced.placed hInterferes.1

/- An event that neither claims nor marks releases nothing. -/
theorem Holding.perform
    (hHolding : Holding i id w)
    (hClaims :
      ∀ other,
        claims other
            (.performed i op answer w.state after) =
          false)
    (hMarks :
      marks id (.performed i op answer w.state after) =
        false) :
    Holding i id (w.perform i op answer after) := by
  refine ⟨hHolding.owing.perform hClaims hMarks, ?_⟩
  refine pending_cons_iff.mpr (Or.inr ⟨hHolding.held, ?_⟩)
  intro _
  rw [hMarks]
  rfl

theorem Reading.perform
    (hReading : Reading i job w)
    (hExec :
      op.exec config choice w.state = some (answer, after))
    (hClaims :
      ∀ other,
        claims other
            (.performed i op answer w.state after) =
          false)
    (hMarks :
      marks job.id (.performed i op answer w.state after) =
        false) :
    Reading i job (w.perform i op answer after) := by
  refine ⟨hReading.holding.perform hClaims hMarks, ?_⟩
  rcases hReading.recorded with ⟨row, hRow, hSame⟩
  rcases recorded_exec hExec hRow with ⟨later, hLater, hSame'⟩
  exact ⟨later, hLater, hSame.trans hSame'⟩

/- What the worker does beside the jobs keeps its debt. -/
theorem moves_reading
    (op : TransferOp)
    (hFiling : Filing op)
    (hCareful :
      ∀ v, Reading i job v → Careful config i op v) :
    Moves config (freshContract config stuck) inOrder i op
      (Reading i job) fun _ => Reading i job := by
  refine moves_fresh ?_ hCareful
  intro v hReading hInv hOk choice answer after hExec
  refine
    ⟨(moves_filing job.id op hFiling v hReading.holding.owing
      hInv hOk choice answer after hExec).1, ?_⟩
  cases op with
  | now => exact hReading.perform hExec (fun _ => rfl) rfl
  | randomText =>
      exact hReading.perform hExec (fun _ => rfl) rfl
  | files statement =>
      exact hReading.perform hExec (fun _ => rfl) rfl
  | _ => exact hFiling.elim

theorem moves_claims (id : String) (now : Nat) :
    Moves config (freshContract config stuck) inOrder i
      (.jobs (.claim id now)) (Due i now)
      (Answers
        (fun answer v =>
          (answer = true → Holding i id v) ∧
            (answer = false → Due i now v))
        (Done i)) := by
  refine moves_fresh ?_ fun v hDue => hDue.1
  intro v hDue hInv hOk choice answer after hExec
  have hMoved :=
    moves_claim id now v hDue hInv hOk choice answer after
      hExec
  refine ⟨hMoved.1, ?_⟩
  cases answer with
  | error refusal => exact hMoved.2
  | ok claimed =>
      refine ⟨fun hClaimed => ?_, hMoved.2.2⟩
      refine ⟨hMoved.2.1 hClaimed, ?_⟩
      subst hClaimed
      exact pending_cons_iff.mpr
        (Or.inl ⟨rfl, by simp [claims]⟩)

theorem moves_reads (id : String) :
    Moves config (freshContract config stuck) inOrder i
      (.jobs (.get id)) (Holding i id)
      (Answers
        (fun found v =>
          (∀ job, found = some job → Reading i job v) ∧
            (found = none → Done i v))
        (Done i)) := by
  refine moves_fresh ?_ fun _ _ => trivial
  intro v hHolding hInv hOk choice answer after hExec
  have hMoved :=
    moves_get id v hHolding.owing hInv hOk choice answer after
      hExec
  refine ⟨hMoved.1, ?_⟩
  cases answer with
  | error refusal => exact hMoved.2
  | ok found =>
      refine ⟨?_, hMoved.2.2⟩
      rintro job rfl
      have hRun := exec_jobs_ok hExec
      simp only [JobStatement.run, Prod.mk.injEq,
        Except.ok.injEq] at hRun
      have hId := KeyedTable.key_of_find? hRun.1
      refine ⟨?_, ?_⟩
      · rw [hId]
        exact hHolding.perform (fun _ => rfl) rfl
      · rw [hId]
        exact recorded_exec hExec hRun.1

theorem moves_marks (job : TransferJob) :
    Moves config (freshContract config stuck) inOrder i
      (.jobs (.markSynced job.id)) (Placed config i job)
      (Answers (fun _ => Done i) (Reading i job)) := by
  refine moves_fresh ?_ ?_
  · intro v hPlaced hInv hOk choice answer after hExec
    have hMoved :=
      moves_markSynced job.id v hPlaced.reading.holding.owing
        hInv hOk choice answer after hExec
    refine ⟨hMoved.1, ?_⟩
    cases answer with
    | error refusal =>
        exact hPlaced.reading.perform hExec (fun _ => rfl) rfl
    | ok marked => exact hMoved.2
  · intro v hPlaced row hFind
    rcases hPlaced.reading.recorded with ⟨same, hRow, hSame⟩
    rw [hFind, Option.some.injEq] at hRow
    subst hRow
    rw [hSame.repo]
    exact ⟨hPlaced.reading.holding.held, hPlaced.placed⟩

theorem moves_records
    (job : TransferJob)
    (error : String)
    (nextRetryAt : Nat) :
    Moves config (freshContract config stuck) inOrder i
      (.jobs (.markFailed job.id error nextRetryAt))
      (Reading i job)
      (Answers (fun _ => Done i) (Done i)) := by
  refine moves_fresh ?_ fun _ _ => trivial
  intro v hReading hInv hOk choice answer after hExec
  exact
    moves_markFailed job.id error nextRetryAt v
      hReading.holding.owing hInv hOk choice answer after
      hExec

/- A copy that is renamed is in place. -/
theorem moves_rename
    (job : TransferJob)
    (hTmp : IsTmp tmp) :
    Moves config (freshContract config stuck) inOrder i
      (.files
        (.rename tmp
          (finalPath (join [config.nasRootPath, job.repo]))))
      (Reading i job)
      (Answers (fun _ => Placed config i job)
        (Reading i job)) := by
  intro v hReading hInv hOk choice answer after hExec
  have hMoved :=
    moves_reading
      (.files
        (.rename tmp
          (finalPath (join [config.nasRootPath, job.repo]))))
      trivial
      (fun _ (hThere : Reading i job _) =>
        ⟨hTmp, _, hThere.holding.held⟩)
      v hReading hInv hOk choice answer after hExec
  refine ⟨hMoved.1, ?_⟩
  cases answer with
  | error reason => exact hMoved.2
  | ok _ =>
      refine ⟨hMoved.2, ?_⟩
      exact
        ⟨_, List.mem_cons_self, rfl,
          by simp [puts, finalPath_eq]⟩

theorem files_reading
    {statement : FileStatement}
    (hCareful :
      ∀ v, Reading i job v →
        Careful config i (.files statement) v)
    (hReading : Reading i job w) :
    SafeProgram config (freshContract config stuck) inOrder i
      (files statement) (fun _ => Reading i job)
      (Reading i job) w := by
  refine files_safe ?_ (stable_reading job) hReading
  intro v hThere hInv hOk choice answer after hExec
  have hMoved :=
    moves_reading (.files statement) trivial hCareful v hThere
      hInv hOk choice answer after hExec
  refine ⟨hMoved.1, ?_⟩
  cases answer <;> exact hMoved.2

theorem copyThenRename_safe
    (stagingPath : String)
    (hTmp : IsTmp tmp)
    (hReading : Reading i job w) :
    SafeProgram config (freshContract config stuck) inOrder i
      (copyThenRename stagingPath tmp
        (finalPath (join [config.nasRootPath, job.repo])))
      (fun _ => Placed config i job) (Reading i job) w := by
  refine Contract.safe_bind ?_
  refine Contract.safe_mono ?_ (fun _ _ h => h)
    (files_reading (fun _ _ => hTmp) hReading)
  intro _ v hReading
  refine Contract.safe_bind ?_
  refine Contract.safe_mono ?_ (fun _ _ h => h)
    (files_reading (fun _ _ => trivial) hReading)
  intro checksum v hReading
  refine Contract.safe_bind ?_
  refine Contract.safe_mono ?_ (fun _ _ h => h)
    (files_reading (fun _ _ => trivial) hReading)
  intro _ v hReading
  refine Contract.safe_bind ?_
  refine Contract.safe_mono ?_ (fun _ _ h => h)
    (files_safe (moves_rename job hTmp) (stable_reading job)
      hReading)
  intro _ v hPlaced
  exact hPlaced

theorem copyToNas_safe
    (hReading : Reading i job w) :
    SafeProgram config (freshContract config stuck) inOrder i
      (copyToNas config job.stagingPath job.repo)
      (fun _ => Placed config i job) (Reading i job) w := by
  refine Contract.safe_bind ?_
  refine Contract.safe_mono ?_ (fun _ _ h => h)
    (files_reading (fun _ _ => trivial) hReading)
  intro _ v hReading
  have hDraw :
      Moves config (freshContract config stuck) inOrder i
        .randomText (Reading i job)
        fun text v =>
          Reading i job v ∧ isRandomText text = true := by
    apply
      (moves_reading .randomText trivial
        fun _ _ => trivial).with_answer
    intro choice s answer t hExec
    exact randomText_of_exec hExec
  refine Contract.safe_bind ?_
  refine Contract.safe_mono ?_ (fun _ _ h => h)
    (hDraw.safe (stable_reading job) hReading)
  rintro uuid v ⟨hReading, hUuid⟩
  have hTmp := isTmp_tmpPath
    (join [config.nasRootPath, job.repo]) hUuid
  refine Contract.safe_catchError ?_
  refine Contract.safe_mono (fun _ _ h => h) ?_
    (copyThenRename_safe job.stagingPath hTmp hReading)
  intro error u hReading
  refine Contract.safe_bind (Contract.safe_catchError ?_)
  refine Contract.safe_mono ?_ ?_
    (files_reading (fun _ _ => hTmp) hReading)
  · intro _ _ hReading
    exact hReading
  · intro _ _ hReading
    exact hReading

/- The outline of any call of the worker. -/
def workerOutline
    (config : TransferConfig)
    (stuck : Set String)
    (i : Nat) :
    WorkerOutline config (freshContract config stuck) inOrder
      i where
  idle := Idle i
  due := Due i
  claimed := Holding i
  holding := Reading i
  copied := fun job _ => Placed config i job
  failing := Reading i
  done := Done i
  stable_idle := stable_of_jobs stable_idle
  stable_due := fun now => stable_of_jobs (stable_due now)
  stable_claimed := stable_holding
  stable_copied := fun job _ => stable_placed job
  stable_failing := stable_reading
  done_of_due := fun _ _ => Due.done
  failing_of_mismatch := fun _ _ _ hPlaced _ =>
    hPlaced.reading
  begin_ := moves_fresh moves_now fun _ _ => trivial
  looks := fun now =>
    moves_fresh (moves_candidates now) fun _ _ => trivial
  claims := moves_claims
  reads := moves_reads
  copies := fun _ _ hReading => copyToNas_safe hReading
  marks := moves_marks
  waits := fun _ =>
    moves_reading .now trivial fun _ _ => trivial
  records := moves_records

------------------------------------------------------------
-- Other Calls
------------------------------------------------------------

/- A modest operation, done carefully, leaves a call idle. -/
theorem moves_modest
    (hRetries : 0 < config.maxRetries)
    (op : TransferOp)
    (hModest : Modest config op)
    (hCareful : ∀ v, Careful config i op v) :
    Moves config (freshContract config stuck) inOrder i op
      (Idle i) fun _ => Idle i :=
  moves_fresh (moves_idle hRetries op hModest)
    fun v _ => hCareful v

theorem moves_light
    (hRetries : 0 < config.maxRetries)
    (op : TransferOp)
    (hLight : Light op) :
    Moves config (freshContract config stuck) inOrder i op
      (Idle i) fun _ => Idle i :=
  moves_modest hRetries op (modest_of_light hLight)
    (careful_of_light hLight)

/- A step of a session removes no file of the worker. -/
theorem moves_step
    (hRetries : 0 < config.maxRetries)
    (stream : Nat)
    (step : SessionStep) :
    Moves config (freshContract config stuck) inOrder i
      (.session stream step) (Idle i)
      fun answer v =>
        Idle i v ∧
          ∀ path, step.removal answer = some path →
            ¬ OnNas path := by
  intro v hIdle hInv hOk choice answer after hExec
  have hMoved :=
    moves_modest hRetries (.session stream step) trivial
      (fun _ => trivial) v hIdle hInv hOk choice answer after
      hExec
  refine ⟨hMoved.1, hMoved.2, ?_⟩
  intro path hRemoval
  rw [← (exec_session hExec).1] at hRemoval
  exact
    hInv.2.staged stream path (step_removal step _ hRemoval)

/- The outline of any push. -/
def pushOutline
    (config : TransferConfig)
    (stuck : Set String)
    (i : Nat)
    (hRetries : 0 < config.maxRetries) :
    PushOutline config (freshContract config stuck) inOrder i
      (fun _ => True) where
  idle := Idle i
  consumed := fun _ _ => Idle i
  finishing := fun _ => Idle i
  staging := fun path => ¬ OnNas path
  stable_idle := stable_of_jobs stable_idle
  stable_consumed := fun _ _ => stable_of_jobs stable_idle
  stable_finishing := fun _ => stable_of_jobs stable_idle
  idle_of_finishing := fun _ _ hIdle => hIdle
  light_idle := moves_light hRetries
  calm_finishing := fun _ op hCalm =>
    moves_light hRetries op
      (light_of_tame (tame_of_calm hCalm))
  removes := fun path hStaging =>
    moves_modest hRetries (.files (.rm path)) trivial
      fun _ => hStaging
  steps := fun step _ => moves_step hRetries i step
  consume := fun _ _ _ hIdle =>
    safe_of_only (tame_consumeTicket _ _ _)
      (fun op hTame =>
        moves_light hRetries op (light_of_tame hTame))
      (stable_of_jobs stable_idle) hIdle
  give := fun header ticket =>
    moves_modest hRetries
      (.session i (.ticketConsumed header ticket)) trivial
      fun _ => trivial
  ends := fun v hIdle hInv hOk choice answer after hExec =>
    have hMoved :=
      moves_step hRetries i .finalize v hIdle hInv hOk choice
        answer after hExec
    ⟨hMoved.1, fun _ _ => hMoved.2.1⟩
  create := fun started jobId preparation _ =>
    moves_modest hRetries
      (.jobs
        (.create
          (stagedJob config jobId started preparation)))
      ⟨jobId, started, preparation, rfl⟩ fun _ => rfl

/- A stream that fails or is cancelled leaves a call idle. -/
theorem endOfStream_safe
    {step : SessionStep}
    {removal : step.Answer → Removal}
    (stream : Nat)
    (hRetries : 0 < config.maxRetries)
    (hRemoval : ∀ answer, step.removal answer = removal answer)
    (hIdle : Idle i w) :
    SafeProgram config (freshContract config stuck) inOrder i
      ((session stream step).bind fun answer =>
        removeStaging (removal answer))
      (fun _ => Idle i) (Idle i) w := by
  refine Contract.safe_bind ?_
  refine Contract.safe_mono ?_ (fun _ _ h => h)
    ((moves_step hRetries stream step).safe
      (stable_of_jobs stable_idle) hIdle)
  rintro answer v ⟨hIdle, hStaging⟩
  rw [hRemoval] at hStaging
  exact
    (pushOutline config stuck i hRetries).removeStaging_safe
      hStaging hIdle

theorem keeps_start
    (hJobs : JobInv stuck w)
    (hFresh : FreshInv config w) :
    (freshContract config stuck).Keeps i w
      (w.start i call) :=
  keeps_fresh (JobContract.keeps_start hJobs) hJobs hFresh rfl
    rfl (by simp)

/- Every task keeps the contract once it has started. -/
theorem serveCall_safe
    (hRetries : 0 < config.maxRetries)
    (hJobs : JobInv stuck w)
    (hFresh : FreshInv config w)
    (hNew : w.Fresh i) :
    (freshContract config stuck).SafeTask
      (transferSystem config) inOrder i
      (serveCall config i call) (w.start i call) := by
  have hIdle : Idle i (w.start i call) := by
    intro id hHas
    rcases hHas.of_cons with ⟨_, hClaims⟩ | hOld
    · cases hClaims
    · rcases hOld with ⟨event, hEvent, hTask, _⟩
      exact hNew event hEvent hTask
  have hDone :
      ∀ {α : Type} {program : TransferProgram α},
        SafeProgram config (freshContract config stuck)
          inOrder i program (fun _ => Idle i) (Idle i)
          (w.start i call) →
        SafeProgram config (freshContract config stuck)
          inOrder i program (fun _ => Done i) (Done i)
          (w.start i call) := by
    intro α program hSafe
    exact Contract.safe_mono (fun _ _ h => done_of_idle h)
      (fun _ _ h => done_of_idle h) hSafe
  have hSafe :
      SafeProgram config (freshContract config stuck) inOrder
        i (serveCall config i call) (fun _ => Done i)
        (Done i) (w.start i call) := by
    by_cases hQuiet : QuietCall call
    · exact hDone
        (safe_of_only (light_serveCall hQuiet i)
          (moves_light hRetries)
          (stable_of_jobs stable_idle) hIdle)
    · cases call with
      | push messages ends =>
          refine hDone (Contract.safe_bind ?_)
          exact
            (pushOutline config stuck i hRetries).push_safe
              (fun _ _ => trivial) hIdle
      | pushError stream =>
          refine hDone (Contract.safe_bind ?_)
          exact
            endOfStream_safe stream hRetries (fun _ => rfl)
              hIdle
      | pushCancelled stream =>
          refine hDone (Contract.safe_bind ?_)
          exact
            endOfStream_safe stream hRetries (fun _ => rfl)
              hIdle
      | processNext =>
          refine Contract.safe_bind ?_
          exact
            (workerOutline config stuck i).processNext_safe
              hIdle
      | _ => exact absurd trivial hQuiet
  have hEnds :
      ∀ (outcome : Except TransferError TransferReturn) v,
        (freshContract config stuck).inv v ∧ Done i v →
          (freshContract config stuck).Ends i outcome v := by
    rintro outcome v ⟨hInv, hDone⟩
    exact keeps_fresh (ends_of_done outcome hInv.1 hDone)
      hInv.1 hInv.2 rfl rfl (by simp)
  exact
    Contract.safe_mono (fun value => hEnds (.ok value))
      (fun error => hEnds (.error error))
      (Contract.safe_with_inv (keeps_start hJobs hFresh).1
        hSafe)

theorem freshInv_initial
    {initial : TransferState}
    (hInitial : NoPushes initial) :
    FreshInv config ⟨initial, []⟩ := by
  have hNone :
      ∀ i kind,
        ¬ Has i kind ([] : List TransferEvent) := by
    rintro i kind ⟨event, hEvent, _⟩
    exact List.not_mem_nil hEvent
  exact
    { staged := by
        intro stream path hPath
        rw [hInitial stream] at hPath
        cases hPath
      fresh :=
        { written := fun _ hEvent =>
            absurd hEvent List.not_mem_nil
          newest := fun _ _ _ _ _ hLast => by cases hLast }
      one := fun i id _ hClaims =>
        absurd hClaims (hNone i (claims id))
      rows := fun i id hClaims =>
        absurd hClaims (hNone i (claims id))
      putters := fun i path hPuts =>
        absurd hPuts (hNone i (puts path))
      alone := fun _ _ _ _ _ _ hHolds => by cases hHolds
      newer := fun _ _ _ hHolds => by cases hHolds
      latest := fun _ _ _ hHolds => by cases hHolds }

/-
  In every run in which a job is claimed only while no other
  job of its repository is being synced and none created
  later has been: what a pull reads was put there for a job
  that is not older than any synced job of the repository.
-/
theorem nas_fresh
    (config : TransferConfig)
    (initial : TransferState)
    (p : TransferPool)
    (hRetries : 1 ≤ config.maxRetries)
    (hInitial : NoPushes initial)
    (hSound :
      ∀ id job, initial.jobs.find? id = some job →
        Sound job)
    (hRun :
      (transferSystem config).Run inOrder
        (Pool.initial initial) p) :
    Fresh config p.world := by
  have hPool :=
    Contract.sound
      (K := freshContract config (syncingIds initial))
      initial
      ⟨jobInv_initial hSound, freshInv_initial hInitial⟩
      (fun _ _ _ hInv hNew _ =>
        ⟨keeps_start hInv.1 hInv.2,
          serveCall_safe hRetries hInv.1 hInv.2 hNew⟩)
      hRun
  exact hPool.inv.2.fresh

------------------------------------------------------------
-- A Retry Out Of And In Order
------------------------------------------------------------

/- Two pushes to one repository, the older one in any
   status. -/
def twoPushes (status : TransferJobStatus) : TransferState :=
  { withRole .writer with
    jobs :=
      { rows :=
          [ { id := "newer"
              repo := "r"
              stagingPath := "/staging/r/newer.staging"
              checksum := "2"
              status := .staged
              retryCount := 0
              maxRetries := 3
              nextRetryAt := 0
              createdAt := 1
              updatedAt := 1
              lastError := none }
          , { id := "older"
              repo := "r"
              stagingPath := "/staging/r/older.staging"
              checksum := "1"
              status := status
              retryCount := 0
              maxRetries := 3
              nextRetryAt := 0
              createdAt := 0
              updatedAt := 0
              lastError := none } ]
        distinct := by simp }
    files := fun path =>
      if path = "/staging/r/newer.staging" then some [8, 8]
      else if path = "/staging/r/older.staging" then some [7]
      else none }

/- A call that claims a job, which does not reach the NAS. -/
def failingCall (i : Nat) :
    List (Label TransferChoice TransferCall) :=
  [ .start i .processNext
  , .resume i (draw "")
  , .resume i (draw "")
  , .resume i (draw "")
  , .resume i (draw "")
  , .resume i { draw "unreachable" with fails := true }
  , .resume i (draw "")
  , .resume i (draw "") ]

/- And one that puts its copy in place and marks the job. -/
def syncingCall (i : Nat) :
    List (Label TransferChoice TransferCall) :=
  [ .start i .processNext
  , .resume i (draw "")
  , .resume i (draw "")
  , .resume i (draw "")
  , .resume i (draw "")
  , .resume i (draw "")
  , .resume i (draw "uuid")
  , .resume i (draw "")
  , .resume i (draw "")
  , .resume i (draw "")
  , .resume i (draw "")
  , .resume i (draw "") ]

def wait (i ms : Nat) :
    List (Label TransferChoice TransferCall) :=
  [ .start i (.elapse ms)
  , .resume i (draw "") ]

/-
  The sync of the older push fails, the newer one is synced,
  and the retry of the older one overwrites it.
-/
theorem retry_overwrites_newer :
    ∃ q,
      (transferSystem smallConfig).replay?
          (Pool.initial (twoPushes .staged))
          (failingCall 1 ++ syncingCall 2 ++ wait 3 1000 ++
            syncingCall 4) = some q ∧
        ¬ Fresh smallConfig q.world := by
  have hOverwritten :
      ∃ q,
        (transferSystem smallConfig).replay?
            (Pool.initial (twoPushes .staged))
            (failingCall 1 ++ syncingCall 2 ++ wait 3 1000 ++
              syncingCall 4) = some q ∧
          (∃ newer,
            q.world.state.jobs.find? "newer" = some newer ∧
              newer.status = .synced ∧
              newer.repo = "r" ∧
              newer.createdAt = 1) ∧
          (∃ older,
            q.world.state.jobs.find? "older" = some older ∧
              older.repo = "r" ∧
              older.createdAt = 0) ∧
          lastPut (pullPath smallConfig "r") q.world.trace =
            some 4 ∧
          Has 4 (claims "older") q.world.trace :=
    ⟨_, rfl, ⟨_, rfl, by decide⟩, ⟨_, rfl, by decide⟩,
      by decide, StrandedJobs.has_of_any (by decide)⟩
  rcases hOverwritten with
    ⟨q, hReplay, ⟨newer, hNewer, hStatus, hRepo, hLate⟩,
      ⟨older, hOlder, hSame, hEarly⟩, hLast, hClaims⟩
  refine ⟨q, hReplay, ?_⟩
  intro hFresh
  rw [← hRepo] at hLast
  have hOrder :=
    hFresh.newest "newer" newer hNewer hStatus 4 hLast
      "older" older hClaims hOlder (hSame.trans hRepo.symm)
  omega

/- A check for runs whose jobs are claimed in order. -/
def claimsInOrder :
    Nat → TransferOp → TransferWorld → Bool
  | _, .jobs (.claim id _), w =>
      w.state.jobs.rows.all fun other =>
        other.id = id ||
          w.trace.all (fun event => !claims other.id event) &&
            w.state.jobs.rows.all fun job =>
              job.id ≠ id || other.createdAt ≤ job.createdAt
  | _, _, _ => true

theorem inOrder_of_check
    (i : Nat)
    (op : TransferOp)
    (w : TransferWorld)
    (hCheck : claimsInOrder i op w = true) :
    inOrder.perform i op w := by
  rintro id now job rfl hFind _ same hSame otherId other
    hOther _ hNe
  rw [hFind, Option.some.injEq] at hSame
  subst hSame
  have hRow :=
    List.all_eq_true.mp hCheck other
      (KeyedTable.mem_of_find? hOther)
  have hId := KeyedTable.key_of_find? hOther
  have hJob := KeyedTable.key_of_find? hFind
  rw [hId] at hRow
  simp only [hNe, decide_false, Bool.false_or,
    Bool.and_eq_true] at hRow
  constructor
  · intro k
    by_contra hHolds
    rw [Bool.not_eq_false] at hHolds
    rcases has_of_pending hHolds with
      ⟨event, hEvent, _, hClaims⟩
    have hNot := List.all_eq_true.mp hRow.1 event hEvent
    rw [hClaims] at hNot
    cases hNot
  · intro _
    have hOrder :=
      List.all_eq_true.mp hRow.2 job
        (KeyedTable.mem_of_find? hFind)
    simpa [hJob] using hOrder

/- Once the older push has been synced, the newer one may
   be: its copy is what a pull then reads. -/
theorem nas_fresh_of_order :
    ∃ q,
      (transferSystem smallConfig).replay?
          (Pool.initial (twoPushes .synced))
          (syncingCall 1) = some q ∧
        q.world.state.files (pullPath smallConfig "r") =
          some [8, 8] ∧
        Fresh smallConfig q.world := by
  have hSynced :
      ∃ q,
        (transferSystem smallConfig).replay?
            (Pool.initial (twoPushes .synced))
            (syncingCall 1) = some q ∧
          q.world.state.files (pullPath smallConfig "r") =
            some [8, 8] :=
    ⟨_, rfl, by decide⟩
  rcases hSynced with ⟨q, hReplay, hFile⟩
  have hRun :
      (transferSystem smallConfig).Run inOrder
        (Pool.initial (twoPushes .synced)) q :=
    System.run_of_checks (fun _ _ _ _ => trivial)
      inOrder_of_check (by decide) hReplay
  refine ⟨q, hReplay, hFile, ?_⟩
  refine nas_fresh smallConfig (twoPushes .synced) q
    (by decide) (fun _ => rfl) ?_ hRun
  intro id job hFind
  have hMember := KeyedTable.mem_of_find? hFind
  simp only [twoPushes, List.mem_cons, List.not_mem_nil,
    or_false] at hMember
  rcases hMember with rfl | rfl
  · exact ⟨by decide, by simp, fun _ => by decide⟩
  · exact ⟨by decide, by simp, fun _ => by decide⟩

end NasFreshness

end Transfer
