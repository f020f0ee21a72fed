import Deltix.Concurrency.Precedence
import Deltix.Transfer.NasPaths

/-
  Integrity of the files on the NAS: whatever a pull reads
  has the checksum of a job of its repository, and a sync
  that fails leaves the file of the last one in place.

  The adapter renames its copy into place before the service
  compares the checksum, so a corrupted copy gets there.
  The property holds of the runs in which every copy has the
  checksum of its job when it is hashed.

  Key definitions include:
    * `Integrity`
    * `copiesVerified`
    * `copiesIntact`
    * `nasContract`

  Key theorems include:
    * `processNext_safe`
    * `nas_integrity`
    * `corrupted_copy_is_visible`
-/

------------------------------------------------------------
-- The Property
------------------------------------------------------------

namespace Transfer

namespace NasIntegrity

open Auth Concurrency Relational Storage NasPaths

variable (config : TransferConfig) (repos : Set String)

/- Each file that a pull reads was pushed: a job of the
   repository records its checksum. -/
def VisibleVerified (s : TransferState) : Prop :=
  ∀ repo ∈ repos, ∀ content,
    s.files (pullPath config repo) = some content →
      ∃ jobId job,
        s.jobs.find? jobId = some job ∧
          job.repo = repo ∧
          job.checksum = config.sha256 content

/- A task has claimed a job and read it. -/
def Claimed
    (i : Nat)
    (job : TransferJob)
    (trace : List TransferEvent) : Prop :=
  (∃ now before after,
    .performed i (.jobs (.claim job.id now)) (.ok true)
      before after ∈ trace) ∧
    ∃ before after,
      .performed i (.jobs (.get job.id)) (.ok (some job))
        before after ∈ trace

/- No file that a pull reads differs in two states. -/
def SameVisible (s t : TransferState) : Prop :=
  ∀ repo ∈ repos,
    t.files (pullPath config repo) =
      s.files (pullPath config repo)

/- A task has left the files that pulls read in place. -/
def Untouched
    (i : Nat)
    (trace : List TransferEvent) : Prop :=
  ∀ op answer before after,
    .performed i op answer before after ∈ trace →
      SameVisible config repos before after

/- What an event puts in place has the checksum of the job
   that its task has claimed. -/
def PutsVerified
    (event : TransferEvent)
    (older : List TransferEvent) : Prop :=
  ∀ i op answer before after,
    event = .performed i op answer before after →
      ∀ repo ∈ repos,
        after.files (pullPath config repo) =
            before.files (pullPath config repo) ∨
          ∃ job content,
            Claimed i job older ∧
              job.repo = repo ∧
              after.files (pullPath config repo) =
                some content ∧
              config.sha256 content = job.checksum

/- A task whose sync fails has put nothing in place. -/
def FailsInPlace
    (event : TransferEvent)
    (older : List TransferEvent) : Prop :=
  ∀ i jobId error nextRetryAt answer before after,
    event =
        .performed i
          (.jobs (.markFailed jobId error nextRetryAt)) answer
          before after →
      Untouched config repos i older

/- Integrity in a reachable world, for some repositories. -/
structure Integrity (w : TransferWorld) : Prop where
  verified : VisibleVerified config repos w.state
  puts :
    ∀ newer event older, w.trace = newer ++ event :: older →
      PutsVerified config repos event older
  fails :
    ∀ newer event older, w.trace = newer ++ event :: older →
      FailsInPlace config repos event older

/- A task has copied to a path. -/
def Copied
    (i : Nat)
    (path : String)
    (trace : List TransferEvent) : Prop :=
  ∃ source answer before after,
    .performed i (.files (.copyFile source path)) answer
      before after ∈ trace

/- A task was refused to mark a job as synced. -/
def Refused
    (i : Nat)
    (trace : List TransferEvent) : Prop :=
  ∃ job refusal before after,
    .performed i (.jobs (.markSynced job)) (.error refusal)
      before after ∈ trace

/-
  No temporary file is copied to twice (its name is a random
  UUID).  When the worker hashes its copy, it has the
  checksum of the job; when it renames the copy, the job is
  for no other name of one of the directories.
-/
def copiesVerified : TransferAllowed where
  start := fun _ _ _ => True
  perform := fun i op w =>
    (∀ source target,
      op = .files (.copyFile source target) →
        ∀ j, ¬ Copied j target w.trace) ∧
    (∀ path, op = .files (.sha256File path) →
      ∀ job, Claimed i job w.trace →
        ∀ content, w.state.files path = some content →
          config.sha256 content = job.checksum) ∧
    (∀ source target,
      op = .files (.rename source target) →
        ∀ job, Claimed i job w.trace →
          ∀ repo ∈ repos,
            pullPath config job.repo =
                pullPath config repo →
              job.repo = repo)

/- And no sync is recorded as failed because marking it
   synced was refused. -/
def copiesIntact : TransferAllowed where
  start := fun _ _ _ => True
  perform := fun i op w =>
    (copiesVerified config repos).perform i op w ∧
      ∀ jobId error nextRetryAt,
        op = .jobs (.markFailed jobId error nextRetryAt) →
          ¬ Refused i w.trace

/- A task whose sync fails has put nothing in place, or its
   job could not be marked as synced. -/
def FailsOrRefused
    (event : TransferEvent)
    (older : List TransferEvent) : Prop :=
  ∀ i jobId error nextRetryAt answer before after,
    event =
        .performed i
          (.jobs (.markFailed jobId error nextRetryAt)) answer
          before after →
      Untouched config repos i older ∨ Refused i older

structure NasInv (w : TransferWorld) : Prop where
  staged : Staged w.state
  verified : VisibleVerified config repos w.state
  puts : Throughout (PutsVerified config repos) w.trace
  fails : Throughout (FailsOrRefused config repos) w.trace
  tmp : ∀ i path, Copied i path w.trace → IsTmp path
  single :
    ∀ i j path, Copied i path w.trace →
      Copied j path w.trace → i = j

/- Jobs stay recorded, and nobody else touches the copy that
   a task has made. -/
structure NasRely (i : Nat) (w v : TransferWorld) :
    Prop where
  own : v.own i = w.own i
  recorded :
    ∀ jobId job, w.state.jobs.find? jobId = some job →
      ∃ later,
        v.state.jobs.find? jobId = some later ∧
          job.SameRecord later
  copy :
    ∀ path, Copied i path w.trace →
      v.state.files path = w.state.files path
  trace : ∀ event ∈ w.trace, event ∈ v.trace

def nasContract : TransferContract where
  inv := NasInv config repos
  rely := NasRely
  rely_refl := fun _ _ =>
    { own := rfl
      recorded := fun _ job hFind =>
        ⟨job, hFind, .refl job⟩
      copy := fun _ _ => rfl
      trace := fun _ hEvent => hEvent }
  rely_trans := fun i w v u hFirst hSecond =>
    { own := by rw [hSecond.own, hFirst.own]
      recorded := by
        intro jobId job hFind
        rcases hFirst.recorded jobId job hFind with
          ⟨next, hNext, hSame⟩
        rcases hSecond.recorded jobId next hNext with
          ⟨later, hLater, hSame'⟩
        exact ⟨later, hLater, hSame.trans hSame'⟩
      copy := by
        intro path hCopied
        have hNext := hFirst.copy path hCopied
        rcases hCopied with
          ⟨source, answer, before, after, hEvent⟩
        rw [← hNext]
        exact hSecond.copy path
          ⟨source, answer, before, after,
            hFirst.trace _ hEvent⟩
      trace := fun event hEvent =>
        hSecond.trace event (hFirst.trace event hEvent) }

/- What a task owes before it touches a file, or records
   that its sync has failed. -/
def Careful
    (i : Nat)
    (op : TransferOp)
    (w : TransferWorld) : Prop :=
  match op with
  | .files (.copyFile _ target) => IsTmp target
  | .files (.rename source target) =>
      Copied i source w.trace ∧
        ∃ job jobId row,
          target = pullPath config job.repo ∧
            Claimed i job w.trace ∧
            w.state.jobs.find? jobId = some row ∧
            job.SameRecord row ∧
            ∀ content, w.state.files source = some content →
              config.sha256 content = job.checksum
  | .files (.unlink path) => Copied i path w.trace
  | .files (.rm path) => ¬ OnNas path
  | .jobs (.markFailed _ _ _) =>
      Untouched config repos i w.trace ∨ Refused i w.trace
  | _ => True

variable {config repos}

theorem careful_of_quiet
    {i : Nat}
    {op : TransferOp}
    (hQuiet : Quiet op)
    (w : TransferWorld) :
    Careful config repos i op w := by
  unfold Quiet at hQuiet
  unfold Careful
  split at hQuiet
  all_goals first
    | exact hQuiet.elim
    | split
  all_goals first
    | trivial
    | simp_all

------------------------------------------------------------
-- Steps Keep The Contract
------------------------------------------------------------

variable {w v : TransferWorld} {i j : Nat} {op : TransferOp}
variable {choice : TransferChoice} {answer : op.Answer}
variable {after : TransferState} {path : String}

/- How a careful operation may change a file on the NAS. -/
theorem written_cases
    (hInv : NasInv config repos w)
    (hCareful : Careful config repos i op w)
    (hExec :
      op.exec config choice w.state = some (answer, after))
    (hNas : OnNas path) :
    after.files path = w.state.files path ∨
      (∃ source, op = .files (.copyFile source path)) ∨
      Copied i path w.trace ∨
      ∃ source, op = .files (.rename source path) := by
  by_cases hWrites :
      ∃ statement, op = .files statement ∧
        path ∈ statement.writes
  · rcases hWrites with ⟨statement, rfl, hPath⟩
    cases statement with
    | mkdir other => exact absurd hPath List.not_mem_nil
    | stat other => exact absurd hPath List.not_mem_nil
    | readFile other => exact absurd hPath List.not_mem_nil
    | sha256File other => exact absurd hPath List.not_mem_nil
    | rm other =>
        rw [FileStatement.writes, List.mem_singleton] at hPath
        subst hPath
        exact absurd hNas hCareful
    | copyFile source target =>
        rw [FileStatement.writes, List.mem_singleton] at hPath
        subst hPath
        exact Or.inr (Or.inl ⟨source, rfl⟩)
    | unlink other =>
        rw [FileStatement.writes, List.mem_singleton] at hPath
        subst hPath
        exact Or.inr (Or.inr (Or.inl hCareful))
    | rename source target =>
        rcases List.mem_cons.mp hPath with hSource | hTarget
        · subst hSource
          exact Or.inr (Or.inr (Or.inl hCareful.1))
        · rw [List.mem_singleton] at hTarget
          subst hTarget
          exact Or.inr (Or.inr (Or.inr ⟨source, rfl⟩))
  · refine Or.inl (files_exec hExec ?_ ?_)
    · intro stream hStaging
      exact staged_exec hInv.staged hExec stream path hStaging
        hNas
    · intro statement hOp hPath
      exact hWrites ⟨statement, hOp, hPath⟩

/- What a careful operation puts where a pull reads. -/
theorem visible_perform
    (hInv : NasInv config repos w)
    (hOk : (copiesVerified config repos).perform i op w)
    (hCareful : Careful config repos i op w)
    (hExec :
      op.exec config choice w.state = some (answer, after))
    {repo : String}
    (hRepo : repo ∈ repos) :
    after.files (pullPath config repo) =
        w.state.files (pullPath config repo) ∨
      ∃ job jobId row content,
        Claimed i job w.trace ∧
          job.repo = repo ∧
          after.files (pullPath config repo) =
            some content ∧
          config.sha256 content = job.checksum ∧
          after.jobs.find? jobId = some row ∧
          job.SameRecord row := by
  rcases written_cases hInv hCareful hExec
      (onNas_pullPath config repo) with
    hSame | ⟨source, rfl⟩ | hCopied | ⟨source, rfl⟩
  · exact Or.inl hSame
  · exact absurd hCareful (not_tmp_pullPath config repo)
  · exact absurd (hInv.tmp _ _ hCopied)
      (not_tmp_pullPath config repo)
  · cases answer with
    | error reason =>
        rw [exec_rename_error hExec]
        exact Or.inl rfl
    | ok _ =>
        rcases hCareful with
          ⟨_, job, jobId, row, hTarget, hClaimed, hRow, hSame,
            hChecksum⟩
        rcases exec_rename_ok hExec with
          ⟨content, hSource, hPlaced⟩
        have hOwn :=
          hOk.2.2 source _ rfl job hClaimed repo hRepo
            hTarget.symm
        have hJobs : after.jobs = w.state.jobs := by
          rcases (TransferOp.exec_frame hExec).jobs with
            hKept | ⟨_, hOp, _⟩
          · exact hKept
          · cases hOp
        refine Or.inr
          ⟨job, jobId, row, content, hClaimed, hOwn, hPlaced,
            hChecksum content hSource, ?_, hSame⟩
        rw [hJobs]
        exact hRow

theorem nasInv_perform
    (hInv : NasInv config repos w)
    (hOk : (copiesVerified config repos).perform i op w)
    (hCareful : Careful config repos i op w)
    (hExec :
      op.exec config choice w.state = some (answer, after)) :
    NasInv config repos (w.perform i op answer after) where
  staged := staged_exec hInv.staged hExec
  verified := by
    intro repo hRepo content hContent
    rw [World.perform_state] at hContent ⊢
    rcases visible_perform hInv hOk hCareful hExec hRepo with
      hSame | ⟨job, jobId, row, other, _, hOwn, hPlaced,
        hChecksum, hRow, hRecord⟩
    · rw [hSame] at hContent
      rcases hInv.verified repo hRepo content hContent with
        ⟨jobId, job, hFind, hJob, hChecksum⟩
      rcases recorded_exec hExec hFind with
        ⟨later, hLater, hRecord⟩
      exact ⟨jobId, later, hLater,
        hRecord.repo.trans hJob,
        hRecord.checksum.trans hChecksum⟩
    · rw [hPlaced, Option.some.injEq] at hContent
      subst hContent
      exact ⟨jobId, row, hRow, hRecord.repo.trans hOwn,
        hRecord.checksum.trans hChecksum.symm⟩
  puts := by
    refine ⟨?_, hInv.puts⟩
    intro k other reply before later hEvent repo hRepo
    cases hEvent
    rcases visible_perform hInv hOk hCareful hExec hRepo with
      hSame | ⟨job, _, _, content, hClaimed, hOwn, hPlaced,
        hChecksum, _, _⟩
    · exact Or.inl hSame
    · exact Or.inr
        ⟨job, content, hClaimed, hOwn, hPlaced, hChecksum⟩
  fails := by
    refine ⟨?_, hInv.fails⟩
    intro k jobId error nextRetryAt reply before later hEvent
    cases hEvent
    exact hCareful
  tmp := by
    rintro k path ⟨source, reply, before, later, hEvent⟩
    rcases List.mem_cons.mp hEvent with hNew | hOld
    · cases hNew
      exact hCareful
    · exact hInv.tmp k path
        ⟨source, reply, before, later, hOld⟩
  single := by
    rintro k l path ⟨source, reply, before, later, hEvent⟩
      ⟨source', reply', before', later', hEvent'⟩
    rcases List.mem_cons.mp hEvent with hNew | hOld
    · cases hNew
      rcases List.mem_cons.mp hEvent' with hNew' | hOld'
      · cases hNew'
        rfl
      · exact absurd ⟨source', reply', before', later', hOld'⟩
          (hOk.1 source path rfl l)
    · rcases List.mem_cons.mp hEvent' with hNew' | hOld'
      · cases hNew'
        exact absurd ⟨source, reply, before, later, hOld⟩
          (hOk.1 source' path rfl k)
      · exact hInv.single k l path
          ⟨source, reply, before, later, hOld⟩
          ⟨source', reply', before', later', hOld'⟩

/- A careful operation leaves the copies of others alone. -/
theorem copy_perform
    (hInv : NasInv config repos w)
    (hOk : (copiesVerified config repos).perform i op w)
    (hCareful : Careful config repos i op w)
    (hExec :
      op.exec config choice w.state = some (answer, after))
    (hOther : j ≠ i)
    (hCopied : Copied j path w.trace) :
    after.files path = w.state.files path := by
  have hTmp := hInv.tmp j path hCopied
  rcases written_cases hInv hCareful hExec (Or.inr hTmp) with
    hSame | ⟨source, hOp⟩ | hOwn | ⟨source, rfl⟩
  · exact hSame
  · exact absurd hCopied (hOk.1 source path hOp j)
  · exact absurd (hInv.single j i path hCopied hOwn) hOther
  · rcases hCareful with ⟨_, job, _, _, hTarget, _⟩
    exact absurd hTarget.symm
      (ne_pullPath_of_tmp config hTmp
      job.repo)

theorem keeps_perform
    (hInv : NasInv config repos w)
    (hOk : (copiesVerified config repos).perform i op w)
    (hCareful : Careful config repos i op w)
    (hExec :
      op.exec config choice w.state = some (answer, after)) :
    (nasContract config repos).Keeps i w
      (w.perform i op answer after) := by
  refine ⟨nasInv_perform hInv hOk hCareful hExec, ?_⟩
  intro j hOther
  exact
    { own := World.own_perform_of_ne w op answer after hOther
      recorded := fun _ _ hFind => recorded_exec hExec hFind
      copy := fun _ hCopied =>
        copy_perform hInv hOk hCareful hExec hOther hCopied
      trace := fun _ hEvent =>
        List.mem_cons_of_mem _ hEvent }

/- An event that is no operation keeps the contract. -/
theorem keeps_event
    (event : TransferEvent)
    (hInv : NasInv config repos w)
    (hState : v.state = w.state)
    (hTrace : v.trace = event :: w.trace)
    (hTask : event.task = i)
    (hEvent :
      ∀ k op answer before later,
        event ≠ .performed k op answer before later) :
    (nasContract config repos).Keeps i w v := by
  have hCopied :
      ∀ k path, Copied k path v.trace →
        Copied k path w.trace := by
    rintro k path ⟨source, reply, before, later, hMember⟩
    rw [hTrace] at hMember
    rcases List.mem_cons.mp hMember with hNew | hOld
    · exact absurd hNew.symm (hEvent _ _ _ _ _)
    · exact ⟨source, reply, before, later, hOld⟩
  constructor
  · exact
      { staged := by
          rw [hState]
          exact hInv.staged
        verified := by
          rw [hState]
          exact hInv.verified
        puts := by
          rw [hTrace]
          refine ⟨?_, hInv.puts⟩
          intro k op answer before later hEq
          exact absurd hEq (hEvent _ _ _ _ _)
        fails := by
          rw [hTrace]
          refine ⟨?_, hInv.fails⟩
          intro k jobId error nextRetryAt answer before later
            hEq
          exact absurd hEq (hEvent _ _ _ _ _)
        tmp := fun k path hMade =>
          hInv.tmp k path (hCopied k path hMade)
        single := fun k l path hMade hMade' =>
          hInv.single k l path (hCopied k path hMade)
            (hCopied l path hMade') }
  · intro k hk
    have hGrows : World.Grows k w v :=
      World.Grows.cons event
        (by rw [hTask]; exact fun h => hk h.symm) hTrace
    exact
      { own := hGrows.own_eq
        recorded := fun _ job hFind => by
          rw [hState]
          exact ⟨job, hFind, .refl job⟩
        copy := fun _ _ => by rw [hState]
        trace := fun _ hMember => hGrows.mem hMember }

theorem ends_of_inv
    (outcome : Except TransferError TransferReturn)
    (hInv : NasInv config repos w) :
    (nasContract config repos).Ends i outcome w :=
  keeps_event (.finished i outcome) hInv rfl rfl rfl
    (by simp)

------------------------------------------------------------
-- Assertions Of The Worker
------------------------------------------------------------

variable {job : TransferJob}
variable {trace later : List TransferEvent}

/- Only a rename changes what a pull reads. -/
theorem sameVisible_perform
    (hInv : NasInv config repos w)
    (hCareful : Careful config repos i op w)
    (hExec :
      op.exec config choice w.state = some (answer, after))
    (hRename :
      ∀ source target, op ≠ .files (.rename source target)) :
    SameVisible config repos w.state after := by
  intro repo hRepo
  rcases written_cases hInv hCareful hExec
      (onNas_pullPath config repo) with
    hSame | ⟨source, rfl⟩ | hCopied | ⟨source, rfl⟩
  · exact hSame
  · exact absurd hCareful (not_tmp_pullPath config repo)
  · exact absurd (hInv.tmp _ _ hCopied)
      (not_tmp_pullPath config repo)
  · exact absurd rfl (hRename _ _)

theorem Untouched.perform
    (hUntouched : Untouched config repos i w.trace)
    (hSame : SameVisible config repos w.state after) :
    Untouched config repos i
      (w.perform i op answer after).trace := by
  intro other reply before later hEvent
  rcases List.mem_cons.mp hEvent with hNew | hOld
  · cases hNew
    exact hSame
  · exact hUntouched other reply before later hOld

theorem Claimed.mono
    (hClaimed : Claimed i job trace)
    (hTrace : ∀ event ∈ trace, event ∈ later) :
    Claimed i job later := by
  rcases hClaimed with
    ⟨⟨now, before, after, hClaim⟩, first, last, hGet⟩
  exact ⟨⟨now, before, after, hTrace _ hClaim⟩, first, last,
    hTrace _ hGet⟩

/- A task that has put nothing in place yet. -/
def Clean
    (config : TransferConfig)
    (repos : Set String)
    (i : Nat)
    (w : TransferWorld) : Prop :=
  NasInv config repos w ∧ Untouched config repos i w.trace

theorem stable_clean :
    (nasContract config repos).Stable i
      (Clean config repos i) := by
  intro w v hClean hInterferes hInv
  refine ⟨hInv, ?_⟩
  intro op answer before after hEvent
  exact hClean.2 op answer before after
    (hInterferes.1.mem_own rfl hEvent)

/- The worker has claimed a job, which is still recorded. -/
structure Working
    (config : TransferConfig)
    (repos : Set String)
    (job : TransferJob)
    (i : Nat)
    (w : TransferWorld) : Prop where
  clean : Clean config repos i w
  claimed : Claimed i job w.trace
  recorded :
    ∃ jobId row,
      w.state.jobs.find? jobId = some row ∧
        job.SameRecord row

theorem stable_working :
    (nasContract config repos).Stable i
      (Working config repos job i) := by
  intro w v hWorking hInterferes hInv
  refine
    { clean :=
        stable_clean w v hWorking.clean hInterferes hInv
      claimed :=
        hWorking.claimed.mono fun _ => hInterferes.1.mem
      recorded := ?_ }
  rcases hWorking.recorded with ⟨jobId, row, hRow, hSame⟩
  rcases hInterferes.2.recorded jobId row hRow with
    ⟨later, hLater, hSame'⟩
  exact ⟨jobId, later, hLater, hSame.trans hSame'⟩

theorem Working.perform
    (hWorking : Working config repos job i w)
    (hInv :
      NasInv config repos (w.perform i op answer after))
    (hSame : SameVisible config repos w.state after)
    (hExec :
      op.exec config choice w.state = some (answer, after)) :
    Working config repos job i
      (w.perform i op answer after) := by
  refine
    { clean := ⟨hInv, hWorking.clean.2.perform hSame⟩
      claimed :=
        hWorking.claimed.mono fun _ =>
          List.mem_cons_of_mem _
      recorded := ?_ }
  rcases hWorking.recorded with ⟨jobId, row, hRow, hSame⟩
  rcases recorded_exec hExec hRow with ⟨later, hLater, hSame'⟩
  exact ⟨jobId, later, hLater, hSame.trans hSame'⟩

/- It has a copy of the staged file. -/
def Copying
    (config : TransferConfig)
    (repos : Set String)
    (job : TransferJob)
    (tmp : String)
    (i : Nat)
    (w : TransferWorld) : Prop :=
  Working config repos job i w ∧ Copied i tmp w.trace

theorem Refused.mono
    (hRefused : Refused i trace)
    (hTrace : ∀ event ∈ trace, event ∈ later) :
    Refused i later := by
  rcases hRefused with
    ⟨job, refusal, before, after, hEvent⟩
  exact ⟨job, refusal, before, after, hTrace _ hEvent⟩

theorem Copied.mono
    (hCopied : Copied i path trace)
    (hTrace : ∀ event ∈ trace, event ∈ later) :
    Copied i path later := by
  rcases hCopied with ⟨source, answer, before, after, hEvent⟩
  exact ⟨source, answer, before, after, hTrace _ hEvent⟩

theorem stable_copying :
    (nasContract config repos).Stable i
      (Copying config repos job path i) := by
  intro w v hCopying hInterferes hInv
  exact ⟨stable_working w v hCopying.1 hInterferes hInv,
    hCopying.2.mono fun _ => hInterferes.1.mem⟩

/- And the copy has the checksum of the job. -/
def Hashed
    (config : TransferConfig)
    (repos : Set String)
    (job : TransferJob)
    (tmp : String)
    (i : Nat)
    (w : TransferWorld) : Prop :=
  Copying config repos job tmp i w ∧
    ∀ content, w.state.files tmp = some content →
      config.sha256 content = job.checksum

theorem stable_hashed :
    (nasContract config repos).Stable i
      (Hashed config repos job path i) := by
  intro w v hHashed hInterferes hInv
  refine
    ⟨stable_copying w v hHashed.1 hInterferes hInv, ?_⟩
  rw [hInterferes.2.copy path hHashed.1.2]
  exact hHashed.2

/- A sync that has failed: it put nothing in place, or was
   refused to mark its job as synced. -/
def Failing
    (config : TransferConfig)
    (repos : Set String)
    (i : Nat)
    (w : TransferWorld) : Prop :=
  NasInv config repos w ∧
    (Untouched config repos i w.trace ∨ Refused i w.trace)

theorem stable_failing :
    (nasContract config repos).Stable i
      (Failing config repos i) := by
  intro w v hFailing hInterferes hInv
  refine ⟨hInv, ?_⟩
  rcases hFailing.2 with hUntouched | hRefused
  · exact Or.inl
      (stable_clean w v ⟨hFailing.1, hUntouched⟩ hInterferes
        hInv).2
  · exact Or.inr
      (hRefused.mono fun _ => hInterferes.1.mem)

------------------------------------------------------------
-- Copying And Renaming
------------------------------------------------------------

variable {tmp : String}
variable {call : TransferCall} {s : TransferState}
variable {trace : List TransferEvent}

/- A quiet operation keeps the worker working. -/
theorem moves_working
    (op : TransferOp)
    (hQuiet : Quiet op) :
    Moves config (nasContract config repos)
      (copiesVerified config repos) i op
      (Working config repos job i)
      fun _ => Working config repos job i := by
  intro v hWorking hInv hOk choice answer after hExec
  have hCareful :
      Careful config repos i op v :=
    careful_of_quiet hQuiet v
  have hKeeps := keeps_perform hInv hOk hCareful hExec
  refine ⟨hKeeps, hWorking.perform hKeeps.1 ?_ hExec⟩
  apply sameVisible_perform hInv hCareful hExec
  rintro source target rfl
  exact hQuiet

theorem moves_copying
    (op : TransferOp)
    (hQuiet : Quiet op) :
    Moves config (nasContract config repos)
      (copiesVerified config repos) i op
      (Copying config repos job tmp i)
      fun _ => Copying config repos job tmp i := by
  intro v hCopying hInv hOk choice answer after hExec
  have hMoved :=
    moves_working op hQuiet v hCopying.1 hInv hOk choice
      answer after hExec
  exact ⟨hMoved.1, hMoved.2,
    hCopying.2.mono fun _ => List.mem_cons_of_mem _⟩

/- However the copy ends, the task has made it. -/
theorem moves_copyFile
    (stagingPath : String)
    (hTmp : IsTmp tmp) :
    Moves config (nasContract config repos)
      (copiesVerified config repos) i
      (.files (.copyFile stagingPath tmp))
      (Working config repos job i)
      fun _ => Copying config repos job tmp i := by
  intro v hWorking hInv hOk choice answer after hExec
  have hCareful :
      Careful config repos i
        (.files (.copyFile stagingPath tmp)) v := hTmp
  have hKeeps := keeps_perform hInv hOk hCareful hExec
  refine ⟨hKeeps, hWorking.perform hKeeps.1 ?_ hExec, ?_⟩
  · exact sameVisible_perform hInv hCareful hExec (by simp)
  · exact ⟨stagingPath, answer, _, _, List.mem_cons_self⟩

/- The checksum of an intact copy is that of the job. -/
theorem moves_sha256File :
    Moves config (nasContract config repos)
      (copiesVerified config repos) i
      (.files (.sha256File tmp))
      (Copying config repos job tmp i)
      (Answers
        (fun checksum v =>
          Hashed config repos job tmp i v ∧
            checksum = job.checksum)
        (Copying config repos job tmp i)) := by
  intro v hCopying hInv hOk choice answer after hExec
  have hMoved :=
    moves_copying (.files (.sha256File tmp)) trivial v hCopying
      hInv hOk choice answer after hExec
  refine ⟨hMoved.1, ?_⟩
  cases answer with
  | error reason => exact hMoved.2
  | ok checksum =>
      rcases exec_sha256_ok hExec with
        ⟨content, hBefore, hAfter, hChecksum⟩
      have hIntact :=
        hOk.2.1 tmp rfl job hCopying.1.claimed content hBefore
      refine ⟨⟨hMoved.2, ?_⟩, hChecksum.trans hIntact⟩
      intro other hOther
      rw [World.perform_state, hAfter,
        Option.some.injEq] at hOther
      rw [← hOther]
      exact hIntact

/- Making the directory leaves the copy as it is. -/
theorem moves_mkdir
    (path : String) :
    Moves config (nasContract config repos)
      (copiesVerified config repos) i (.files (.mkdir path))
      (Hashed config repos job tmp i)
      fun _ => Hashed config repos job tmp i := by
  intro v hHashed hInv hOk choice answer after hExec
  have hMoved :=
    moves_copying (.files (.mkdir path)) trivial v hHashed.1
      hInv hOk choice answer after hExec
  refine ⟨hMoved.1, hMoved.2, ?_⟩
  have hSame : after.files tmp = v.state.files tmp := by
    have hRun :
        (TransferOp.files (.mkdir path)).exec config choice
          v.state = some (answer, after) := hExec
    apply files_exec hRun
    · intro stream hStaging
      exact hMoved.1.1.staged stream tmp hStaging
        (Or.inr (hInv.tmp i tmp hHashed.1.2))
    · intro statement hOp
      cases hOp
      exact List.not_mem_nil
  rw [World.perform_state, hSame]
  exact hHashed.2

/- An intact copy may be renamed into place. -/
theorem moves_rename :
    Moves config (nasContract config repos)
      (copiesVerified config repos) i
      (.files
        (.rename tmp
          (finalPath (join [config.nasRootPath, job.repo]))))
      (Hashed config repos job tmp i)
      (Answers (fun _ => NasInv config repos)
        (Copying config repos job tmp i)) := by
  intro v hHashed hInv hOk choice answer after hExec
  rcases hHashed.1.1.recorded with ⟨jobId, row, hRow, hSame⟩
  have hCareful :
      Careful config repos i
        (.files
          (.rename tmp
            (finalPath
              (join [config.nasRootPath, job.repo])))) v :=
    ⟨hHashed.1.2, job, jobId, row, finalPath_eq config _,
      hHashed.1.1.claimed, hRow, hSame, hHashed.2⟩
  have hKeeps := keeps_perform hInv hOk hCareful hExec
  refine ⟨hKeeps, ?_⟩
  cases answer with
  | ok _ => exact hKeeps.1
  | error reason =>
      refine ⟨hHashed.1.1.perform hKeeps.1 ?_ hExec, ?_⟩
      · intro repo _
        rw [exec_rename_error hExec]
      · exact hHashed.1.2.mono fun _ =>
          List.mem_cons_of_mem _

theorem copyThenRename_safe
    (stagingPath : String)
    (hTmp : IsTmp tmp)
    (hWorking : Working config repos job i w) :
    SafeProgram config (nasContract config repos)
      (copiesVerified config repos) i
      (copyThenRename stagingPath tmp
        (finalPath (join [config.nasRootPath, job.repo])))
      (fun checksum v =>
        NasInv config repos v ∧ checksum = job.checksum)
      (Copying config repos job tmp i) w := by
  have hCopied :
      Moves config (nasContract config repos)
        (copiesVerified config repos) i
        (.files (.copyFile stagingPath tmp))
        (Working config repos job i)
        (Answers (fun _ => Copying config repos job tmp i)
          (Copying config repos job tmp i)) := by
    intro v hWorking hInv hOk choice answer after hExec
    have hMoved :=
      moves_copyFile stagingPath hTmp v hWorking hInv hOk
        choice answer after hExec
    refine ⟨hMoved.1, ?_⟩
    cases answer <;> exact hMoved.2
  refine Contract.safe_bind ?_
  refine Contract.safe_mono ?_ (fun _ _ h => h)
    (files_safe hCopied stable_working hWorking)
  intro _ v hCopying
  refine Contract.safe_bind ?_
  refine Contract.safe_mono ?_ (fun _ _ h => h)
    (files_safe moves_sha256File stable_copying hCopying)
  rintro checksum v ⟨hHashed, hChecksum⟩
  have hMade :
      Moves config (nasContract config repos)
        (copiesVerified config repos) i
        (.files
          (.mkdir
            (dirname
              (finalPath
                (join [config.nasRootPath, job.repo])))))
        (Hashed config repos job tmp i)
        (Answers (fun _ => Hashed config repos job tmp i)
          (Copying config repos job tmp i)) := by
    intro v hHashed hInv hOk choice answer after hExec
    have hMoved :=
      moves_mkdir _ v hHashed hInv hOk choice answer after
        hExec
    refine ⟨hMoved.1, ?_⟩
    cases answer with
    | ok _ => exact hMoved.2
    | error reason => exact hMoved.2.1
  refine Contract.safe_bind ?_
  refine Contract.safe_mono ?_ (fun _ _ h => h)
    (files_safe hMade stable_hashed hHashed)
  intro _ v hHashed
  refine Contract.safe_bind ?_
  refine Contract.safe_mono ?_ (fun _ _ h => h)
    (files_safe moves_rename stable_hashed hHashed)
  intro _ v hInv
  exact ⟨hInv, hChecksum⟩

/- The copy of a failed sync is removed. -/
theorem cleanUp_safe
    (error : TransferError)
    {post : String → TransferWorld → Prop}
    (hCopying : Copying config repos job tmp i w) :
    SafeProgram config (nasContract config repos)
      (copiesVerified config repos) i (cleanUp tmp error) post
      (Working config repos job i) w := by
  have hUnlink :
      Moves config (nasContract config repos)
        (copiesVerified config repos) i (.files (.unlink tmp))
        (Copying config repos job tmp i)
        (Answers (fun _ => Working config repos job i)
          (Working config repos job i)) := by
    intro v hCopying hInv hOk choice answer after hExec
    have hCareful :
        Careful config repos i (.files (.unlink tmp)) v :=
      hCopying.2
    have hKeeps := keeps_perform hInv hOk hCareful hExec
    have hSame :=
      sameVisible_perform hInv hCareful hExec (by simp)
    refine ⟨hKeeps, ?_⟩
    cases answer <;>
      exact hCopying.1.perform hKeeps.1 hSame hExec
  refine Contract.safe_bind (Contract.safe_catchError ?_)
  refine Contract.safe_mono ?_ ?_
    (files_safe hUnlink stable_copying hCopying)
  · intro _ v hWorking
    exact hWorking
  · intro _ v hWorking
    exact hWorking

/- What `copyToNas` returns is the checksum of the job. -/
theorem copyToNas_safe
    (hWorking : Working config repos job i w) :
    SafeProgram config (nasContract config repos)
      (copiesVerified config repos) i
      (copyToNas config job.stagingPath job.repo)
      (fun checksum v =>
        NasInv config repos v ∧ checksum = job.checksum)
      (Working config repos job i) w := by
  refine Contract.safe_bind ?_
  refine Contract.safe_mono ?_ (fun _ _ h => h)
    (safe_of_only (only_files trivial) moves_working
      stable_working hWorking)
  intro _ v hWorking
  have hDraw :
      Moves config (nasContract config repos)
        (copiesVerified config repos) i .randomText
        (Working config repos job i)
        fun text v =>
          Working config repos job i v ∧
            isRandomText text = true := by
    apply (moves_working .randomText trivial).with_answer
    intro choice s answer t hExec
    exact randomText_of_exec hExec
  refine Contract.safe_bind ?_
  refine Contract.safe_mono ?_ (fun _ _ h => h)
    (hDraw.safe stable_working hWorking)
  rintro uuid v ⟨hWorking, hUuid⟩
  refine Contract.safe_catchError ?_
  refine Contract.safe_mono (fun _ _ h => h) ?_
    (copyThenRename_safe job.stagingPath
      (isTmp_tmpPath _ hUuid) hWorking)
  intro error v hCopying
  exact cleanUp_safe error hCopying

------------------------------------------------------------
-- A Run Of The Worker
------------------------------------------------------------

theorem syncJob_safe
    (hWorking : Working config repos job i w) :
    SafeProgram config (nasContract config repos)
      (copiesVerified config repos) i (syncJob config job)
      (fun _ => NasInv config repos)
      (Failing config repos i) w := by
  have hMarks :
      Moves config (nasContract config repos)
        (copiesVerified config repos) i
        (.jobs (.markSynced job.id)) (NasInv config repos)
        (Answers (fun _ => NasInv config repos)
          (Failing config repos i)) := by
    intro v _ hInv hOk choice answer after hExec
    have hCareful :
        Careful config repos i (.jobs (.markSynced job.id))
          v := trivial
    have hKeeps := keeps_perform hInv hOk hCareful hExec
    refine ⟨hKeeps, ?_⟩
    cases answer with
    | ok _ => exact hKeeps.1
    | error refusal =>
        exact ⟨hKeeps.1, Or.inr
          ⟨job.id, refusal, _, _, List.mem_cons_self⟩⟩
  refine Contract.safe_bind ?_
  refine Contract.safe_mono ?_ ?_ (copyToNas_safe hWorking)
  · rintro checksum v ⟨hInv, hChecksum⟩
    refine Contract.safe_bind (Contract.safe_ensure ?_ ?_)
    · intro _
      refine Contract.safe_bind ?_
      exact Contract.safe_mono (fun _ _ h => h)
        (fun _ _ h => h)
        (jobs_safe hMarks (fun _ _ _ _ hInv => hInv) hInv)
    · intro hMismatch
      rw [decide_eq_false_iff_not] at hMismatch
      exact absurd hChecksum hMismatch
  · intro error v hWorking
    exact ⟨hWorking.clean.1, Or.inl hWorking.clean.2⟩

/- A sync is recorded as failed only if it put nothing in
   place, or was refused. -/
theorem recordFailure_safe
    (error : TransferError)
    (hFailing : Failing config repos i w) :
    SafeProgram config (nasContract config repos)
      (copiesVerified config repos) i
      (recordFailure config job error)
      (fun _ => NasInv config repos)
      (NasInv config repos) w := by
  have hNow :
      Moves config (nasContract config repos)
        (copiesVerified config repos) i .now
        (Failing config repos i)
        fun _ => Failing config repos i := by
    intro v hFailing hInv hOk choice answer after hExec
    have hCareful : Careful config repos i .now v := trivial
    have hKeeps := keeps_perform hInv hOk hCareful hExec
    refine ⟨hKeeps, hKeeps.1, ?_⟩
    rcases hFailing.2 with hUntouched | hRefused
    · have hSame :=
        sameVisible_perform hInv hCareful hExec (by simp)
      exact Or.inl (hUntouched.perform hSame)
    · exact Or.inr
        (hRefused.mono fun _ => List.mem_cons_of_mem _)
  refine Contract.safe_bind ?_
  refine Contract.safe_mono ?_ (fun _ _ h => h)
    (hNow.safe stable_failing hFailing)
  intro current v hFailing
  have hMarks :
      ∀ nextRetryAt,
        Moves config (nasContract config repos)
          (copiesVerified config repos) i
          (.jobs (.markFailed job.id error.message nextRetryAt))
          (Failing config repos i)
          (Answers (fun _ => NasInv config repos)
            (NasInv config repos)) := by
    intro nextRetryAt v hFailing hInv hOk choice answer after
      hExec
    have hCareful :
        Careful config repos i
          (.jobs
            (.markFailed job.id error.message nextRetryAt))
          v := hFailing.2
    have hKeeps := keeps_perform hInv hOk hCareful hExec
    refine ⟨hKeeps, ?_⟩
    cases answer <;> exact hKeeps.1
  refine Contract.safe_bind ?_
  exact Contract.safe_mono (fun _ _ h => h) (fun _ _ h => h)
    (jobs_safe (hMarks _) stable_failing hFailing)

theorem moves_clean
    (op : TransferOp)
    (hQuiet : Quiet op) :
    Moves config (nasContract config repos)
      (copiesVerified config repos) i op
      (Clean config repos i)
      fun _ => Clean config repos i := by
  intro v hClean hInv hOk choice answer after hExec
  have hCareful :
      Careful config repos i op v :=
    careful_of_quiet hQuiet v
  have hKeeps := keeps_perform hInv hOk hCareful hExec
  refine ⟨hKeeps, hKeeps.1, hClean.2.perform ?_⟩
  apply sameVisible_perform hInv hCareful hExec
  rintro source target rfl
  exact hQuiet

/- Between a claim and the reading of the job. -/
def ClaimedId
    (config : TransferConfig)
    (repos : Set String)
    (jobId : String)
    (i : Nat)
    (w : TransferWorld) : Prop :=
  Clean config repos i w ∧
    ∃ now before after,
      .performed i (.jobs (.claim jobId now)) (.ok true)
        before after ∈ w.trace

theorem stable_claimedId
    {jobId : String} :
    (nasContract config repos).Stable i
      (ClaimedId config repos jobId i) := by
  intro w v hClaimed hInterferes hInv
  rcases hClaimed.2 with ⟨now, before, after, hEvent⟩
  exact ⟨stable_clean w v hClaimed.1 hInterferes hInv,
    now, before, after, hInterferes.1.mem hEvent⟩

/- What a worker has found to do. -/
def Found
    (config : TransferConfig)
    (repos : Set String)
    (i : Nat)
    (found : Option TransferJob)
    (w : TransferWorld) : Prop :=
  match found with
  | some job => Working config repos job i w
  | none => Clean config repos i w

theorem moves_claim
    (jobId : String)
    (now : Nat) :
    Moves config (nasContract config repos)
      (copiesVerified config repos) i (.jobs (.claim jobId now))
      (Clean config repos i)
      (Answers
        (fun claimed v =>
          if claimed then ClaimedId config repos jobId i v
          else Clean config repos i v)
        (Clean config repos i)) := by
  intro v hClean hInv hOk choice answer after hExec
  have hMoved :=
    moves_clean (.jobs (.claim jobId now)) trivial v hClean
      hInv hOk choice answer after hExec
  refine ⟨hMoved.1, ?_⟩
  cases answer with
  | error refusal => exact hMoved.2
  | ok claimed =>
      cases claimed with
      | false => exact hMoved.2
      | true =>
          exact ⟨hMoved.2, now, _, _, List.mem_cons_self⟩

theorem moves_get
    (jobId : String) :
    Moves config (nasContract config repos)
      (copiesVerified config repos) i (.jobs (.get jobId))
      (ClaimedId config repos jobId i)
      (Answers (Found config repos i)
        (Clean config repos i)) := by
  intro v hClaimed hInv hOk choice answer after hExec
  have hMoved :=
    moves_clean (.jobs (.get jobId)) trivial v hClaimed.1 hInv
      hOk choice answer after hExec
  refine ⟨hMoved.1, ?_⟩
  cases answer with
  | error refusal => exact hMoved.2
  | ok found =>
      cases found with
      | none => exact hMoved.2
      | some job =>
          have hRun := exec_jobs_ok hExec
          simp only [JobStatement.run, Prod.mk.injEq,
            Except.ok.injEq] at hRun
          have hId : job.id = jobId :=
            KeyedTable.key_of_find? hRun.1
          subst hId
          rcases hClaimed.2 with
            ⟨now, before, later, hEvent⟩
          refine
            { clean := hMoved.2
              claimed :=
                ⟨⟨now, before, later,
                    List.mem_cons_of_mem _ hEvent⟩,
                  _, _, List.mem_cons_self⟩
              recorded := ⟨job.id, job, ?_, .refl job⟩ }
          rw [World.perform_state, ← hRun.2]
          exact hRun.1

theorem claimFirst_safe
    (now : Nat)
    (candidates : List String)
    (hClean : Clean config repos i w) :
    SafeProgram config (nasContract config repos)
      (copiesVerified config repos) i (claimFirst now candidates)
      (fun claimed => Found config repos i claimed.join)
      (Clean config repos i) w := by
  induction candidates generalizing w with
  | nil => exact hClean
  | cons jobId rest ih =>
      refine Contract.safe_bind ?_
      refine Contract.safe_mono ?_ (fun _ _ h => h)
        (jobs_safe (moves_claim jobId now) stable_clean hClean)
      intro claimed v hClaimed
      cases claimed with
      | false => exact ih hClaimed
      | true =>
          refine Contract.safe_bind ?_
          exact Contract.safe_mono (fun _ _ h => h)
            (fun _ _ h => h)
            (jobs_safe (moves_get jobId) stable_claimedId
              hClaimed)

theorem claimNextEligible_safe
    (now attempts : Nat)
    (hClean : Clean config repos i w) :
    SafeProgram config (nasContract config repos)
      (copiesVerified config repos) i
      (claimNextEligible now attempts)
      (Found config repos i) (Clean config repos i) w := by
  induction attempts generalizing w with
  | zero => exact hClean
  | succ attempts ih =>
      refine Contract.safe_bind ?_
      refine Contract.safe_mono ?_ (fun _ _ h => h)
        (safe_of_only (only_jobs trivial) moves_clean
          stable_clean hClean)
      intro candidates v hClean
      split
      · exact hClean
      · refine Contract.safe_bind ?_
        refine Contract.safe_mono ?_ (fun _ _ h => h)
          (claimFirst_safe now candidates hClean)
        intro claimed v hFound
        cases claimed with
        | none => exact ih hFound
        | some job => exact hFound

/- A run of the worker keeps the contract. -/
theorem processNext_safe
    (hClean : Clean config repos i w) :
    SafeProgram config (nasContract config repos)
      (copiesVerified config repos) i (processNext config)
      (fun _ => NasInv config repos)
      (NasInv config repos) w := by
  refine Contract.safe_bind ?_
  refine Contract.safe_mono ?_ (fun _ _ h => h)
    ((moves_clean .now trivial).safe stable_clean hClean)
  intro current v hClean
  refine Contract.safe_bind ?_
  refine Contract.safe_mono ?_ (fun _ _ hClean => hClean.1)
    (claimNextEligible_safe current 5 hClean)
  intro found v hFound
  cases found with
  | none => exact hFound.1
  | some job =>
      refine Contract.safe_bind (Contract.safe_catchError ?_)
      refine Contract.safe_mono ?_ ?_ (syncJob_safe hFound)
      · intro _ v hInv
        exact hInv
      · intro error v hFailing
        refine Contract.safe_mono ?_ (fun _ _ h => h)
          (recordFailure_safe error hFailing)
        intro _ v hInv
        exact hInv

------------------------------------------------------------
-- Other Tasks
------------------------------------------------------------

theorem stable_inv :
    (nasContract config repos).Stable i
      (NasInv config repos) :=
  fun _ _ _ _ hInv => hInv

theorem moves_careful
    (op : TransferOp)
    (hCareful : ∀ v, Careful config repos i op v) :
    Moves config (nasContract config repos)
      (copiesVerified config repos) i op (NasInv config repos)
      fun _ => NasInv config repos := by
  intro v _ hInv hOk choice answer after hExec
  have hKeeps := keeps_perform hInv hOk (hCareful v) hExec
  exact ⟨hKeeps, hKeeps.1⟩

theorem moves_quiet
    (op : TransferOp)
    (hQuiet : Quiet op) :
    Moves config (nasContract config repos)
      (copiesVerified config repos) i op (NasInv config repos)
      fun _ => NasInv config repos :=
  moves_careful op (careful_of_quiet hQuiet)

/- A step of a session removes no file of the worker. -/
theorem moves_step
    (stream : Nat)
    (step : SessionStep) :
    Moves config (nasContract config repos)
      (copiesVerified config repos) i (.session stream step)
      (NasInv config repos)
      fun answer v =>
        NasInv config repos v ∧
          ∀ path, step.removal answer = some path →
            ¬ OnNas path := by
  intro v _ hInv hOk choice answer after hExec
  have hKeeps := keeps_perform hInv hOk trivial hExec
  refine ⟨hKeeps, hKeeps.1, ?_⟩
  intro path hRemoval
  rw [← (exec_session hExec).1] at hRemoval
  exact hInv.staged stream path (step_removal step _ hRemoval)

/- The outline of any push. -/
def outline
    (config : TransferConfig)
    (repos : Set String)
    (i : Nat) :
    PushOutline config (nasContract config repos)
      (copiesVerified config repos) i (fun _ => True) where
  idle := NasInv config repos
  consumed := fun _ _ => NasInv config repos
  finishing := fun _ => NasInv config repos
  staging := fun path => ¬ OnNas path
  stable_idle := stable_inv
  stable_consumed := fun _ _ => stable_inv
  stable_finishing := fun _ => stable_inv
  idle_of_finishing := fun _ _ hInv => hInv
  light_idle := fun op hLight =>
    moves_quiet op (quiet_of_light hLight)
  calm_finishing := fun _ op hCalm =>
    moves_quiet op (quiet_of_calm hCalm)
  removes := fun path hStaging =>
    moves_careful (.files (.rm path)) fun _ => hStaging
  steps := fun step _ => moves_step i step
  consume := fun _ _ _ hInv =>
    safe_of_only (tame_consumeTicket _ _ _)
      (fun op hTame => moves_quiet op (quiet_of_tame hTame))
      stable_inv hInv
  give := fun header ticket =>
    moves_careful (.session i (.ticketConsumed header ticket))
      fun _ => trivial
  ends := fun v hInv hHere hOk choice answer after hExec =>
    have hMoved :=
      moves_step i .finalize v hInv hHere hOk choice answer
        after hExec
    ⟨hMoved.1, fun _ _ => hMoved.2.1⟩
  create := fun started jobId preparation _ =>
    moves_careful
      (.jobs
        (.create
          (stagedJob config jobId started preparation)))
      fun _ => trivial

theorem pushError_safe
    (stream : Nat)
    (hInv : NasInv config repos w) :
    SafeProgram config (nasContract config repos)
      (copiesVerified config repos) i (pushError stream)
      (fun _ => NasInv config repos)
      (NasInv config repos) w := by
  refine Contract.safe_bind ?_
  refine Contract.safe_mono ?_ (fun _ _ h => h)
    ((moves_step stream .error).safe stable_inv hInv)
  rintro removal v ⟨hInv, hStaging⟩
  exact (outline config repos i).removeStaging_safe hStaging
    hInv

theorem pushCancelled_safe
    (stream : Nat)
    (hInv : NasInv config repos w) :
    SafeProgram config (nasContract config repos)
      (copiesVerified config repos) i (pushCancelled stream)
      (fun _ => NasInv config repos)
      (NasInv config repos) w := by
  refine Contract.safe_bind ?_
  refine Contract.safe_mono ?_ (fun _ _ h => h)
    ((moves_step stream .cancelled).safe stable_inv hInv)
  rintro removal v ⟨hInv, hStaging⟩
  exact (outline config repos i).removeStaging_safe hStaging
    hInv

theorem keeps_start
    (hInv : NasInv config repos w) :
    (nasContract config repos).Keeps i w (w.start i call) :=
  keeps_event (.started i call) hInv rfl rfl rfl (by simp)

theorem untouched_start
    (hFresh : w.Fresh i) :
    Untouched config repos i (w.start i call).trace := by
  intro op answer before after hEvent
  rcases List.mem_cons.mp hEvent with hNew | hOld
  · cases hNew
  · exact absurd rfl (hFresh _ hOld)

/- Every task keeps the contract once it has started. -/
theorem serveCall_safe
    (hInv : NasInv config repos w)
    (hFresh : w.Fresh i) :
    (nasContract config repos).SafeTask
      (transferSystem config) (copiesVerified config repos) i
      (serveCall config i call) (w.start i call) := by
  have hStarted : NasInv config repos (w.start i call) :=
    (keeps_start hInv).1
  have hSafe :
      SafeProgram config (nasContract config repos)
        (copiesVerified config repos) i
        (serveCall config i call)
        (fun _ => NasInv config repos)
        (NasInv config repos) (w.start i call) := by
    by_cases hQuiet : QuietCall call
    · exact safe_of_only (quiet_serveCall hQuiet i) moves_quiet
        stable_inv hStarted
    · cases call with
      | push messages ends =>
          refine Contract.safe_bind ?_
          exact Contract.safe_mono (fun _ _ h => h)
            (fun _ _ h => h)
            ((outline config repos i).push_safe
              (fun _ _ => trivial) hStarted)
      | pushError stream =>
          refine Contract.safe_bind ?_
          exact Contract.safe_mono (fun _ _ h => h)
            (fun _ _ h => h)
            (pushError_safe stream hStarted)
      | pushCancelled stream =>
          refine Contract.safe_bind ?_
          exact Contract.safe_mono (fun _ _ h => h)
            (fun _ _ h => h)
            (pushCancelled_safe stream hStarted)
      | processNext =>
          refine Contract.safe_bind ?_
          exact Contract.safe_mono (fun _ _ h => h)
            (fun _ _ h => h)
            (processNext_safe
              ⟨hStarted, untouched_start hFresh⟩)
      | _ => exact absurd trivial hQuiet
  refine Contract.safe_mono ?_ ?_ hSafe
  · intro value v hInv
    exact ends_of_inv _ hInv
  · intro error v hInv
    exact ends_of_inv _ hInv

theorem nasInv_initial
    {initial : TransferState}
    (hInitial : NoPushes initial)
    (hVerified : VisibleVerified config repos initial) :
    NasInv config repos ⟨initial, []⟩ where
  staged := by
    intro stream path hPath
    rw [hInitial stream] at hPath
    cases hPath
  verified := hVerified
  puts := trivial
  fails := trivial
  tmp := by
    rintro i path ⟨_, _, _, _, hEvent⟩
    cases hEvent
  single := by
    rintro i j path ⟨_, _, _, _, hEvent⟩
    cases hEvent

/- What holds in every run, whatever its marks answer. -/
theorem sound_of_run
    {initial : TransferState}
    {p : TransferPool}
    (hInitial : NoPushes initial)
    (hVerified : VisibleVerified config repos initial)
    (hRun :
      (transferSystem config).Run (copiesVerified config repos)
        (Pool.initial initial) p) :
    (nasContract config repos).PoolSafe
      (transferSystem config) (copiesVerified config repos)
      p :=
  Contract.sound initial
    (nasInv_initial hInitial hVerified)
    (fun _ _ _ hInv hFresh _ =>
      ⟨keeps_start hInv, serveCall_safe hInv hFresh⟩)
    hRun

/-
  In every run whose copies have the checksum of their job
  when they are hashed: what a pull reads has the checksum
  of a job of its repository, nothing else is ever put where
  a pull reads, and a sync that fails leaves the file there.
-/
theorem nas_integrity
    (config : TransferConfig)
    (repos : Set String)
    (initial : TransferState)
    (p : TransferPool)
    (hInitial : NoPushes initial)
    (hVerified : VisibleVerified config repos initial)
    (hRun :
      (transferSystem config).Run (copiesIntact config repos)
        (Pool.initial initial) p) :
    Integrity config repos p.world := by
  have hSound :=
    sound_of_run hInitial hVerified
      (hRun.mono (fun _ _ _ _ => trivial)
        fun i op w
          (hOk :
            (copiesIntact config repos).perform i op w) =>
          hOk.1)
  constructor
  · exact hSound.inv.verified
  · exact throughout_iff.mp hSound.inv.puts
  · intro newer event older hTrace i jobId error nextRetryAt
      answer before after hEvent
    subst hEvent
    have hFails :=
      throughout_iff.mp hSound.inv.fails newer _ older hTrace
        i jobId error nextRetryAt answer before after rfl
    rcases hFails with hUntouched | hRefused
    · exact hUntouched
    · -- the run allows no mark after a refusal
      rcases reached_before hRun hTrace with
        ⟨q, _, _, _, hWorld, _, hOk, _⟩
      rw [hWorld] at hOk
      exact absurd hRefused (hOk.2 _ _ _ rfl)

------------------------------------------------------------
-- A Corrupted And An Intact Copy
------------------------------------------------------------

/- The worker up to its rename, with what its copy writes. -/
def upToRename (copied : Option Content) :
    List (Label TransferChoice TransferCall) :=
  [ .start 1 .processNext
  , .resume 1 (draw "")
  , .resume 1 (draw "")
  , .resume 1 (draw "")
  , .resume 1 (draw "")
  , .resume 1 (draw "")
  , .resume 1 (draw "uuid")
  , .resume 1 { draw "" with copied := copied }
  , .resume 1 (draw "")
  , .resume 1 (draw "")
  , .resume 1 (draw "") ]

theorem not_verified
    (hFile :
      s.files (pullPath smallConfig "r") = some [7, 7])
    (hJobs :
      s.jobs.rows.all (fun job => job.checksum = "1") = true) :
    ¬ VisibleVerified smallConfig {"r"} s := by
  intro hVerified
  rcases hVerified "r" rfl [7, 7] hFile with
    ⟨jobId, job, hFind, _, hChecksum⟩
  have hOne :=
    List.all_eq_true.mp hJobs job
      (KeyedTable.mem_of_find? hFind)
  rw [decide_eq_true_eq, hChecksum] at hOne
  exact absurd hOne (by decide)

/-
  A copy with a byte too many is renamed into place: what a
  pull reads then has the checksum of no job.
-/
theorem corrupted_copy_is_visible :
    ∃ q,
      (transferSystem smallConfig).replay?
          (Pool.initial oneStaged)
          (upToRename (some [7, 7])) = some q ∧
        ¬ Integrity smallConfig {"r"} q.world := by
  refine ⟨_, rfl, ?_⟩
  intro hIntegrity
  exact not_verified (by decide) (by decide)
    hIntegrity.verified

theorem verified_of_none
    (hNone :
      ∀ repo ∈ repos,
        s.files (pullPath config repo) = none) :
    VisibleVerified config repos s := by
  intro repo hRepo content hContent
  rw [hNone repo hRepo] at hContent
  cases hContent

/- Nothing was copied before, and the job read is the one
   that waits. -/
def beforeCopy : TransferEvent → Bool
  | .performed _ (.files (.copyFile _ _)) _ _ _ => false
  | _ => true

def readsStaged : TransferEvent → Bool
  | .performed _ (.jobs (.get _)) (.ok (some job)) _ _ =>
      job.checksum = "1" && job.repo = "r"
  | _ => true

theorem not_copied
    (hBefore : trace.all beforeCopy = true) :
    ¬ Copied i path trace := by
  rintro ⟨source, answer, before, after, hEvent⟩
  have hNone := List.all_eq_true.mp hBefore _ hEvent
  cases hNone

theorem staged_of_claimed
    (hReads : trace.all readsStaged = true)
    (hClaimed : Claimed i job trace) :
    job.checksum = "1" ∧ job.repo = "r" := by
  rcases hClaimed.2 with ⟨before, after, hEvent⟩
  have hJob := List.all_eq_true.mp hReads _ hEvent
  simpa [readsStaged] using hJob

/- An intact copy is renamed into place, and the job marked
   synced. -/
theorem nas_integrity_of_intact :
    ∃ q,
      (transferSystem smallConfig).replay?
          (Pool.initial oneStaged)
          (upToRename none ++ [.resume 1 (draw "")]) =
            some q ∧
        q.world.state.files (pullPath smallConfig "r") =
          some [7] ∧
        Integrity smallConfig {"r"} q.world := by
  refine ⟨_, rfl, by decide, ?_⟩
  refine nas_integrity smallConfig {"r"} oneStaged _
    (fun _ => rfl) ?_ ?_
  · apply verified_of_none
    rintro repo rfl
    decide
  · refine .step (.resume 1 (draw "")) (.step
      (.resume 1 (draw "")) (.step (.resume 1 (draw ""))
      (.step (.resume 1 (draw "")) (.step
      (.resume 1 (draw "")) (.step (.resume 1 (draw "uuid"))
      (.step (.resume 1 (draw "")) (.step
      (.resume 1 (draw "")) (.step (.resume 1 (draw ""))
      (.step (.resume 1 (draw "")) (.step
      (.resume 1 (draw "")) (.step (.start 1 .processNext)
        .refl trivial rfl) ?_ rfl) ?_ rfl) ?_ rfl) ?_ rfl)
        ?_ rfl) ?_ rfl) ?_ rfl) ?_ rfl) ?_ rfl) ?_ rfl) ?_
        rfl
    all_goals
      intro op resume hTask
      cases hTask
      refine ⟨⟨?_, ?_, ?_⟩, ?_⟩
      · intro source target hOp j
        first
          | cases hOp; done
          | exact not_copied (by decide)
      · intro path hOp job hClaimed content hContent
        first
          | cases hOp; done
          | cases hOp
            cases hContent
            rw [(staged_of_claimed (by decide) hClaimed).1]
            rfl
      · intro source target hOp job hClaimed repo hRepo _
        first
          | cases hOp; done
          | rw [(staged_of_claimed (by decide) hClaimed).2,
              hRepo]
      · intro jobId error nextRetryAt hOp
        cases hOp

end NasIntegrity

end Transfer
