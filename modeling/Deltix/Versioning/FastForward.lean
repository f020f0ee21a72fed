import Deltix.Versioning.ImportFidelity
import Deltix.Versioning.ImportHead
import Deltix.Versioning.VersioningSystem

/-
  Imports of any number of clients onto one branch, in any
  order of their invocations: which of them are built on the
  head that their client has seen.

  Key definitions include:
    * `PushInv`
    * `BuildsOn`
    * `FastForwards`
    * `StillThere`

  Key theorems include:
    * `pushInv_run`
    * `buildsOn_iff`
    * `buildsOn_once`
    * `fastForwards_iff`
-/

------------------------------------------------------------
-- The Invariant Of The Race
------------------------------------------------------------

namespace Versioning

namespace FastForward

open Concurrency Relational

/- An event that has made a commit. -/
def Lands (event : VersioningEvent) : Prop :=
  ∃ i op answer before after,
    event = .performed i op answer before after ∧
      Commits op answer

def CheckedOut (trace : List VersioningEvent) : Prop :=
  ∃ i, DoneBy i ChecksOut trace

/-
  Commits are made on the branch once it exists, none of them
  on a head that another was made on, and the head that a
  check has found stays until a commit is made.
-/
structure PushInv
    (branch : String)
    (trace : List VersioningEvent)
    (repo : DoltRepo) : Prop where
  headed : Headed repo
  onBranch : CheckedOut trace → OnBranch branch repo
  ordered :
    ∀ event ∈ trace, Lands event → CheckedOut trace
  linear :
    ∀ i op answer before after head,
      .performed i op answer before after ∈ trace →
        Commits op answer →
          current before.repo = some head →
            repo.Has head.hash ∧
              ∀ now, current repo = some now →
                now.hash ≠ head.hash
  since :
    ∀ newer i hash before after older,
      trace =
          newer ++
            .performed i (.dolt (.branchHead branch)) (some hash)
                before after ::
              older →
        ∃ head,
          repo.heads branch = some head ∧
            repo.Has hash ∧
            (head.hash = hash ↔
              ∀ event ∈ newer, ¬ Lands event)

variable {branch : String} {repo next : DoltRepo}
variable {trace : List VersioningEvent}
variable {event : VersioningEvent}

theorem CheckedOut.cons
    (hOut : CheckedOut trace) :
    CheckedOut (event :: trace) := by
  rcases hOut with ⟨i, hDone⟩
  exact
    ⟨i, hDone.mono fun _ hMember =>
      List.mem_cons_of_mem _ hMember⟩

/- Nothing changes when a task starts or ends. -/
theorem PushInv.quiet
    (hInv : PushInv branch trace repo)
    (hEvent :
      ∀ i op answer before after,
        event ≠ .performed i op answer before after) :
    PushInv branch (event :: trace) repo := by
  have hNoLand : ¬ Lands event := by
    rintro ⟨i, op, answer, before, after, hSame, _⟩
    exact hEvent i op answer before after hSame
  have hBack :
      CheckedOut (event :: trace) → CheckedOut trace := by
    rintro ⟨i, op, answer, before, after, hMember, hGives⟩
    rcases List.mem_cons.mp hMember with hNew | hOld
    · exact absurd hNew.symm (hEvent i op answer before after)
    · exact ⟨i, op, answer, before, after, hOld, hGives⟩
  constructor
  · exact hInv.headed
  · intro hOut
    exact hInv.onBranch (hBack hOut)
  · intro other hMember hLands
    rcases List.mem_cons.mp hMember with hNew | hOld
    · rw [hNew] at hLands
      exact absurd hLands hNoLand
    · exact (hInv.ordered other hOld hLands).cons
  · intro i op answer before after head hMember
    rcases List.mem_cons.mp hMember with hNew | hOld
    · exact absurd hNew.symm (hEvent i op answer before after)
    · exact hInv.linear i op answer before after head hOld
  · intro newer i hash before after older hTrace
    cases newer with
    | nil =>
        rw [List.nil_append, List.cons.injEq] at hTrace
        exact absurd hTrace.1 (hEvent _ _ _ _ _)
    | cons first newer =>
        rw [List.cons_append, List.cons.injEq] at hTrace
        rcases hInv.since newer i hash before after older
            hTrace.2 with
          ⟨head, hHead, hHas, hSame⟩
        refine ⟨head, hHead, hHas, ?_⟩
        rw [hSame, List.forall_mem_cons, ← hTrace.1]
        exact (and_iff_right hNoLand).symm

theorem PushInv.settle
    {w : VersioningWorld}
    {rest : VersioningProgram VersioningReturn}
    {i : Nat}
    (hInv : PushInv branch w.trace w.state.repo) :
    PushInv branch (w.settle i rest).trace
      (w.settle i rest).state.repo := by
  rw [World.settle_state]
  unfold World.settle
  cases rest.outcome? with
  | none => exact hInv
  | some outcome =>
      apply hInv.quiet
      intro j op answer before after hSame
      cases hSame

variable {i : Nat} {op : VersioningOp} {answer : op.Answer}
variable {before after : VersioningState}

/- An operation that makes no commit. -/
theorem PushInv.still
    (hInv : PushInv branch trace before.repo)
    (hKeeps : before.repo.KeepsHistory after.repo)
    (hStep :
      HeadStep branch op answer before.repo after.repo)
    (hQuiet : ¬ Commits op answer)
    (hChecked :
      ∀ hash,
        (.performed i op answer before after : VersioningEvent) =
            .performed i (.dolt (.branchHead branch)) (some hash)
              before after →
          ∃ head,
            before.repo.heads branch = some head ∧
              head.hash = hash) :
    PushInv branch
      (.performed i op answer before after :: trace)
      after.repo := by
  have hNoLand :
      ¬ Lands (.performed i op answer before after) := by
    rintro ⟨j, other, reply, s, t, hSame, hCommits⟩
    cases hSame
    exact hQuiet hCommits
  constructor
  · exact headed_step hInv.headed hKeeps hStep
  · rintro ⟨j, other, reply, s, t, hMember, hGives⟩
    rcases List.mem_cons.mp hMember with hNew | hOld
    · cases hNew
      exact onBranch_checkout hGives hStep
    · have hOut : CheckedOut trace :=
        ⟨j, other, reply, s, t, hOld, hGives⟩
      exact onBranch_step (hInv.onBranch hOut) hStep
  · intro event hMember hLands
    rcases List.mem_cons.mp hMember with hNew | hOld
    · rw [hNew] at hLands
      exact absurd hLands hNoLand
    · exact (hInv.ordered event hOld hLands).cons
  · intro j other reply s t head hMember hCommits hHead
    rcases List.mem_cons.mp hMember with hNew | hOld
    · cases hNew
      exact absurd hCommits hQuiet
    · have hOut :=
        hInv.ordered _ hOld
          ⟨j, other, reply, s, t, rfl, hCommits⟩
      rcases hInv.linear j other reply s t head hOld hCommits
          hHead with
        ⟨hHas, hOther⟩
      refine ⟨hKeeps.has hHas, ?_⟩
      rw [current_step (hInv.onBranch hOut) hQuiet hStep]
      exact hOther
  · intro newer j hash s t older hTrace
    cases newer with
    | nil =>
        rw [List.nil_append, List.cons.injEq] at hTrace
        rcases hTrace with ⟨hEvent, _⟩
        have hParts := hEvent
        injection hParts with hTask _ _ hBefore hAfter
        rw [← hTask, ← hBefore, ← hAfter] at hEvent
        rcases hChecked hash hEvent with ⟨head, hHead, hHash⟩
        refine ⟨head, branch_step hHead hQuiet hStep, ?_, ?_⟩
        · apply hKeeps.has
          rw [← hHash]
          exact
            Option.isSome_iff_exists.mpr
              ⟨head, hInv.headed.recorded branch head hHead⟩
        · constructor
          · intro _ event hMember
            cases hMember
          · intro _
            exact hHash
    | cons first newer =>
        rw [List.cons_append, List.cons.injEq] at hTrace
        rcases hInv.since newer j hash s t older hTrace.2 with
          ⟨head, hHead, hHas, hSame⟩
        refine
          ⟨head, branch_step hHead hQuiet hStep, hKeeps.has hHas,
            ?_⟩
        rw [hSame, List.forall_mem_cons, ← hTrace.1]
        exact (and_iff_right hNoLand).symm

/- A commit, which comes after a checkout. -/
theorem PushInv.land
    (hInv : PushInv branch trace before.repo)
    (hKeeps : before.repo.KeepsHistory after.repo)
    (hStep :
      HeadStep branch op answer before.repo after.repo)
    (hCommits : Commits op answer)
    (hOut : CheckedOut trace) :
    PushInv branch
      (.performed i op answer before after :: trace)
      after.repo := by
  rcases landed_step hCommits hStep with
    ⟨hCheckedOut, made, hMade, hFresh, _⟩
  have hLands :
      Lands (.performed i op answer before after) :=
    ⟨i, op, answer, before, after, rfl, hCommits⟩
  have hNew {hash : String} (hHas : before.repo.Has hash) :
      made.hash ≠ hash := by
    intro hSame
    rw [DoltRepo.Has, ← hSame, hFresh] at hHas
    cases hHas
  constructor
  · exact headed_step hInv.headed hKeeps hStep
  · intro _
    exact onBranch_step (hInv.onBranch hOut) hStep
  · intro event _ _
    exact hOut.cons
  · intro j other reply s t head hMember hOther hHead
    have hHas : before.repo.Has head.hash := by
      rcases List.mem_cons.mp hMember with hHere | hOld
      · cases hHere
        exact
          Option.isSome_iff_exists.mpr
            ⟨head, hInv.headed.recorded _ head hHead⟩
      · exact
          (hInv.linear j other reply s t head hOld hOther
            hHead).1
    refine ⟨hKeeps.has hHas, ?_⟩
    intro now hNow
    rw [hMade] at hNow
    cases hNow
    exact hNew hHas
  · intro newer j hash s t older hTrace
    cases newer with
    | nil =>
        rw [List.nil_append, List.cons.injEq] at hTrace
        exfalso
        cases hTrace.1
        exact hCommits
    | cons first newer =>
        rw [List.cons_append, List.cons.injEq] at hTrace
        rcases hInv.since newer j hash s t older hTrace.2 with
          ⟨head, hHead, hHas, _⟩
        have hHere : before.repo.checkedOut = branch := by
          apply (hInv.onBranch hOut).resolve_right
          rw [hHead]
          exact Option.some_ne_none head
        refine ⟨made, ?_, hKeeps.has hHas, ?_⟩
        · unfold current at hMade
          rw [hCheckedOut, hHere] at hMade
          exact hMade
        · constructor
          · intro hSame
            exact absurd hSame (hNew hHas)
          · intro hNone
            rw [List.forall_mem_cons, ← hTrace.1] at hNone
            exact absurd hLands hNone.1

------------------------------------------------------------
-- Runs Of Imports
------------------------------------------------------------

/- Only imports onto one branch of one repository run, and the
   texts that define their tables leave the branches. -/
def importsOnto
    (config : VersioningConfig)
    (repoId branch : String) :
    Allowed VersioningOp VersioningOp.Answer VersioningState
      VersioningCall VersioningError VersioningReturn where
  start := fun _ call _ =>
    ∃ commits base,
      call = .importCommits repoId commits base branch
  perform := fun _ op _ =>
    ∀ text, op = .dolt (.sql text) →
      LeavesBranches config.dolt text

variable {config : VersioningConfig}
variable {repoId branch : String}
variable {initial : VersioningState}
variable {p q : VersioningPool}

theorem head_of_branchHead
    {dolt : DoltConfig}
    {choice : DoltChoice}
    {hash : String}
    (hRun :
      (DoltStatement.branchHead branch).run dolt choice repo =
        some (some hash, next)) :
    ∃ head, repo.heads branch = some head ∧ head.hash = hash := by
  rcases DoltStatement.run_cases hRun with
    ⟨_, hAnswer, _⟩ | ⟨_, hPerform⟩
  · cases hAnswer
  · simp only [DoltStatement.perform, Option.some.injEq,
      Prod.mk.injEq] at hPerform
    exact Option.map_eq_some_iff.mp hPerform.1

/- A task performs operations of an import. -/
theorem importOp_run
    {resume : op.Answer → VersioningProgram VersioningReturn}
    (hRun :
      (versioningSystem config).Run
        (importsOnto config repoId branch) (Pool.initial initial)
        p)
    (hTask : p.tasks i = some (.await op resume)) :
    ImportOp (fun _ => True) branch op := by
  have hAny :
      ∀ op, ∀ named,
        ImportOp named branch op →
          ImportOp (fun _ => True) branch op := by
    intro op named hOp
    cases op with
    | dolt statement =>
        cases statement with
        | truncate table => trivial
        | importRows table csv => trivial
        | add tables => exact fun _ _ => trivial
        | _ => exact hOp
    | _ => exact hOp
  have hTracked :
      Tracked (fun _ _ _ => False)
        (fun _ rest =>
          rest.Only (ImportOp (fun _ => True) branch))
        p := by
    refine tracked_run ?_ ?_ hRun
    · rintro k call w ⟨commits, base, rfl⟩
      apply Async.only_bind
      · apply Async.only_mono _ (only_importCommits ..)
        intro op hOp
        exact hAny op _ hOp
      · intro result
        exact Async.only_returned _
    · intro _ op resume hOnly answer
      exact Or.inr (hOnly.2 answer)
  rcases (begun_run hRun).task i _ hTask with
    ⟨request, hStarted⟩
  rcases hTracked.done i _ request hTask hStarted with
    hNever | hOnly
  · rcases hNever with ⟨_, _, _, _, _, hNo⟩
    exact hNo.elim
  · exact hOnly.1

/- A commit of a task comes after a checkout of its own. -/
theorem checkedOut_before
    {newer older : List VersioningEvent}
    (hBranch : branch ≠ "")
    (hRun :
      (versioningSystem config).Run
        (importsOnto config repoId branch) (Pool.initial initial)
        p)
    (hTrace :
      p.world.trace =
        newer ++ .performed i op answer before after :: older)
    (hCommits : Commits op answer) :
    CheckedOut older := by
  have hStarted : ∃ call, .started i call ∈ older := by
    rcases reached_before hRun hTrace with
      ⟨q, resume, _, hReached, hWorld, hTask, _, _⟩
    rcases (begun_run hReached).task i _ hTask with
      ⟨call, hMember⟩
    rw [hWorld] at hMember
    exact ⟨call, hMember⟩
  rcases hStarted with ⟨call, hStarted⟩
  have hNeeds : IsCommit op := by
    unfold Commits at hCommits
    split at hCommits
    · trivial
    · exact hCommits.elim
  refine
    ⟨i,
      precedes_run (fun _ => IsCommit) (fun _ => ChecksOut) ?_
        hRun hTrace hStarted hNeeds⟩
  rintro k other w ⟨commits, base, rfl⟩
  apply precedes_bind
  · exact precedes_checkout hBranch repoId commits base
  · exact yields_any _
  · intro _ _
    trivial

theorem pushInv_initial (hInitial : Headed initial.repo) :
    PushInv branch [] initial.repo := by
  constructor
  · exact hInitial
  · rintro ⟨i, op, answer, before, after, hMember, _⟩
    cases hMember
  · intro event hMember
    cases hMember
  · intro i op answer before after head hMember
    cases hMember
  · intro newer i hash before after older hTrace
    exact
      absurd hTrace.symm
        (List.append_ne_nil_of_right_ne_nil _
          (List.cons_ne_nil _ _))

theorem pushInv_performed
    {choice : VersioningChoice}
    (hInv : PushInv branch trace before.repo)
    (hOp : ImportOp (fun _ => True) branch op)
    (hSql :
      ∀ text, op = .dolt (.sql text) →
        LeavesBranches config.dolt text)
    (hExec :
      op.exec config choice before = some (answer, after))
    (hOut : Commits op answer → CheckedOut trace) :
    PushInv branch
      (.performed i op answer before after :: trace)
      after.repo := by
  by_cases hDolt : ∃ statement, op = .dolt statement
  · rcases hDolt with ⟨statement, hStatement⟩
    subst hStatement
    have hRan := (exec_dolt hExec).1
    have hKeeps := DoltStatement.history_run hRan
    have hStep :
        HeadStep branch (.dolt statement) answer before.repo
          after.repo := by
      refine headStep_run hOp ?_ hRan
      intro text hText
      exact hSql text (congrArg VersioningOp.dolt hText)
    by_cases hCommits : Commits (.dolt statement) answer
    · exact hInv.land hKeeps hStep hCommits (hOut hCommits)
    · refine hInv.still hKeeps hStep hCommits ?_
      intro hash hSame
      cases hSame
      exact head_of_branchHead hRan
  · have hSame : after.repo = before.repo := by
      rcases (VersioningOp.exec_frame hExec).repo with
        hSame | hStatement
      · exact hSame
      · exact absurd hStatement hDolt
    have hNoCommit : ¬ Commits op answer := by
      intro hCommits
      unfold Commits at hCommits
      split at hCommits
      · exact hDolt ⟨_, rfl⟩
      · exact hCommits
    have hNoCheckout : ¬ ChecksOut op answer := by
      intro hChecksOut
      unfold ChecksOut at hChecksOut
      split at hChecksOut
      · exact hDolt ⟨_, rfl⟩
      · exact hDolt ⟨_, rfl⟩
      · exact hChecksOut
    refine hInv.still ?_ ?_ hNoCommit ?_
    · rw [hSame]
      exact .refl _
    · rw [hSame]
      exact
        .kept hNoCommit rfl rfl fun hHas =>
          absurd hHas hNoCheckout
    · intro hash hEvent
      cases hEvent
      exact absurd ⟨_, rfl⟩ hDolt

/- The invariant holds wherever a run of imports gets. -/
theorem pushInv_run
    (hBranch : branch ≠ "")
    (hInitial : Headed initial.repo)
    (hRun :
      (versioningSystem config).Run
        (importsOnto config repoId branch) (Pool.initial initial)
        p) :
    PushInv branch p.world.trace p.world.state.repo := by
  have hAll := hRun
  induction hRun with
  | refl => exact pushInv_initial hInitial
  | @step q r label hReached hAllowed hMoved ih =>
      have hInv := ih hReached
      cases label with
      | start i call =>
          rcases System.start_cases hMoved with ⟨_, hNext⟩
          subst hNext
          apply PushInv.settle
          apply hInv.quiet
          intro j op answer before after hSame
          cases hSame
      | resume i choice =>
          rcases System.resume_cases hMoved with
            ⟨op, resume, answer, after, hTask, hExec, hNext⟩
          subst hNext
          apply PushInv.settle
          refine
            pushInv_performed hInv (importOp_run hReached hTask)
              (hAllowed op resume hTask) hExec ?_
          intro hCommits
          have hTrace :
              (q.advance i (q.world.perform i op answer after)
                    (resume answer)).world.trace =
                endOf i (resume answer) ++
                  .performed i op answer q.world.state after ::
                    q.world.trace :=
            trace_settle ..
          exact checkedOut_before hBranch hAll hTrace hCommits

------------------------------------------------------------
-- Pushes That Build On Their Base
------------------------------------------------------------

/- The call carries this base. -/
def Carries (base : String) : VersioningCall → Prop
  | .importCommits _ _ hash _ => pushBase hash = some base
  | _ => False

/- A call that carries a base has succeeded. -/
def Succeeds
    (p : VersioningPool)
    (i : Nat)
    (base : String) : Prop :=
  ∃ call result,
    .started i call ∈ p.world.trace ∧
      Carries base call ∧
      .finished i (.ok result) ∈ p.world.trace

/- The first commit of a call, between two states, after some
   events. -/
def FirstCommit
    (p : VersioningPool)
    (i : Nat)
    (before after : VersioningState)
    (older : List VersioningEvent) : Prop :=
  ∃ newer op answer,
    p.world.trace =
        newer ++ .performed i op answer before after :: older ∧
      Commits op answer ∧
      ∀ event ∈ older, Lands event → event.task ≠ i

/- The parent of the first commit is the base. -/
def BuildsOn
    (p : VersioningPool)
    (i : Nat)
    (base : String) : Prop :=
  ∃ before after older made,
    FirstCommit p i before after older ∧
      current after.repo = some made ∧
      made.parents = [base]

/- Every push that succeeds is built on the head its client
   has seen, and no two on the same. -/
structure FastForwards (p : VersioningPool) : Prop where
  builds :
    ∀ i base, Succeeds p i base → BuildsOn p i base
  once :
    ∀ i j base, Succeeds p i base → Succeeds p j base → i = j

/- The head was found to be the base, and no commit is made
   from there to the first one of the call; or no head was
   found, and the base is checked out nevertheless. -/
def StillThere
    (branch : String)
    (p : VersioningPool)
    (i : Nat)
    (base : String) : Prop :=
  ∃ before after older,
    FirstCommit p i before after older ∧
      ((∃ newer s t rest,
          older =
              newer ++
                .performed i (.dolt (.branchHead branch))
                    (some base) s t ::
                  rest ∧
            ∀ event ∈ newer, ¬ Lands event) ∨
        (∃ s t,
            .performed i (.dolt (.branchHead branch)) none s t ∈
              older) ∧
          ∃ head,
            current before.repo = some head ∧ head.hash = base)

variable {config : VersioningConfig}
variable {repoId branch base : String}
variable {initial : VersioningState}
variable {p : VersioningPool} {i j : Nat}
variable {before after : VersioningState}
variable {newer older : List VersioningEvent}
variable {op : VersioningOp} {answer : op.Answer}

/- What is known before an event of a run of imports. -/
structure RanTo
    (config : VersioningConfig)
    (branch : String)
    (before after : VersioningState)
    (older : List VersioningEvent)
    (op : VersioningOp)
    (answer : op.Answer) : Prop where
  inv : PushInv branch older before.repo
  imports : ImportOp (fun _ => True) branch op
  texts :
    ∀ text, op = .dolt (.sql text) →
      LeavesBranches config.dolt text
  performed :
    ∃ choice,
      op.exec config choice before = some (answer, after)

theorem ranTo_of_run
    (hBranch : branch ≠ "")
    (hInitial : Headed initial.repo)
    (hRun :
      (versioningSystem config).Run
        (importsOnto config repoId branch) (Pool.initial initial)
        p)
    (hTrace :
      p.world.trace =
        newer ++ .performed i op answer before after :: older) :
    RanTo config branch before after older op answer ∧
      ∃ call, .started i call ∈ older := by
  rcases reached_before hRun hTrace with
    ⟨q, resume, choice, hReached, hWorld, hTask, hAllowed, hExec⟩
  have hInv := pushInv_run hBranch hInitial hReached
  rw [hWorld] at hInv
  rcases (begun_run hReached).task i _ hTask with
    ⟨call, hStarted⟩
  rw [hWorld] at hStarted
  refine ⟨?_, call, hStarted⟩
  constructor
  · exact hInv
  · exact importOp_run hReached hTask
  · exact hAllowed
  · exact ⟨choice, hExec⟩

/- A commit of a run is made on the head that is there. -/
theorem RanTo.made
    (hRan : RanTo config branch before after older op answer)
    (hCommits : Commits op answer) :
    ∃ made,
      current after.repo = some made ∧
        made.parents =
          ((current before.repo).map Commit.hash).toList := by
  rcases hRan.performed with ⟨choice, hExec⟩
  have hDolt : ∃ statement, op = .dolt statement := by
    unfold Commits at hCommits
    split at hCommits
    · exact ⟨_, rfl⟩
    · exact hCommits.elim
  rcases hDolt with ⟨statement, hStatement⟩
  subst hStatement
  have hStep :
      HeadStep branch (.dolt statement) answer before.repo
        after.repo := by
    refine headStep_run hRan.imports ?_ (exec_dolt hExec).1
    intro text hText
    exact hRan.texts text (congrArg VersioningOp.dolt hText)
  rcases landed_step hCommits hStep with
    ⟨_, made, hMade, _, hParents⟩
  exact ⟨made, hMade, hParents⟩

theorem parents_eq_iff
    {head : Option Commit} :
    (head.map Commit.hash).toList = [base] ↔
      ∃ commit, head = some commit ∧ commit.hash = base := by
  cases head with
  | none => simp
  | some commit => simp

/- So its parent is the base if the head is. -/
theorem RanTo.parent_iff
    (hRan : RanTo config branch before after older op answer)
    (hCommits : Commits op answer) :
    (∃ made,
        current after.repo = some made ∧ made.parents = [base]) ↔
      ∃ head,
        current before.repo = some head ∧ head.hash = base := by
  rcases hRan.made hCommits with ⟨made, hMade, hParents⟩
  rw [← parents_eq_iff, ← hParents, hMade]
  constructor
  · rintro ⟨other, hOther, hBase⟩
    cases hOther
    exact hBase
  · intro hBase
    exact ⟨made, rfl, hBase⟩

/- No two commits have the same parent. -/
theorem parent_once
    {s t : VersioningState}
    {other : VersioningOp}
    {reply : other.Answer}
    {head : Commit}
    (hRan : RanTo config branch before after older op answer)
    (hMember : .performed j other reply s t ∈ older)
    (hCommits : Commits other reply)
    (hHead : current s.repo = some head) :
    ∀ now, current before.repo = some now →
      now.hash ≠ head.hash :=
  (hRan.inv.linear j other reply s t head hMember hCommits
    hHead).2

/- Before a commit of a call with a base the head is asked
   for: there is none, or it is the base. -/
theorem checked_before
    {call : VersioningCall}
    (hBranch : branch ≠ "")
    (hInitial : Headed initial.repo)
    (hRun :
      (versioningSystem config).Run
        (importsOnto config repoId branch) (Pool.initial initial)
        p)
    (hTrace :
      p.world.trace =
        newer ++ .performed i op answer before after :: older)
    (hStarted : .started i call ∈ p.world.trace)
    (hCarries : Carries base call)
    (hCommits : Commits op answer) :
    (∃ s t,
        .performed i (.dolt (.branchHead branch)) none s t ∈
          older) ∨
      ∃ s t,
        .performed i (.dolt (.branchHead branch)) (some base) s
            t ∈
          older := by
  have hThere : .started i call ∈ older := by
    rcases (ranTo_of_run hBranch hInitial hRun hTrace).2 with
      ⟨other, hOther⟩
    have hIn : .started i other ∈ p.world.trace := by
      rw [hTrace]
      exact
        List.mem_append_right _ (List.mem_cons_of_mem _ hOther)
    rw [startsOnce_run hRun i call other hStarted hIn]
    exact hOther
  have hNeeds : IsCommit op ∧ Carries base call := by
    refine ⟨?_, hCarries⟩
    unfold Commits at hCommits
    split at hCommits
    · trivial
    · exact hCommits.elim
  have hServe :
      ∀ k other w,
        (importsOnto config repoId branch).start k other w →
          ((versioningSystem config).serve k other).Precedes
            (fun op => IsCommit op ∧ Carries base other)
            (Checked branch base) := by
    rintro k other w ⟨commits, hash, rfl⟩
    by_cases hBase : pushBase hash = some base
    · apply precedes_bind
      · apply precedes_mono (precedes_check hBase repoId commits)
        intro op hBoth
        exact hBoth.1
      · exact yields_any _
      · intro _ _
        trivial
    · apply precedes_of_never
      intro op hBoth
      exact hBase hBoth.2
  rcases
      precedes_run
        (fun call op => IsCommit op ∧ Carries base call)
        (fun _ => Checked branch base) hServe hRun hTrace hThere
        hNeeds with
    ⟨check, head, s, t, hMember, hChecked⟩
  unfold Checked at hChecked
  split at hChecked
  · rename_i name head
    rcases hChecked with ⟨hName, hHead⟩
    subst hName
    rcases hHead with hNone | hEmpty | hBase
    · subst hNone
      exact Or.inl ⟨s, t, hMember⟩
    · subst hEmpty
      exfalso
      rcases List.append_of_mem hMember with ⟨mid, rest, hOlder⟩
      have hCheck :
          p.world.trace =
            (newer ++
                .performed i op answer before after :: mid) ++
              .performed i (.dolt (.branchHead name)) (some "") s
                  t ::
                rest := by
        rw [hTrace, hOlder]
        simp
      rcases ranTo_of_run hBranch hInitial hRun hCheck with
        ⟨hRan, _⟩
      rcases hRan.performed with ⟨choice, hExec⟩
      rcases head_of_branchHead (exec_dolt hExec).1 with
        ⟨found, hFound, hHash⟩
      exact hRan.inv.headed.named name found hFound hHash
    · subst hBase
      exact Or.inr ⟨s, t, hMember⟩
  · exact hChecked.elim

/-
  A push that succeeds is built on its base just when the
  head it has found is still there when its first commit is
  made.
-/
theorem buildsOn_iff
    (hBranch : branch ≠ "")
    (hInitial : Headed initial.repo)
    (hRun :
      (versioningSystem config).Run
        (importsOnto config repoId branch) (Pool.initial initial)
        p)
    (hSucceeds : Succeeds p i base) :
    BuildsOn p i base ↔ StillThere branch p i base := by
  constructor
  · rintro ⟨before, after, older, made, hFirst, hMade, hBase⟩
    have hWhole := hFirst
    rcases hFirst with ⟨newer, op, answer, hTrace, hCommits, _⟩
    have hRan :=
      (ranTo_of_run hBranch hInitial hRun hTrace).1
    have hHead :=
      (hRan.parent_iff hCommits).mp ⟨made, hMade, hBase⟩
    rcases hSucceeds with ⟨call, _, hStarted, hCarries, _⟩
    refine ⟨before, after, older, hWhole, ?_⟩
    rcases
        checked_before hBranch hInitial hRun hTrace hStarted
          hCarries hCommits with
      hNone | ⟨s, t, hMember⟩
    · exact Or.inr ⟨hNone, hHead⟩
    · left
      rcases List.append_of_mem hMember with ⟨mid, rest, hOlder⟩
      refine ⟨mid, s, t, rest, hOlder, ?_⟩
      rcases hRan.inv.since mid i base s t rest hOlder with
        ⟨found, hFound, _, hSame⟩
      rw [← hSame]
      have hOut := checkedOut_before hBranch hRun hTrace hCommits
      have hHere : before.repo.checkedOut = branch := by
        apply (hRan.inv.onBranch hOut).resolve_right
        rw [hFound]
        exact Option.some_ne_none found
      rcases hHead with ⟨head, hCurrent, hHash⟩
      unfold current at hCurrent
      rw [hHere, hFound] at hCurrent
      cases hCurrent
      exact hHash
  · rintro ⟨before, after, older, hFirst, hStill⟩
    have hWhole := hFirst
    rcases hFirst with ⟨newer, op, answer, hTrace, hCommits, _⟩
    have hRan :=
      (ranTo_of_run hBranch hInitial hRun hTrace).1
    have hHead :
        ∃ head,
          current before.repo = some head ∧ head.hash = base := by
      rcases hStill with
        ⟨mid, s, t, rest, hOlder, hQuiet⟩ | ⟨_, hHead⟩
      · rcases hRan.inv.since mid i base s t rest hOlder with
          ⟨found, hFound, _, hSame⟩
        have hOut :=
          checkedOut_before hBranch hRun hTrace hCommits
        have hHere : before.repo.checkedOut = branch := by
          apply (hRan.inv.onBranch hOut).resolve_right
          rw [hFound]
          exact Option.some_ne_none found
        refine ⟨found, ?_, hSame.mpr hQuiet⟩
        unfold current
        rw [hHere]
        exact hFound
      · exact hHead
    rcases (hRan.parent_iff hCommits).mpr hHead with
      ⟨made, hMade, hBase⟩
    exact ⟨before, after, older, made, hWhole, hMade, hBase⟩

/- Two events of one trace: one is among the older ones of
   the other. -/
theorem older_or_older
    {E : Type}
    {first second : E}
    {newer more older others : List E}
    (hSame :
      newer ++ first :: older = more ++ second :: others)
    (hNe : first ≠ second) :
    second ∈ older ∨ first ∈ others := by
  have hMember : second ∈ newer ++ first :: older := by
    rw [hSame]
    exact List.mem_append_right _ List.mem_cons_self
  induction newer generalizing more with
  | nil =>
      rcases List.mem_cons.mp hMember with hHere | hOld
      · exact absurd hHere.symm hNe
      · exact Or.inl hOld
  | cons newest newer ih =>
      cases more with
      | nil =>
          rw [List.nil_append, List.cons_append,
            List.cons.injEq] at hSame
          right
          rw [← hSame.2]
          exact List.mem_append_right _ List.mem_cons_self
      | cons other more =>
          rw [List.cons_append, List.cons_append,
            List.cons.injEq] at hSame
          apply ih hSame.2
          rw [hSame.2]
          exact List.mem_append_right _ List.mem_cons_self

/- No two calls are built on the same base. -/
theorem buildsOn_once
    (hBranch : branch ≠ "")
    (hInitial : Headed initial.repo)
    (hRun :
      (versioningSystem config).Run
        (importsOnto config repoId branch) (Pool.initial initial)
        p)
    (hFirst : BuildsOn p i base)
    (hSecond : BuildsOn p j base) :
    i = j := by
  rcases hFirst with
    ⟨before, after, older, made, ⟨newer, op, answer, hTrace,
      hCommits, _⟩, hMade, hBase⟩
  rcases hSecond with
    ⟨s, t, others, built, ⟨more, other, reply, hAlso,
      hCommitsToo, _⟩, hBuilt, hBaseToo⟩
  have hRan := (ranTo_of_run hBranch hInitial hRun hTrace).1
  have hRanToo := (ranTo_of_run hBranch hInitial hRun hAlso).1
  rcases (hRan.parent_iff hCommits).mp ⟨made, hMade, hBase⟩ with
    ⟨head, hHead, hHash⟩
  rcases
      (hRanToo.parent_iff hCommitsToo).mp
        ⟨built, hBuilt, hBaseToo⟩ with
    ⟨found, hFound, hFoundHash⟩
  by_contra hNe
  have hApart :
      (.performed i op answer before after : VersioningEvent) ≠
        .performed j other reply s t := by
    intro hSame
    injection hSame with hTask
    exact hNe hTask
  rcases older_or_older (hTrace.symm.trans hAlso) hApart with
    hOld | hOld
  · apply parent_once hRan hOld hCommitsToo hFound head hHead
    rw [hHash, hFoundHash]
  · apply parent_once hRanToo hOld hCommits hHead found hFound
    rw [hHash, hFoundHash]

/-
  Any number of imports onto a branch, in any order of their
  operations: they are fast-forwards just when for each that
  succeeds the head it has found is still there when its
  first commit is made.
-/
theorem fastForwards_iff
    (hBranch : branch ≠ "")
    (hInitial : Headed initial.repo)
    (hRun :
      (versioningSystem config).Run
        (importsOnto config repoId branch) (Pool.initial initial)
        p) :
    FastForwards p ↔
      ∀ i base, Succeeds p i base →
        StillThere branch p i base := by
  constructor
  · intro hForwards i base hSucceeds
    rw [← buildsOn_iff hBranch hInitial hRun hSucceeds]
    exact hForwards.builds i base hSucceeds
  · intro hStill
    have hBuilds :
        ∀ i base, Succeeds p i base → BuildsOn p i base := by
      intro i base hSucceeds
      rw [buildsOn_iff hBranch hInitial hRun hSucceeds]
      exact hStill i base hSucceeds
    constructor
    · exact hBuilds
    · intro i j base hFirst hSecond
      exact
        buildsOn_once hBranch hInitial hRun
          (hBuilds i base hFirst) (hBuilds j base hSecond)

------------------------------------------------------------
-- Two Clients With The Same Base
------------------------------------------------------------

variable {p : VersioningPool}

/- One row is pushed on top of `h`. -/
def rowCall (data : String) : VersioningCall :=
  .importCommits "r"
    [{ message := "m"
       author := "a"
       tables := [⟨"t", "CREATE TABLE t (c TEXT)", data⟩] }]
    (some "h") "main"

/- The binary works, and a commit gets this hash. -/
def making (hash : String) : VersioningChoice where
  fails := false
  text := hash
  hash := hash
  now := 0

/- The first call runs alone. -/
def aloneSchedule :
    List (Label VersioningChoice VersioningCall) :=
  .start 0 (rowCall "c\nx\n") ::
    List.replicate 11 (.resume 0 (making "c1"))

/- Both calls check the head before either commits. -/
def raceSchedule :
    List (Label VersioningChoice VersioningCall) :=
  .start 0 (rowCall "c\nx\n") ::
    .start 1 (rowCall "c\ny\n") ::
      (List.replicate 2 (.resume 0 (making "c1")) ++
        (List.replicate 2 (.resume 1 (making "c2")) ++
          (List.replicate 9 (.resume 0 (making "c1")) ++
            List.replicate 10 (.resume 1 (making "c2")))))

theorem leavesBranches_oneTable (text : String) :
    LeavesBranches oneTable text := by
  intro repo
  unfold DoltRepo.sql oneTable
  dsimp only
  cases repo.working.find "t" with
  | none => rfl
  | some table => rfl

theorem headed_cleanState (tables : Tables) :
    Headed (cleanState tables).repo := by
  have hMain {branch : String} {head : Commit}
      (hHead :
        (cleanState tables).repo.heads branch = some head) :
      head = ⟨"h", [], "a", "m", tables⟩ := by
    have hOnly :
        (if branch = "main" then
            some (⟨"h", [], "a", "m", tables⟩ : Commit)
          else none) =
          some head :=
      hHead
    split_ifs at hOnly
    cases hOnly
    rfl
  constructor
  · intro branch head hHead
    rw [hMain hHead]
    rfl
  · intro branch head hHead
    have hNamed : "h" ≠ "" := by decide
    rw [hMain hHead]
    exact hNamed

def startsRow (i : Nat) : VersioningEvent → Bool
  | .started j (.importCommits _ _ hash _) =>
      j = i && hash = some "h"
  | _ => false

def endsWell (i : Nat) : VersioningEvent → Bool
  | .finished j (.ok _) => j = i
  | _ => false

/- The call has succeeded, by the look of the trace. -/
def seemsDone (p : VersioningPool) (i : Nat) : Bool :=
  p.world.trace.any (startsRow i) && p.world.trace.any (endsWell i)

theorem succeeds_of_seemsDone
    {i : Nat}
    (hDone : seemsDone p i = true) :
    Succeeds p i "h" := by
  unfold seemsDone at hDone
  rw [Bool.and_eq_true, List.any_eq_true, List.any_eq_true]
    at hDone
  rcases hDone with
    ⟨⟨start, hStart, hStarts⟩, ⟨last, hLast, hEnds⟩⟩
  unfold startsRow at hStarts
  split at hStarts
  · rename_i j repoId commits hash branch
    rw [Bool.and_eq_true, decide_eq_true_eq, decide_eq_true_eq]
      at hStarts
    unfold endsWell at hEnds
    split at hEnds
    · rename_i k result
      rw [decide_eq_true_eq] at hEnds
      rw [hStarts.1] at hStart
      rw [hEnds] at hLast
      refine ⟨_, result, hStart, ?_, hLast⟩
      rw [hStarts.2]
      rfl
    · cases hEnds
  · cases hStarts

theorem importsOnto_of_rows
    {schedule : List (Label VersioningChoice VersioningCall)}
    (hStart :
      ∀ i call, .start i call ∈ schedule →
        ∃ data, call = rowCall data)
    (hChecks :
      System.checks (versioningSystem oneTableConfig)
        (fun _ _ _ => true)
        (Pool.initial (cleanState FiniteMap.empty)) schedule =
        true)
    (hReplay :
      (versioningSystem oneTableConfig).replay?
          (Pool.initial (cleanState FiniteMap.empty)) schedule =
        some p) :
    (versioningSystem oneTableConfig).Run
      (importsOnto oneTableConfig "r" "main")
      (Pool.initial (cleanState FiniteMap.empty)) p := by
  refine System.run_of_checks ?_ ?_ hChecks hReplay
  · intro i call hMember w
    rcases hStart i call hMember with ⟨data, hCall⟩
    rw [hCall]
    exact ⟨_, _, rfl⟩
  · intro i op w _ text _
    exact leavesBranches_oneTable text

theorem fastForwards_alone :
    ∃ p,
      (versioningSystem oneTableConfig).Run
          (importsOnto oneTableConfig "r" "main")
          (Pool.initial (cleanState FiniteMap.empty)) p ∧
        Succeeds p 0 "h" ∧
        (FastForwards p ↔
          ∀ i base, Succeeds p i base →
            StillThere "main" p i base) := by
  have hReplay :
      ∃ p,
        (versioningSystem oneTableConfig).replay?
              (Pool.initial (cleanState FiniteMap.empty))
              aloneSchedule =
            some p ∧
          seemsDone p 0 = true :=
    ⟨_, rfl, by decide +kernel⟩
  rcases hReplay with ⟨p, hReplay, hDone⟩
  have hRun :
      (versioningSystem oneTableConfig).Run
        (importsOnto oneTableConfig "r" "main")
        (Pool.initial (cleanState FiniteMap.empty)) p := by
    refine importsOnto_of_rows ?_ (by decide +kernel) hReplay
    intro i call hMember
    rcases List.mem_cons.mp hMember with hFirst | hRest
    · cases hFirst
      exact ⟨_, rfl⟩
    · cases List.eq_of_mem_replicate hRest
  exact
    ⟨p, hRun, succeeds_of_seemsDone hDone,
      fastForwards_iff (by decide) (headed_cleanState _) hRun⟩

/- Both calls succeed, though the second one is built on the
   commit of the first. -/
theorem both_succeed :
    ∃ p,
      (versioningSystem oneTableConfig).Run
          (importsOnto oneTableConfig "r" "main")
          (Pool.initial (cleanState FiniteMap.empty)) p ∧
        Succeeds p 0 "h" ∧ Succeeds p 1 "h" ∧
        ¬ FastForwards p := by
  have hReplay :
      ∃ p,
        (versioningSystem oneTableConfig).replay?
              (Pool.initial (cleanState FiniteMap.empty))
              raceSchedule =
            some p ∧
          (seemsDone p 0 && seemsDone p 1) = true :=
    ⟨_, rfl, by decide +kernel⟩
  rcases hReplay with ⟨p, hReplay, hDone⟩
  rw [Bool.and_eq_true] at hDone
  have hRun :
      (versioningSystem oneTableConfig).Run
        (importsOnto oneTableConfig "r" "main")
        (Pool.initial (cleanState FiniteMap.empty)) p := by
    refine importsOnto_of_rows ?_ (by decide +kernel) hReplay
    intro i call hMember
    rcases List.mem_cons.mp hMember with hFirst | hRest
    · cases hFirst
      exact ⟨_, rfl⟩
    · rcases List.mem_cons.mp hRest with hSecond | hResumes
      · cases hSecond
        exact ⟨_, rfl⟩
      · simp at hResumes
  have hFirst := succeeds_of_seemsDone hDone.1
  have hSecond := succeeds_of_seemsDone hDone.2
  refine ⟨p, hRun, hFirst, hSecond, ?_⟩
  intro hForwards
  cases hForwards.once 0 1 "h" hFirst hSecond

end FastForward

end Versioning
