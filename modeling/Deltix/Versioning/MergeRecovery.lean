import Deltix.Versioning.ServiceOps
import Deltix.Versioning.VersioningRuns

/-
  What a merge that is rejected leaves behind.  Its target
  stays checked out, and a merge that is stuck stays in
  progress unless its conflicts could be read.

  Key definitions include:
    * `Restored`
    * `Undone`

  Key theorems include:
    * `restored_iff`
    * `target_stays_checked_out`
-/

namespace Versioning

variable (config : DoltConfig)

namespace DoltRepo

/- Every branch points to a commit of the graph. -/
def HeadsRecorded (repo : DoltRepo) : Prop :=
  ∀ branch commit,
    repo.heads branch = some commit →
      repo.commits.find? commit.hash = some commit

/- The tables that a merge of two heads would have. -/
def mergedTables
    (repo : DoltRepo)
    (ours theirs : Commit) : Option Tables :=
  if repo.isAncestor ours.hash theirs.hash then
    some theirs.tables
  else
    match config.merged ours theirs with
    | .merged tables => some tables
    | .stuck _ _ => none

/- A branch can be merged, and brings something new. -/
def Advances (repo : DoltRepo) (source : String) : Prop :=
  repo.merging = none ∧
    ∃ ours theirs tables,
      repo.heads repo.checkedOut = some ours ∧
        repo.heads source = some theirs ∧
        repo.isAncestor theirs.hash ours.hash = false ∧
        repo.mergedTables config ours theirs = some tables ∧
        repo.wouldOverwrite tables = false

/- A merge with a branch would be stuck. -/
def Sticks (repo : DoltRepo) (source : String) : Prop :=
  repo.merging = none ∧
    ∃ ours theirs,
      repo.heads repo.checkedOut = some ours ∧
        repo.heads source = some theirs ∧
        repo.isAncestor theirs.hash ours.hash = false ∧
        repo.mergedTables config ours theirs = none

end DoltRepo

/- The repository is as it was, for all a caller can see. -/
structure Restored (before after : DoltRepo) : Prop where
  merging : after.merging = none
  clean : before.Clean → after.Clean
  checkedOut : after.checkedOut = before.checkedOut
  heads : after.heads = before.heads

variable (config : DoltConfig)

/- The step leaves the branch that was checked out. -/
def Switches
    (before : DoltRepo)
    (step : VersioningTaken) : Prop :=
  step.choice.fails = false ∧
    ∃ name head,
      step.op = .dolt (.checkout name) ∧
        before.heads name = some head ∧
        name ≠ before.checkedOut ∧
        before.wouldOverwrite head.tables = false

/- The step merges, and moves the branch. -/
def StepAdvances (step : VersioningTaken) : Prop :=
  step.choice.fails = false ∧
    ∃ source,
      step.op = .dolt (.merge source) ∧
        step.before.repo.Advances config source

/- The step merges, and is stuck. -/
def StepSticks (step : VersioningTaken) : Prop :=
  step.choice.fails = false ∧
    ∃ source,
      step.op = .dolt (.merge source) ∧
        step.before.repo.Sticks config source

def mergeOutput : VersioningTaken → Option MergeOutput
  | ⟨.dolt (.merge _), _, _, answer, _⟩ => some answer
  | _ => none

/- A merge was refused with a word about conflicts. -/
def Mentions (step : VersioningTaken) : Prop :=
  ∃ output,
    mergeOutput step = some output ∧ output.exitCode ≠ 0 ∧
      includesLower (combinedOutput output) "conflict" = true

/- The tables that are in conflict can be asked for. -/
def namesTables (rows : List CsvRow) : Bool :=
  rows.all fun row =>
    match row.get? "table" with
    | none => false
    | some name => safeTableRe name

/- The step does not stop the reading of the conflicts. -/
def Readable (step : VersioningTaken) : Prop :=
  (step.op = .dolt .listConflicts →
      step.choice.fails = false ∧
        namesTables (parseCsv step.choice.text) = true) ∧
    ∀ table,
      step.op = .dolt (.conflictRows table) →
        step.choice.fails = false

/- A merge is found to be stuck, and then aborted. -/
def Noticed (steps : List VersioningTaken) : Prop :=
  (∃ step ∈ steps, Mentions step) ∧
    ∀ step ∈ steps, Readable step

/- None of the exits that undo too little is taken. -/
structure Undone
    (before : DoltRepo)
    (steps : List VersioningTaken) : Prop where
  stays : ¬ ∃ step ∈ steps, Switches before step
  unmoved : ¬ ∃ step ∈ steps, StepAdvances config step
  settled :
    Noticed steps ∨
      before.merging = none ∧
        ¬ ∃ step ∈ steps, StepSticks config step

/- No abort fails for a reason of its own. -/
def AbortsSucceed (steps : List VersioningTaken) : Prop :=
  ∀ step ∈ steps,
    step.op = .dolt .mergeAbort → step.choice.fails = false

------------------------------------------------------------
-- The Merge Of The Binary
------------------------------------------------------------

open Relational

variable {config : DoltConfig} {repo next : DoltRepo}

namespace DoltRepo

variable {source : String} {ours theirs : Commit}

theorem isAncestor_self (hash : String) :
    repo.isAncestor hash hash = true := by
  unfold isAncestor
  cases repo.commits.rows.length with
  | zero => simp [reaches]
  | succ steps => simp [reaches]

/- A new commit is none of the heads. -/
theorem heads_ne_of_record
    {commit : Commit}
    (hHeads : repo.HeadsRecorded)
    (hRecord : repo.record commit = some next) :
    next.heads ≠ repo.heads := by
  rcases record_cases hRecord with
    ⟨_, commits, hInsert, hNext⟩
  intro hSame
  have hHead :
      next.heads repo.checkedOut = some commit := by
    rw [hNext]
    exact Function.update_self ..
  rw [hSame] at hHead
  have hFree := (KeyedTable.insert?_eq_some_iff.mp hInsert).1
  rw [hHeads _ _ hHead] at hFree
  cases hFree

theorem advances_iff
    (hOurs : repo.heads repo.checkedOut = some ours)
    (hTheirs : repo.heads source = some theirs) :
    repo.Advances config source ↔
      repo.merging = none ∧
        repo.isAncestor theirs.hash ours.hash = false ∧
        ∃ tables,
          repo.mergedTables config ours theirs = some tables ∧
            repo.wouldOverwrite tables = false := by
  simp [Advances, hOurs, hTheirs]

theorem sticks_iff
    (hOurs : repo.heads repo.checkedOut = some ours)
    (hTheirs : repo.heads source = some theirs) :
    repo.Sticks config source ↔
      repo.merging = none ∧
        repo.isAncestor theirs.hash ours.hash = false ∧
        repo.mergedTables config ours theirs = none := by
  simp [Sticks, hOurs, hTheirs]

/- A fast-forward is to a commit that is not the head. -/
theorem heads_ne_of_behind
    (hOurs : repo.heads repo.checkedOut = some ours)
    (hBehind :
      repo.isAncestor theirs.hash ours.hash = false)
    (hNext : next.heads repo.checkedOut = some theirs) :
    next.heads ≠ repo.heads := by
  intro hSame
  rw [hSame, hOurs] at hNext
  cases hNext
  rw [isAncestor_self] at hBehind
  cases hBehind

/- A merge does nothing, moves the branch or is stuck. -/
theorem merge_cases
    {hash text : String}
    {output : MergeOutput}
    (hHeads : repo.HeadsRecorded)
    (hMerge :
      repo.merge config hash text source =
        some (output, next)) :
    (next = repo ∧ ¬ repo.Advances config source ∧
        ¬ repo.Sticks config source) ∨
      (output.exitCode = 0 ∧ next.heads ≠ repo.heads ∧
        repo.Advances config source) ∨
      output.exitCode ≠ 0 ∧ repo.Sticks config source ∧
        ∃ tables state,
          state.preMergeWorking = repo.working ∧
            next =
              (repo.setWorking tables).setMerging
                (some state) := by
  unfold merge at hMerge
  split at hMerge
  · rename_i ours theirs hOurs hTheirs
    rw [advances_iff hOurs hTheirs, sticks_iff hOurs hTheirs]
    split_ifs at hMerge with hMerging hOld hNew
    · cases hMerge
      left
      refine ⟨rfl, ?_, ?_⟩
      · rintro ⟨hIdle, _⟩
        rw [hIdle] at hMerging
        cases hMerging
      · rintro ⟨hIdle, _⟩
        rw [hIdle] at hMerging
        cases hMerging
    · cases hMerge
      left
      refine ⟨rfl, ?_, ?_⟩
      · rintro ⟨_, hBehind, _⟩
        rw [hOld] at hBehind
        cases hBehind
      · rintro ⟨_, hBehind, _⟩
        rw [hOld] at hBehind
        cases hBehind
    · have hIdle := Option.not_isSome_iff_eq_none.mp hMerging
      have hBehind := Bool.eq_false_iff.mpr hOld
      have hTables :
          repo.mergedTables config ours theirs =
            some theirs.tables := by
        unfold mergedTables
        rw [if_pos hNew]
      unfold fastForward at hMerge
      split_ifs at hMerge with hOverwrites
      · cases hMerge
        left
        refine ⟨rfl, ?_, ?_⟩
        · rintro ⟨_, _, tables, hMerged, hFits⟩
          rw [hTables] at hMerged
          cases hMerged
          rw [hOverwrites] at hFits
          cases hFits
        · rintro ⟨_, _, hNone⟩
          rw [hTables] at hNone
          cases hNone
      · cases hMerge
        right
        left
        refine ⟨rfl, ?_, hIdle, hBehind, _, hTables,
          Bool.eq_false_iff.mpr hOverwrites⟩
        apply heads_ne_of_behind hOurs hBehind
        exact Function.update_self ..
    · have hIdle := Option.not_isSome_iff_eq_none.mp hMerging
      have hBehind := Bool.eq_false_iff.mpr hOld
      unfold mergeCommits at hMerge
      split at hMerge
      · rename_i stdout tables hStuck
        have hTables :
            repo.mergedTables config ours theirs = none := by
          unfold mergedTables
          rw [if_neg hNew, hStuck]
        cases hMerge
        right
        right
        exact
          ⟨Nat.one_ne_zero, ⟨hIdle, hBehind, hTables⟩, tables,
            _, rfl, rfl⟩
      · rename_i tables hMerged
        have hTables :
            repo.mergedTables config ours theirs =
              some tables := by
          unfold mergedTables
          rw [if_neg hNew, hMerged]
        split_ifs at hMerge with hOverwrites
        · cases hMerge
          left
          refine ⟨rfl, ?_, ?_⟩
          · rintro ⟨_, _, other, hOther, hFits⟩
            rw [hTables] at hOther
            cases hOther
            rw [hOverwrites] at hFits
            cases hFits
          · rintro ⟨_, _, hNone⟩
            rw [hTables] at hNone
            cases hNone
        · rw [Option.map_eq_some_iff] at hMerge
          rcases hMerge with ⟨after, hRecord, hEq⟩
          cases hEq
          right
          left
          refine ⟨rfl, ?_, hIdle, hBehind, _, hTables,
            Bool.eq_false_iff.mpr hOverwrites⟩
          have hCarried :
              (repo.carryTo tables).HeadsRecorded :=
            hHeads
          have hMoved :
              next.heads ≠ (repo.carryTo tables).heads :=
            heads_ne_of_record hCarried hRecord
          exact hMoved
  · rename_i hNone
    cases hMerge
    left
    refine ⟨rfl, ?_, ?_⟩
    · rintro ⟨_, ours, theirs, _, hOurs, hTheirs, _⟩
      exact hNone ours theirs hOurs hTheirs
    · rintro ⟨_, ours, theirs, hOurs, hTheirs, _⟩
      exact hNone ours theirs hOurs hTheirs

end DoltRepo

end Versioning

------------------------------------------------------------
-- Steps That No Exit Depends On
------------------------------------------------------------

namespace Versioning

open Concurrency

variable {config : VersioningConfig}
variable {before : DoltRepo} {s : VersioningState}
variable {step : VersioningTaken}
variable {steps more : List VersioningTaken}
variable {op : VersioningOp} {dolt : DoltConfig}

/- What asks for nothing but a branch or a hash. -/
def Aside : VersioningOp → Prop
  | .dolt .currentBranch => True
  | .dolt .latestHash => True
  | .dolt _ => False
  | _ => True

/- What may come before a merge. -/
def BeforeMerge : VersioningOp → Prop
  | .dolt (.checkout _) => True
  | op => Aside op

/- What may come after a merge. -/
def AfterMerge : VersioningOp → Prop
  | .dolt .listConflicts => True
  | .dolt (.conflictRows _) => True
  | .dolt .mergeAbort => True
  | op => Aside op

theorem beforeMerge_of_aside
    (hAside : Aside op) :
    BeforeMerge op := by
  unfold BeforeMerge
  split
  · trivial
  · exact hAside

theorem afterMerge_of_aside
    (hAside : Aside op) :
    AfterMerge op := by
  unfold AfterMerge
  split
  · trivial
  · trivial
  · trivial
  · exact hAside

theorem not_switches_of_afterMerge
    (hAfter : AfterMerge step.op) :
    ¬ Switches before step := by
  rintro ⟨_, name, _, hOp, _⟩
  rw [hOp] at hAfter
  exact hAfter

theorem merge_of_mergeOutput
    {output : MergeOutput}
    (hOutput : mergeOutput step = some output) :
    ∃ source, step.op = .dolt (.merge source) := by
  unfold mergeOutput at hOutput
  split at hOutput
  · exact ⟨_, rfl⟩
  · cases hOutput

/- Only a merge moves a branch, is stuck or mentions
   conflicts. -/
theorem not_stepAdvances
    (hOp : ∀ source, step.op ≠ .dolt (.merge source)) :
    ¬ StepAdvances dolt step := by
  rintro ⟨_, source, hMerge, _⟩
  exact hOp source hMerge

theorem not_stepSticks
    (hOp : ∀ source, step.op ≠ .dolt (.merge source)) :
    ¬ StepSticks dolt step := by
  rintro ⟨_, source, hMerge, _⟩
  exact hOp source hMerge

theorem not_mentions
    (hOp : ∀ source, step.op ≠ .dolt (.merge source)) :
    ¬ Mentions step := by
  rintro ⟨output, hOutput, _⟩
  rcases merge_of_mergeOutput hOutput with ⟨source, hMerge⟩
  exact hOp source hMerge

theorem not_merge_of_beforeMerge
    (hBefore : BeforeMerge step.op)
    (source : String) :
    step.op ≠ .dolt (.merge source) := by
  intro hOp
  rw [hOp] at hBefore
  exact hBefore

theorem not_merge_of_afterMerge
    (hAfter : AfterMerge step.op)
    (source : String) :
    step.op ≠ .dolt (.merge source) := by
  intro hOp
  rw [hOp] at hAfter
  exact hAfter

theorem readable_of_beforeMerge
    (hBefore : BeforeMerge step.op) :
    Readable step := by
  constructor
  · intro hOp
    rw [hOp] at hBefore
    exact hBefore.elim
  · intro table hOp
    rw [hOp] at hBefore
    exact hBefore.elim

theorem readable_of_merge
    {source : String}
    (hMerge : step.op = .dolt (.merge source)) :
    Readable step := by
  constructor
  · intro hOp
    rw [hMerge] at hOp
    cases hOp
  · intro table hOp
    rw [hMerge] at hOp
    cases hOp

/- Such a step leaves the repository as it is. -/
theorem repo_of_aside
    (hAside : Aside step.op)
    (hExec :
      step.op.exec config step.choice step.before =
        some (step.answer, step.after)) :
    step.after.repo = step.before.repo := by
  rcases step with ⟨op, choice, u, answer, v⟩
  cases op with
  | dolt statement =>
      have hRun := (exec_dolt hExec).1
      have hReads : statement.Reads := by
        cases statement
        all_goals trivial
      exact DoltStatement.repo_of_reads hReads hRun
  | _ =>
      apply repo_of_not_dolt _ hExec
      intro statement hOp
      cases hOp

theorem ends_aside
    {α : Type}
    {program : VersioningProgram α}
    (hOnly : program.Only Aside) :
    Ends (VersioningOp.exec config) program s
      fun steps _ t =>
        t.repo = s.repo ∧ ∀ step ∈ steps, Aside step.op := by
  intro steps outcome t hSolo
  have hAside := hSolo.only hOnly
  refine ⟨?_, hAside⟩
  have hTrans :
      ∀ u v w : VersioningState,
        v.repo = u.repo → w.repo = v.repo → w.repo = u.repo :=
    fun _ _ _ hFirst hSecond => hSecond.trans hFirst
  apply
    hSolo.relates (fun u v => v.repo = u.repo)
      (fun _ => rfl) hTrans
  intro step hMember
  exact
    repo_of_aside (hAside step hMember)
      (hSolo.performed step hMember)

------------------------------------------------------------
-- Up To The Merge
------------------------------------------------------------

open Relational

variable {repo next : DoltRepo}
variable {name : String} {choice : VersioningChoice}
variable {answer : Except String String}

/- At most a table was reset. -/
structure Kept (before repo : DoltRepo) : Prop where
  commits : repo.commits = before.commits
  heads : repo.heads = before.heads
  checkedOut : repo.checkedOut = before.checkedOut
  merging : repo.merging = before.merging
  clean : before.Clean → repo.Clean

theorem Kept.refl (repo : DoltRepo) : Kept repo repo := by
  constructor
  · rfl
  · rfl
  · rfl
  · rfl
  · exact id

/- The branch was left, or everything was kept. -/
def Ready
    (before : DoltRepo)
    (steps : List VersioningTaken)
    (repo : DoltRepo) : Prop :=
  (∀ step ∈ steps, BeforeMerge step.op) ∧
    ((∃ step ∈ steps, Switches before step) ∧
        repo.checkedOut ≠ before.checkedOut ∨
      (¬ ∃ step ∈ steps, Switches before step) ∧
        Kept before repo)

theorem not_switches_of_aside
    (hAside : Aside step.op) :
    ¬ Switches before step := by
  rintro ⟨_, name, _, hOp, _⟩
  rw [hOp] at hAside
  exact hAside

theorem Ready.asides
    (hReady : Ready before steps repo)
    (hAside : ∀ step ∈ more, Aside step.op)
    (hRepo : next = repo) :
    Ready before (steps ++ more) next := by
  subst hRepo
  have hSwitched :
      (∃ step ∈ steps ++ more, Switches before step) ↔
        ∃ step ∈ steps, Switches before step := by
    constructor
    · rintro ⟨step, hMember, hSwitches⟩
      rcases List.mem_append.mp hMember with hOld | hNew
      · exact ⟨step, hOld, hSwitches⟩
      · exact
          absurd hSwitches
            (not_switches_of_aside (hAside step hNew))
    · rintro ⟨step, hMember, hSwitches⟩
      exact
        ⟨step, List.mem_append_left _ hMember, hSwitches⟩
  constructor
  · intro step hMember
    rcases List.mem_append.mp hMember with hOld | hNew
    · exact hReady.1 step hOld
    · exact beforeMerge_of_aside (hAside step hNew)
  · rw [hSwitched]
    exact hReady.2

theorem ready_of_aside
    (hAside : ∀ step ∈ steps, Aside step.op)
    (hRepo : next = before) :
    Ready before steps next := by
  have hStart : Ready before [] before := by
    constructor
    · intro step hMember
      cases hMember
    · right
      refine ⟨?_, Kept.refl before⟩
      rintro ⟨step, hMember, _⟩
      cases hMember
  exact hStart.asides hAside hRepo

/- A table that is reset is clean. -/
theorem kept_setTable
    {table : Table}
    (hTable : before.headTables.find name = some table) :
    Kept before (before.setTable name table) := by
  constructor
  · rfl
  · rfl
  · rfl
  · rfl
  · intro hClean
    constructor
    · intro other
      have hSet :=
        FiniteMap.find_set before.working name table other
      by_cases hOther : other = name
      · rw [if_pos hOther] at hSet
        rw [hOther] at hSet ⊢
        exact hSet.trans hTable.symm
      · rw [if_neg hOther] at hSet
        exact hSet.trans (hClean.working other)
    · exact hClean.staged
    · exact hClean.merging

/- A checkout leaves the branch, or keeps everything. -/
theorem ready_of_checkout
    {answer : Except String Unit}
    {u v : VersioningState}
    (hRun :
      (DoltStatement.checkout name).run config.dolt
          choice.toDoltChoice before =
        some (answer, next)) :
    Ready before
      [⟨.dolt (.checkout name), choice, u, answer, v⟩]
      next := by
  constructor
  · intro step hMember
    rw [List.mem_singleton.mp hMember]
    trivial
  have hOne :
      (∃ step ∈
          [(⟨.dolt (.checkout name), choice, u, answer, v⟩ :
            VersioningTaken)],
          Switches before step) ↔
        choice.fails = false ∧
          ∃ head,
            before.heads name = some head ∧
              name ≠ before.checkedOut ∧
              before.wouldOverwrite head.tables = false := by
    simp [Switches]
  rw [hOne]
  rcases DoltStatement.run_cases hRun with
    ⟨hFails, _, hSame⟩ | ⟨hWell, hPerform⟩
  · right
    rw [hFails, hSame]
    exact ⟨fun hNo => Bool.noConfusion hNo.1, Kept.refl before⟩
  simp only [DoltStatement.perform, Option.some.injEq]
    at hPerform
  unfold DoltRepo.checkout at hPerform
  cases hHead : before.heads name with
  | some head =>
      rw [hHead] at hPerform
      dsimp only at hPerform
      split_ifs at hPerform with hSame hOverwrites
      · cases hPerform
        right
        refine ⟨?_, Kept.refl before⟩
        rintro ⟨_, other, _, hOther, _⟩
        exact hOther hSame
      · cases hPerform
        right
        refine ⟨?_, Kept.refl before⟩
        rintro ⟨_, other, hFound, _, hFits⟩
        cases hFound
        rw [hOverwrites] at hFits
        cases hFits
      · cases hPerform
        left
        refine ⟨⟨hWell, head, rfl, hSame, ?_⟩, hSame⟩
        exact Bool.eq_false_iff.mpr hOverwrites
  | none =>
      rw [hHead] at hPerform
      dsimp only at hPerform
      have hNot :
          ¬ (choice.fails = false ∧
            ∃ head : Commit,
              (none : Option Commit) = some head ∧
                name ≠ before.checkedOut ∧
                before.wouldOverwrite head.tables =
                  false) := by
        rintro ⟨_, head, hFound, _⟩
        cases hFound
      split at hPerform
      · rename_i table hTable
        cases hPerform
        exact Or.inr ⟨hNot, kept_setTable hTable⟩
      · cases hPerform
        exact Or.inr ⟨hNot, Kept.refl before⟩

theorem Ready.after_asides
    {earlier : List VersioningTaken}
    (hAside : ∀ step ∈ earlier, Aside step.op)
    (hReady : Ready before steps repo) :
    Ready before (earlier ++ steps) repo := by
  have hSwitched :
      (∃ step ∈ earlier ++ steps, Switches before step) ↔
        ∃ step ∈ steps, Switches before step := by
    constructor
    · rintro ⟨step, hMember, hSwitches⟩
      rcases List.mem_append.mp hMember with hOld | hNew
      · exact
          absurd hSwitches
            (not_switches_of_aside (hAside step hOld))
      · exact ⟨step, hNew, hSwitches⟩
    · rintro ⟨step, hMember, hSwitches⟩
      exact
        ⟨step, List.mem_append_right _ hMember, hSwitches⟩
  constructor
  · intro step hMember
    rcases List.mem_append.mp hMember with hOld | hNew
    · exact beforeMerge_of_aside (hAside step hOld)
    · exact hReady.1 step hNew
  · rw [hSwitched]
    exact hReady.2

theorem aside_readCurrentBranchName :
    readCurrentBranchName.Only Aside :=
  only_readCurrentBranchName trivial

theorem ends_checkoutBranch
    (hBefore : s.repo = before) :
    Ends (VersioningOp.exec config)
      (runDoltCheckoutBranch name) s
      fun steps _ t => Ready before steps t.repo := by
  apply ends_bind
  apply ends_dolt
  intro choice answer next hRun
  rw [hBefore] at hRun
  have hReady : Ready before _ next :=
    ready_of_checkout (u := s) (v := ⟨next, s.lock⟩) hRun
  apply ends_answered
  · intro _ _
    exact hReady
  · intro _ _
    exact hReady

theorem ends_checkoutMergeTarget
    (target : Option String)
    (hBefore : s.repo = before) :
    Ends (VersioningOp.exec config)
      (checkoutMergeTarget target) s
      fun steps _ t => Ready before steps t.repo := by
  have hNone :
      ∀ u : VersioningState, u.repo = before →
        Ready before [] u.repo := by
    intro u hSame
    apply ready_of_aside _ hSame
    intro step hMember
    cases hMember
  cases target with
  | none => exact ends_returned (hNone s hBefore)
  | some targetBranch =>
      apply ends_bind
      apply ends_ensure
      case hFails =>
        intro _
        exact hNone s hBefore
      intro _
      refine
        ends_bind_of (ends_aside aside_readCurrentBranchName)
          ?_ ?_
      · rintro steps currentBranch u ⟨hSame, hAside⟩
        rw [hBefore] at hSame
        split
        · apply ends_returned
          simpa using ready_of_aside hAside hSame
        · apply ends_bind
          apply ends_ensure
          case hFails =>
            intro _
            simpa using ready_of_aside hAside hSame
          intro _
          refine ends_mono (ends_checkoutBranch hSame) ?_
          intro more outcome t hReady
          simpa using Ready.after_asides hAside hReady
      · rintro steps error u ⟨hSame, hAside⟩
        rw [hBefore] at hSame
        exact ready_of_aside hAside hSame

/- The merge ran, after nothing but a checkout. -/
structure Merged
    (config : VersioningConfig)
    (before : DoltRepo)
    (source : String)
    (earlier : List VersioningTaken)
    (step : VersioningTaken)
    (result : MergeOutput) : Prop where
  ready : Ready before earlier step.before.repo
  op : step.op = .dolt (.merge source)
  output : mergeOutput step = some result
  ran :
    (step.choice.fails = true ∧
        step.after.repo = step.before.repo) ∨
      step.choice.fails = false ∧
        step.before.repo.merge config.dolt step.choice.hash
            step.choice.text source =
          some (result, step.after.repo)

/- How a merge that was asked for ends. -/
def MergeRan
    (config : VersioningConfig)
    (before : DoltRepo)
    (source : String)
    (steps : List VersioningTaken)
    (outcome : Except VersioningError MergeOutput)
    (u : VersioningState) : Prop :=
  match outcome with
  | .error _ => Ready before steps u.repo
  | .ok result =>
      ∃ earlier step,
        steps = earlier ++ [step] ∧
          Merged config before source earlier step result ∧
          step.after.repo = u.repo

theorem ends_runDoltMerge
    (source : String)
    (target : Option String)
    (hBefore : s.repo = before) :
    Ends (VersioningOp.exec config)
      (runDoltMerge source target) s
      (MergeRan config before source) := by
  apply ends_bind
  apply ends_ensure
  case hFails =>
    intro _
    apply ready_of_aside _ hBefore
    intro step hMember
    cases hMember
  intro _
  refine
    ends_bind_of (ends_checkoutMergeTarget target hBefore)
      ?_ ?_
  · intro steps _ u hReady
    refine
      ends_bind_of (ends_aside aside_readCurrentBranchName)
        ?_ ?_
    · rintro more _ v ⟨hSame, hAside⟩
      have hMore := hReady.asides hAside hSame
      apply ends_dolt
      intro choice answer next hRun
      let merging : VersioningTaken :=
        ⟨.dolt (.merge source), choice, v, answer,
          ⟨next, v.lock⟩⟩
      refine
        ⟨steps ++ more, merging, ?_, ⟨hMore, rfl, rfl, ?_⟩,
          rfl⟩
      · simp [merging]
      · rcases DoltStatement.run_cases hRun with
          ⟨hFails, _, hNext⟩ | ⟨hWell, hPerform⟩
        · exact Or.inl ⟨hFails, hNext⟩
        · exact Or.inr ⟨hWell, hPerform⟩
    · rintro more error v ⟨hSame, hAside⟩
      exact hReady.asides hAside hSame
  · intro steps error u hReady
    exact hReady

------------------------------------------------------------
-- After The Merge
------------------------------------------------------------

/- The conflicts are read, or a step stopped the reading. -/
def ReadEnds
    {α : Type}
    (s : VersioningState)
    (named : Bool)
    (steps : List VersioningTaken)
    (outcome : Except VersioningError α)
    (t : VersioningState) : Prop :=
  t.repo = s.repo ∧ (∀ step ∈ steps, AfterMerge step.op) ∧
    ((∃ value, outcome = .ok value) ↔
      named = true ∧ ∀ step ∈ steps, Readable step)

theorem readable_conflictRows_iff
    {table : String}
    {u v : VersioningState} :
    Readable
        ⟨.dolt (.conflictRows table), choice, u, answer, v⟩ ↔
      choice.fails = false := by
  simp [Readable]

theorem readable_listConflicts_iff
    {u v : VersioningState} :
    Readable ⟨.dolt .listConflicts, choice, u, answer, v⟩ ↔
      choice.fails = false ∧
        namesTables (parseCsv choice.text) = true := by
  simp [Readable]

theorem ends_readConflictTable
    (tableName : String)
    (expectedCount : Option String) :
    Ends (VersioningOp.exec config)
      (readConflictTable tableName expectedCount) s
      (ReadEnds s (safeTableRe tableName)) := by
  apply ends_bind
  apply ends_ensure
  case hFails =>
    intro hUnsafe
    refine ⟨rfl, by simp, ?_⟩
    rw [hUnsafe]
    simp
  intro hSafe
  apply ends_bind
  apply ends_dolt
  intro choice answer next hRun
  have hReads : (DoltStatement.conflictRows tableName).Reads :=
    trivial
  have hSame := DoltStatement.repo_of_reads hReads hRun
  have hAfter :
      AfterMerge (.dolt (.conflictRows tableName)) := trivial
  rcases DoltStatement.run_cases hRun with
    ⟨hFails, hAnswer, _⟩ | ⟨hWell, hPerform⟩
  · subst hAnswer
    apply ends_threw
    refine ⟨hSame, by simp [hAfter], ?_⟩
    simp [readable_conflictRows_iff, hFails]
  · cases hPerform
    apply ends_returned
    refine ⟨rfl, by simp [hAfter], ?_⟩
    simp [readable_conflictRows_iff, hWell, hSafe]

/- By induction on the rows that are left. -/
theorem ends_readConflictTables
    (rows : List CsvRow)
    (tables : List MergeConflictTable) :
    Ends (VersioningOp.exec config)
      (readConflictTables rows tables) s
      (ReadEnds s (namesTables rows)) := by
  induction rows generalizing tables s with
  | nil =>
      apply ends_returned
      exact ⟨rfl, by simp, by simp [namesTables]⟩
  | cons row rest ih =>
      unfold readConflictTables
      cases hName : row.get? "table" with
      | none =>
          apply ends_threw
          refine ⟨rfl, by simp, ?_⟩
          simp [namesTables, hName]
      | some tableName =>
          dsimp only
          by_cases hEmpty : tableName = ""
          · rw [if_pos hEmpty]
            apply ends_threw
            refine ⟨rfl, by simp, ?_⟩
            simp [namesTables, hName, hEmpty, safeTableRe]
          rw [if_neg hEmpty]
          refine
            ends_bind_of
              (ends_readConflictTable tableName
                (row.get? "num_conflicts"))
              ?_ ?_
          · rintro steps table u ⟨hSame, hAfter, hOk⟩
            have hRead := hOk.mp ⟨table, rfl⟩
            refine ends_mono (ih (tables ++ [table])) ?_
            rintro more outcome t ⟨hRest, hLater, hEnded⟩
            refine ⟨hRest.trans hSame, ?_, ?_⟩
            · intro step hMember
              rcases List.mem_append.mp hMember with
                hOld | hNew
              · exact hAfter step hOld
              · exact hLater step hNew
            · rw [hEnded]
              have hNames :
                  namesTables (row :: rest) =
                    namesTables rest := by
                simp [namesTables, hName, hRead.1]
              rw [hNames]
              constructor
              · rintro ⟨hNamed, hAll⟩
                refine ⟨hNamed, ?_⟩
                intro step hMember
                rcases List.mem_append.mp hMember with
                  hOld | hNew
                · exact hRead.2 step hOld
                · exact hAll step hNew
              · rintro ⟨hNamed, hAll⟩
                refine ⟨hNamed, ?_⟩
                intro step hMember
                exact
                  hAll step (List.mem_append_right _ hMember)
          · rintro steps error u ⟨hSame, hAfter, hOk⟩
            refine ⟨hSame, hAfter, ?_⟩
            constructor
            · rintro ⟨value, hValue⟩
              cases hValue
            · rintro ⟨hNamed, hAll⟩
              have hSafe : safeTableRe tableName = true := by
                simp only [namesTables, List.all_cons, hName,
                  Bool.and_eq_true] at hNamed
                exact hNamed.1
              rcases hOk.mpr ⟨hSafe, hAll⟩ with
                ⟨value, hValue⟩
              cases hValue

theorem ends_runDoltReadConflicts :
    Ends (VersioningOp.exec config) runDoltReadConflicts s
      (ReadEnds s true) := by
  apply ends_bind
  apply ends_dolt
  intro choice answer next hRun
  have hReads : DoltStatement.listConflicts.Reads := trivial
  have hSame := DoltStatement.repo_of_reads hReads hRun
  have hAfter : AfterMerge (.dolt .listConflicts) := trivial
  rcases DoltStatement.run_cases hRun with
    ⟨hFails, hAnswer, _⟩ | ⟨hWell, hPerform⟩
  · subst hAnswer
    apply ends_threw
    refine ⟨hSame, by simp [hAfter], ?_⟩
    simp [readable_listConflicts_iff, hFails]
  · cases hPerform
    apply ends_bind
    apply ends_returned
    refine
      ends_mono
        (ends_readConflictTables (parseCsv choice.text) []) ?_
    rintro more outcome t ⟨hRest, hLater, hEnded⟩
    refine ⟨hRest, ?_, ?_⟩
    · intro step hMember
      simp only [List.nil_append, List.mem_append,
        List.mem_singleton] at hMember
      rcases hMember with hFirst | hMore
      · rw [hFirst]
        exact hAfter
      · exact hLater step hMore
    · rw [hEnded]
      simp [readable_listConflicts_iff, hWell]

/- What a refused merge leaves of the repository. -/
def RefusalEnds
    (s : VersioningState)
    (result : MergeOutput)
    (steps : List VersioningTaken)
    (t : VersioningState) : Prop :=
  (∀ step ∈ steps, AfterMerge step.op) ∧
    (AbortsSucceed steps →
      (t.repo = s.repo ∧
          ¬ (includesLower (combinedOutput result)
                "conflict" = true ∧
              ∀ step ∈ steps, Readable step)) ∨
        t.repo = s.repo.mergeAbort.2 ∧
          includesLower (combinedOutput result)
              "conflict" = true ∧
            ∀ step ∈ steps, Readable step)

theorem ends_rejectMerge
    (sourceBranch target : String)
    (result : MergeOutput) :
    Ends (VersioningOp.exec config)
      (rejectMerge sourceBranch target result) s
      fun steps _ t => RefusalEnds s result steps t := by
  unfold rejectMerge
  by_cases hConflict :
      includesLower (combinedOutput result) "conflict" = true
  · rw [if_pos hConflict]
    refine ends_bind_of ends_runDoltReadConflicts ?_ ?_
    · rintro steps conflicts u ⟨hSame, hAfter, hOk⟩
      have hRead := (hOk.mp ⟨conflicts, rfl⟩).2
      apply ends_bind
      apply ends_bind
      apply ends_dolt
      intro choice answer next hRun
      let abort : VersioningTaken :=
        ⟨.dolt .mergeAbort, choice, u, answer, ⟨next, u.lock⟩⟩
      have hRefused :
          RefusalEnds s result (steps ++ [abort])
            ⟨next, u.lock⟩ := by
        have hLater :
            ∀ step ∈ steps ++ [abort], AfterMerge step.op := by
          intro step hMember
          rcases List.mem_append.mp hMember with hOld | hNew
          · exact hAfter step hOld
          · rw [List.mem_singleton.mp hNew]
            trivial
        refine ⟨hLater, ?_⟩
        intro hAborts
        have hWell :=
          hAborts abort
            (List.mem_append_right _ List.mem_cons_self) rfl
        have hPerform :=
          DoltStatement.perform_of_run hWell hRun
        right
        refine ⟨?_, hConflict, ?_⟩
        · rw [hSame] at hPerform
          have hAborted :=
            congrArg Prod.snd (Option.some.inj hPerform)
          exact hAborted.symm
        · intro step hMember
          rcases List.mem_append.mp hMember with hOld | hNew
          · exact hRead step hOld
          · rw [List.mem_singleton.mp hNew]
            simp [Readable, abort]
      cases answer with
      | ok _ =>
          apply ends_returned
          apply ends_threw
          simpa using hRefused
      | error text =>
          apply ends_threw
          simpa using hRefused
    · rintro steps error u ⟨hSame, hAfter, hOk⟩
      refine ⟨hAfter, ?_⟩
      intro _
      left
      refine ⟨hSame, ?_⟩
      rintro ⟨_, hAll⟩
      rcases hOk.mpr ⟨rfl, hAll⟩ with ⟨value, hValue⟩
      cases hValue
  · rw [if_neg hConflict]
    apply ends_threw
    refine ⟨by simp, ?_⟩
    intro _
    left
    exact ⟨rfl, fun hBoth => hConflict hBoth.1⟩

------------------------------------------------------------
-- What Is Left Of A Rejected Merge
------------------------------------------------------------

variable {earlier later : List VersioningTaken}
variable {source : String} {result : MergeOutput}

/- A merge stays on its branch. -/
theorem checkedOut_merge
    {dolt : DoltConfig}
    {hash text : String}
    {output : MergeOutput}
    (hMerge :
      repo.merge dolt hash text source = some (output, next)) :
    next.checkedOut = repo.checkedOut := by
  unfold DoltRepo.merge at hMerge
  split at hMerge
  · split_ifs at hMerge
    · cases hMerge
      rfl
    · cases hMerge
      rfl
    · unfold DoltRepo.fastForward at hMerge
      split_ifs at hMerge
      all_goals
        cases hMerge
        rfl
    · unfold DoltRepo.mergeCommits at hMerge
      split at hMerge
      · cases hMerge
        rfl
      · split_ifs at hMerge
        · cases hMerge
          rfl
        · rw [Option.map_eq_some_iff] at hMerge
          rcases hMerge with ⟨after, hRecord, hEq⟩
          cases hEq
          rcases DoltRepo.record_cases hRecord with
            ⟨_, commits, _, hNext⟩
          rw [hNext]
          rfl
  · cases hMerge
    rfl

theorem checkedOut_mergeAbort :
    repo.mergeAbort.2.checkedOut = repo.checkedOut := by
  unfold DoltRepo.mergeAbort
  split
  · rfl
  · rfl

theorem Merged.checkedOut
    (hMerged :
      Merged config before source earlier step result) :
    step.after.repo.checkedOut =
      step.before.repo.checkedOut := by
  rcases hMerged.ran with ⟨_, hSame⟩ | ⟨_, hMerge⟩
  · rw [hSame]
  · exact checkedOut_merge hMerge

/- Nothing but the merge is a merge. -/
theorem exists_merged_iff
    {holds : VersioningTaken → Prop}
    (hOnly :
      ∀ step,
        (∀ source, step.op ≠ .dolt (.merge source)) →
          ¬ holds step)
    (hEarlier : ∀ step ∈ earlier, BeforeMerge step.op)
    (hLater : ∀ step ∈ later, AfterMerge step.op) :
    (∃ other ∈ earlier ++ ([step] ++ later), holds other) ↔
      holds step := by
  constructor
  · rintro ⟨other, hMember, hHolds⟩
    rcases List.mem_append.mp hMember with hOld | hRest
    · exact
        absurd hHolds
          (hOnly other
            (not_merge_of_beforeMerge (hEarlier other hOld)))
    rcases List.mem_append.mp hRest with hThis | hNew
    · rw [List.mem_singleton.mp hThis] at hHolds
      exact hHolds
    · exact
        absurd hHolds
          (hOnly other
            (not_merge_of_afterMerge (hLater other hNew)))
  · intro hHolds
    refine ⟨step, ?_, hHolds⟩
    apply List.mem_append_right
    exact List.mem_append_left _ List.mem_cons_self

theorem mentions_iff
    (hOutput : mergeOutput step = some result) :
    Mentions step ↔
      result.exitCode ≠ 0 ∧
        includesLower (combinedOutput result) "conflict" =
          true := by
  unfold Mentions
  rw [hOutput]
  simp

/- It is the merge that is noticed, and what follows read. -/
theorem noticed_iff
    (hEarlier : ∀ step ∈ earlier, BeforeMerge step.op)
    (hOp : step.op = .dolt (.merge source))
    (hOutput : mergeOutput step = some result)
    (hLater : ∀ step ∈ later, AfterMerge step.op) :
    Noticed (earlier ++ ([step] ++ later)) ↔
      (result.exitCode ≠ 0 ∧
        includesLower (combinedOutput result) "conflict" =
          true) ∧
        ∀ step ∈ later, Readable step := by
  have hMentions :
      (∃ other ∈ earlier ++ ([step] ++ later),
          Mentions other) ↔
        Mentions step :=
    exists_merged_iff (fun _ hOp => not_mentions hOp) hEarlier
      hLater
  unfold Noticed
  rw [hMentions, mentions_iff hOutput]
  constructor
  · rintro ⟨hMentioned, hAll⟩
    refine ⟨hMentioned, ?_⟩
    intro other hMember
    apply hAll
    apply List.mem_append_right
    exact List.mem_append_right _ hMember
  · rintro ⟨hMentioned, hAll⟩
    refine ⟨hMentioned, ?_⟩
    intro other hMember
    rcases List.mem_append.mp hMember with hOld | hRest
    · exact readable_of_beforeMerge (hEarlier other hOld)
    rcases List.mem_append.mp hRest with hThis | hNew
    · rw [List.mem_singleton.mp hThis]
      exact readable_of_merge hOp
    · exact hAll other hNew

theorem Merged.noticed_iff
    (hMerged :
      Merged config before source earlier step result)
    (hLater : ∀ step ∈ later, AfterMerge step.op) :
    Noticed (earlier ++ ([step] ++ later)) ↔
      (result.exitCode ≠ 0 ∧
        includesLower (combinedOutput result) "conflict" =
          true) ∧
        ∀ step ∈ later, Readable step :=
  Versioning.noticed_iff hMerged.ready.1 hMerged.op
    hMerged.output hLater

/- Without a merge nothing is lost but the branch. -/
theorem restored_iff_of_ready
    (hReady : Ready before steps repo) :
    Restored before repo ↔
      Undone config.dolt before steps := by
  have hNone :
      ∀ step ∈ steps,
        ∀ source, step.op ≠ .dolt (.merge source) :=
    fun step hMember =>
      not_merge_of_beforeMerge (hReady.1 step hMember)
  rcases hReady.2 with ⟨hSwitched, hOut⟩ | ⟨hStays, hKept⟩
  · constructor
    · intro hRestored
      exact absurd hRestored.checkedOut hOut
    · intro hUndone
      exact absurd hSwitched hUndone.stays
  · constructor
    · intro hRestored
      refine ⟨hStays, ?_, Or.inr ⟨?_, ?_⟩⟩
      · rintro ⟨step, hMember, hAdvances⟩
        exact not_stepAdvances (hNone step hMember) hAdvances
      · rw [← hKept.merging]
        exact hRestored.merging
      · rintro ⟨step, hMember, hSticks⟩
        exact not_stepSticks (hNone step hMember) hSticks
    · intro hUndone
      rcases hUndone.settled with hNoticed | ⟨hIdle, _⟩
      · rcases hNoticed.1 with ⟨step, hMember, hMentions⟩
        exact
          absurd hMentions (not_mentions (hNone step hMember))
      · refine ⟨?_, hKept.clean, hKept.checkedOut,
          hKept.heads⟩
        rw [hKept.merging]
        exact hIdle

/- What the merge of a run has done. -/
theorem Merged.cases
    (hHeads : step.before.repo.HeadsRecorded)
    (hMerged :
      Merged config before source earlier step result) :
    (step.after.repo = step.before.repo ∧
        ¬ StepAdvances config.dolt step ∧
        ¬ StepSticks config.dolt step) ∨
      (result.exitCode = 0 ∧
        step.after.repo.heads ≠ step.before.repo.heads ∧
        StepAdvances config.dolt step) ∨
      result.exitCode ≠ 0 ∧ StepSticks config.dolt step ∧
        ∃ tables state,
          state.preMergeWorking = step.before.repo.working ∧
            step.after.repo =
              (step.before.repo.setWorking
                tables).setMerging (some state) := by
  have hSource :
      ∀ other, step.op = .dolt (.merge other) →
        other = source := by
    intro other hOther
    rw [hMerged.op] at hOther
    cases hOther
    rfl
  rcases hMerged.ran with ⟨hFails, hSame⟩ | ⟨hWell, hMerge⟩
  · left
    refine ⟨hSame, ?_, ?_⟩
    · rintro ⟨hWell, _⟩
      rw [hFails] at hWell
      cases hWell
    · rintro ⟨hWell, _⟩
      rw [hFails] at hWell
      cases hWell
  · rcases DoltRepo.merge_cases hHeads hMerge with
      ⟨hSame, hNoAdvance, hNoStick⟩ |
        ⟨hExit, hMoved, hAdvances⟩ |
        ⟨hExit, hSticks, hStuck⟩
    · left
      refine ⟨hSame, ?_, ?_⟩
      · rintro ⟨_, other, hOp, hAdvances⟩
        rw [hSource other hOp] at hAdvances
        exact hNoAdvance hAdvances
      · rintro ⟨_, other, hOp, hSticks⟩
        rw [hSource other hOp] at hSticks
        exact hNoStick hSticks
    · exact Or.inr (Or.inl
        ⟨hExit, hMoved, hWell, source, hMerged.op, hAdvances⟩)
    · exact Or.inr (Or.inr
        ⟨hExit, ⟨hWell, source, hMerged.op, hSticks⟩, hStuck⟩)

/- An abort that was not needed changes nothing visible. -/
theorem restored_mergeAbort_of_kept
    (hKept : Kept before repo) :
    Restored before repo.mergeAbort.2 := by
  unfold DoltRepo.mergeAbort
  cases hMerging : repo.merging with
  | none =>
      exact ⟨hMerging, hKept.clean, hKept.checkedOut,
        hKept.heads⟩
  | some state =>
      refine ⟨rfl, ?_, hKept.checkedOut, hKept.heads⟩
      intro hClean
      have hIdle := hClean.merging
      rw [← hKept.merging, hMerging] at hIdle
      cases hIdle

/- An abort takes a stuck merge back. -/
theorem restored_mergeAbort_of_stuck
    {tables : Tables}
    {state : MergeState}
    (hKept : Kept before repo)
    (hState : state.preMergeWorking = repo.working) :
    Restored before
      ((repo.setWorking tables).setMerging
        (some state)).mergeAbort.2 := by
  refine ⟨rfl, ?_, hKept.checkedOut, hKept.heads⟩
  intro hClean
  have hWorking := (hKept.clean hClean).working
  rw [← hState] at hWorking
  exact ⟨hWorking, hWorking, rfl⟩

theorem not_stepAdvances_of_stepSticks
    {dolt : DoltConfig}
    (hSticks : StepSticks dolt step) :
    ¬ StepAdvances dolt step := by
  rintro ⟨_, source, hOp, _, ours, theirs, tables, hOurs,
    hTheirs, _, hTables, _⟩
  rcases hSticks with
    ⟨_, other, hOther, _, ours', theirs', hOurs', hTheirs', _,
      hNone⟩
  rw [hOp] at hOther
  cases hOther
  rw [hOurs] at hOurs'
  rw [hTheirs] at hTheirs'
  cases hOurs'
  cases hTheirs'
  rw [hTables] at hNone
  cases hNone

/- The repository at the end of a merge that was refused. -/
def EndsAs
    (result : MergeOutput)
    (merged : DoltRepo)
    (later : List VersioningTaken)
    (after : DoltRepo) : Prop :=
  (after = merged ∧
      ¬ ((result.exitCode ≠ 0 ∧
          includesLower (combinedOutput result) "conflict" =
            true) ∧
        ∀ step ∈ later, Readable step)) ∨
    after = merged.mergeAbort.2 ∧
      (result.exitCode ≠ 0 ∧
        includesLower (combinedOutput result) "conflict" =
          true) ∧
        ∀ step ∈ later, Readable step

theorem EndsAs.checkedOut
    {after : DoltRepo}
    (hEnds : EndsAs result repo later after) :
    after.checkedOut = repo.checkedOut := by
  rcases hEnds with ⟨hAfter, _⟩ | ⟨hAfter, _⟩
  · rw [hAfter]
  · rw [hAfter]
    exact checkedOut_mergeAbort

theorem switches_iff_of_merged
    (hMerged :
      Merged config before source earlier step result)
    (hLater : ∀ step ∈ later, AfterMerge step.op) :
    (∃ other ∈ earlier ++ ([step] ++ later),
        Switches before other) ↔
      ∃ other ∈ earlier, Switches before other := by
  constructor
  · rintro ⟨other, hMember, hSwitches⟩
    rcases List.mem_append.mp hMember with hOld | hRest
    · exact ⟨other, hOld, hSwitches⟩
    rcases List.mem_append.mp hRest with hThis | hNew
    · rw [List.mem_singleton.mp hThis] at hSwitches
      rcases hSwitches with ⟨_, name, _, hOp, _⟩
      rw [hMerged.op] at hOp
      cases hOp
    · exact
        absurd hSwitches
          (not_switches_of_afterMerge (hLater other hNew))
  · rintro ⟨other, hMember, hSwitches⟩
    exact ⟨other, List.mem_append_left _ hMember, hSwitches⟩

theorem restored_iff_of_merged
    {after : DoltRepo}
    (hHeads : before.HeadsRecorded)
    (hMerged :
      Merged config before source earlier step result)
    (hLater : ∀ step ∈ later, AfterMerge step.op)
    (hEnds : EndsAs result step.after.repo later after) :
    Restored before after ↔
      Undone config.dolt before
        (earlier ++ ([step] ++ later)) := by
  have hSwitched := switches_iff_of_merged hMerged hLater
  have hNoticed := hMerged.noticed_iff hLater
  have hAdvances :
      (∃ other ∈ earlier ++ ([step] ++ later),
          StepAdvances config.dolt other) ↔
        StepAdvances config.dolt step :=
    exists_merged_iff (fun _ hOp => not_stepAdvances hOp)
      hMerged.ready.1 hLater
  have hSticks :
      (∃ other ∈ earlier ++ ([step] ++ later),
          StepSticks config.dolt other) ↔
        StepSticks config.dolt step :=
    exists_merged_iff (fun _ hOp => not_stepSticks hOp)
      hMerged.ready.1 hLater
  rcases hMerged.ready.2 with ⟨hLeft, hOut⟩ | ⟨hStays, hKept⟩
  · constructor
    · intro hRestored
      apply absurd hRestored.checkedOut
      rw [hEnds.checkedOut, hMerged.checkedOut]
      exact hOut
    · intro hUndone
      exact absurd (hSwitched.mpr hLeft) hUndone.stays
  have hStaysAll :
      ¬ ∃ other ∈ earlier ++ ([step] ++ later),
        Switches before other := by
    rw [hSwitched]
    exact hStays
  have hHeadsThen : step.before.repo.HeadsRecorded := by
    intro branch commit hHead
    rw [hKept.heads] at hHead
    rw [hKept.commits]
    exact hHeads branch commit hHead
  rcases hMerged.cases hHeadsThen with
    ⟨hSame, hNoAdvance, hNoStick⟩ |
      ⟨hExit, hMoved, hAdvance⟩ |
      ⟨hExit, hStick, tables, state, hState, hStuck⟩
  · -- the merge did nothing
    rw [hSame] at hEnds
    rcases hEnds with ⟨hAfter, hMissed⟩ | ⟨hAfter, hRead⟩
    · subst hAfter
      constructor
      · intro hRestored
        refine ⟨hStaysAll, ?_, Or.inr ⟨?_, ?_⟩⟩
        · rw [hAdvances]
          exact hNoAdvance
        · rw [← hKept.merging]
          exact hRestored.merging
        · rw [hSticks]
          exact hNoStick
      · intro hUndone
        rcases hUndone.settled with hSeen | ⟨hIdle, _⟩
        · exact absurd (hNoticed.mp hSeen) hMissed
        · refine ⟨?_, hKept.clean, hKept.checkedOut,
            hKept.heads⟩
          rw [hKept.merging]
          exact hIdle
    · subst hAfter
      constructor
      · intro _
        refine ⟨hStaysAll, ?_, Or.inl (hNoticed.mpr hRead)⟩
        rw [hAdvances]
        exact hNoAdvance
      · intro _
        exact restored_mergeAbort_of_kept hKept
  · -- the merge moved the branch
    rcases hEnds with ⟨hAfter, _⟩ | ⟨_, hRead⟩
    · subst hAfter
      constructor
      · intro hRestored
        have hHeadsAfter := hRestored.heads
        rw [← hKept.heads] at hHeadsAfter
        exact absurd hHeadsAfter hMoved
      · intro hUndone
        exact absurd (hAdvances.mpr hAdvance) hUndone.unmoved
    · exact absurd hExit hRead.1.1
  · -- the merge was stuck
    rcases hEnds with ⟨hAfter, hMissed⟩ | ⟨hAfter, hRead⟩
    · subst hAfter
      constructor
      · intro hRestored
        have hMerging := hRestored.merging
        rw [hStuck] at hMerging
        cases hMerging
      · intro hUndone
        rcases hUndone.settled with hSeen | ⟨_, hNone⟩
        · exact absurd (hNoticed.mp hSeen) hMissed
        · exact absurd (hSticks.mpr hStick) hNone
    · subst hAfter
      have hNoAdvance := not_stepAdvances_of_stepSticks hStick
      constructor
      · intro _
        refine ⟨hStaysAll, ?_, Or.inl (hNoticed.mpr hRead)⟩
        rw [hAdvances]
        exact hNoAdvance
      · intro _
        rw [hStuck]
        exact restored_mergeAbort_of_stuck hKept hState

------------------------------------------------------------
-- Merges That Are Rejected
------------------------------------------------------------

/- A rejection restores exactly what `Undone` says. -/
def RejectionEnds
    {α : Type}
    (config : VersioningConfig)
    (before : DoltRepo)
    (steps : List VersioningTaken)
    (outcome : Except VersioningError α)
    (t : VersioningState) : Prop :=
  ∀ error,
    outcome = .error error →
      AbortsSucceed steps →
        (Restored before t.repo ↔
          Undone config.dolt before steps)

theorem rejectionEnds_of_ready
    {α : Type}
    {steps : List VersioningTaken}
    {outcome : Except VersioningError α}
    {t : VersioningState}
    (hReady : Ready before steps t.repo) :
    RejectionEnds config before steps outcome t := by
  intro error _ _
  exact restored_iff_of_ready hReady

theorem aside_reportMerge
    (sourceBranch target : String)
    (result : MergeOutput) :
    (reportMerge sourceBranch target result).Only Aside :=
  only_reportMerge _ _ _ trivial

theorem aside_intendedTarget (target : Option String) :
    (intendedTarget target).Only Aside :=
  only_intendedTarget trivial target

theorem ends_mergeExclusive
    (source : String)
    (target : Option String)
    (hHeads : before.HeadsRecorded)
    (hBefore : s.repo = before) :
    Ends (VersioningOp.exec config)
      (mergeExclusive source target) s
      (RejectionEnds config before) := by
  refine
    ends_bind_of (ends_aside (aside_intendedTarget target))
      ?_ ?_
  · rintro asides intended u ⟨hSame, hAside⟩
    rw [hBefore] at hSame
    have hRan :
        Ends (VersioningOp.exec config)
          (translateMergeErrors (runDoltMerge source target)) u
          (MergeRan config before source) := by
      refine
        ends_catchError_of
          (ends_runDoltMerge source target hSame) ?_ ?_
      · intro steps result v hOk
        exact hOk
      · intro steps error v hReady
        apply ends_threw
        rw [List.append_nil]
        exact hReady
    refine ends_bind_of hRan ?_ ?_
    · rintro steps result v
        ⟨earlier, step, hSteps, hMerged, hAfter⟩
      subst hSteps
      have hReady :=
        Ready.after_asides hAside hMerged.ready
      have hWhole :
          Merged config before source (asides ++ earlier) step
            result :=
        ⟨hReady, hMerged.op, hMerged.output, hMerged.ran⟩
      split
      · rename_i hExit
        refine
          ends_mono
            (ends_aside
              (aside_reportMerge source intended result)) ?_
        rintro later outcome t ⟨hLast, hLater⟩ error _ _
        have hAfterMerge :
            ∀ step ∈ later, AfterMerge step.op :=
          fun step hMember =>
            afterMerge_of_aside (hLater step hMember)
        have hEnd :
            EndsAs result step.after.repo later t.repo := by
          left
          rw [hLast, hAfter]
          refine ⟨rfl, ?_⟩
          rintro ⟨⟨hFailed, _⟩, _⟩
          exact hFailed hExit
        have hIff :=
          restored_iff_of_merged hHeads hWhole hAfterMerge hEnd
        simpa using hIff
      · rename_i hExit
        refine
          ends_mono
            (ends_rejectMerge source intended result) ?_
        rintro later outcome t ⟨hLater, hEnds⟩ error _ hAborts
        have hAbortsLater : AbortsSucceed later := by
          intro step hMember
          apply hAborts
          simp [hMember]
        have hEnd :
            EndsAs result step.after.repo later t.repo := by
          rw [hAfter]
          rcases hEnds hAbortsLater with
            ⟨hSame, hMissed⟩ | ⟨hAborted, hMentions, hRead⟩
          · left
            refine ⟨hSame, ?_⟩
            rintro ⟨⟨_, hMentions⟩, hRead⟩
            exact hMissed ⟨hMentions, hRead⟩
          · right
            exact ⟨hAborted, ⟨hExit, hMentions⟩, hRead⟩
        have hIff :=
          restored_iff_of_merged hHeads hWhole hLater hEnd
        simpa using hIff
    · intro steps error v hReady
      apply rejectionEnds_of_ready
      exact Ready.after_asides hAside hReady
  · rintro asides error u ⟨hSame, hAside⟩
    rw [hBefore] at hSame
    exact rejectionEnds_of_ready (ready_of_aside hAside hSame)

/- Steps that no exit depends on can be added anywhere. -/
theorem exists_among_iff
    {holds : VersioningTaken → Prop}
    {all steps asides : List VersioningTaken}
    (hNot : ∀ step, Aside step.op → ¬ holds step)
    (hAside : ∀ step ∈ asides, Aside step.op)
    (hAll : ∀ step, step ∈ all ↔ step ∈ steps ∨ step ∈ asides) :
    (∃ step ∈ all, holds step) ↔ ∃ step ∈ steps, holds step := by
  constructor
  · rintro ⟨step, hMember, hHolds⟩
    rcases (hAll step).mp hMember with hStep | hOther
    · exact ⟨step, hStep, hHolds⟩
    · exact absurd hHolds (hNot step (hAside step hOther))
  · rintro ⟨step, hMember, hHolds⟩
    exact ⟨step, (hAll step).mpr (Or.inl hMember), hHolds⟩

theorem undone_among_iff
    {all steps asides : List VersioningTaken}
    (hAside : ∀ step ∈ asides, Aside step.op)
    (hAll : ∀ step, step ∈ all ↔ step ∈ steps ∨ step ∈ asides) :
    Undone config.dolt before all ↔
      Undone config.dolt before steps := by
  have hNoMerge :
      ∀ step : VersioningTaken, Aside step.op →
        ∀ source, step.op ≠ .dolt (.merge source) :=
    fun _ hStep =>
      not_merge_of_beforeMerge (beforeMerge_of_aside hStep)
  have hSwitches :
      (∃ step ∈ all, Switches before step) ↔
        ∃ step ∈ steps, Switches before step :=
    exists_among_iff (fun _ => not_switches_of_aside) hAside
      hAll
  have hAdvances :
      (∃ step ∈ all, StepAdvances config.dolt step) ↔
        ∃ step ∈ steps, StepAdvances config.dolt step :=
    exists_among_iff
      (fun step hStep => not_stepAdvances (hNoMerge step hStep))
      hAside hAll
  have hSticks :
      (∃ step ∈ all, StepSticks config.dolt step) ↔
        ∃ step ∈ steps, StepSticks config.dolt step :=
    exists_among_iff
      (fun step hStep => not_stepSticks (hNoMerge step hStep))
      hAside hAll
  have hMentions :
      (∃ step ∈ all, Mentions step) ↔
        ∃ step ∈ steps, Mentions step :=
    exists_among_iff
      (fun step hStep => not_mentions (hNoMerge step hStep))
      hAside hAll
  have hReadable :
      (∀ step ∈ all, Readable step) ↔
        ∀ step ∈ steps, Readable step := by
    constructor
    · intro hEvery step hMember
      exact hEvery step ((hAll step).mpr (Or.inl hMember))
    · intro hEvery step hMember
      rcases (hAll step).mp hMember with hStep | hOther
      · exact hEvery step hStep
      · exact
          readable_of_beforeMerge
            (beforeMerge_of_aside (hAside step hOther))
  have hNoticed : Noticed all ↔ Noticed steps := by
    unfold Noticed
    rw [hMentions, hReadable]
  constructor
  · intro hUndone
    constructor
    · rw [← hSwitches]
      exact hUndone.stays
    · rw [← hAdvances]
      exact hUndone.unmoved
    · rw [← hSticks, ← hNoticed]
      exact hUndone.settled
  · intro hUndone
    constructor
    · rw [hSwitches]
      exact hUndone.stays
    · rw [hAdvances]
      exact hUndone.unmoved
    · rw [hSticks, hNoticed]
      exact hUndone.settled

theorem RejectionEnds.among
    {α β : Type}
    {all steps asides : List VersioningTaken}
    {outcome : Except VersioningError α}
    {ended : Except VersioningError β}
    {t u : VersioningState}
    (hEnds : RejectionEnds config before steps outcome t)
    (hAside : ∀ step ∈ asides, Aside step.op)
    (hAll : ∀ step, step ∈ all ↔ step ∈ steps ∨ step ∈ asides)
    (hRepo : u.repo = t.repo)
    (hError :
      ∀ error, ended = .error error →
        ∃ other, outcome = .error other) :
    RejectionEnds config before all ended u := by
  intro error hEnded hAborts
  rcases hError error hEnded with ⟨other, hOther⟩
  rw [hRepo, undone_among_iff hAside hAll]
  apply hEnds other hOther
  intro step hMember
  exact hAborts step ((hAll step).mpr (Or.inl hMember))

theorem aside_assertBranchName (branchName : String) :
    (assertBranchName branchName).Only Aside :=
  Async.only_ensure

theorem aside_requireRepo (repoId : String) :
    (requireRepo repoId).Only Aside :=
  only_requireRepo trivial

theorem aside_assertTarget (target : Option String) :
    (assertTarget target).Only Aside :=
  only_assertTarget target

/- What is asked first changes no exit. -/
theorem rejectionEnds_after_aside
    {α β : Type}
    {first : VersioningProgram α}
    {next : α → VersioningProgram β}
    (hFirst : first.Only Aside)
    (hBefore : s.repo = before)
    (hNext :
      ∀ value u, u.repo = before →
        Ends (VersioningOp.exec config) (next value) u
          (RejectionEnds config before)) :
    Ends (VersioningOp.exec config) (first.bind next) s
      (RejectionEnds config before) := by
  refine ends_bind_of (ends_aside hFirst) ?_ ?_
  · rintro asides value u ⟨hSame, hAside⟩
    refine ends_mono (hNext value u (hSame.trans hBefore)) ?_
    intro steps outcome t hEnds
    apply hEnds.among hAside
    · intro step
      rw [List.mem_append]
      exact or_comm
    · rfl
    · intro error hError
      exact ⟨error, hError⟩
  · rintro asides error u ⟨hSame, hAside⟩
    exact
      rejectionEnds_of_ready
        (ready_of_aside hAside (hSame.trans hBefore))

/- Nor does letting the next caller in. -/
theorem rejectionEnds_runExclusive
    {α : Type}
    {body : VersioningProgram α}
    {i : Nat}
    (hBefore : s.repo = before)
    (hBody :
      ∀ u : VersioningState, u.repo = before →
        Ends (VersioningOp.exec config) body u
          (RejectionEnds config before)) :
    Ends (VersioningOp.exec config) (runExclusive i body) s
      (RejectionEnds config before) := by
  have hAcquire :
      (perform (.acquire i) : VersioningProgram Unit).Only
        Aside := by
    apply Async.only_call.mpr
    trivial
  refine rejectionEnds_after_aside hAcquire hBefore ?_
  intro _ u hSame
  refine ends_andFinally (ends_mono (hBody u hSame) ?_)
  intro steps outcome v hEnds
  apply ends_await
  intro choice answer w hExec
  apply ends_returned
  have hAside : Aside (.release : VersioningOp) := trivial
  let step : VersioningTaken := ⟨.release, choice, v, answer, w⟩
  have hExecStep :
      step.op.exec config step.choice step.before =
        some (step.answer, step.after) := hExec
  have hRelease :
      ∀ other ∈ [step], Aside other.op := by
    intro other hMember
    rw [List.mem_singleton.mp hMember]
    exact hAside
  apply hEnds.among hRelease
  · intro step
    exact List.mem_append
  · exact repo_of_aside hAside hExecStep
  · intro error hError
    exact ⟨error, hError⟩

theorem ends_merge
    (i : Nat)
    (repoId source : String)
    (target : Option String)
    (hHeads : before.HeadsRecorded)
    (hBefore : s.repo = before) :
    Ends (VersioningOp.exec config)
      (merge i repoId source target) s
      (RejectionEnds config before) := by
  refine
    rejectionEnds_after_aside (aside_assertBranchName source)
      hBefore ?_
  intro _ u hFirst
  refine
    rejectionEnds_after_aside (aside_assertTarget _) hFirst ?_
  intro _ v hSecond
  refine
    rejectionEnds_after_aside (aside_requireRepo repoId)
      hSecond ?_
  intro _ w hThird
  refine rejectionEnds_runExclusive hThird ?_
  intro x hLast
  exact ends_mergeExclusive source _ hHeads hLast

/- A rejected merge has restored the repository exactly if
   it did not switch the branch, did not move it and aborted
   what was stuck. -/
theorem restored_iff
    (config : VersioningConfig)
    (i : Nat)
    (repoId source : String)
    (target : Option String)
    (steps : List VersioningTaken)
    (error : VersioningError)
    (s t : VersioningState)
    (hHeads : s.repo.HeadsRecorded)
    (hRun :
      Solo (VersioningOp.exec config)
        (merge i repoId source target) s steps (.error error)
        t)
    (hAborts : AbortsSucceed steps) :
    Restored s.repo t.repo ↔
      Undone config.dolt s.repo steps := by
  have hEnds : Ends (VersioningOp.exec config) _ s _ :=
    ends_merge i repoId source target hHeads rfl
  have hEnds := hEnds steps _ t hRun
  exact hEnds error rfl hAborts

/- Two branches that change a row in different ways. -/
def conflictConfig : VersioningConfig where
  repoId := "r"
  dolt := {
    sql := fun _ repo =>
      { answer := .ok ()
        made := []
        heads := repo.heads
        working := repo.working
        staged := repo.staged
        merging := repo.merging }
    emptied := fun _ => ""
    loaded := fun _ csv => .ok csv
    inserted := fun _ data row => .ok (data ++ row)
    merged := fun ours _ =>
      .stuck "CONFLICT (content): Merge conflict in t"
        ours.tables }

def rowCommit
    (hash : String)
    (parents : List String)
    (rows : String) : Commit where
  hash := hash
  parents := parents
  author := "a"
  message := "m"
  tables := FiniteMap.ofList [("t", ⟨"CREATE TABLE t", rows⟩)]

def mainHead : Commit := rowCommit "c1" ["c0"] "1"

def workHead : Commit := rowCommit "c2" ["c0"] "2"

def forked : VersioningState where
  repo := {
    commits :=
      ⟨[rowCommit "c0" [] "0", mainHead, workHead], by decide⟩
    heads := fun branch =>
      if branch = "main" then some mainHead
      else if branch = "work" then some workHead
      else none
    checkedOut := "main"
    working := mainHead.tables
    staged := mainHead.tables
    merging := none }
  lock := none

theorem headsRecorded_forked :
    forked.repo.HeadsRecorded := by
  intro branch commit hHead
  simp only [forked] at hHead
  split_ifs at hHead
  · cases hHead
    rfl
  · cases hHead
    rfl

/- The answers to merging `main` into `work`. -/
def conflictChoices : List VersioningChoice :=
  List.replicate 10 ⟨⟨false, "table,num_conflicts\nt,1\n", ""⟩, 0⟩

theorem abortsSucceed_of_replay
    {α : Type}
    {body : VersioningProgram α}
    {steps : List VersioningTaken}
    {outcome : Except VersioningError α}
    {t : VersioningState}
    (hRun :
      solo? (VersioningOp.exec conflictConfig) body forked
          conflictChoices =
        some (steps, outcome, t)) :
    AbortsSucceed steps := by
  intro step hMember _
  have hChoice : step.choice ∈ conflictChoices := by
    apply (choices_of_solo? hRun).subset
    exact List.mem_map_of_mem hMember
  rw [List.eq_of_mem_replicate hChoice]

/- A merge into the branch that is checked out. -/
theorem restored_iff_of_conflict :
    ∃ steps error t,
      Solo (VersioningOp.exec conflictConfig)
          (merge 0 "r" "work" none) forked steps
          (.error error) t ∧
        (Restored forked.repo t.repo ↔
          Undone conflictConfig.dolt forked.repo steps) := by
  have hReplay :
      Option.any
          (fun q => !q.2.1.isOk)
          (solo? (VersioningOp.exec conflictConfig)
            (merge 0 "r" "work" none) forked conflictChoices) =
        true := by
    decide +kernel
  rw [Option.any_eq_true] at hReplay
  rcases hReplay with ⟨⟨steps, outcome, t⟩, hRun, hThrew⟩
  cases outcome with
  | ok value => cases hThrew
  | error error =>
      have hSolo := solo_of_solo? hRun
      refine ⟨steps, error, t, hSolo, ?_⟩
      exact
        restored_iff conflictConfig 0 "r" "work" none steps
          error forked t headsRecorded_forked hSolo
          (abortsSucceed_of_replay hRun)

/- The target is left checked out, although the abort ran. -/
theorem target_stays_checked_out :
    ∃ steps error t,
      Solo (VersioningOp.exec conflictConfig)
          (merge 0 "r" "main" (some "work")) forked steps
          (.error error) t ∧
        AbortsSucceed steps ∧
        ¬ Restored forked.repo t.repo := by
  have hReplay :
      Option.any
          (fun q =>
            !q.2.1.isOk &&
              decide (q.2.2.repo.checkedOut = "work"))
          (solo? (VersioningOp.exec conflictConfig)
            (merge 0 "r" "main" (some "work")) forked
            conflictChoices) =
        true := by
    decide +kernel
  rw [Option.any_eq_true] at hReplay
  rcases hReplay with ⟨⟨steps, outcome, t⟩, hRun, hEnd⟩
  rw [Bool.and_eq_true, decide_eq_true_eq] at hEnd
  cases outcome with
  | ok value => cases hEnd.1
  | error error =>
      refine
        ⟨steps, error, t, solo_of_solo? hRun,
          abortsSucceed_of_replay hRun, ?_⟩
      intro hRestored
      have hBranch := hRestored.checkedOut
      rw [hEnd.2] at hBranch
      exact absurd hBranch (by decide)

end Versioning
