import Deltix.Versioning.BranchErrors

/-
  What the errors of merges say.  A source that does not
  exist is reported by the exit of the merge, where nobody
  looks for it.

  Key definitions include:
    * `MergeAsked`
    * `MergeTold`

  Key theorems include:
    * `ends_mergeCall`
    * `classified_iff`
    * `missing_source_unnoticed`
-/

------------------------------------------------------------
-- Up To The Merge
------------------------------------------------------------

namespace Versioning

open Concurrency

variable {config : VersioningConfig} {s : VersioningState}
variable {before : DoltRepo}
variable {steps earlier later : List VersioningTaken}
variable {step : VersioningTaken}
variable {source : String} {target : Option String}
variable {result : MergeOutput}

/- The merge is asked for on the target, after what may come
   before it. -/
structure MergeAsked
    (config : VersioningConfig)
    (before : DoltRepo)
    (source : String)
    (target : Option String)
    (earlier : List VersioningTaken)
    (step : VersioningTaken)
    (result : MergeOutput) : Prop where
  earlier : ∀ other ∈ earlier, BeforeMerge other.op
  onTarget : OnTarget before target step.before.repo
  op : step.op = .dolt (.merge source)
  output : mergeOutput step = some result
  ran :
    (DoltStatement.merge source).run config.dolt
        step.choice.toDoltChoice step.before.repo =
      some (result, step.after.repo)

/- How the part of a call ends that asks for the merge. -/
def AsksMerge
    (config : VersioningConfig)
    (before : DoltRepo)
    (source : String)
    (target : Option String)
    (steps : List VersioningTaken)
    (outcome : Except VersioningError MergeOutput)
    (t : VersioningState) : Prop :=
  match outcome with
  | .error _ => ∀ step ∈ steps, BeforeMerge step.op
  | .ok result =>
      ∃ earlier step,
        steps = earlier ++ [step] ∧
          MergeAsked config before source target earlier step
            result ∧
          step.after.repo = t.repo

theorem onTarget_self
    {repo : DoltRepo}
    (hTarget : ∀ branch, target = some branch →
      repo.checkedOut = branch) :
    OnTarget repo target repo := by
  refine ⟨rfl, rfl, rfl, ?_⟩
  intro _
  unfold DoltRepo.mergeTarget
  cases target with
  | none => rfl
  | some branch => exact hTarget branch rfl

theorem ends_mergeLookup :
    Ends (VersioningOp.exec config) readCurrentBranchName s
      fun steps outcome t =>
        Raw mergeMeans steps outcome ∧
          (t.repo = s.repo ∧
            ∀ step ∈ steps, BeforeMerge step.op) ∧
          ∀ name, outcome = .ok name →
            name = s.repo.checkedOut := by
  refine ends_mono (ends_currentBranch mergeMeans) ?_
  rintro steps outcome t ⟨hRaw, ⟨hSame, hOps⟩, hCurrent⟩
  refine ⟨hRaw, ⟨hSame, ?_⟩, hCurrent⟩
  intro step hMember
  rw [hOps step hMember]
  trivial

theorem beforeMerge_append
    (hFirst : ∀ step ∈ earlier, BeforeMerge step.op)
    (hSecond : ∀ step ∈ steps, BeforeMerge step.op) :
    ∀ step ∈ earlier ++ steps, BeforeMerge step.op := by
  intro step hMember
  rcases List.mem_append.mp hMember with hOld | hNew
  · exact hFirst step hOld
  · exact hSecond step hNew

/- The checkout of the target. -/
theorem ends_rawTarget
    (hName : ∀ branch, target = some branch →
      acceptsBranchName branch = true) :
    Ends (VersioningOp.exec config)
      (checkoutMergeTarget target) s
      fun steps outcome t =>
        Raw mergeMeans steps outcome ∧
          (∀ step ∈ steps, BeforeMerge step.op) ∧
          ∀ value, outcome = .ok value →
            OnTarget s.repo target t.repo := by
  cases target with
  | none =>
      apply ends_returned
      refine ⟨raw_nil _, by simp, ?_⟩
      intro _ _
      exact onTarget_self (by simp)
  | some branch =>
      have hBranch := hName branch rfl
      have hSafe :
          assertSafeBranchName branch = .returned () := by
        unfold assertSafeBranchName
        rw [hBranch]
        rfl
      unfold checkoutMergeTarget
      dsimp only
      rw [hSafe]
      apply ends_bind
      apply ends_returned
      refine ends_bind_of ends_mergeLookup ?_ ?_
      · rintro steps current u ⟨hRaw, ⟨hSame, hOps⟩, hCurrent⟩
        have hAtCurrent := hCurrent current rfl
        split
        · rename_i hBranchIs
          apply ends_returned
          rw [List.append_nil]
          refine ⟨hRaw, hOps, ?_⟩
          intro _ _
          rw [hSame]
          apply onTarget_self
          intro other hOther
          cases hOther
          rw [← hBranchIs, hAtCurrent]
        · refine
            ends_mono (ends_rawCheckout translates_merge hBranch)
              ?_
          rintro more outcome t ⟨hMore, hMoreOps, hTarget⟩
          rw [hSame] at hTarget
          rw [List.nil_append]
          refine ⟨hMore.after hRaw, ?_, hTarget⟩
          apply beforeMerge_append hOps
          intro step hMember
          rw [hMoreOps step hMember]
          trivial
      · rintro steps error u ⟨hRaw, ⟨_, hOps⟩, _⟩
        refine ⟨hRaw, hOps, ?_⟩
        intro value hOk
        cases hOk

theorem MergeAsked.after
    {outer : List VersioningTaken}
    (hAsked :
      MergeAsked config before source target earlier step
        result)
    (hOuter : ∀ other ∈ outer, BeforeMerge other.op) :
    MergeAsked config before source target (outer ++ earlier)
      step result := by
  constructor
  · exact beforeMerge_append hOuter hAsked.earlier
  · exact hAsked.onTarget
  · exact hAsked.op
  · exact hAsked.output
  · exact hAsked.ran

theorem ends_rawMerge
    (hSource : acceptsBranchName source = true)
    (hName : ∀ branch, target = some branch →
      acceptsBranchName branch = true) :
    Ends (VersioningOp.exec config)
      (runDoltMerge source target) s
      fun steps outcome t =>
        Raw mergeMeans steps outcome ∧
          AsksMerge config s.repo source target steps outcome
            t := by
  have hSafe :
      assertSafeBranchName source = .returned () := by
    unfold assertSafeBranchName
    rw [hSource]
    rfl
  unfold runDoltMerge
  rw [hSafe]
  apply ends_bind
  apply ends_returned
  refine ends_bind_of (ends_rawTarget hName) ?_ ?_
  · rintro steps _ u ⟨hRaw, hOps, hTarget⟩
    have hOnTarget := hTarget () rfl
    refine ends_bind_of ends_mergeLookup ?_ ?_
    · rintro more _ v ⟨hLooked, ⟨hSame, hMore⟩, _⟩
      apply ends_dolt
      intro choice answer next hRun
      let merging : VersioningTaken :=
        ⟨.dolt (.merge source), choice, v, answer,
          ⟨next, v.lock⟩⟩
      have hQuiet : Raw mergeMeans [merging]
          (.ok answer : Except VersioningError MergeOutput) :=
        by simp [Raw, FailsMissing, Translated, merging]
      rw [List.nil_append]
      refine ⟨?_, steps ++ more, merging, ?_, ?_, rfl⟩
      · exact (hQuiet.after hLooked).after hRaw
      · simp [merging]
      · refine
          ⟨beforeMerge_append hOps hMore, ?_, rfl, rfl, hRun⟩
        rw [hSame]
        exact hOnTarget
    · rintro more error v ⟨hLooked, ⟨_, hMore⟩, _⟩
      rw [List.nil_append]
      exact
        ⟨hLooked.after hRaw, beforeMerge_append hOps hMore⟩
  · rintro steps error u ⟨hRaw, hOps, _⟩
    exact ⟨hRaw, hOps⟩

------------------------------------------------------------
-- After The Merge
------------------------------------------------------------

variable {α : Type} {intended : String}

/- What is asked after a merge. -/
def Untranslated (op : VersioningOp) : Prop :=
  AfterMerge op ∧ ¬ Translated op

/- How the outcome of a call follows from that of its merge. -/
structure MergeTold
    (result : MergeOutput)
    (merged : DoltRepo)
    (later : List VersioningTaken)
    (outcome : Except VersioningError MergeResult) : Prop where
  ops : ∀ other ∈ later, Untranslated other.op
  missing : ¬ RejectsMissing outcome
  upToDate :
    ReturnsUpToDate outcome ↔
      result.exitCode = 0 ∧
        includesLower (combinedOutput result) "up to date" =
          true
  conflict :
    RejectsConflict outcome ↔
      (result.exitCode ≠ 0 ∧
          includesLower (combinedOutput result) "conflict" =
            true) ∧
        (∀ other ∈ later, Readable other) ∧
        AbortsSucceed later ∧ merged.merging.isSome = true

theorem not_returnsUpToDate_error
    (error : VersioningError) :
    ¬ ReturnsUpToDate (.error error) := by
  rintro ⟨_, hOk, _⟩
  cases hOk

theorem throws_latestCommitHash :
    runDoltLatestCommitHash.Throws Plain := by
  apply Async.throws_bind (Async.throws_call _)
  intro hash
  apply Async.throws_bind
  · exact throws_answered (fun _ => ⟨rfl, rfl⟩) hash
  intro commitHash
  apply Async.throws_bind
  · exact Async.throws_ensure ⟨rfl, rfl⟩
  intro _
  exact Async.throws_returned commitHash

/- A merge that has succeeded. -/
theorem told_report
    (hExit : result.exitCode = 0) :
    Ends (VersioningOp.exec config)
      (reportMerge source intended result) s
      fun steps outcome _ =>
        MergeTold result s.repo steps outcome := by
  have hNone :
      ∀ {outcome : Except VersioningError MergeResult} {later},
        ¬ RejectsConflict outcome →
          (RejectsConflict outcome ↔
            (result.exitCode ≠ 0 ∧
                includesLower (combinedOutput result)
                    "conflict" =
                  true) ∧
              (∀ other ∈ later, Readable other) ∧
              AbortsSucceed later ∧
                s.repo.merging.isSome = true) := by
    intro outcome later hNot
    constructor
    · intro hRejects
      exact absurd hRejects hNot
    · rintro ⟨⟨hFailed, _⟩, _⟩
      exact absurd hExit hFailed
  unfold reportMerge
  by_cases hWords :
      includesLower (combinedOutput result) "up to date" = true
  · rw [if_pos hWords]
    apply ends_returned
    refine ⟨by simp, not_rejectsMissing_ok _, ?_,
      hNone (not_rejectsConflict_ok _)⟩
    simp [ReturnsUpToDate, hExit, hWords]
  · rw [if_neg hWords]
    have hOnly : runDoltLatestCommitHash.Only Untranslated := by
      apply only_latestCommitHash
      exact ⟨trivial, id⟩
    apply ends_bind
    intro steps outcome t hSolo
    have hOps := hSolo.only hOnly
    cases outcome with
    | ok commitHash =>
        apply ends_returned
        rw [List.append_nil]
        refine ⟨hOps, not_rejectsMissing_ok _, ?_,
          hNone (not_rejectsConflict_ok _)⟩
        simp [ReturnsUpToDate, hWords]
    | error error =>
        have hPlain := hSolo.throws throws_latestCommitHash
        refine ⟨hOps, not_rejectsMissing_of_plain hPlain, ?_,
          hNone (not_rejectsConflict_of_plain hPlain)⟩
        constructor
        · intro hUpToDate
          exact
            absurd hUpToDate (not_returnsUpToDate_error error)
        · rintro ⟨_, hSaid⟩
          exact absurd hSaid hWords

/- What reads the conflicts of a merge. -/
def ReadsConflicts : VersioningOp → Prop
  | .dolt .listConflicts => True
  | .dolt (.conflictRows _) => True
  | _ => False

theorem untranslated_of_readsConflicts
    {op : VersioningOp}
    (hReads : ReadsConflicts op) :
    Untranslated op := by
  unfold ReadsConflicts at hReads
  split at hReads
  · exact ⟨trivial, id⟩
  · exact ⟨trivial, id⟩
  · exact hReads.elim

theorem throws_readConflictTable
    (tableName : String)
    (expectedCount : Option String) :
    (readConflictTable tableName expectedCount).Throws
      Plain := by
  apply Async.throws_bind
  · exact Async.throws_ensure ⟨rfl, rfl⟩
  intro _
  apply Async.throws_bind (Async.throws_call _)
  intro detail
  apply Async.throws_bind
  · exact throws_answered (fun _ => ⟨rfl, rfl⟩) detail
  intro stdout
  exact Async.throws_returned _

/- By induction on the rows that are left. -/
theorem throws_readConflictTables
    (rows : List CsvRow)
    (tables : List MergeConflictTable) :
    (readConflictTables rows tables).Throws Plain := by
  have hUnnamed : Plain .conflictTableUnnamed := ⟨rfl, rfl⟩
  induction rows generalizing tables with
  | nil => exact Async.throws_returned tables
  | cons row rest ih =>
      unfold readConflictTables
      split
      · exact hUnnamed
      · split_ifs
        · exact hUnnamed
        · apply Async.throws_bind
          · exact throws_readConflictTable _ _
          · intro table
            exact ih _

theorem throws_runDoltReadConflicts :
    runDoltReadConflicts.Throws Plain := by
  apply Async.throws_bind (Async.throws_call _)
  intro summary
  apply Async.throws_bind
  · exact throws_answered (fun _ => ⟨rfl, rfl⟩) summary
  intro stdout
  exact throws_readConflictTables _ _

/- The abort succeeds if there is a merge to abort. -/
theorem ends_abort :
    Ends (VersioningOp.exec config) runDoltMergeAbort s
      fun steps outcome _ =>
        (∀ step ∈ steps, Untranslated step.op) ∧
          (∀ step ∈ steps, Readable step) ∧
          (∀ error, outcome = .error error → Plain error) ∧
          ((∃ value, outcome = .ok value) ↔
            AbortsSucceed steps ∧
              s.repo.merging.isSome = true) := by
  have hOp : Untranslated (.dolt .mergeAbort) := ⟨trivial, id⟩
  have hReadable :
      ∀ step : VersioningTaken,
        step.op = .dolt .mergeAbort → Readable step := by
    intro step hStep
    simp [Readable, hStep]
  apply ends_bind
  apply ends_dolt
  intro choice answer next hRun
  have hAborts :
      AbortsSucceed
          [(⟨.dolt .mergeAbort, choice, s, answer,
            ⟨next, s.lock⟩⟩ : VersioningTaken)] ↔
        choice.fails = false := by
    simp [AbortsSucceed]
  have hAnswered :
      (∃ value, answer = .ok value) ↔
        choice.fails = false ∧
          s.repo.merging.isSome = true := by
    rcases DoltStatement.run_cases hRun with
      ⟨hFails, hAnswer, _⟩ | ⟨hWell, hPerform⟩
    · subst hAnswer
      simp [DoltStatement.failure, hFails]
    · have hAbort : s.repo.mergeAbort = (answer, next) :=
        Option.some.inj hPerform
      unfold DoltRepo.mergeAbort at hAbort
      split at hAbort
      · rename_i hNone
        cases hAbort
        simp [hNone]
      · rename_i state hSome
        cases hAbort
        simp [hSome, hWell]
  rw [← hAborts] at hAnswered
  cases answer with
  | ok value =>
      apply ends_returned
      refine ⟨by simp [hOp], by simp [hReadable], ?_, ?_⟩
      · intro error hError
        cases hError
      · rw [List.append_nil, ← hAnswered]
        simp
  | error text =>
      apply ends_threw
      refine ⟨by simp [hOp], by simp [hReadable], ?_, ?_⟩
      · intro error hError
        cases hError
        exact ⟨rfl, rfl⟩
      · rw [List.append_nil, ← hAnswered]
        simp

theorem abortsSucceed_append_iff
    (hReads : ∀ step ∈ earlier, step.op ≠ .dolt .mergeAbort) :
    AbortsSucceed (earlier ++ later) ↔ AbortsSucceed later := by
  constructor
  · intro hAborts step hMember
    exact hAborts step (List.mem_append_right _ hMember)
  · intro hAborts step hMember hOp
    rcases List.mem_append.mp hMember with hOld | hNew
    · exact absurd hOp (hReads step hOld)
    · exact hAborts step hNew hOp

/- The conflicts are read before the merge is aborted. -/
theorem told_stuck
    (hExit : result.exitCode ≠ 0)
    (hWords :
      includesLower (combinedOutput result) "conflict" = true) :
    Ends (VersioningOp.exec config)
      (do
        let conflicts ← runDoltReadConflicts
        runDoltMergeAbort
        throw (.mergeConflict conflicts source intended))
      s
      fun steps outcome _ =>
        MergeTold result s.repo steps outcome := by
  have hOnly : runDoltReadConflicts.Only ReadsConflicts :=
    only_runDoltReadConflicts trivial fun _ => trivial
  have hUpToDate :
      ∀ error,
        ReturnsUpToDate (.error error) ↔
          result.exitCode = 0 ∧
            includesLower (combinedOutput result)
                "up to date" =
              true := by
    intro error
    constructor
    · intro hReturns
      exact
        absurd hReturns (not_returnsUpToDate_error error)
    · rintro ⟨hZero, _⟩
      exact absurd hZero hExit
  apply ends_bind
  intro reads outcome u hSolo
  have hReads := hSolo.only hOnly
  have hOps :
      ∀ step ∈ reads, Untranslated step.op :=
    fun step hMember =>
      untranslated_of_readsConflicts (hReads step hMember)
  have hNoAbort :
      ∀ step ∈ reads, step.op ≠ .dolt .mergeAbort := by
    intro step hMember hOp
    have hStep := hReads step hMember
    rw [hOp] at hStep
    exact hStep
  have hEnded : ReadEnds s true reads outcome u :=
    ends_runDoltReadConflicts reads outcome u hSolo
  rcases hEnded with ⟨hSame, _, hRead⟩
  cases outcome with
  | error error =>
      have hPlain := hSolo.throws throws_runDoltReadConflicts
      refine ⟨hOps, not_rejectsMissing_of_plain hPlain,
        hUpToDate error, ?_⟩
      constructor
      · intro hRejects
        exact
          absurd hRejects
            (not_rejectsConflict_of_plain hPlain)
      · rintro ⟨_, hAll, _⟩
        rcases hRead.mpr ⟨rfl, hAll⟩ with ⟨value, hValue⟩
        cases hValue
  | ok conflicts =>
      have hAll := (hRead.mp ⟨conflicts, rfl⟩).2
      refine ends_bind_of ends_abort ?_ ?_
      · rintro aborts _ v ⟨hLater, hReadable, _, hAborted⟩
        rw [hSame] at hAborted
        have hDone := hAborted.mp ⟨_, rfl⟩
        apply ends_threw
        rw [List.append_nil]
        refine ⟨?_, ?_, hUpToDate _, ?_⟩
        · intro step hMember
          rcases List.mem_append.mp hMember with hOld | hNew
          · exact hOps step hOld
          · exact hLater step hNew
        · rw [rejectsMissing_error_iff]
          exact Bool.false_ne_true
        · rw [rejectsConflict_error_iff,
            abortsSucceed_append_iff hNoAbort]
          constructor
          · intro _
            refine ⟨⟨hExit, hWords⟩, ?_, hDone⟩
            intro step hMember
            rcases List.mem_append.mp hMember with hOld | hNew
            · exact hAll step hOld
            · exact hReadable step hNew
          · intro _
            rfl
      · rintro aborts error v ⟨hLater, _, hPlain, hAborted⟩
        rw [hSame] at hAborted
        have hError := hPlain error rfl
        refine ⟨?_, not_rejectsMissing_of_plain hError,
          hUpToDate error, ?_⟩
        · intro step hMember
          rcases List.mem_append.mp hMember with hOld | hNew
          · exact hOps step hOld
          · exact hLater step hNew
        · rw [abortsSucceed_append_iff hNoAbort]
          constructor
          · intro hRejects
            exact
              absurd hRejects
                (not_rejectsConflict_of_plain hError)
          · rintro ⟨_, _, hDone⟩
            rcases hAborted.mpr hDone with ⟨value, hValue⟩
            cases hValue

/- A merge that was refused. -/
theorem told_reject
    (hExit : result.exitCode ≠ 0) :
    Ends (VersioningOp.exec config)
      (rejectMerge source intended result) s
      fun steps outcome _ =>
        MergeTold result s.repo steps outcome := by
  unfold rejectMerge
  by_cases hWords :
      includesLower (combinedOutput result) "conflict" = true
  · rw [if_pos hWords]
    exact told_stuck hExit hWords
  · rw [if_neg hWords]
    apply ends_threw
    refine ⟨by simp, ?_, ?_, ?_⟩
    · rw [rejectsMissing_error_iff]
      exact Bool.false_ne_true
    · constructor
      · intro hReturns
        exact
          absurd hReturns (not_returnsUpToDate_error _)
      · rintro ⟨hZero, _⟩
        exact absurd hZero hExit
    · constructor
      · rw [rejectsConflict_error_iff]
        intro hRejects
        cases hRejects
      · rintro ⟨⟨_, hSaid⟩, _⟩
        exact absurd hSaid hWords

------------------------------------------------------------
-- How Merges End
------------------------------------------------------------

variable {i : Nat} {repoId : String}
variable {outcome : Except VersioningError MergeResult}

/- A call that has asked for its merge. -/
structure MergeRuns
    (config : VersioningConfig)
    (before : DoltRepo)
    (source : String)
    (target : Option String)
    (earlier : List VersioningTaken)
    (step : VersioningTaken)
    (later : List VersioningTaken)
    (result : MergeOutput)
    (outcome : Except VersioningError MergeResult) : Prop where
  asked :
    MergeAsked config before source target earlier step result
  quiet : ¬ ∃ other ∈ earlier, FailsMissing mergeMeans other
  told : MergeTold result step.after.repo later outcome

/- A call fails before its merge, or asks for it. -/
def MergeEnds
    (config : VersioningConfig)
    (before : DoltRepo)
    (source : String)
    (target : Option String)
    (steps : List VersioningTaken)
    (outcome : Except VersioningError MergeResult) : Prop :=
  ((∀ step ∈ steps, BeforeMerge step.op) ∧
      TellsMissing mergeMeans steps outcome ∧
      ∃ error, outcome = .error error) ∨
    ∃ earlier step later result,
      steps = earlier ++ ([step] ++ later) ∧
        MergeRuns config before source target earlier step
          later result outcome

theorem not_failsMissing_append
    (hFirst :
      ¬ ∃ step ∈ earlier, FailsMissing mergeMeans step)
    (hSecond :
      ¬ ∃ step ∈ later, FailsMissing mergeMeans step) :
    ¬ ∃ step ∈ earlier ++ later,
        FailsMissing mergeMeans step := by
  rw [exists_append_iff hFirst]
  exact hSecond

/- What comes after the merge is asked for with nothing that
   prints that a branch is missing. -/
theorem ends_reported
    {asides : List VersioningTaken}
    (hAsides : ∀ step ∈ asides, BeforeMerge step.op)
    (hLooked :
      ¬ ∃ step ∈ asides, FailsMissing mergeMeans step)
    (hQuiet :
      ¬ ∃ step ∈ steps, FailsMissing mergeMeans step)
    (hAsked :
      AsksMerge config before source target steps (.ok result)
        s) :
    Ends (VersioningOp.exec config)
      (if result.exitCode = 0 then
        reportMerge source intended result
      else rejectMerge source intended result)
      s
      fun later outcome _ =>
        MergeEnds config before source target
          (asides ++ (steps ++ later)) outcome := by
  rcases hAsked with ⟨earlier, step, hSteps, hAsked, hRepo⟩
  subst hSteps
  have hTold :
      Ends (VersioningOp.exec config)
        (if result.exitCode = 0 then
          reportMerge source intended result
        else rejectMerge source intended result)
        s
        fun later outcome _ =>
          MergeTold result s.repo later outcome := by
    split
    · rename_i hExit
      exact told_report hExit
    · rename_i hExit
      exact told_reject hExit
  refine ends_mono hTold ?_
  intro later outcome t hTold
  rw [← hRepo] at hTold
  have hEarlier :
      ¬ ∃ other ∈ earlier, FailsMissing mergeMeans other := by
    rintro ⟨other, hMember, hFails⟩
    exact
      hQuiet
        ⟨other, List.mem_append_left _ hMember, hFails⟩
  right
  refine ⟨asides ++ earlier, step, later, result, ?_, ?_⟩
  · simp
  · exact
      ⟨hAsked.after hAsides,
        not_failsMissing_append hLooked hEarlier, hTold⟩

theorem ends_intendedTarget :
    Ends (VersioningOp.exec config) (intendedTarget target) s
      fun steps outcome t =>
        TellsMissing mergeMeans steps outcome ∧
          t.repo = s.repo ∧
          ∀ step ∈ steps, BeforeMerge step.op := by
  cases target with
  | some branch =>
      apply ends_returned
      refine ⟨?_, rfl, by simp⟩
      apply tellsMissing_of_ops
      · simp
      · exact not_rejectsMissing_ok branch
      · exact not_rejectsConflict_ok branch
  | none =>
      have hLookup :
          Ends (VersioningOp.exec config)
            (translateMergeErrors readCurrentBranchName) s _ :=
        tellsMissing_translated translates_merge ends_mergeLookup
      refine ends_mono hLookup ?_
      rintro steps outcome t ⟨hTells, hKeeps, _⟩
      exact ⟨hTells, hKeeps⟩

theorem ends_mergeLocked
    (hSource : acceptsBranchName source = true)
    (hName : ∀ branch, target = some branch →
      acceptsBranchName branch = true) :
    Ends (VersioningOp.exec config)
      (mergeExclusive source target) s
      fun steps outcome _ =>
        MergeEnds config s.repo source target steps
          outcome := by
  refine ends_bind_of ends_intendedTarget ?_ ?_
  · rintro asides intended u ⟨hTells, hSame, hAsides⟩
    have hRan :
        Ends (VersioningOp.exec config)
          (translateMergeErrors (runDoltMerge source target)) u
          _ :=
      ends_translated translates_merge
        (fun _ _ _ _ hPost => hPost)
        (ends_rawMerge hSource hName)
    refine ends_bind_of hRan ?_ ?_
    · rintro steps result v ⟨hMerge, hAsked⟩
      rw [hSame] at hAsked
      exact
        ends_reported hAsides hTells.quiet hMerge.quiet hAsked
    · rintro steps error v ⟨hMerge, hOps⟩
      left
      refine ⟨beforeMerge_append hAsides hOps, ?_, error, rfl⟩
      exact hMerge.retyped.after hTells.quiet
  · rintro asides error u ⟨hTells, _, hAsides⟩
    exact Or.inl ⟨hAsides, hTells.retyped, error, rfl⟩

theorem beforeMerge_of_outside
    (hOuter : ∀ step ∈ steps, Outside step.op) :
    ∀ step ∈ steps, BeforeMerge step.op :=
  fun step hMember =>
    beforeMerge_of_aside (hOuter step hMember).2

/- The mutex is left at the end. -/
theorem MergeTold.extended
    {merged : DoltRepo}
    {outer : List VersioningTaken}
    (hTold : MergeTold result merged later outcome)
    (hOuter : ∀ step ∈ outer, Outside step.op) :
    MergeTold result merged (later ++ outer) outcome := by
  have hReadable :
      (∀ step ∈ later ++ outer, Readable step) ↔
        ∀ step ∈ later, Readable step := by
    constructor
    · intro hAll step hMember
      exact hAll step (List.mem_append_left _ hMember)
    · intro hAll step hMember
      rcases List.mem_append.mp hMember with hOld | hNew
      · exact hAll step hOld
      · apply readable_of_beforeMerge
        exact beforeMerge_of_outside hOuter step hNew
  have hAborts :
      AbortsSucceed (later ++ outer) ↔ AbortsSucceed later := by
    constructor
    · intro hAll step hMember
      exact hAll step (List.mem_append_left _ hMember)
    · intro hAll step hMember hOp
      rcases List.mem_append.mp hMember with hOld | hNew
      · exact hAll step hOld hOp
      · have hStep := hOuter step hNew
        rw [hOp] at hStep
        exact hStep.2.elim
  refine ⟨?_, hTold.missing, hTold.upToDate, ?_⟩
  · intro step hMember
    rcases List.mem_append.mp hMember with hOld | hNew
    · exact hTold.ops step hOld
    · have hStep := hOuter step hNew
      exact ⟨afterMerge_of_aside hStep.2, hStep.1⟩
  · rw [hReadable, hAborts]
    exact hTold.conflict

theorem MergeEnds.around
    (hEnds :
      MergeEnds config before source target steps outcome)
    (hEarlier : ∀ step ∈ earlier, Outside step.op)
    (hLater : ∀ step ∈ later, Outside step.op) :
    MergeEnds config before source target
      (earlier ++ (steps ++ later)) outcome := by
  have hFirst := beforeMerge_of_outside hEarlier
  have hLast := beforeMerge_of_outside hLater
  rcases hEnds with
    ⟨hOps, hTells, hError⟩ |
      ⟨asked, step, more, result, hSteps, hRuns⟩
  · left
    refine ⟨?_, hTells.around hEarlier hLater, hError⟩
    exact beforeMerge_append hFirst
      (beforeMerge_append hOps hLast)
  · right
    have hQuiet :
        ¬ ∃ step ∈ earlier, FailsMissing mergeMeans step :=
      not_failsMissing_of_ops
        fun step hMember => (hEarlier step hMember).1
    refine ⟨earlier ++ asked, step, more ++ later, result, ?_,
      ?_⟩
    · rw [hSteps]
      simp
    · exact
        ⟨hRuns.asked.after hFirst,
          not_failsMissing_append hQuiet hRuns.quiet,
          hRuns.told.extended hLater⟩

theorem ends_mergeCall
    {targetBranch : Option String}
    (hSource : acceptsBranchName source = true)
    (hName : ∀ branch, namedTarget targetBranch = some branch →
      acceptsBranchName branch = true) :
    Ends (VersioningOp.exec config)
      (merge i repoId source targetBranch) s
      fun steps outcome _ =>
        MergeEnds config s.repo source
          (namedTarget targetBranch) steps outcome := by
  have hTarget :
      assertTarget (namedTarget targetBranch) =
        .returned () := by
    unfold assertTarget
    split
    · rename_i branch hBranch
      exact assertBranchName_of_accepts (hName branch hBranch)
    · rfl
  unfold merge
  rw [assertBranchName_of_accepts hSource, hTarget]
  apply ends_locked
  · intro u earlier hSame hEarlier
    refine ends_mono (ends_mergeLocked hSource hName) ?_
    intro steps outcome t hEnds later hLater
    rw [hSame] at hEnds
    exact hEnds.around hEarlier hLater
  · intro steps error hOps hPlain
    left
    exact
      ⟨beforeMerge_of_outside hOps,
        tellsMissing_plain hOps hPlain, error, rfl⟩

variable {dolt : DoltConfig} {repo next : DoltRepo}
variable {hash text : String} {output : MergeOutput}

namespace DoltRepo

/- A merge that is not stuck leaves no other in progress. -/
theorem merging_of_merge
    (hMerge :
      repo.merge dolt hash text source = some (output, next))
    (hFree : ¬ repo.Sticks dolt source) :
    next.merging = repo.merging := by
  unfold merge at hMerge
  split at hMerge
  · rename_i ours theirs hOurs hTheirs
    rw [sticks_iff hOurs hTheirs] at hFree
    split_ifs at hMerge with hMerging hOld hNew
    · cases hMerge
      rfl
    · cases hMerge
      rfl
    · unfold fastForward at hMerge
      split_ifs at hMerge
      all_goals
        cases hMerge
        rfl
    · unfold mergeCommits at hMerge
      split at hMerge
      · rename_i stdout tables hStuck
        have hTables :
            repo.mergedTables dolt ours theirs = none := by
          unfold mergedTables
          rw [if_neg hNew, hStuck]
        have hIdle := Option.not_isSome_iff_eq_none.mp hMerging
        have hBehind := Bool.eq_false_iff.mpr hOld
        exact absurd ⟨hIdle, hBehind, hTables⟩ hFree
      · split_ifs at hMerge
        · cases hMerge
          rfl
        · rw [Option.map_eq_some_iff] at hMerge
          rcases hMerge with ⟨after, hRecord, hEq⟩
          cases hEq
          rcases record_cases hRecord with
            ⟨_, commits, _, hNext⟩
          rw [hNext]
          rfl
  · cases hMerge
    rfl

/- A merge that is stuck prints the conflict. -/
theorem output_of_sticks
    (hMerge :
      repo.merge dolt hash text source = some (output, next))
    (hSticks : repo.Sticks dolt source) :
    next.merging.isSome = true ∧
      ∃ ours theirs stdout tables,
        dolt.merged ours theirs = .stuck stdout tables ∧
          output = ⟨1, stdout, ""⟩ := by
  rcases hSticks with
    ⟨hIdle, ours, theirs, hOurs, hTheirs, hBehind, hTables⟩
  have hMerging : ¬ repo.merging.isSome = true := by
    rw [hIdle]
    exact Bool.false_ne_true
  have hOld :
      ¬ repo.isAncestor theirs.hash ours.hash = true := by
    rw [hBehind]
    exact Bool.false_ne_true
  unfold mergedTables at hTables
  split_ifs at hTables with hNew
  unfold merge at hMerge
  rw [hOurs, hTheirs] at hMerge
  dsimp only at hMerge
  rw [if_neg hMerging, if_neg hOld, if_neg hNew] at hMerge
  unfold mergeCommits at hMerge
  split at hMerge
  · rename_i stdout tables hStuck
    cases hMerge
    exact ⟨rfl, ours, theirs, stdout, tables, hStuck, rfl⟩
  · rename_i tables hMerged
    rw [hMerged] at hTables
    cases hTables

/- With nothing to merge the binary exits well if no merge is
   in progress. -/
theorem exit_of_ancestor
    {ours theirs : Commit}
    (hMerge :
      repo.merge dolt hash text source = some (output, next))
    (hOurs : repo.heads repo.checkedOut = some ours)
    (hTheirs : repo.heads source = some theirs)
    (hOld : repo.isAncestor theirs.hash ours.hash = true) :
    output.exitCode = 0 ↔ repo.merging = none := by
  unfold merge at hMerge
  rw [hOurs, hTheirs] at hMerge
  dsimp only at hMerge
  cases hMerging : repo.merging with
  | some state =>
      rw [hMerging, Option.isSome_some, if_pos rfl] at hMerge
      cases hMerge
      simp
  | none =>
      rw [hMerging, Option.isSome_none,
        if_neg Bool.false_ne_true, if_pos hOld] at hMerge
      cases hMerge
      simp

/- Only two branches that exist are merged. -/
theorem heads_of_exit
    (hMerge :
      repo.merge dolt hash text source = some (output, next))
    (hExit : output.exitCode = 0) :
    ∃ ours theirs,
      repo.heads repo.checkedOut = some ours ∧
        repo.heads source = some theirs := by
  unfold merge at hMerge
  split at hMerge
  · rename_i ours theirs hOurs hTheirs
    exact ⟨ours, theirs, hOurs, hTheirs⟩
  · cases hMerge
    cases hExit

end DoltRepo

end Versioning

------------------------------------------------------------
-- Classified Merges
------------------------------------------------------------

namespace Versioning

open Concurrency

variable {config : VersioningConfig}
variable {before repo : DoltRepo}
variable {steps earlier later : List VersioningTaken}
variable {step : VersioningTaken}
variable {source : String} {target : Option String}
variable {result : MergeOutput}
variable {outcome : Except VersioningError MergeResult}

/- The merge is of the heads that the call has found. -/
theorem OnTarget.hasMerged_iff
    (hOn : OnTarget before target repo)
    (hThere : ¬ before.LacksBranch source target) :
    before.HasMerged source target ↔
      repo.HasMerged source none := by
  have hCheckedOut :
      repo.checkedOut = before.mergeTarget target := by
    apply hOn.checkedOut
    intro branch hTarget hNone
    exact hThere (Or.inr ⟨branch, hTarget, hNone⟩)
  have hAncestor :
      ∀ old new,
        repo.isAncestor old new = before.isAncestor old new := by
    intro old new
    unfold DoltRepo.isAncestor
    rw [hOn.commits]
  have hInto :
      repo.mergeTarget none = before.mergeTarget target :=
    hCheckedOut
  unfold DoltRepo.HasMerged
  rw [hInto, hOn.heads]
  simp only [hAncestor]

/- What the exit of a merge is. -/
theorem MergeAsked.ran_cases
    (hAsked :
      MergeAsked config before source target earlier step
        result) :
    (step.choice.fails = true ∧ result.exitCode ≠ 0 ∧
        step.after.repo = step.before.repo) ∨
      step.choice.fails = false ∧
        step.before.repo.merge config.dolt step.choice.hash
            step.choice.text source =
          some (result, step.after.repo) := by
  rcases DoltStatement.run_cases hAsked.ran with
    ⟨hFails, hAnswer, hSame⟩ | ⟨hWell, hPerform⟩
  · left
    refine ⟨hFails, ?_, hSame⟩
    rw [hAnswer]
    exact Nat.one_ne_zero
  · exact Or.inr ⟨hWell, hPerform⟩

theorem MergeAsked.stepSticks_iff
    (hAsked :
      MergeAsked config before source target earlier step
        result) :
    StepSticks config.dolt step ↔
      step.choice.fails = false ∧
        step.before.repo.Sticks config.dolt source := by
  unfold StepSticks
  rw [hAsked.op]
  simp

/- Nothing to merge is found if no merge is in progress. -/
theorem MergeAsked.upToDate_iff
    (hAsked :
      MergeAsked config before source target earlier step
        result)
    (hMember : step ∈ steps)
    (hTold : MergesTold config.dolt steps) :
    result.exitCode = 0 ∧
        includesLower (combinedOutput result) "up to date" =
          true ↔
      step.before.repo.HasMerged source none ∧
        step.before.repo.merging = none ∧
        step.choice.fails = false := by
  constructor
  · rintro ⟨hExit, hWords⟩
    rcases hAsked.ran_cases with
      ⟨_, hFailed, _⟩ | ⟨hWell, hMerge⟩
    · exact absurd hExit hFailed
    rcases DoltRepo.heads_of_exit hMerge hExit with
      ⟨ours, theirs, hOurs, hTheirs⟩
    have hOld :=
      (hTold.upToDate step hMember source ours theirs result
        hAsked.op hWell hOurs hTheirs hAsked.output hExit).mp
        hWords
    have hIdle :=
      (DoltRepo.exit_of_ancestor hMerge hOurs hTheirs
        hOld).mp hExit
    exact ⟨⟨ours, theirs, hOurs, hTheirs, hOld⟩, hIdle, hWell⟩
  · rintro
      ⟨⟨ours, theirs, hOurs, hTheirs, hOld⟩, hIdle, hWell⟩
    rcases hAsked.ran_cases with
      ⟨hFails, _⟩ | ⟨_, hMerge⟩
    · rw [hFails] at hWell
      cases hWell
    have hExit :=
      (DoltRepo.exit_of_ancestor hMerge hOurs hTheirs
        hOld).mpr hIdle
    exact
      ⟨hExit,
        (hTold.upToDate step hMember source ours theirs result
          hAsked.op hWell hOurs hTheirs hAsked.output
          hExit).mpr hOld⟩

theorem MergeRuns.ops
    (hRuns :
      MergeRuns config before source target earlier step later
        result outcome) :
    ∀ other ∈ later, AfterMerge other.op :=
  fun other hMember => (hRuns.told.ops other hMember).1

/- A conflict is reported if it was noticed, and a merge is
   there to be aborted. -/
theorem MergeRuns.conflict_iff
    (hRuns :
      MergeRuns config before source target earlier step later
        result outcome) :
    RejectsConflict outcome ↔
      Noticed (earlier ++ ([step] ++ later)) ∧
        AbortsSucceed (earlier ++ ([step] ++ later)) ∧
        step.after.repo.merging.isSome = true := by
  have hNoAbort :
      ∀ other ∈ earlier ++ [step],
        other.op ≠ .dolt .mergeAbort := by
    intro other hMember hOp
    rcases List.mem_append.mp hMember with hOld | hThis
    · have hBefore := hRuns.asked.earlier other hOld
      rw [hOp] at hBefore
      exact hBefore
    · rw [List.mem_singleton.mp hThis, hRuns.asked.op] at hOp
      cases hOp
  rw [hRuns.told.conflict,
    noticed_iff hRuns.asked.earlier hRuns.asked.op
      hRuns.asked.output hRuns.ops,
    ← List.append_assoc, abortsSucceed_append_iff hNoAbort]
  exact and_assoc.symm

theorem MergeRuns.quiet_all
    (hRuns :
      MergeRuns config before source target earlier step later
        result outcome) :
    ¬ ∃ other ∈ earlier ++ ([step] ++ later),
        FailsMissing mergeMeans other := by
  apply not_failsMissing_append hRuns.quiet
  apply not_failsMissing_append
  · rintro ⟨other, hMember, hFails⟩
    have hOp := hFails.1
    rw [List.mem_singleton.mp hMember, hRuns.asked.op] at hOp
    exact hOp
  · apply not_failsMissing_of_ops
    exact fun other hMember => (hRuns.told.ops other hMember).2

/- The conditions on the conflicts, case by case. -/
theorem MergeRuns.fits_conflict_iff
    (hRuns :
      MergeRuns config before source target earlier step later
        result outcome)
    (hTold :
      MergesTold config.dolt
        (earlier ++ ([step] ++ later))) :
    (RejectsConflict outcome ↔
        ∃ other ∈ earlier ++ ([step] ++ later),
          StepSticks config.dolt other) ↔
      ((∃ other ∈ earlier ++ ([step] ++ later),
          StepSticks config.dolt other) →
        (∀ other ∈ earlier ++ ([step] ++ later),
            Readable other) ∧
          AbortsSucceed (earlier ++ ([step] ++ later))) ∧
        ((¬ ∃ other ∈ earlier ++ ([step] ++ later),
            StepSticks config.dolt other) →
          before.merging = none ∨
            ¬ Noticed (earlier ++ ([step] ++ later)) ∨
            ¬ AbortsSucceed (earlier ++ ([step] ++ later))) := by
  have hStep :
      (∃ other ∈ earlier ++ ([step] ++ later),
          StepSticks config.dolt other) ↔
        StepSticks config.dolt step :=
    exists_merged_iff (fun _ hOp => not_stepSticks hOp)
      hRuns.asked.earlier hRuns.ops
  have hMentioned :
      (∃ other ∈ earlier ++ ([step] ++ later),
          Mentions other) ↔
        Mentions step :=
    exists_merged_iff (fun _ hOp => not_mentions hOp)
      hRuns.asked.earlier hRuns.ops
  rw [hStep, hRuns.conflict_iff]
  by_cases hSticks : StepSticks config.dolt step
  · have hWhich := hRuns.asked.stepSticks_iff.mp hSticks
    rcases hRuns.asked.ran_cases with
      ⟨hFails, _⟩ | ⟨_, hMerge⟩
    · rw [hWhich.1] at hFails
      cases hFails
    rcases DoltRepo.output_of_sticks hMerge hWhich.2 with
      ⟨hMerging, ours, theirs, stdout, tables, hStuck, hResult⟩
    have hWords :
        includesLower (combinedOutput result) "conflict" =
          true := by
      have hStdout := hTold.stuck ours theirs stdout tables hStuck
      rw [hResult]
      apply includesLower_left
      exact includesLower_left hStdout _
    have hMentions : Mentions step := by
      rw [mentions_iff hRuns.asked.output]
      refine ⟨?_, hWords⟩
      rw [hResult]
      exact Nat.one_ne_zero
    unfold Noticed
    rw [hMentioned]
    simp [hSticks, hMerging, hMentions]
  · have hMerging :
        step.after.repo.merging = before.merging := by
      rw [← hRuns.asked.onTarget.merging]
      rcases hRuns.asked.ran_cases with
        ⟨_, _, hSame⟩ | ⟨hWell, hMerge⟩
      · rw [hSame]
      · apply DoltRepo.merging_of_merge hMerge
        intro hStuck
        exact
          hSticks
            (hRuns.asked.stepSticks_iff.mpr ⟨hWell, hStuck⟩)
    rw [hMerging]
    cases hBefore : before.merging with
    | none => simp [hSticks]
    | some state =>
        simp only [Option.isSome_some, hSticks]
        tauto

theorem MergeRuns.fits_iff
    (hRuns :
      MergeRuns config before source target earlier step later
        result outcome)
    (hTold :
      MergesTold config.dolt
        (earlier ++ ([step] ++ later))) :
    MergeClassified config.dolt before source target
        (earlier ++ ([step] ++ later)) outcome ↔
      MergeWordsFit config.dolt before source target
        (earlier ++ ([step] ++ later)) := by
  have hQuiet := hRuns.quiet_all
  have hMissing := hRuns.told.missing
  by_cases hLacks : before.LacksBranch source target
  · constructor
    · intro hClassified
      exact absurd (hClassified.missing.mpr hLacks) hMissing
    · intro hFits
      exact absurd (hFits.missing.mpr hLacks) hQuiet
  have hMember : step ∈ earlier ++ ([step] ++ later) := by
    simp
  have hMerged := hRuns.asked.onTarget.hasMerged_iff hLacks
  have hIdle := hRuns.asked.onTarget.merging
  have hWell :
      (∃ other ∈ earlier ++ ([step] ++ later),
          MergesWell source other) ↔
        step.choice.fails = false := by
    have hOnly :
        ∀ other : VersioningTaken,
          (∀ source, other.op ≠ .dolt (.merge source)) →
            ¬ MergesWell source other :=
      fun _ hOp hDone => hOp source hDone.1
    rw [exists_merged_iff hOnly hRuns.asked.earlier hRuns.ops]
    simp [MergesWell, hRuns.asked.op]
  have hUpToDate :
      ReturnsUpToDate outcome ↔
        before.HasMerged source target ∧
          before.merging = none ∧
          step.choice.fails = false := by
    rw [hRuns.told.upToDate,
      hRuns.asked.upToDate_iff hMember hTold, hMerged, hIdle]
  have hConflict := hRuns.fits_conflict_iff hTold
  constructor
  · intro hClassified
    have hBoth := hConflict.mp hClassified.conflict
    refine ⟨iff_of_false hQuiet hLacks, ?_, hBoth.1, hBoth.2⟩
    intro hHas
    rw [hWell]
    exact (hUpToDate.mp (hClassified.upToDate.mpr hHas)).2
  · intro hFits
    refine
      ⟨hConflict.mpr ⟨hFits.read, hFits.other⟩,
        iff_of_false hMissing hLacks, ?_⟩
    rw [hUpToDate, ← hWell]
    constructor
    · intro hBoth
      exact hBoth.1
    · intro hHas
      exact ⟨hHas, hFits.made hHas⟩

/- Without a merge nothing but a failure can be reported. -/
theorem classified_iff_of_stopped
    (hOps : ∀ step ∈ steps, BeforeMerge step.op)
    (hTells : TellsMissing mergeMeans steps outcome)
    (hError : ∃ error, outcome = .error error) :
    MergeClassified config.dolt before source target steps
        outcome ↔
      MergeWordsFit config.dolt before source target steps := by
  have hMerge :
      ∀ step ∈ steps,
        ∀ source, step.op ≠ .dolt (.merge source) :=
    fun step hMember =>
      not_merge_of_beforeMerge (hOps step hMember)
  have hSticks :
      ¬ ∃ step ∈ steps, StepSticks config.dolt step := by
    rintro ⟨step, hMember, hStuck⟩
    exact not_stepSticks (hMerge step hMember) hStuck
  have hUpToDate : ¬ ReturnsUpToDate outcome := by
    rcases hError with ⟨error, hOutcome⟩
    rw [hOutcome]
    exact not_returnsUpToDate_error error
  have hWell : ¬ ∃ step ∈ steps, MergesWell source step := by
    rintro ⟨step, hMember, hOp, _⟩
    exact hMerge step hMember source hOp
  have hNoticed : ¬ Noticed steps := by
    rintro ⟨⟨step, hMember, hMentions⟩, _⟩
    exact not_mentions (hMerge step hMember) hMentions
  constructor
  · intro hClassified
    constructor
    · rw [← hTells.missing]
      exact hClassified.missing
    · intro hHas
      exact absurd (hClassified.upToDate.mpr hHas) hUpToDate
    · intro hStuck
      exact absurd hStuck hSticks
    · intro _
      exact Or.inr (Or.inl hNoticed)
  · intro hFits
    constructor
    · exact iff_of_false hTells.conflict hSticks
    · rw [hTells.missing]
      exact hFits.missing
    · apply iff_of_false hUpToDate
      intro hHas
      exact hWell (hFits.made hHas).2

------------------------------------------------------------
-- Classified Calls
------------------------------------------------------------

variable {name : String}

theorem MergeEnds.fits_iff
    (hEnds : MergeEnds config repo source target steps outcome)
    (hTold : MergesTold config.dolt steps) :
    MergeClassified config.dolt repo source target steps
        outcome ↔
      MergeWordsFit config.dolt repo source target steps := by
  rcases hEnds with
    ⟨hOps, hTells, hError⟩ |
      ⟨earlier, step, later, result, hSteps, hRuns⟩
  · exact classified_iff_of_stopped hOps hTells hError
  · subst hSteps
    exact hRuns.fits_iff hTold

theorem TellsDeleted.fits_iff
    {outcome : Except VersioningError Unit}
    (hTells : TellsDeleted repo name steps outcome) :
    Classified config.dolt repo steps (.delete name) outcome ↔
      WordsFit config.dolt repo steps (.delete name) := by
  unfold TellsDeleted at hTells
  simp only [Classified, WordsFit, hTells]
  by_cases hNone : repo.heads name = none
  · simp [hNone]
  · simp [hNone]

/- The words of a call fit what has happened exactly if the
   binary used them for that and nothing else. -/
theorem classified_iff
    (config : VersioningConfig)
    (i : Nat)
    (repoId : String)
    (call : BranchCall)
    (steps : List VersioningTaken)
    (outcome : Except VersioningError call.Result)
    (s t : VersioningState)
    (hNames : ∀ name ∈ call.names, acceptsBranchName name = true)
    (hTold : MergesTold config.dolt steps)
    (hRun :
      Solo (VersioningOp.exec config) (call.serve i repoId) s
        steps outcome t) :
    Classified config.dolt s.repo steps call outcome ↔
      WordsFit config.dolt s.repo steps call := by
  cases call with
  | merge source targetBranch =>
      have hSource := hNames source List.mem_cons_self
      have hTarget :
          ∀ branch, namedTarget targetBranch = some branch →
            acceptsBranchName branch = true := by
        intro branch hBranch
        apply hNames
        apply List.mem_cons_of_mem
        rw [hBranch]
        exact List.mem_singleton_self branch
      have hEnds :=
        ends_mergeCall hSource hTarget steps outcome t hRun
      exact hEnds.fits_iff hTold
  | checkout name =>
      have hName := hNames name (List.mem_singleton_self name)
      have hTells := ends_checkoutCall hName steps outcome t hRun
      simp only [Classified, WordsFit]
      rw [hTells.missing]
  | delete name =>
      have hName := hNames name (List.mem_singleton_self name)
      have hTells := ends_deleteCall hName steps outcome t hRun
      exact hTells.fits_iff

theorem stuck_says_conflict
    (ours theirs : Commit)
    (stdout : String)
    (tables : Tables)
    (hStuck :
      conflictConfig.dolt.merged ours theirs =
        .stuck stdout tables) :
    includesLower stdout "conflict" = true := by
  cases hStuck
  decide +kernel

/- A merge with conflicts. -/
theorem classified_iff_of_conflict :
    ∃ steps outcome t,
      Solo (VersioningOp.exec conflictConfig)
          ((BranchCall.merge "work" none).serve 0 "r") forked
          steps outcome t ∧
        (Classified conflictConfig.dolt forked.repo steps
            (.merge "work" none) outcome ↔
          WordsFit conflictConfig.dolt forked.repo steps
            (.merge "work" none)) := by
  have hReplay :
      Option.any
          (fun q =>
            q.1.all fun step =>
              (mergeOutput step).all fun output =>
                output.exitCode != 0)
          (solo? (VersioningOp.exec conflictConfig)
            ((BranchCall.merge "work" none).serve 0 "r") forked
            conflictChoices) =
        true := by
    decide +kernel
  rw [Option.any_eq_true] at hReplay
  rcases hReplay with ⟨⟨steps, outcome, t⟩, hRun, hExits⟩
  have hSolo := solo_of_solo? hRun
  refine ⟨steps, outcome, t, hSolo, ?_⟩
  have hNames :
      ∀ name ∈ (BranchCall.merge "work" none).names,
        acceptsBranchName name = true := by
    decide +kernel
  have hTold : MergesTold conflictConfig.dolt steps := by
    constructor
    · exact stuck_says_conflict
    · intro step hMember _ _ _ output _ _ _ _ hOutput hExit
      have hStep := List.all_eq_true.mp hExits step hMember
      rw [hOutput] at hStep
      simp [hExit] at hStep
  exact
    classified_iff conflictConfig 0 "r" (.merge "work" none)
      steps outcome forked t hNames hTold hSolo

/- Neither a source nor a branch to check out is reported as
   missing, although nothing has failed but for that. -/
theorem missing_source_unnoticed :
    (∃ steps outcome t,
        Solo (VersioningOp.exec conflictConfig)
            ((BranchCall.merge "feature" none).serve 0 "r")
            forked steps outcome t ∧
          ¬ Classified conflictConfig.dolt forked.repo steps
            (.merge "feature" none) outcome) ∧
      ∃ steps outcome t,
        Solo (VersioningOp.exec conflictConfig)
            ((BranchCall.checkout "feature").serve 0 "r")
            forked steps outcome t ∧
          ¬ Classified conflictConfig.dolt forked.repo steps
            (.checkout "feature") outcome := by
  constructor
  · have hReplay :
        Option.any
            (fun q => decide (¬ RejectsMissing q.2.1))
            (solo? (VersioningOp.exec conflictConfig)
              ((BranchCall.merge "feature" none).serve 0 "r")
              forked conflictChoices) =
          true := by
      decide +kernel
    rw [Option.any_eq_true] at hReplay
    rcases hReplay with ⟨⟨steps, outcome, t⟩, hRun, hOther⟩
    refine ⟨steps, outcome, t, solo_of_solo? hRun, ?_⟩
    intro hClassified
    apply of_decide_eq_true hOther
    exact hClassified.missing.mpr (Or.inl rfl)
  · have hReplay :
        Option.any
            (fun q => decide (¬ RejectsMissing q.2.1))
            (solo? (VersioningOp.exec conflictConfig)
              ((BranchCall.checkout "feature").serve 0 "r")
              forked conflictChoices) =
          true := by
      decide +kernel
    rw [Option.any_eq_true] at hReplay
    rcases hReplay with ⟨⟨steps, outcome, t⟩, hRun, hOther⟩
    refine ⟨steps, outcome, t, solo_of_solo? hRun, ?_⟩
    intro hClassified
    exact of_decide_eq_true hOther (hClassified.mpr rfl)

end Versioning
