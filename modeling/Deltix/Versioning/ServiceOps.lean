import Deltix.Versioning.ImportFrame
import Deltix.Versioning.MergeService

/-
  Which operations the parts of the branch, merge and push
  services perform.

  A condition on operations holds of a part if it holds of
  the few operations that the part is made of.

  Key theorems include:
    * `only_requireRepo`
    * `only_runDoltMerge`
    * `only_runDoltReadConflicts`
    * `only_addResolved`
-/

namespace Versioning

open Concurrency

variable {cond : VersioningOp → Prop}

theorem only_requireRepo
    {repoId : String}
    (hRepo : cond (.getRepo repoId)) :
    (requireRepo repoId).Only cond := by
  apply Async.only_bind Async.only_ensure
  intro _
  apply Async.only_bind (only_getRepo hRepo)
  intro found
  exact Async.only_ensure

theorem only_assertTarget (target : Option String) :
    (assertTarget target).Only cond := by
  cases target with
  | some targetBranch => exact Async.only_ensure
  | none => exact Async.only_returned ()

theorem only_readCurrentBranchName
    (hCurrent : cond (.dolt .currentBranch)) :
    readCurrentBranchName.Only cond := by
  apply only_dolt_expect hCurrent
  intro current
  exact only_answered _ current

theorem only_translateErrors
    {α : Type}
    {operation : VersioningProgram α}
    (hOnly : operation.Only cond) :
    (translateErrors operation).Only cond := by
  apply Async.only_catchError hOnly
  intro error
  exact Async.only_threw _

theorem only_translateMergeErrors
    {α : Type}
    {operation : VersioningProgram α}
    (hOnly : operation.Only cond) :
    (translateMergeErrors operation).Only cond := by
  apply Async.only_catchError hOnly
  intro error
  exact Async.only_threw _

theorem only_intendedTarget
    (hCurrent : cond (.dolt .currentBranch))
    (target : Option String) :
    (intendedTarget target).Only cond := by
  cases target with
  | some targetBranch => exact Async.only_returned _
  | none =>
      apply only_translateMergeErrors
      exact only_readCurrentBranchName hCurrent

------------------------------------------------------------
-- Merges
------------------------------------------------------------

theorem only_checkoutMergeTarget
    {target : Option String}
    (hCurrent : cond (.dolt .currentBranch))
    (hCheckout :
      ∀ branch, target = some branch →
        cond (.dolt (.checkout branch))) :
    (checkoutMergeTarget target).Only cond := by
  cases target with
  | none => exact Async.only_returned ()
  | some branch =>
      apply Async.only_bind Async.only_ensure
      intro _
      apply Async.only_bind
      · exact only_readCurrentBranchName hCurrent
      intro currentBranch
      split_ifs
      · exact Async.only_returned ()
      · apply Async.only_bind Async.only_ensure
        intro _
        apply only_dolt_expect (hCheckout branch rfl)
        intro checkout
        exact only_answered _ checkout

theorem only_runDoltMerge
    {source : String}
    {target : Option String}
    (hCurrent : cond (.dolt .currentBranch))
    (hCheckout :
      ∀ branch, target = some branch →
        cond (.dolt (.checkout branch)))
    (hMerge : cond (.dolt (.merge source))) :
    (runDoltMerge source target).Only cond := by
  apply Async.only_bind Async.only_ensure
  intro _
  apply Async.only_bind
  · exact only_checkoutMergeTarget hCurrent hCheckout
  intro _
  apply Async.only_bind
  · exact only_readCurrentBranchName hCurrent
  intro _
  exact Async.only_call.mpr hMerge

theorem only_latestCommitHash
    (hHash : cond (.dolt .latestHash)) :
    runDoltLatestCommitHash.Only cond := by
  apply only_dolt_expect hHash
  intro hash
  apply Async.only_bind (only_answered _ hash)
  intro commitHash
  apply Async.only_bind Async.only_ensure
  intro _
  exact Async.only_returned commitHash

theorem only_reportMerge
    (source target : String)
    (result : MergeOutput)
    (hHash : cond (.dolt .latestHash)) :
    (reportMerge source target result).Only cond := by
  unfold reportMerge
  split
  · exact Async.only_returned _
  · apply Async.only_bind (only_latestCommitHash hHash)
    intro commitHash
    exact Async.only_returned _

theorem only_readConflictTable
    {tableName : String}
    (expectedCount : Option String)
    (hRows : cond (.dolt (.conflictRows tableName))) :
    (readConflictTable tableName expectedCount).Only cond := by
  apply Async.only_bind Async.only_ensure
  intro _
  apply only_dolt_expect hRows
  intro detail
  apply Async.only_bind (only_answered _ detail)
  intro stdout
  exact Async.only_returned _

theorem only_readConflictTables
    (hRows : ∀ name, cond (.dolt (.conflictRows name)))
    (rows : List CsvRow)
    (tables : List MergeConflictTable) :
    (readConflictTables rows tables).Only cond := by
  induction rows generalizing tables with
  | nil => exact Async.only_returned tables
  | cons row rest ih =>
      unfold readConflictTables
      split
      · exact Async.only_threw _
      · split_ifs
        · exact Async.only_threw _
        · apply Async.only_bind
          · exact only_readConflictTable _ (hRows _)
          · intro table
            exact ih _

theorem only_runDoltReadConflicts
    (hList : cond (.dolt .listConflicts))
    (hRows : ∀ name, cond (.dolt (.conflictRows name))) :
    runDoltReadConflicts.Only cond := by
  apply only_dolt_expect hList
  intro summary
  apply Async.only_bind (only_answered _ summary)
  intro stdout
  exact only_readConflictTables hRows _ _

theorem only_runDoltMergeAbort
    (hAbort : cond (.dolt .mergeAbort)) :
    runDoltMergeAbort.Only cond := by
  apply only_dolt_expect hAbort
  intro aborted
  exact only_answered _ aborted

theorem only_addResolved
    {tables : Option (List String)}
    (hAll : cond (.dolt .addAll))
    (hAdd :
      ∀ names, tables = some names →
        cond (.dolt (.add names))) :
    (addResolved tables).Only cond := by
  have hEverything :
      (do
        let added ← dolt .addAll
        expect "add" added : VersioningProgram Unit).Only
          cond := by
    apply only_dolt_expect hAll
    intro added
    exact only_answered _ added
  cases tables with
  | none => exact hEverything
  | some names =>
      unfold addResolved
      dsimp only
      split_ifs
      · exact hEverything
      · apply only_dolt_expect (hAdd names rfl)
        intro added
        exact only_answered _ added

end Versioning
