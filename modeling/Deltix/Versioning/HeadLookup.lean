import Deltix.Versioning.ImportFidelity
import Deltix.Versioning.MergeRecovery
import Deltix.Versioning.PushRecord
import Mathlib.Data.Finset.Max

/-
  The hash that a commit or a merge returns.

  It is looked up as the latest of the log by date.  Dates
  need not follow the history, so the lookup finds the head
  for certain only where the head is later than all else.

  Key definitions include:
    * `LooksUp`
    * `HashPath`
    * `Dated`
    * `HeadIsLatest`

  Key theorems include:
    * `looksUp_serve`
    * `exists_latest`
    * `head_returned_iff`
-/

------------------------------------------------------------
-- Computations That Settle
------------------------------------------------------------

namespace Versioning

open Concurrency

variable {α β : Type}
variable {first : VersioningProgram α}
variable {next : α → VersioningProgram β}
variable {error : VersioningError}
variable {outcome : Except VersioningError α}

/- All that is left to do is to release the mutex. -/
def Settles
    (outcome : Except VersioningError α) :
    VersioningProgram α → Prop
  | .returned value => outcome = .ok value
  | .threw error => outcome = .error error
  | .await op resume =>
      op = .release ∧ ∀ answer, Settles outcome (resume answer)

theorem settles_bind_ok
    {value : α}
    {outcome : Except VersioningError β}
    (hFirst : Settles (.ok value) first)
    (hNext : Settles outcome (next value)) :
    Settles outcome (first.bind next) := by
  induction first with
  | returned found =>
      cases hFirst
      exact hNext
  | threw error => cases hFirst
  | await op resume ih =>
      refine ⟨hFirst.1, ?_⟩
      intro answer
      exact ih answer (hFirst.2 answer)

theorem settles_bind_error
    (hFirst : Settles (.error error) first) :
    Settles (.error error) (first.bind next) := by
  induction first with
  | returned found => cases hFirst
  | threw thrown =>
      cases hFirst
      exact rfl
  | await op resume ih =>
      refine ⟨hFirst.1, ?_⟩
      intro answer
      exact ih answer (hFirst.2 answer)

theorem settles_ensure
    {condition : Bool}
    {next : Unit → VersioningProgram α}
    (hHolds : condition = true)
    (hNext : Settles outcome (next ())) :
    Settles outcome
      ((Async.ensure condition error).bind next) := by
  rw [hHolds]
  exact hNext

/- The mutex is released in any case. -/
theorem settles_andFinally
    {body : VersioningProgram α}
    (hBody : Settles outcome body) :
    Settles outcome (body.andFinally (perform .release)) := by
  induction body with
  | returned value =>
      cases hBody
      exact ⟨rfl, fun _ => rfl⟩
  | threw error =>
      cases hBody
      exact ⟨rfl, fun _ => rfl⟩
  | await op resume ih =>
      refine ⟨hBody.1, ?_⟩
      intro answer
      exact ih answer (hBody.2 answer)

variable {config : VersioningConfig}
variable {program : VersioningProgram α}

/- A computation that settles changes no repository. -/
theorem ends_settles
    {s : VersioningState}
    (hSettles : Settles outcome program) :
    Ends (VersioningOp.exec config) program s
      fun steps ended t =>
        ended = outcome ∧ t.repo = s.repo ∧
          ∀ step ∈ steps, step.op = .release := by
  induction program generalizing s with
  | returned value =>
      apply ends_returned
      exact ⟨hSettles.symm, rfl, by simp⟩
  | threw error =>
      apply ends_threw
      exact ⟨hSettles.symm, rfl, by simp⟩
  | await op resume ih =>
      rcases hSettles with ⟨hOp, hRest⟩
      subst hOp
      apply ends_await
      intro choice answer next hExec
      have hSame : next.repo = s.repo := by
        cases hExec
        rfl
      refine ends_mono (ih answer (hRest answer)) ?_
      rintro steps ended t ⟨hEnded, hRepo, hSteps⟩
      refine ⟨hEnded, hRepo.trans hSame, ?_⟩
      rw [List.forall_mem_cons]
      exact ⟨rfl, hSteps⟩

theorem exists_settled
    (hSettles : Settles outcome program)
    (s : VersioningState) :
    ∃ steps t,
      Solo (VersioningOp.exec config) program s steps outcome
        t := by
  induction program generalizing s with
  | returned value =>
      have hSame : outcome = .ok value := hSettles
      rw [hSame]
      exact ⟨[], s, .returned value s⟩
  | threw error =>
      have hSame : outcome = .error error := hSettles
      rw [hSame]
      exact ⟨[], s, .threw error s⟩
  | await op resume ih =>
      rcases hSettles with ⟨hOp, hRest⟩
      subst hOp
      rcases ih () (hRest ()) { s with lock := none } with
        ⟨steps, t, hSolo⟩
      have hExec :
          VersioningOp.release.exec config ⟨⟨false, "", ""⟩, 0⟩
              s =
            some ((), { s with lock := none }) := rfl
      exact ⟨_, t, .await hExec hSolo⟩

------------------------------------------------------------
-- Computations That Look Up A Hash
------------------------------------------------------------

variable {hashOf : α → Option String}
variable {op : VersioningOp}
variable {resume : op.Answer → VersioningProgram α}
variable {first : VersioningProgram β}

/- What no computation takes for a hash. -/
def NoHash (text : String) : Prop :=
  text = "" ∨ text = "commit_hash"

/- The outcome for the answer of a lookup. -/
def Reports
    (hashOf : α → Option String) :
    Except String String → Except VersioningError α → Prop
  | .ok text, .ok value => hashOf value = some text
  | .ok text, .error _ => NoHash text
  | .error _, .ok _ => False
  | .error _, .error _ => True

/-
  A hash is returned only after a lookup, and it is the one
  that the lookup has answered.
-/
def LooksUp
    (hashOf : α → Option String) : VersioningProgram α → Prop
  | .returned value => hashOf value = none
  | .threw _ => True
  | .await (.dolt .latestHash) resume =>
      ∀ answer, ∃ outcome,
        Reports hashOf answer outcome ∧
          Settles outcome (resume answer)
  | .await _ resume => ∀ answer, LooksUp hashOf (resume answer)

def isLookup : VersioningOp → Bool
  | .dolt .latestHash => true
  | _ => false

def NoLookup : VersioningOp → Prop
  | .dolt .latestHash => False
  | _ => True

theorem isLookup_of_noLookup
    (hOp : NoLookup op) :
    isLookup op = false := by
  cases op with
  | dolt statement =>
      cases statement with
      | latestHash => exact hOp.elim
      | _ => rfl
  | _ => rfl

theorem looksUp_await
    (hOp : NoLookup op)
    (hRest : ∀ answer, LooksUp hashOf (resume answer)) :
    LooksUp hashOf (.await op resume) := by
  cases op with
  | dolt statement =>
      cases statement with
      | latestHash => exact hOp.elim
      | _ => exact hRest
  | _ => exact hRest

theorem looksUp_bind
    {next : β → VersioningProgram α}
    (hFirst : first.Only NoLookup)
    (hNext : ∀ value, LooksUp hashOf (next value)) :
    LooksUp hashOf (first.bind next) := by
  induction first with
  | returned value => exact hNext value
  | threw error => exact trivial
  | await op resume ih =>
      apply looksUp_await hFirst.1
      intro answer
      exact ih answer (hFirst.2 answer)

/- A lookup, or an operation that is none. -/
theorem lookup_or_not (op : VersioningOp) :
    op = .dolt .latestHash ∨ NoLookup op := by
  cases op with
  | dolt statement =>
      cases statement with
      | latestHash => exact Or.inl rfl
      | _ => exact Or.inr trivial
  | _ => exact Or.inr trivial

theorem looksUp_rest
    (hOp : NoLookup op)
    (hLooks : LooksUp hashOf (.await op resume)) :
    ∀ answer, LooksUp hashOf (resume answer) := by
  cases op with
  | dolt statement =>
      cases statement with
      | latestHash => exact hOp.elim
      | _ => exact hLooks
  | _ => exact hLooks

/- What is returned for the same hash. -/
theorem looksUp_map
    {read : β → Option String}
    {value : β → α}
    (hFirst : LooksUp read first)
    (hSame : ∀ found, hashOf (value found) = read found) :
    LooksUp hashOf
      (first.bind fun found => .returned (value found)) := by
  induction first with
  | returned found => exact (hSame found).trans hFirst
  | threw error => exact trivial
  | await op resume ih =>
      rcases lookup_or_not op with hOp | hOp
      · subst hOp
        intro answer
        rcases hFirst answer with ⟨outcome, hReports, hSettles⟩
        cases outcome with
        | ok found =>
            refine ⟨.ok (value found), ?_, ?_⟩
            · cases answer with
              | ok text => exact (hSame found).trans hReports
              | error text => exact hReports
            · exact settles_bind_ok hSettles rfl
        | error error =>
            refine ⟨.error error, ?_, ?_⟩
            · cases answer with
              | ok text => exact hReports
              | error text => exact hReports
            · exact settles_bind_error hSettles
      · apply looksUp_await hOp
        intro answer
        exact ih answer (looksUp_rest hOp hFirst answer)

theorem looksUp_andFinally
    {body : VersioningProgram α}
    (hBody : LooksUp hashOf body) :
    LooksUp hashOf (body.andFinally (perform .release)) := by
  induction body with
  | returned value => exact fun _ => hBody
  | threw error => exact fun _ => trivial
  | await op resume ih =>
      rcases lookup_or_not op with hOp | hOp
      · subst hOp
        intro answer
        rcases hBody answer with ⟨outcome, hReports, hSettles⟩
        exact ⟨outcome, hReports, settles_andFinally hSettles⟩
      · have hRest := looksUp_rest hOp hBody
        exact
          looksUp_await hOp fun answer =>
            ih answer (hRest answer)

------------------------------------------------------------
-- The Operations That Return A Hash
------------------------------------------------------------

/- The imports, the recorded pushes and the merges. -/
inductive HashPath where
  | commitImport (commit : ImportedCommit) (branch : String)
  | commitPush (params : PushCommitParams)
  | merge
      (i : Nat)
      (repoId source : String)
      (target : Option String)

/- The hash that a merge reports, if any. -/
def MergeStatus.hash? : MergeStatus → Option String
  | .upToDate => none
  | .merged commitHash _ => some commitHash

def HashPath.serve :
    HashPath → VersioningProgram (Option String)
  | .commitImport commit branch => do
      let hash ← runDoltCommitImport commit branch
      return some hash
  | .commitPush params => do
      let hash ← runDoltCommit params
      return some hash
  | .merge i repoId source target => do
      let result ← Versioning.merge i repoId source target
      return result.status.hash?

theorem looksUp_readCommitHash :
    LooksUp some readCommitHash := by
  intro answer
  cases answer with
  | error text => exact ⟨.error _, trivial, rfl⟩
  | ok text =>
      by_cases hText : text = ""
      · refine
          ⟨.error .noCommitHash, Or.inl hText, ?_⟩
        subst hText
        exact rfl
      · refine ⟨.ok text, rfl, ?_⟩
        apply settles_ensure
        · simpa using hText
        · exact rfl

theorem looksUp_latestCommitHash :
    LooksUp some runDoltLatestCommitHash := by
  intro answer
  cases answer with
  | error text => exact ⟨.error _, trivial, rfl⟩
  | ok text =>
      by_cases hText : NoHash text
      · refine ⟨.error .noLatestHash, hText, ?_⟩
        rcases hText with hText | hText
        · subst hText
          exact rfl
        · subst hText
          exact rfl
      · unfold NoHash at hText
        rw [not_or] at hText
        refine ⟨.ok text, rfl, ?_⟩
        apply settles_ensure
        · simpa using hText
        · exact rfl

theorem looksUp_commitImport
    (commit : ImportedCommit)
    (branch : String) :
    LooksUp some (runDoltCommitImport commit branch) := by
  apply looksUp_bind
  · exact only_checkoutTarget_of trivial trivial
  intro _
  apply looksUp_bind
  · apply Async.only_forEach
    intro table _
    exact only_importTable trivial trivial trivial trivial
  intro _
  apply looksUp_bind
  · exact Async.only_call.mpr trivial
  intro added
  apply looksUp_bind (only_answered _ added)
  intro _
  apply looksUp_bind
  · exact Async.only_call.mpr trivial
  intro committed
  apply looksUp_bind (only_answered _ committed)
  intro _
  exact looksUp_readCommitHash

theorem looksUp_commitPush (params : PushCommitParams) :
    LooksUp some (runDoltCommit params) := by
  apply looksUp_bind Async.only_ensure
  intro _
  apply looksUp_bind Async.only_ensure
  intro _
  apply looksUp_bind
  · exact Async.only_call.mpr trivial
  intro created
  apply looksUp_bind (only_answered _ created)
  intro _
  apply looksUp_bind
  · exact Async.only_call.mpr trivial
  intro pushedAt
  apply looksUp_bind
  · exact Async.only_call.mpr trivial
  intro inserted
  apply looksUp_bind (only_answered _ inserted)
  intro _
  apply looksUp_bind
  · exact only_addResolved trivial fun _ _ => trivial
  intro _
  apply looksUp_bind
  · exact Async.only_call.mpr trivial
  intro committed
  apply looksUp_bind (only_answered _ committed)
  intro _
  exact looksUp_readCommitHash

theorem looksUp_reportMerge
    (source target : String)
    (result : MergeOutput) :
    LooksUp (fun merged => merged.status.hash?)
      (reportMerge source target result) := by
  unfold reportMerge
  split
  · exact rfl
  · refine looksUp_map looksUp_latestCommitHash ?_
    intro commitHash
    rfl

theorem looksUp_rejectMerge
    (source target : String)
    (result : MergeOutput) :
    LooksUp (fun merged => merged.status.hash?)
      (rejectMerge source target result) := by
  unfold rejectMerge
  split
  · apply looksUp_bind
    · exact only_runDoltReadConflicts trivial fun _ => trivial
    intro conflicts
    apply looksUp_bind
    · exact only_runDoltMergeAbort trivial
    intro _
    exact trivial
  · exact trivial

theorem looksUp_mergeExclusive
    (source : String)
    (target : Option String) :
    LooksUp (fun merged => merged.status.hash?)
      (mergeExclusive source target) := by
  apply looksUp_bind
  · exact only_intendedTarget trivial target
  intro intended
  apply looksUp_bind
  · apply only_translateMergeErrors
    exact only_runDoltMerge trivial (fun _ _ => trivial) trivial
  intro result
  split
  · exact looksUp_reportMerge source intended result
  · exact looksUp_rejectMerge source intended result

theorem looksUp_serve (path : HashPath) :
    LooksUp id path.serve := by
  cases path with
  | commitImport commit branch =>
      apply looksUp_map (looksUp_commitImport commit branch)
      intro hash
      rfl
  | commitPush params =>
      apply looksUp_map (looksUp_commitPush params)
      intro hash
      rfl
  | merge i repoId source target =>
      have hMerge :
          LooksUp (fun merged => merged.status.hash?)
            (Versioning.merge i repoId source target) := by
        apply looksUp_bind Async.only_ensure
        intro _
        apply looksUp_bind (only_assertTarget _)
        intro _
        apply looksUp_bind (only_requireRepo trivial)
        intro _
        apply looksUp_bind
        · exact Async.only_call.mpr trivial
        intro _
        apply looksUp_andFinally
        exact looksUp_mergeExclusive source _
      exact looksUp_map hMerge fun _ => rfl

/- The state after some steps. -/
def leftBy : VersioningState → List VersioningTaken →
    VersioningState
  | s, [] => s
  | _, step :: rest => leftBy step.after rest

/- The steps of a run up to its lookup. -/
def beforeLookup (steps : List VersioningTaken) :
    List VersioningTaken :=
  steps.takeWhile fun step => !isLookup step.op

/-
  The run has looked a hash up, and nothing but the mutex was
  touched since.
-/
structure LookedUp
    (s : VersioningState)
    (steps : List VersioningTaken)
    (found : String)
    (t : VersioningState) : Prop where
  split :
    ∃ choice after rest,
      steps =
          beforeLookup steps ++
            ⟨.dolt .latestHash, choice,
              leftBy s (beforeLookup steps), .ok found, after⟩ ::
              rest ∧
        ∀ step ∈ rest, step.op = .release
  repo : t.repo = (leftBy s (beforeLookup steps)).repo

theorem lookedUp_cons
    {step : VersioningTaken}
    {steps : List VersioningTaken}
    {found : String}
    {t : VersioningState}
    (s : VersioningState)
    (hOp : NoLookup step.op)
    (hLooked : LookedUp step.after steps found t) :
    LookedUp s (step :: steps) found t := by
  have hOther := isLookup_of_noLookup hOp
  have hBefore :
      beforeLookup (step :: steps) =
        step :: beforeLookup steps := by
    unfold beforeLookup
    rw [List.takeWhile_cons_of_pos (by simpa using hOther)]
  constructor
  · rcases hLooked.split with
      ⟨choice, after, rest, hSteps, hRest⟩
    refine ⟨choice, after, rest, ?_, hRest⟩
    rw [hBefore, List.cons_append]
    exact congrArg _ hSteps
  · rw [hBefore]
    exact hLooked.repo

/- A run that returns a hash has looked it up. -/
theorem ends_looksUp
    {program : VersioningProgram α}
    {s : VersioningState}
    (hLooks : LooksUp hashOf program) :
    Ends (VersioningOp.exec config) program s
      fun steps outcome t =>
        ∀ value found,
          outcome = .ok value → hashOf value = some found →
            LookedUp s steps found t := by
  induction program generalizing s with
  | returned value =>
      apply ends_returned
      intro other found hOk hFound
      cases hOk
      have hNone : hashOf value = none := hLooks
      rw [hNone] at hFound
      cases hFound
  | threw error =>
      apply ends_threw
      intro other found hOk
      cases hOk
  | await op resume ih =>
      apply ends_await
      intro choice answer next hExec
      rcases lookup_or_not op with hOp | hOp
      · subst hOp
        rcases hLooks answer with ⟨ended, hReports, hSettles⟩
        refine ends_mono (ends_settles hSettles) ?_
        rintro rest outcome t ⟨hEnded, hRepo, hRest⟩
        intro value found hOk hFound
        rw [hOk] at hEnded
        cases hEnded
        have hReads : DoltStatement.latestHash.Reads := trivial
        have hSame :=
          DoltStatement.repo_of_reads hReads (exec_dolt hExec).1
        have hBefore :
            ∀ step : VersioningTaken,
              step.op = .dolt .latestHash →
                beforeLookup (step :: rest) = [] := by
          intro step hStep
          unfold beforeLookup
          rw [List.takeWhile_cons_of_neg]
          rw [hStep]
          decide
        cases answer with
        | error text => exact hReports.elim
        | ok text =>
            have hText : hashOf value = some text := hReports
            rw [hText] at hFound
            cases hFound
            constructor
            · rw [hBefore _ rfl]
              exact ⟨choice, next, rest, rfl, hRest⟩
            · rw [hBefore _ rfl]
              exact hRepo.trans hSame
      · refine
          ends_mono (ih answer (looksUp_rest hOp hLooks answer))
            ?_
        intro steps outcome t hEnds value found hOk hFound
        apply lookedUp_cons s hOp
        exact hEnds value found hOk hFound

open Relational

variable {date : String → Nat} {repo : DoltRepo}

/- The hash is the one of the head that is checked out. -/
def DoltRepo.HeadIs (repo : DoltRepo) (hash : String) : Prop :=
  (repo.heads repo.checkedOut).map Commit.hash = some hash

/- The head is later than the rest of its history. -/
def HeadIsLatest
    (date : String → Nat)
    (repo : DoltRepo) : Prop :=
  ∀ head, repo.heads repo.checkedOut = some head →
    ∀ hash, repo.isAncestor hash head.hash = true →
      hash ≠ head.hash → date hash < date head.hash

/- The commits of a history have hashes. -/
def DoltRepo.Hashed (repo : DoltRepo) : Prop :=
  ∀ head, repo.heads repo.checkedOut = some head →
    ∀ hash, repo.isAncestor hash head.hash = true →
      ¬ NoHash hash

/- What `ORDER BY date DESC LIMIT 1` may answer: a commit of
   the log that none is later than. -/
def Dated
    (date : String → Nat) : VersioningTaken → Prop
  | ⟨.dolt .latestHash, _, before, .ok text, _⟩ =>
      ∀ head,
        before.repo.heads before.repo.checkedOut = some head →
          ∀ hash,
            before.repo.isAncestor hash head.hash = true →
              date hash ≤ date text
  | _ => True

/- A commit that is reached is the first, or a parent. -/
theorem mem_of_reaches
    {commits : CommitTable}
    {steps : Nat}
    {ancestor hash : String}
    (hReaches : reaches commits steps ancestor hash = true) :
    ancestor ∈
      hash :: commits.rows.flatMap Commit.parents := by
  induction steps generalizing hash with
  | zero =>
      have hSame : ancestor = hash := by
        simpa [reaches] using hReaches
      rw [hSame]
      exact List.mem_cons_self
  | succ steps ih =>
      unfold reaches at hReaches
      rw [Bool.or_eq_true, decide_eq_true_eq] at hReaches
      rcases hReaches with hSame | hLater
      · rw [hSame]
        exact List.mem_cons_self
      · split at hLater
        · rename_i commit hFind
          rw [List.any_eq_true] at hLater
          rcases hLater with ⟨parent, hParent, hFrom⟩
          apply List.mem_cons_of_mem
          rcases List.mem_cons.mp (ih hFrom) with hSame | hIn
          · rw [hSame, List.mem_flatMap]
            exact
              ⟨commit, KeyedTable.mem_of_find? hFind, hParent⟩
          · exact hIn
        · cases hLater

/- Some commit of a history is not earlier than any. -/
theorem exists_latest
    (date : String → Nat)
    (repo : DoltRepo)
    (first : String) :
    ∃ latest,
      repo.isAncestor latest first = true ∧
        ∀ hash, repo.isAncestor hash first = true →
          date hash ≤ date latest := by
  let history : Finset String :=
    (first ::
        repo.commits.rows.flatMap
          Commit.parents).toFinset.filter fun hash =>
      repo.isAncestor hash first = true
  have hHistory :
      ∀ hash, repo.isAncestor hash first = true →
        hash ∈ history := by
    intro hash hAncestor
    rw [Finset.mem_filter, List.mem_toFinset]
    exact ⟨mem_of_reaches hAncestor, hAncestor⟩
  have hSome : history.Nonempty :=
    ⟨first, hHistory first (DoltRepo.isAncestor_self first)⟩
  rcases history.exists_max_image date hSome with
    ⟨latest, hLatest, hMax⟩
  refine ⟨latest, (Finset.mem_filter.mp hLatest).2, ?_⟩
  intro hash hAncestor
  exact hMax hash (hHistory hash hAncestor)

/- A head that is not the latest is not the only answer. -/
theorem exists_other
    {head : Commit}
    {hash : String}
    (hAncestor : repo.isAncestor hash head.hash = true)
    (hOther : hash ≠ head.hash)
    (hLate : date head.hash ≤ date hash) :
    ∃ latest,
      repo.isAncestor latest head.hash = true ∧
        latest ≠ head.hash ∧
        ∀ other, repo.isAncestor other head.hash = true →
          date other ≤ date latest := by
  rcases exists_latest date repo head.hash with
    ⟨latest, hLatest, hMax⟩
  by_cases hSame : latest = head.hash
  · refine ⟨hash, hAncestor, hOther, ?_⟩
    intro other hIn
    have hHere := hMax other hIn
    rw [hSame] at hHere
    omega
  · exact ⟨latest, hLatest, hSame, hMax⟩

------------------------------------------------------------
-- When The Hash Is The Head
------------------------------------------------------------

variable {path : HashPath}
variable {steps other : List VersioningTaken}
variable {s t u : VersioningState} {hash found : String}
variable {step : VersioningTaken} {head : Commit}

/- A lookup answers with a commit of the history. -/
theorem head_of_lookup
    {choice : VersioningChoice}
    (hExec :
      (VersioningOp.dolt .latestHash).exec config choice s =
        some (.ok hash, t)) :
    ∃ head,
      s.repo.heads s.repo.checkedOut = some head ∧
        s.repo.isAncestor hash head.hash = true := by
  have hRun := (exec_dolt hExec).1
  rcases DoltStatement.run_cases hRun with
    ⟨_, hFailed, _⟩ | ⟨_, hPerform⟩
  · cases hFailed
  simp only [DoltStatement.perform, DoltRepo.latestHash]
    at hPerform
  split at hPerform
  · cases hPerform
  · rename_i head hHead
    split at hPerform
    · rename_i hAncestor
      have hText := Except.ok.inj (Prod.mk.inj
        (Option.some.inj hPerform)).1
      rw [← hText]
      exact ⟨head, hHead, hAncestor⟩
    · cases hPerform

theorem lookedUp_of_run
    (hRun :
      Solo (VersioningOp.exec config) path.serve s steps
        (.ok (some hash)) t) :
    LookedUp s steps hash t :=
  ends_looksUp (looksUp_serve path) steps _ t hRun _ hash rfl
    rfl

/- Where the head is the latest, it is what is answered. -/
theorem headIs_of_latest
    (hLatest : HeadIsLatest date t.repo)
    (hRun :
      Solo (VersioningOp.exec config) path.serve s steps
        (.ok (some hash)) t)
    (hDated : ∀ step ∈ steps, Dated date step) :
    t.repo.HeadIs hash := by
  have hLooked := lookedUp_of_run hRun
  rcases hLooked.split with
    ⟨choice, after, rest, hSteps, _⟩
  let lookup : VersioningTaken :=
    ⟨.dolt .latestHash, choice,
      leftBy s (beforeLookup steps), .ok hash, after⟩
  have hMember : lookup ∈ beforeLookup steps ++ lookup :: rest :=
    List.mem_append_right _ List.mem_cons_self
  rw [← hSteps] at hMember
  have hHere := hDated _ hMember
  rcases head_of_lookup (hRun.performed _ hMember) with
    ⟨head, hHead, hAncestor⟩
  have hLate := hHere head hHead
  rw [← hLooked.repo] at hHead hAncestor hLate
  have hSame : hash = head.hash := by
    by_contra hOther
    have hEarly := hLatest head hHead hash hAncestor hOther
    have hSelf :=
      hLate head.hash (DoltRepo.isAncestor_self head.hash)
    omega
  unfold DoltRepo.HeadIs
  rw [hHead, hSame]
  rfl

/- The runs that share the way to the lookup find the same
   repository there. -/
theorem repo_of_beforeLookup
    (hRun :
      Solo (VersioningOp.exec config) path.serve s steps
        (.ok (some hash)) t)
    (hOther :
      Solo (VersioningOp.exec config) path.serve s other
        (.ok (some found)) u)
    (hSame : beforeLookup other = beforeLookup steps) :
    u.repo = t.repo := by
  have hHere := (lookedUp_of_run hRun).repo
  have hThere := (lookedUp_of_run hOther).repo
  rw [hThere, hSame, hHere]

theorem beforeLookup_append
    {first rest : List VersioningTaken}
    {lookup : VersioningTaken}
    (hFirst : ∀ step ∈ first, isLookup step.op = false)
    (hLookup : isLookup lookup.op = true) :
    beforeLookup (first ++ lookup :: rest) = first := by
  unfold beforeLookup
  rw [List.takeWhile_append_of_pos]
  · rw [List.takeWhile_cons_of_neg, List.append_nil]
    simpa using hLookup
  · intro step hMember
    simpa using hFirst step hMember

theorem isLookup_of_beforeLookup
    (hMember : step ∈ beforeLookup steps) :
    isLookup step.op = false := by
  have hTaken := List.mem_takeWhile_imp hMember
  simpa using hTaken

theorem dated_of_not_lookup
    (hOp : isLookup step.op = false) :
    Dated date step := by
  rcases step with ⟨op, choice, before, answer, after⟩
  cases op with
  | dolt statement =>
      cases statement with
      | latestHash => cases hOp
      | _ => trivial
  | _ => trivial

/- A computation looks up, or has done so. -/
def OnTheWay (program : VersioningProgram (Option String)) :
    Prop :=
  LooksUp id program ∨ ∃ outcome, Settles outcome program

theorem onTheWay_rest
    (op : VersioningOp)
    (resume : op.Answer → VersioningProgram (Option String))
    (hWay : OnTheWay (.await op resume)) :
    ∀ answer, OnTheWay (resume answer) := by
  intro answer
  rcases hWay with hLooks | ⟨outcome, hSettles⟩
  · rcases lookup_or_not op with hOp | hOp
    · subst hOp
      rcases hLooks answer with ⟨outcome, _, hSettles⟩
      exact Or.inr ⟨outcome, hSettles⟩
    · exact Or.inl (looksUp_rest hOp hLooks answer)
  · exact Or.inr ⟨outcome, hSettles.2 answer⟩

/- The answer of a lookup is left open by the repository. -/
theorem exec_lookup
    (hHead : s.repo.heads s.repo.checkedOut = some head)
    (hAncestor : s.repo.isAncestor found head.hash = true) :
    (VersioningOp.dolt .latestHash).exec config
        ⟨⟨false, found, ""⟩, 0⟩ s =
      some (.ok found, s) := by
  simp [VersioningOp.exec, DoltStatement.run,
    DoltStatement.perform, DoltRepo.latestHash, hHead,
    hAncestor]

/- The lookup could have been answered otherwise. -/
theorem exists_answered_otherwise
    (hRun :
      Solo (VersioningOp.exec config) path.serve s steps
        (.ok (some hash)) t)
    (hHead : t.repo.heads t.repo.checkedOut = some head)
    (hAncestor : t.repo.isAncestor found head.hash = true)
    (hNamed : ¬ NoHash found)
    (hLate :
      ∀ hash, t.repo.isAncestor hash head.hash = true →
        date hash ≤ date found) :
    ∃ other u,
      Solo (VersioningOp.exec config) path.serve s other
          (.ok (some found)) u ∧
        beforeLookup other = beforeLookup steps ∧
        ∀ step ∈ other, Dated date step := by
  have hLooked := lookedUp_of_run hRun
  rcases hLooked.split with ⟨choice, after, rest, hSteps, _⟩
  have hWay : OnTheWay path.serve := Or.inl (looksUp_serve path)
  rw [hSteps] at hRun
  rcases hRun.split_of onTheWay_rest hWay with
    ⟨program, mid, hRest, hHere, hEnds⟩
  generalize hMid : leftBy s (beforeLookup steps) = there
    at hHere
  cases hHere with
  | @await op resume choice answer mid next t more outcome
      hExec hMore =>
      rcases hRest with hLooks | ⟨outcome, hNot, _⟩
      · have hRepo : mid.repo = t.repo := by
          rw [hLooked.repo, hMid]
        rw [← hRepo] at hHead hAncestor hLate
        rcases hLooks (.ok found) with
          ⟨outcome, hReports, hSettles⟩
        have hFound : outcome = .ok (some found) := by
          cases outcome with
          | ok value => exact congrArg _ hReports
          | error error => exact absurd hReports hNamed
        subst hFound
        have hCan :
            ∃ settling u,
              Solo (VersioningOp.exec config)
                (resume (.ok found)) mid settling
                (.ok (some found)) u :=
          exists_settled hSettles mid
        rcases hCan with ⟨settling, u, hSettled⟩
        let lookup : VersioningTaken :=
          ⟨.dolt .latestHash, ⟨⟨false, found, ""⟩, 0⟩, mid,
            .ok found, mid⟩
        refine
          ⟨beforeLookup steps ++ lookup :: settling, u, ?_, ?_,
            ?_⟩
        · apply hEnds
          exact .await (exec_lookup hHead hAncestor) hSettled
        · apply beforeLookup_append
          · intro step hMember
            exact isLookup_of_beforeLookup hMember
          · rfl
        · intro step hMember
          rcases List.mem_append.mp hMember with hFirst | hLast
          · exact
              dated_of_not_lookup
                (isLookup_of_beforeLookup hFirst)
          · rcases List.mem_cons.mp hLast with hSame | hLater
            · rw [hSame]
              intro other hOther
              have hSame := hOther.symm.trans hHead
              rw [Option.some.inj hSame]
              exact hLate
            · apply dated_of_not_lookup
              have hReleased :=
                (ends_settles hSettles settling _ u
                  hSettled).2.2 step hLater
              rw [hReleased]
              rfl
      · cases hNot

/-
  The hash that is returned is the head, whatever the lookup
  answers, exactly if the head is later than the rest of its
  history.
-/
theorem head_returned_iff
    (config : VersioningConfig)
    (date : String → Nat)
    (path : HashPath)
    (steps : List VersioningTaken)
    (hash : String)
    (s t : VersioningState)
    (hRun :
      Solo (VersioningOp.exec config) path.serve s steps
        (.ok (some hash)) t)
    (hHashed : t.repo.Hashed) :
    (∀ other found u,
        Solo (VersioningOp.exec config) path.serve s other
            (.ok (some found)) u →
          beforeLookup other = beforeLookup steps →
            (∀ step ∈ other, Dated date step) →
              u.repo.HeadIs found) ↔
      HeadIsLatest date t.repo := by
  constructor
  · intro hReturned head hHead found hAncestor hOther
    by_contra hNot
    have hNotEarlier : date head.hash ≤ date found := by
      omega
    rcases exists_other hAncestor hOther hNotEarlier with
      ⟨latest, hLatest, hApart, hLate⟩
    rcases
        exists_answered_otherwise hRun hHead hLatest
          (hHashed head hHead latest hLatest) hLate with
      ⟨other, u, hSolo, hSame, hDated⟩
    have hHeadIs := hReturned other latest u hSolo hSame hDated
    rw [repo_of_beforeLookup hRun hSolo hSame] at hHeadIs
    unfold DoltRepo.HeadIs at hHeadIs
    rw [hHead] at hHeadIs
    exact hApart (Option.some.inj hHeadIs).symm
  · intro hLatest other found u hSolo hSame hDated
    have hRepo := repo_of_beforeLookup hRun hSolo hSame
    rw [← hRepo] at hLatest
    exact headIs_of_latest hLatest hSolo hDated

/- An import of one commit, with the hash that it looks up. -/
def lookupChoices (answer : String) : List VersioningChoice :=
  List.replicate 8 ⟨⟨false, "c1", "c1"⟩, 0⟩ ++
    [⟨⟨false, answer, ""⟩, 0⟩]

def oneImport : HashPath :=
  .commitImport rowImport "main"

/- The commit "c1" is made on top of "h". -/
def landsOnH (repo : DoltRepo) : Bool :=
  (repo.heads repo.checkedOut).map Commit.hash = some "c1" &&
    repo.commits.rows.flatMap Commit.parents = ["h"]

def replaysLookup (answer : String) : Bool :=
  Option.any
    (fun q =>
      decide (q.2.1 = .ok (some answer)) && landsOnH q.2.2.repo)
    (solo? (VersioningOp.exec oneTableConfig) oneImport.serve
      (cleanState FiniteMap.empty) (lookupChoices answer))

theorem exists_lookup
    {answer : String}
    (hReplay : replaysLookup answer = true) :
    ∃ steps t,
      Solo (VersioningOp.exec oneTableConfig) oneImport.serve
          (cleanState FiniteMap.empty) steps
          (.ok (some answer)) t ∧
        landsOnH t.repo = true := by
  unfold replaysLookup at hReplay
  rw [Option.any_eq_true] at hReplay
  rcases hReplay with ⟨⟨steps, outcome, t⟩, hRun, hEnd⟩
  rw [Bool.and_eq_true, decide_eq_true_eq] at hEnd
  rcases hEnd with ⟨hOutcome, hLands⟩
  dsimp only at hOutcome
  subst hOutcome
  exact ⟨steps, t, solo_of_solo? hRun, hLands⟩

theorem ancestors_of_landsOnH
    (hLands : landsOnH repo = true)
    (hHead : repo.heads repo.checkedOut = some head)
    (hAncestor : repo.isAncestor hash head.hash = true) :
    head.hash = "c1" ∧ (hash = "c1" ∨ hash = "h") := by
  unfold landsOnH at hLands
  rw [Bool.and_eq_true, decide_eq_true_eq, decide_eq_true_eq,
    hHead] at hLands
  have hName : head.hash = "c1" := Option.some.inj hLands.1
  have hMember := mem_of_reaches hAncestor
  rw [hLands.2, hName] at hMember
  refine ⟨hName, ?_⟩
  simpa using hMember

theorem hashed_of_landsOnH
    (hLands : landsOnH repo = true) :
    repo.Hashed := by
  intro head hHead hash hAncestor
  rcases (ancestors_of_landsOnH hLands hHead hAncestor).2 with
    hSame | hSame
  · rw [hSame]
    unfold NoHash
    decide
  · rw [hSame]
    unfold NoHash
    decide

/- A commit that is later than its parent is found. -/
theorem head_returned_iff_of_later :
    ∃ steps t,
      Solo (VersioningOp.exec oneTableConfig) oneImport.serve
          (cleanState FiniteMap.empty) steps
          (.ok (some "c1")) t ∧
        ((∀ other found u,
            Solo (VersioningOp.exec oneTableConfig)
                oneImport.serve (cleanState FiniteMap.empty)
                other (.ok (some found)) u →
              beforeLookup other = beforeLookup steps →
                (∀ step ∈ other,
                  Dated (fun hash => if hash = "c1" then 1 else 0)
                    step) →
                  u.repo.HeadIs found) ↔
          HeadIsLatest
            (fun hash => if hash = "c1" then 1 else 0)
            t.repo) := by
  have hReplay : replaysLookup "c1" = true := by
    decide +kernel
  rcases exists_lookup hReplay with ⟨steps, t, hSolo, hLands⟩
  exact
    ⟨steps, t, hSolo,
      head_returned_iff oneTableConfig _ oneImport steps "c1"
        (cleanState FiniteMap.empty) t hSolo
        (hashed_of_landsOnH hLands)⟩

/- A commit in the same tick as its parent may be missed. -/
theorem parent_returned :
    ∃ steps t,
      Solo (VersioningOp.exec oneTableConfig) oneImport.serve
          (cleanState FiniteMap.empty) steps
          (.ok (some "h")) t ∧
        (∀ step ∈ steps, Dated (fun _ => 0) step) ∧
        ¬ t.repo.HeadIs "h" := by
  have hReplay : replaysLookup "h" = true := by
    decide +kernel
  rcases exists_lookup hReplay with ⟨steps, t, hSolo, hLands⟩
  refine ⟨steps, t, hSolo, ?_, ?_⟩
  · intro step _
    unfold Dated
    split
    · intro head _ hash _
      exact Nat.le_refl 0
    · trivial
  · intro hHeadIs
    unfold landsOnH at hLands
    rw [Bool.and_eq_true, decide_eq_true_eq] at hLands
    have hSame := hLands.1.symm.trans hHeadIs
    exact absurd hSame (by decide)

end Versioning
