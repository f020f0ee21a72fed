import Deltix.Versioning.RepoServices
import Deltix.Versioning.VersioningRuns

/-
  What recording a push comes to.  Whatever fails, a run of
  `runDoltCommit` either makes one commit with the staged
  tables, or leaves the commits alone for a reason that can
  be named.

  Key definitions include:
    * `addsLog`
    * `stagedLog`
    * `Recorded`
    * `Refused`

  Key theorems include:
    * `ends_runDoltCommit`
    * `ends_recordPush`
-/

------------------------------------------------------------
-- The Log Of The Pushes
------------------------------------------------------------

namespace Versioning

/- The table that pushes are logged in, or a new one. -/
def pushLogOf (config : DoltConfig) (repo : DoltRepo) : Table :=
  (repo.working.find pushLogTable).getD
    ⟨pushLogSchema, config.emptied pushLogSchema⟩

/- The log is one of the tables that are added. -/
def addsLog : (tables : Option (List String)) → Bool
  | none => true
  | some tables => tables = [] || tables.contains pushLogTable

/- Every table can be added once the log is there. -/
def knowsTables
    (repo : DoltRepo) : (tables : Option (List String)) → Bool
  | none => true
  | some tables =>
      tables.all fun name =>
        name = pushLogTable ||
          (repo.working.find name).isSome ||
          (repo.staged.find name).isSome

/- The log in the staging area, once tables were added. -/
def stagedLog
    (config : DoltConfig)
    (repo : DoltRepo)
    (tables : Option (List String))
    (data : String) : Option Table :=
  if addsLog tables then
    some ⟨(pushLogOf config repo).schema, data⟩
  else repo.staged.find pushLogTable

/- The data of the log with the row of a push. -/
def rowInserted
    (config : DoltConfig)
    (repo : DoltRepo)
    (params : PushCommitParams)
    (pushedAt : Nat) : Except String String :=
  config.inserted (pushLogOf config repo).schema
    (pushLogOf config repo).data (pushRow params pushedAt)

/- One commit was made, with the log as it was staged. -/
def Recorded
    (config : DoltConfig)
    (params : PushCommitParams)
    (before after : DoltRepo) : Prop :=
  ∃ pushedAt data commit,
    rowInserted config before params pushedAt = .ok data ∧
      knowsTables before params.resolvedTables = true ∧
      before.merging = none ∧
      commit.tables.find pushLogTable =
        stagedLog config before params.resolvedTables data ∧
      before.commits.insert? commit = some after.commits ∧
      after.heads after.checkedOut = some commit

/- Why no commit was made. -/
inductive Refused
    (config : DoltConfig)
    (params : PushCommitParams)
    (before : DoltRepo)
    (steps : List VersioningTaken) : Prop where
  | failed
      (failing : ∃ step ∈ steps, FailedInvocation step)
  | shape
      (misshapen :
        (uuidRe params.jobId && hexRe params.checksum) = false)
  | row
      (rejected :
        ∃ pushedAt error,
          rowInserted config before params pushedAt =
            .error error)
  | tables
      (unknown :
        knowsTables before params.resolvedTables = false)
  | merging (stuck : before.merging.isSome = true)
  | nothing
      (same :
        ∃ pushedAt data,
          rowInserted config before params pushedAt =
              .ok data ∧
            stagedLog config before params.resolvedTables
                data =
              before.headTables.find pushLogTable)

/- How recording a push ends. -/
def RecordEnds
    (config : DoltConfig)
    (params : PushCommitParams)
    (before : DoltRepo)
    {α : Type}
    (steps : List VersioningTaken)
    (outcome : Except VersioningError α)
    (after : VersioningState) : Prop :=
  Recorded config params before after.repo ∨
    after.repo.commits = before.commits ∧
      (∃ error, outcome = .error error) ∧
      Refused config params before steps

------------------------------------------------------------
-- The Steps Of A Recording
------------------------------------------------------------

open Concurrency Relational

variable {config : DoltConfig} {choice : DoltChoice}
variable {repo first next : DoltRepo}
variable {answer : Except String Unit} {data : String}

/- Repositories that differ in their tables only. -/
structure SameGraph (repo next : DoltRepo) : Prop where
  commits : next.commits = repo.commits
  heads : next.heads = repo.heads
  checkedOut : next.checkedOut = repo.checkedOut
  merging : next.merging = repo.merging

theorem SameGraph.headTables
    (hSame : SameGraph repo next) :
    next.headTables = repo.headTables := by
  unfold DoltRepo.headTables DoltRepo.branchTables
  rw [hSame.heads, hSame.checkedOut]

/- The log has these contents, and nothing else has changed. -/
structure LogHolds
    (table : Table)
    (repo next : DoltRepo) : Prop where
  graph : SameGraph repo next
  staged : next.staged = repo.staged
  working :
    ∀ name,
      next.working.find name =
        if name = pushLogTable then some table
        else repo.working.find name

theorem logHolds_createPushLog
    (hPerform :
      DoltStatement.createPushLog.perform config choice repo =
        some (answer, next)) :
    answer = .ok () ∧
      LogHolds (pushLogOf config repo) repo next := by
  simp only [DoltStatement.perform, DoltRepo.createPushLog]
    at hPerform
  cases hLog : repo.working.find pushLogTable with
  | some table =>
      rw [hLog] at hPerform
      cases hPerform
      refine ⟨rfl, ⟨rfl, rfl, rfl, rfl⟩, rfl, ?_⟩
      intro name
      by_cases hName : name = pushLogTable
      · rw [if_pos hName, hName, hLog]
        unfold pushLogOf
        rw [hLog]
        rfl
      · rw [if_neg hName]
  | none =>
      rw [hLog] at hPerform
      cases hPerform
      refine ⟨rfl, ⟨rfl, rfl, rfl, rfl⟩, rfl, ?_⟩
      intro name
      unfold pushLogOf
      rw [hLog]
      exact FiniteMap.find_set ..

theorem logHolds_insertPush
    {row : String}
    (hLog : LogHolds (pushLogOf config repo) repo first)
    (hPerform :
      (DoltStatement.insertPush row).perform config choice
          first =
        some (answer, next)) :
    (∃ error,
        answer = .error error ∧ next = first ∧
          config.inserted (pushLogOf config repo).schema
              (pushLogOf config repo).data row =
            .error error) ∨
      ∃ data,
        answer = .ok () ∧
          config.inserted (pushLogOf config repo).schema
              (pushLogOf config repo).data row =
            .ok data ∧
          LogHolds ⟨(pushLogOf config repo).schema, data⟩
            repo next := by
  have hFound :
      first.working.find pushLogTable =
        some (pushLogOf config repo) := by
    rw [hLog.working, if_pos rfl]
  simp only [DoltStatement.perform, DoltRepo.modifyTable,
    hFound] at hPerform
  cases hRow :
      config.inserted (pushLogOf config repo).schema
        (pushLogOf config repo).data row with
  | error error =>
      rw [hRow] at hPerform
      cases hPerform
      exact Or.inl ⟨error, rfl, rfl, rfl⟩
  | ok data =>
      rw [hRow] at hPerform
      cases hPerform
      right
      have hGraph := hLog.graph
      refine ⟨data, rfl, rfl,
        ⟨hGraph.commits, hGraph.heads, hGraph.checkedOut,
          hGraph.merging⟩,
        hLog.staged, ?_⟩
      intro name
      have hSet :=
        FiniteMap.find_set first.working pushLogTable
          ⟨(pushLogOf config repo).schema, data⟩ name
      by_cases hName : name = pushLogTable
      · rw [if_pos hName] at hSet ⊢
        exact hSet
      · rw [if_neg hName, hLog.working, if_neg hName] at hSet
        rw [if_neg hName]
        exact hSet

/- The log is staged, if it is among what was added. -/
structure LogStaged
    (config : DoltConfig)
    (tables : Option (List String))
    (data : String)
    (repo next : DoltRepo) : Prop where
  graph : SameGraph repo next
  staged :
    next.staged.find pushLogTable =
      stagedLog config repo tables data

theorem logStaged_addAll
    {tables : Option (List String)}
    (hAdds : addsLog tables = true)
    (hLog :
      LogHolds ⟨(pushLogOf config repo).schema, data⟩ repo
        first) :
    LogStaged config tables data repo
      (first.setStaged first.working) := by
  constructor
  · have hGraph := hLog.graph
    exact ⟨hGraph.commits, hGraph.heads, hGraph.checkedOut,
      hGraph.merging⟩
  · have hWorking := hLog.working pushLogTable
    rw [if_pos rfl] at hWorking
    unfold stagedLog
    rw [if_pos hAdds]
    exact hWorking

theorem logStaged_add
    {tables : List String}
    (hTables : tables ≠ [])
    (hLog :
      LogHolds ⟨(pushLogOf config repo).schema, data⟩ repo
        first)
    (hPerform :
      (DoltStatement.add tables).perform config choice first =
        some (answer, next)) :
    (∃ error,
        answer = .error error ∧ next = first ∧
          knowsTables repo (some tables) = false) ∨
      answer = .ok () ∧
        knowsTables repo (some tables) = true ∧
        LogStaged config (some tables) data repo next := by
  have hKnown :
      ∀ name,
        ((first.working.find name).isSome ||
            (first.staged.find name).isSome) =
          (decide (name = pushLogTable) ||
            (repo.working.find name).isSome ||
            (repo.staged.find name).isSome) := by
    intro name
    rw [hLog.working, hLog.staged]
    by_cases hName : name = pushLogTable
    · simp [hName]
    · simp [hName]
  simp only [DoltStatement.perform, DoltRepo.add, hKnown,
    Option.some.injEq] at hPerform
  cases hFind :
      tables.find? fun name =>
        !(decide (name = pushLogTable) ||
          (repo.working.find name).isSome ||
          (repo.staged.find name).isSome) with
  | some name =>
      rw [hFind] at hPerform
      cases hPerform
      left
      refine ⟨_, rfl, rfl, ?_⟩
      have hMember := List.mem_of_find?_eq_some hFind
      have hUnknown := List.find?_some hFind
      unfold knowsTables
      rw [List.all_eq_false]
      refine ⟨name, hMember, ?_⟩
      simpa using hUnknown
  | none =>
      rw [hFind] at hPerform
      cases hPerform
      right
      refine ⟨rfl, ?_, ?_, ?_⟩
      · unfold knowsTables
        rw [List.all_eq_true]
        intro name hMember
        have hNot := List.find?_eq_none.mp hFind name hMember
        rw [Bool.not_eq_true, Bool.not_eq_false'] at hNot
        exact hNot
      · have hGraph := hLog.graph
        exact ⟨hGraph.commits, hGraph.heads,
          hGraph.checkedOut, hGraph.merging⟩
      · have hStaged :
            (first.setStaged
                (first.stagedWith tables)).staged.find
                pushLogTable =
              if tables.contains pushLogTable then
                first.working.find pushLogTable
              else first.staged.find pushLogTable :=
          FiniteMap.find_choose ..
        rw [hStaged, hLog.working, if_pos rfl, hLog.staged]
        simp only [stagedLog, addsLog, hTables, decide_false,
          Bool.false_or]

------------------------------------------------------------
-- How A Recording Ends
------------------------------------------------------------

variable {config : VersioningConfig}
variable {params : PushCommitParams}
variable {s : VersioningState}
variable {before : DoltRepo} {t : VersioningState}
variable {pushedAt : Nat} {data : String}

/- The steps may be those of a longer run. -/
theorem RecordEnds.among
    {α : Type}
    {config : DoltConfig}
    {steps more : List VersioningTaken}
    {outcome : Except VersioningError α}
    (hEnds :
      RecordEnds config params before steps outcome t)
    (hMore : ∀ step ∈ steps, step ∈ more) :
    RecordEnds config params before more outcome t := by
  rcases hEnds with hRecorded | ⟨hCommits, hError, hReason⟩
  · exact Or.inl hRecorded
  · refine Or.inr ⟨hCommits, hError, ?_⟩
    cases hReason with
    | failed hFailing =>
        rcases hFailing with ⟨step, hMember, hFails⟩
        exact .failed
          ⟨step, hMore step hMember, hFails⟩
    | shape hShape => exact .shape hShape
    | row hRow => exact .row hRow
    | tables hTables => exact .tables hTables
    | merging hMerging => exact .merging hMerging
    | nothing hSame => exact .nothing hSame

/- An invocation that fails ends the recording. -/
theorem recordEnds_of_failed
    {α : Type}
    {config : DoltConfig}
    {statement : DoltStatement}
    {choice : VersioningChoice}
    {answer : statement.Answer}
    {error : VersioningError}
    {u v : VersioningState}
    (hFails : choice.fails = true)
    (hCommits : t.repo.commits = before.commits) :
    RecordEnds config params before
      [⟨.dolt statement, choice, u, answer, v⟩]
      (.error error : Except VersioningError α) t := by
  refine Or.inr ⟨hCommits, ⟨error, rfl⟩, .failed ?_⟩
  exact ⟨_, List.mem_cons_self, ⟨statement, rfl⟩, hFails⟩

/- Reading the hash changes nothing. -/
theorem ends_readCommitHash :
    Ends (VersioningOp.exec config) readCommitHash s
      fun _ _ t => t.repo = s.repo := by
  apply ends_bind
  apply ends_dolt
  intro choice answer next hRun
  have hReads : DoltStatement.latestHash.Reads := trivial
  have hSame := DoltStatement.repo_of_reads hReads hRun
  apply ends_bind
  apply ends_answered
  · intro hash _
    apply ends_bind
    apply ends_ensure
    · intro _
      exact ends_returned hSame
    · intro _
      exact hSame
  · intro _ _
    exact hSame

/- What is left to do once the tables have been added. -/
def commitPushed (params : PushCommitParams) :
    VersioningProgram String := do
  let committed ←
    dolt
      (.commit (authorFlag params.username)
        (pushMessage params))
  expect "commit" committed
  readCommitHash

theorem ends_commitPushed
    (hRow :
      rowInserted config.dolt before params pushedAt =
        .ok data)
    (hKnown :
      knowsTables before params.resolvedTables = true)
    (hStaged :
      LogStaged config.dolt params.resolvedTables data before
        s.repo) :
    Ends (VersioningOp.exec config) (commitPushed params) s
      (RecordEnds config.dolt params before) := by
  have hGraph := hStaged.graph
  apply ends_bind
  apply ends_dolt
  intro choice answer next hRun
  rcases DoltStatement.run_cases hRun with
    ⟨hFails, hAnswer, hNext⟩ | ⟨_, hPerform⟩
  · subst hAnswer hNext
    apply ends_threw
    exact recordEnds_of_failed hFails hGraph.commits
  rcases DoltRepo.commit_cases hPerform with
    ⟨error, hAnswer, hNext, hReason⟩ |
      ⟨hAnswer, hMerging, _, hRecord⟩
  · subst hAnswer hNext
    apply ends_threw
    right
    refine ⟨hGraph.commits, ⟨_, rfl⟩, ?_⟩
    rcases hReason with hStuck | hSame
    · rw [hGraph.merging] at hStuck
      exact .merging hStuck
    · refine .nothing ⟨pushedAt, data, hRow, ?_⟩
      rw [← hStaged.staged, hSame, hGraph.headTables]
  · subst hAnswer
    apply ends_bind
    apply ends_returned
    refine ends_mono ends_readCommitHash ?_
    intro steps outcome t hSame
    left
    rcases DoltRepo.record_cases hRecord with
      ⟨_, commits, hInsert, hNext⟩
    rw [hGraph.merging] at hMerging
    rw [hGraph.commits] at hInsert
    have hHead :
        t.repo.heads t.repo.checkedOut =
          some
            (s.repo.nextCommit choice.hash
              (authorFlag params.username)
              (pushMessage params)) := by
      rw [hSame, hNext]
      exact Function.update_self ..
    refine ⟨pushedAt, data, _, hRow, hKnown, hMerging,
      hStaged.staged, ?_, hHead⟩
    rw [hSame, hNext]
    exact hInsert

theorem ends_addResolved
    (hRow :
      rowInserted config.dolt before params pushedAt =
        .ok data)
    (hLog :
      LogHolds ⟨(pushLogOf config.dolt before).schema, data⟩
        before s.repo) :
    Ends (VersioningOp.exec config)
      ((addResolved params.resolvedTables).bind fun _ =>
        commitPushed params)
      s (RecordEnds config.dolt params before) := by
  have hCommits := hLog.graph.commits
  have hAll :
      addsLog params.resolvedTables = true →
        knowsTables before params.resolvedTables = true →
        Ends (VersioningOp.exec config)
          (((dolt .addAll).bind (expect "add")).bind
            fun _ => commitPushed params)
          s (RecordEnds config.dolt params before) := by
    intro hAdds hKnown
    apply ends_bind
    apply ends_bind
    apply ends_dolt
    intro choice answer next hRun
    rcases DoltStatement.run_cases hRun with
      ⟨hFails, hAnswer, hNext⟩ | ⟨_, hPerform⟩
    · subst hAnswer hNext
      apply ends_threw
      exact recordEnds_of_failed hFails hCommits
    · cases hPerform
      apply ends_returned
      refine
        ends_mono
          (ends_commitPushed hRow hKnown
            (logStaged_addAll hAdds hLog)) ?_
      intro steps outcome t hEnds
      apply hEnds.among
      intro step hMember
      exact List.mem_append_right _ hMember
  cases hTables : params.resolvedTables with
  | none =>
      rw [hTables] at hAll
      exact hAll rfl rfl
  | some tables =>
      unfold addResolved
      dsimp only
      by_cases hEmpty : tables = []
      · rw [if_pos hEmpty]
        rw [hTables, hEmpty] at hAll
        exact hAll rfl rfl
      rw [if_neg hEmpty]
      apply ends_bind
      apply ends_bind
      apply ends_dolt
      intro choice answer next hRun
      rcases DoltStatement.run_cases hRun with
        ⟨hFails, hAnswer, hNext⟩ | ⟨_, hPerform⟩
      · subst hAnswer hNext
        apply ends_threw
        exact recordEnds_of_failed hFails hCommits
      rcases logStaged_add hEmpty hLog hPerform with
        ⟨error, hAnswer, hNext, hUnknown⟩ |
          ⟨hAnswer, hKnown, hStaged⟩
      · subst hAnswer hNext
        apply ends_threw
        refine Or.inr ⟨hCommits, ⟨_, rfl⟩, .tables ?_⟩
        rw [hTables]
        exact hUnknown
      · subst hAnswer
        apply ends_returned
        rw [← hTables] at hKnown hStaged
        refine
          ends_mono
            (ends_commitPushed hRow hKnown hStaged) ?_
        intro steps outcome t hEnds
        apply hEnds.among
        intro step hMember
        exact List.mem_append_right _ hMember

theorem ends_runDoltCommit :
    Ends (VersioningOp.exec config) (runDoltCommit params) s
      (RecordEnds config.dolt params s.repo) := by
  apply ends_bind
  apply ends_ensure
  case hFails =>
    intro hShape
    refine Or.inr ⟨rfl, ⟨_, rfl⟩, .shape ?_⟩
    rw [hShape, Bool.false_and]
  intro _
  apply ends_bind
  apply ends_ensure
  case hFails =>
    intro hShape
    refine Or.inr ⟨rfl, ⟨_, rfl⟩, .shape ?_⟩
    rw [hShape, Bool.and_false]
  intro _
  apply ends_bind
  apply ends_dolt
  intro choice answer next hRun
  rcases DoltStatement.run_cases hRun with
    ⟨hFails, hAnswer, hNext⟩ | ⟨_, hPerform⟩
  · subst hAnswer hNext
    apply ends_threw
    exact recordEnds_of_failed hFails rfl
  rcases logHolds_createPushLog hPerform with
    ⟨hAnswer, hLog⟩
  subst hAnswer
  apply ends_bind
  apply ends_returned
  apply ends_bind
  apply ends_call
  intro time pushedAt u hNow
  cases hNow
  apply ends_bind
  apply ends_dolt
  intro choice answer last hRun
  rcases DoltStatement.run_cases hRun with
    ⟨hFails, hAnswer, hNext⟩ | ⟨_, hPerform⟩
  · subst hAnswer hNext
    apply ends_threw
    let failed : VersioningTaken :=
      ⟨.dolt (.insertPush (pushRow params time.now)), choice,
        ⟨last, s.lock⟩, .error choice.text, ⟨last, s.lock⟩⟩
    refine Or.inr ⟨hLog.graph.commits, ⟨_, rfl⟩, .failed ?_⟩
    refine ⟨failed, ?_, ⟨_, rfl⟩, hFails⟩
    simp only [List.mem_append, List.mem_singleton,
      List.not_mem_nil, false_or, or_false]
    exact Or.inr (Or.inr rfl)
  rcases logHolds_insertPush hLog hPerform with
    ⟨error, hAnswer, hNext, hRejected⟩ |
      ⟨data, hAnswer, hRow, hHolds⟩
  · subst hAnswer hNext
    apply ends_threw
    refine Or.inr ⟨hLog.graph.commits, ⟨_, rfl⟩, .row ?_⟩
    exact ⟨_, error, hRejected⟩
  · subst hAnswer
    apply ends_bind
    apply ends_returned
    have hInserted :
        rowInserted config.dolt s.repo params time.now =
          .ok data :=
      hRow
    refine ends_mono (ends_addResolved hInserted hHolds) ?_
    intro steps outcome t hEnds
    apply hEnds.among
    intro step hMember
    simp [hMember]

/- The store is asked for the repository first. -/
theorem ends_recordPush
    (hRepo : params.repo = config.repoId) :
    Ends (VersioningOp.exec config) (recordPush params) s
      fun steps outcome t =>
        ∃ asked rest,
          steps = asked :: rest ∧
            asked.op = .getRepo params.repo ∧
            ((asked.choice.fails = true ∧
                (∃ error, outcome = .error error) ∧
                t.repo = s.repo) ∨
              asked.choice.fails = false ∧
                RecordEnds config.dolt params s.repo rest
                  outcome t) := by
  apply ends_bind
  apply ends_bind
  apply ends_call
  intro choice answer next hExec
  simp only [VersioningOp.exec] at hExec
  split at hExec
  · rename_i hFails
    cases hExec
    apply ends_threw
    refine ⟨_, _, rfl, rfl, Or.inl ⟨hFails, ⟨_, rfl⟩, rfl⟩⟩
  · rename_i hAnswers
    cases hExec
    apply ends_returned
    dsimp only
    rw [if_pos (decide_eq_true hRepo)]
    apply ends_bind
    apply ends_catchError
    refine ends_mono ends_runDoltCommit ?_
    intro steps outcome t hEnds
    cases outcome with
    | ok hash =>
        apply ends_returned
        refine ⟨_, _, rfl, rfl, Or.inr ⟨?_, ?_⟩⟩
        · exact Bool.eq_false_iff.mpr hAnswers
        · rcases hEnds with hRecorded | ⟨_, ⟨_, hError⟩, _⟩
          · exact Or.inl hRecorded
          · cases hError
    | error error =>
        apply ends_threw
        refine ⟨_, _, rfl, rfl, Or.inr ⟨?_, ?_⟩⟩
        · exact Bool.eq_false_iff.mpr hAnswers
        · rcases hEnds with hRecorded | ⟨hCommits, _, hReason⟩
          · exact Or.inl hRecorded
          · rw [List.append_nil]
            exact Or.inr ⟨hCommits, ⟨_, rfl⟩, hReason⟩

end Versioning
