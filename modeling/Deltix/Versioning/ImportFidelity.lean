import Deltix.Versioning.CommitImport
import Deltix.Versioning.VersioningRuns

/-
  What an imported commit holds of the tables that were sent
  for it.

  A table that is there already is emptied and keeps its
  schema, and one whose CSV has no second line that is not
  blank is not loaded.

  Key definitions include:
    * `Exports`
    * `Faithful`
    * `Restorable`

  Key theorems include:
    * `returns_importTable`
    * `returns_importTables`
    * `faithful_iff`
    * `old_schema_kept`
-/

namespace Versioning

open Concurrency Relational

/-
  What a statement changed of the other tables: at most the
  backing tables of a full-text index.
-/
structure LeavesOthers
    (name : String)
    (before after : DoltRepo) : Prop where
  others :
    ∀ other, other ≠ name →
      isDoltFulltextInternalTable other = false →
        after.working.find other = before.working.find other
  staged : after.staged = before.staged

/-
  A payload is made of a table: its schema is the statement
  that creates the table, and its data is what the binary
  exports.  The statement may fail, as for a foreign key
  whose parent is missing.  Importing an export into an empty
  table with the same schema restores it.
-/
structure Exports
    (config : DoltConfig)
    (table : ImportedTable)
    (state : Table) : Prop where
  absent :
    ∀ repo after : DoltRepo,
      repo.working.find table.name = none →
        repo.sql config table.schema = (.ok (), after) →
          after.working.find table.name =
              some
                ⟨state.schema, config.emptied state.schema⟩ ∧
            LeavesOthers table.name repo after
  present :
    ∀ (repo after : DoltRepo) (old : Table),
      repo.working.find table.name = some old →
        repo.sql config table.schema ≠ (.ok (), after)
  failed :
    ∀ (repo after : DoltRepo) (stderr : String),
      repo.sql config table.schema = (.error stderr, after) →
        after = repo
  data : table.data = state.data
  reloads :
    config.loaded state.schema table.data = .ok state.data

/- The head has every table as it was sent. -/
def Faithful
    (state : ImportedTable → Table)
    (tables : List ImportedTable)
    (repo : DoltRepo) : Prop :=
  ∀ table ∈ tables,
    repo.headTables.find table.name = some (state table)

/- A CSV text with rows that are loaded. -/
def Loads (data : String) : Prop :=
  1 < (dataLines data).length

instance (data : String) : Decidable (Loads data) := by
  unfold Loads
  infer_instance

/-
  The tables that are sent twice agree, a table that is there
  has the schema that is sent, and rows are sent as lines
  that are not blank.  A backing table of a full-text index
  is left out, so it has to be staged as it was sent.
-/
structure Restorable
    (config : DoltConfig)
    (state : ImportedTable → Table)
    (tables : List ImportedTable)
    (repo : DoltRepo) : Prop where
  agree :
    ∀ first ∈ importTables tables,
      ∀ second ∈ importTables tables,
        first.name = second.name → state first = state second
  schema :
    ∀ table ∈ importTables tables,
      ∀ old,
        repo.working.find table.name = some old →
          old.schema = (state table).schema
  rows :
    ∀ table ∈ importTables tables,
      Loads table.data ∨
        (state table).data =
          config.emptied (state table).schema
  backing :
    ∀ table ∈ tables,
      isDoltFulltextInternalTable table.name = true →
        repo.staged.find table.name = some (state table)

------------------------------------------------------------
-- Importing A Table
------------------------------------------------------------

/- The data after a CSV text was imported. -/
def Reloaded
    (config : DoltConfig)
    (schema csv data : String) : Prop :=
  if Loads csv then config.loaded schema csv = .ok data
  else data = config.emptied schema

/- The schema of the table that is there, or that is sent. -/
def schemaFrom (old : Option Table) (state : Table) : String :=
  match old with
  | some table => table.schema
  | none => state.schema

structure TableImported
    (config : DoltConfig)
    (state : Table)
    (table : ImportedTable)
    (before after : DoltRepo) : Prop where
  imported :
    ∃ data,
      after.working.find table.name =
          some
            ⟨schemaFrom (before.working.find table.name) state,
              data⟩ ∧
        Reloaded config
          (schemaFrom (before.working.find table.name) state)
          table.data data
  elsewhere : LeavesOthers table.name before after

variable {config : VersioningConfig}
variable {s : VersioningState}
variable {state : Table} {table : ImportedTable}

/- The table is there, with its schema and without rows. -/
structure TableEmptied
    (config : DoltConfig)
    (state : Table)
    (name : String)
    (before after : DoltRepo) : Prop where
  emptied :
    after.working.find name =
      some
        ⟨schemaFrom (before.working.find name) state,
          config.emptied
            (schemaFrom (before.working.find name) state)⟩
  elsewhere : LeavesOthers name before after

/- Writing a table leaves the others alone. -/
theorem leavesOthers_setTable
    (repo : DoltRepo)
    (name : String)
    (table : Table) :
    LeavesOthers name repo (repo.setTable name table) := by
  constructor
  · intro other hOther _
    exact FiniteMap.find_set_of_ne hOther
  · rfl

theorem LeavesOthers.trans
    {name : String}
    {before middle after : DoltRepo}
    (hFirst : LeavesOthers name before middle)
    (hSecond : LeavesOthers name middle after) :
    LeavesOthers name before after := by
  constructor
  · intro other hOther hUser
    rw [hSecond.others other hOther hUser]
    exact hFirst.others other hOther hUser
  · rw [hSecond.staged]
    exact hFirst.staged

/- A table that is there is emptied and keeps its schema. -/
theorem returns_truncate
    {table : ImportedTable} :
    Returns (VersioningOp.exec config)
      ((dolt (.truncate table.name)).bind
        (expect ("sql (truncate " ++ table.name ++ ")")))
      s
      fun _ u =>
        TableEmptied config.dolt state table.name s.repo
          u.repo := by
  apply returns_bind
  apply returns_dolt
  intro choice answer next hRun
  apply returns_answered
  intro _ hAnswer
  rcases DoltStatement.run_cases hRun with
    ⟨_, hFailure, _⟩ | ⟨_, hPerform⟩
  · rw [hFailure] at hAnswer
    cases hAnswer
  rcases DoltRepo.modifyTable_cases
      (Option.some.inj hPerform) with
    ⟨_, hError, _⟩ | ⟨old, data, _, hOld, hData, hNext⟩
  · rw [hError] at hAnswer
    cases hAnswer
  cases hData
  rw [hNext]
  constructor
  · rw [hOld]
    exact FiniteMap.find_set_self ..
  · exact leavesOthers_setTable ..

theorem returns_recreateTable
    (hExports : Exports config.dolt table state) :
    Returns (VersioningOp.exec config) (recreateTable table) s
      fun _ u =>
        TableEmptied config.dolt state table.name s.repo
          u.repo := by
  apply returns_bind
  apply returns_dolt
  intro choice answer next hRun
  rcases DoltStatement.run_cases hRun with
    ⟨_, hFailure, hSame⟩ | ⟨_, hPerform⟩
  · -- whatever failed, a message may send the table here
    subst hFailure
    subst hSame
    dsimp only [DoltStatement.failure]
    split_ifs
    · exact returns_truncate
    · exact returns_threw _ _ _
  have hSql :
      s.repo.sql config.dolt table.schema = (answer, next) :=
    Option.some.inj hPerform
  cases answer with
  | error stderr =>
      rw [hExports.failed s.repo next stderr hSql]
      dsimp only
      split_ifs
      · exact returns_truncate
      · exact returns_threw _ _ _
  | ok answer =>
      apply returns_returned
      cases hOld : s.repo.working.find table.name with
      | none =>
          rcases hExports.absent s.repo next hOld hSql with
            ⟨hFind, hOthers⟩
          constructor
          · rw [hOld]
            exact hFind
          · exact hOthers
      | some old =>
          exact
            absurd hSql
              (hExports.present s.repo next old hOld)

/- The rows are those of the file that was written. -/
theorem returns_reloadRows
    (table : ImportedTable) :
    Returns (VersioningOp.exec config) (reloadRows table) s
      fun _ u =>
        ∃ old data,
          s.repo.working.find table.name = some old ∧
            config.dolt.loaded old.schema table.data =
              .ok data ∧
            u.repo =
              s.repo.setTable table.name ⟨old.schema, data⟩ := by
  apply returns_bind
  refine returns_mono returns_scratch ?_
  intro _ first hFirst
  apply returns_andFinally
  apply returns_bind
  refine returns_mono returns_scratch ?_
  intro _ second hSecond
  apply returns_bind
  apply returns_dolt
  intro choice answer next hRun
  apply returns_answered
  intro _ hAnswer
  have hCleanup :
      Returns (VersioningOp.exec config)
        (tryCatch scratch fun _ => return ())
        ⟨next, second.lock⟩
        fun _ u => u.repo = next := by
    apply returns_catchError returns_scratch
    refine ends_mono ends_scratch ?_
    intro _ _ u hSame _ _
    exact returns_returned hSame
  refine returns_mono hCleanup ?_
  intro _ last hLast
  rw [hLast]
  rw [hFirst] at hSecond
  rw [hSecond] at hRun
  rcases DoltStatement.run_cases hRun with
    ⟨_, hFailure, _⟩ | ⟨_, hPerform⟩
  · rw [hFailure] at hAnswer
    cases hAnswer
  rcases DoltRepo.modifyTable_cases
      (Option.some.inj hPerform) with
    ⟨_, hError, _⟩ | ⟨old, data, _, hOld, hData, hNext⟩
  · rw [hError] at hAnswer
    cases hAnswer
  · exact ⟨old, data, hOld, hData, hNext⟩

theorem returns_importTable
    (hExports : Exports config.dolt table state) :
    Returns (VersioningOp.exec config) (importTable table) s
      fun _ u =>
        TableImported config.dolt state table s.repo
          u.repo := by
  apply returns_bind
  apply returns_ensure
  intro _
  apply returns_bind
  refine returns_mono (returns_recreateTable hExports) ?_
  intro _ u hEmptied
  by_cases hFew : (dataLines table.data).length ≤ 1
  · rw [if_pos hFew]
    apply returns_returned
    have hSkips : ¬ Loads table.data := Nat.not_lt.mpr hFew
    constructor
    · refine ⟨_, hEmptied.emptied, ?_⟩
      unfold Reloaded
      rw [if_neg hSkips]
    · exact hEmptied.elsewhere
  · rw [if_neg hFew]
    have hLoads : Loads table.data := Nat.lt_of_not_le hFew
    refine returns_mono (returns_reloadRows table) ?_
    intro _ v hReloaded
    rcases hReloaded with ⟨old, data, hOld, hData, hNext⟩
    rw [hEmptied.emptied] at hOld
    cases hOld
    rw [hNext]
    constructor
    · refine ⟨data, FiniteMap.find_set_self .., ?_⟩
      unfold Reloaded
      rw [if_pos hLoads]
      exact hData
    · exact hEmptied.elsewhere.trans (leavesOthers_setTable ..)

------------------------------------------------------------
-- Importing The Tables Of A Commit
------------------------------------------------------------

variable {state : ImportedTable → Table}
variable {done tables : List ImportedTable}

/-
  What a table holds after some tables were imported: it has
  the schema it had, or else one that was sent for it, and
  the rows that were sent last.
-/
structure Landed
    (config : DoltConfig)
    (state : ImportedTable → Table)
    (done : List ImportedTable)
    (old : Option Table)
    (name : String)
    (new : Table) : Prop where
  kept : ∀ table, old = some table → new.schema = table.schema
  sent :
    old = none →
      ∃ table ∈ done,
        table.name = name ∧ new.schema = (state table).schema
  last :
    ∃ table ∈ done,
      table.name = name ∧
        Reloaded config new.schema table.data new.data

structure TablesImported
    (config : DoltConfig)
    (state : ImportedTable → Table)
    (before : DoltRepo)
    (done : List ImportedTable)
    (after : DoltRepo) : Prop where
  user :
    ∀ table ∈ done,
      isDoltFulltextInternalTable table.name = false
  landed :
    ∀ table ∈ done,
      ∃ new,
        after.working.find table.name = some new ∧
          Landed config state done
            (before.working.find table.name) table.name new
  others :
    ∀ name, (∀ table ∈ done, table.name ≠ name) →
      isDoltFulltextInternalTable name = false →
        after.working.find name = before.working.find name
  staged : after.staged = before.staged

/- One more table: it is new, or was imported before. -/
theorem landed_more
    {dolt : DoltConfig}
    {before middle after : DoltRepo}
    {table : ImportedTable}
    (hUser : isDoltFulltextInternalTable table.name = false)
    (hDone : TablesImported dolt state before done middle)
    (hTable :
      TableImported dolt (state table) table middle after) :
    ∃ new,
      after.working.find table.name = some new ∧
        Landed dolt state (done ++ [table])
          (before.working.find table.name) table.name new := by
  rcases hTable.imported with ⟨data, hFind, hReloaded⟩
  refine ⟨_, hFind, ?_⟩
  have hLast : table ∈ done ++ [table] :=
    List.mem_append_right _ List.mem_cons_self
  by_cases hSeen : ∃ other ∈ done, other.name = table.name
  · rcases hSeen with ⟨other, hOther, hName⟩
    rcases hDone.landed other hOther with ⟨new, hNew, hLanded⟩
    rw [hName] at hNew hLanded
    rw [hNew] at hReloaded ⊢
    constructor
    · exact hLanded.kept
    · intro hAbsent
      rcases hLanded.sent hAbsent with
        ⟨first, hFirst, hFirstName, hSchema⟩
      exact ⟨first, List.mem_append_left _ hFirst, hFirstName,
        hSchema⟩
    · exact ⟨table, hLast, rfl, hReloaded⟩
  · have hSame :
        middle.working.find table.name =
          before.working.find table.name := by
      refine hDone.others _ ?_ hUser
      intro other hOther hName
      exact hSeen ⟨other, hOther, hName⟩
    rw [hSame] at hReloaded ⊢
    constructor
    · intro old hOld
      rw [hOld]
      rfl
    · intro hAbsent
      rw [hAbsent]
      exact ⟨table, hLast, rfl, rfl⟩
    · exact ⟨table, hLast, rfl, hReloaded⟩

theorem tablesImported_more
    {dolt : DoltConfig}
    {before middle after : DoltRepo}
    {table : ImportedTable}
    (hUser : isDoltFulltextInternalTable table.name = false)
    (hDone : TablesImported dolt state before done middle)
    (hTable :
      TableImported dolt (state table) table middle after) :
    TablesImported dolt state before (done ++ [table])
      after := by
  constructor
  · intro other hOther
    rcases List.mem_append.mp hOther with hBefore | hSame
    · exact hDone.user other hBefore
    · rw [List.mem_singleton.mp hSame]
      exact hUser
  · intro other hOther
    by_cases hName : other.name = table.name
    · rw [hName]
      exact landed_more hUser hDone hTable
    · rcases List.mem_append.mp hOther with hBefore | hSame
      · rcases hDone.landed other hBefore with
          ⟨new, hNew, hLanded⟩
        refine ⟨new, ?_, ?_⟩
        · rw [hTable.elsewhere.others other.name hName
            (hDone.user other hBefore)]
          exact hNew
        · constructor
          · exact hLanded.kept
          · intro hAbsent
            rcases hLanded.sent hAbsent with
              ⟨first, hFirst, hRest⟩
            exact ⟨first, List.mem_append_left _ hFirst, hRest⟩
          · rcases hLanded.last with ⟨last, hLast, hRest⟩
            exact ⟨last, List.mem_append_left _ hLast, hRest⟩
      · rw [List.mem_singleton.mp hSame] at hName
        exact absurd rfl hName
  · intro name hNames hOther
    have hName : name ≠ table.name := by
      intro hName
      apply hNames table
      · exact List.mem_append_right _ List.mem_cons_self
      · exact hName.symm
    rw [hTable.elsewhere.others name hName hOther]
    refine hDone.others name ?_ hOther
    intro other hBefore
    exact hNames other (List.mem_append_left _ hBefore)
  · rw [hTable.elsewhere.staged]
    exact hDone.staged

/- The loop over the tables, by its invariant. -/
theorem returns_importTables
    (hUser :
      ∀ table ∈ tables,
        isDoltFulltextInternalTable table.name = false)
    (hExports :
      ∀ table ∈ tables,
        Exports config.dolt table (state table)) :
    Returns (VersioningOp.exec config)
      (Async.forEach importTable tables) s
      fun _ u =>
        TablesImported config.dolt state s.repo tables
          u.repo := by
  apply returns_forEach
    fun done (u : VersioningState) =>
      TablesImported config.dolt state s.repo done u.repo
  · constructor
    · intro table hMember
      cases hMember
    · intro table hMember
      cases hMember
    · intro _ _ _
      rfl
    · rfl
  · intro done table u hMember hDone
    refine
      returns_mono
        (returns_importTable (hExports table hMember)) ?_
    intro _ v hTable
    exact
      tablesImported_more (hUser table hMember) hDone hTable

/- The tables of a new head are what was staged. -/
theorem headTables_of_record
    {repo next : DoltRepo}
    {commit : Commit}
    (hRecord : repo.record commit = some next) :
    next.headTables = commit.tables := by
  rcases DoltRepo.record_cases hRecord with
    ⟨_, commits, _, hNext⟩
  subst hNext
  unfold DoltRepo.headTables DoltRepo.branchTables
  dsimp only [DoltRepo.setHead, DoltRepo.setCommits]
  rw [Function.update_self]

theorem returns_readCommitHash :
    Returns (VersioningOp.exec config) readCommitHash s
      fun _ u => u.repo = s.repo := by
  apply returns_bind
  apply returns_dolt
  intro choice answer next hRun
  have hReads : DoltStatement.latestHash.Reads := trivial
  have hSame := DoltStatement.repo_of_reads hReads hRun
  apply returns_bind
  apply returns_answered
  intro commitHash _
  apply returns_bind
  apply returns_ensure
  intro _
  exact returns_returned hSame

/- What an import does once its tables are in place. -/
def commitImported
    (commit : ImportedCommit) : VersioningProgram String := do
  let added ←
    dolt
      (.add
        ((importTables commit.tables).map ImportedTable.name))
  expect "add" added
  let committed ←
    dolt (.commit (authorFlag commit.author) commit.message)
  expect "commit" committed
  readCommitHash

theorem runDoltCommitImport_eq
    (commit : ImportedCommit)
    (branch : String) :
    runDoltCommitImport commit branch =
      (checkoutTarget branch).bind fun _ =>
        (Async.forEach importTable
          (importTables commit.tables)).bind fun _ =>
            commitImported commit := rfl

theorem returns_commitImported
    (commit : ImportedCommit) :
    Returns (VersioningOp.exec config) (commitImported commit) s
      fun _ u =>
        u.repo.headTables =
          s.repo.stagedWith
            ((importTables commit.tables).map
              ImportedTable.name) := by
  apply returns_bind
  apply returns_dolt
  intro choice answer next hRun
  apply returns_bind
  apply returns_answered
  intro _ hAdded
  have hNext :
      next =
        s.repo.setStaged
          (s.repo.stagedWith
            ((importTables commit.tables).map
              ImportedTable.name)) := by
    rcases DoltStatement.run_cases hRun with
      ⟨_, hFailure, _⟩ | ⟨_, hPerform⟩
    · rw [hFailure] at hAdded
      cases hAdded
    · have hAdd := Option.some.inj hPerform
      unfold DoltRepo.add at hAdd
      dsimp only at hAdd
      split at hAdd
      · cases hAdd
        rfl
      · cases hAdd
        cases hAdded
  apply returns_bind
  apply returns_dolt
  intro choice' answer' last hRun'
  apply returns_bind
  apply returns_answered
  intro _ hCommitted
  have hTables : last.headTables = next.staged := by
    rcases DoltStatement.run_cases hRun' with
      ⟨_, hFailure, _⟩ | ⟨_, hPerform⟩
    · rw [hFailure] at hCommitted
      cases hCommitted
    · rcases DoltRepo.commit_cases hPerform with
        ⟨_, hError, _⟩ | ⟨_, _, _, hRecord⟩
      · rw [hError] at hCommitted
        cases hCommitted
      · rw [headTables_of_record hRecord]
        rfl
  refine returns_mono returns_readCommitHash ?_
  intro _ u hSame
  rw [hSame, hTables, hNext]
  rfl

------------------------------------------------------------
-- When An Import Is Faithful
------------------------------------------------------------

theorem mem_importTables
    {table : ImportedTable}
    (hMember : table ∈ tables)
    (hUser : isDoltFulltextInternalTable table.name = false) :
    table ∈ importTables tables := by
  unfold importTables
  rw [List.mem_filter]
  constructor
  · exact hMember
  · rw [hUser]
    rfl

/- The tables after an import, name by name. -/
structure Committed
    (config : DoltConfig)
    (state : ImportedTable → Table)
    (tables : List ImportedTable)
    (before after : DoltRepo) : Prop where
  landed :
    ∀ table ∈ importTables tables,
      ∃ new,
        after.headTables.find table.name = some new ∧
          Landed config state (importTables tables)
            (before.working.find table.name) table.name new
  backing :
    ∀ table ∈ tables,
      isDoltFulltextInternalTable table.name = true →
        after.headTables.find table.name =
          before.staged.find table.name

theorem user_of_mem
    {table : ImportedTable}
    (hMember : table ∈ importTables tables) :
    isDoltFulltextInternalTable table.name = false := by
  have hUser := (List.mem_filter.mp hMember).2
  rw [Bool.not_eq_true'] at hUser
  exact hUser

theorem returns_imported
    {commit : ImportedCommit}
    (hExports :
      ∀ table ∈ commit.tables,
        Exports config.dolt table (state table)) :
    Returns (VersioningOp.exec config)
      ((Async.forEach importTable
        (importTables commit.tables)).bind fun _ =>
          commitImported commit)
      s
      fun _ u =>
        Committed config.dolt state commit.tables s.repo
          u.repo := by
  apply returns_bind
  have hImported :
      ∀ table ∈ importTables commit.tables,
        Exports config.dolt table (state table) :=
    fun table hMember =>
      hExports table (List.mem_filter.mp hMember).1
  refine
    returns_mono
      (returns_importTables (fun _ => user_of_mem) hImported)
      ?_
  intro _ u hDone
  refine returns_mono (returns_commitImported commit) ?_
  intro _ v hHead
  constructor
  · intro table hMember
    rcases hDone.landed table hMember with
      ⟨new, hNew, hLanded⟩
    refine ⟨new, ?_, hLanded⟩
    rw [hHead]
    unfold DoltRepo.stagedWith
    rw [FiniteMap.find_choose, if_pos]
    · exact hNew
    · rw [List.contains_iff_mem]
      exact List.mem_map_of_mem hMember
  · intro table _ hBacking
    rw [hHead]
    unfold DoltRepo.stagedWith
    rw [FiniteMap.find_choose, if_neg, hDone.staged]
    intro hContains
    rw [List.contains_iff_mem, List.mem_map] at hContains
    rcases hContains with ⟨other, hOther, hName⟩
    have hUser := user_of_mem hOther
    rw [hName, hBacking] at hUser
    cases hUser

/- Tables that are sent twice, and agree, have one CSV text. -/
theorem data_eq_of_agree
    {dolt : DoltConfig}
    {first second : ImportedTable}
    (hFirst : Exports dolt first (state first))
    (hSecond : Exports dolt second (state second))
    (hAgree : state first = state second) :
    first.data = second.data := by
  rw [hFirst.data, hSecond.data, hAgree]

theorem restorable_of_faithful
    {dolt : DoltConfig}
    {before after : DoltRepo}
    (hExports :
      ∀ table ∈ tables, Exports dolt table (state table))
    (hCommitted : Committed dolt state tables before after)
    (hFaithful : Faithful state tables after) :
    Restorable dolt state tables before := by
  have hSent :
      ∀ table ∈ importTables tables, table ∈ tables :=
    fun table hMember => (List.mem_filter.mp hMember).1
  have hNew :
      ∀ table ∈ importTables tables,
        Landed dolt state (importTables tables)
          (before.working.find table.name) table.name
          (state table) := by
    intro table hMember
    rcases hCommitted.landed table hMember with
      ⟨new, hFind, hLanded⟩
    rw [hFaithful table (hSent table hMember)] at hFind
    cases hFind
    exact hLanded
  have hAgree :
      ∀ first ∈ importTables tables,
        ∀ second ∈ importTables tables,
          first.name = second.name →
            state first = state second := by
    intro first hFirst second hSecond hName
    have hOne := hFaithful first (hSent first hFirst)
    have hTwo := hFaithful second (hSent second hSecond)
    rw [hName, hTwo] at hOne
    exact (Option.some.inj hOne).symm
  constructor
  · exact hAgree
  · intro table hMember old hOld
    exact ((hNew table hMember).kept old hOld).symm
  · intro table hMember
    rcases (hNew table hMember).last with
      ⟨last, hLast, hName, hReloaded⟩
    have hData : last.data = table.data :=
      data_eq_of_agree (hExports last (hSent last hLast))
        (hExports table (hSent table hMember))
        (hAgree last hLast table hMember hName)
    unfold Reloaded at hReloaded
    rw [hData] at hReloaded
    by_cases hLoads : Loads table.data
    · exact Or.inl hLoads
    · rw [if_neg hLoads] at hReloaded
      exact Or.inr hReloaded
  · intro table hMember hBacking
    rw [← hCommitted.backing table hMember hBacking]
    exact hFaithful table hMember

theorem faithful_of_restorable
    {dolt : DoltConfig}
    {before after : DoltRepo}
    (hExports :
      ∀ table ∈ tables, Exports dolt table (state table))
    (hCommitted : Committed dolt state tables before after)
    (hRestorable : Restorable dolt state tables before) :
    Faithful state tables after := by
  intro table hMember
  cases hBacking : isDoltFulltextInternalTable table.name with
  | true =>
      rw [hCommitted.backing table hMember hBacking]
      exact hRestorable.backing table hMember hBacking
  | false =>
      have hImport := mem_importTables hMember hBacking
      rcases hCommitted.landed table hImport with
        ⟨new, hFind, hLanded⟩
      have hSchema : new.schema = (state table).schema := by
        cases hOld : before.working.find table.name with
        | some old =>
            rw [hLanded.kept old hOld]
            exact hRestorable.schema table hImport old hOld
        | none =>
            rcases hLanded.sent hOld with
              ⟨first, hFirst, hName, hSent⟩
            rw [hSent,
              hRestorable.agree first hFirst table hImport
                hName]
      have hData : new.data = (state table).data := by
        rcases hLanded.last with
          ⟨last, hLast, hName, hReloaded⟩
        have hLastMember := (List.mem_filter.mp hLast).1
        have hAgree :=
          hRestorable.agree last hLast table hImport hName
        have hSame : last.data = table.data :=
          data_eq_of_agree (hExports last hLastMember)
            (hExports table hMember) hAgree
        unfold Reloaded at hReloaded
        rw [hSame, hSchema] at hReloaded
        by_cases hLoads : Loads table.data
        · rw [if_pos hLoads, (hExports table hMember).reloads]
            at hReloaded
          exact (Except.ok.inj hReloaded).symm
        · rw [if_neg hLoads] at hReloaded
          rcases hRestorable.rows table hImport with
            hRows | hEmpty
          · exact absurd hRows hLoads
          · rw [hReloaded, hEmpty]
      rw [hFind]
      cases new
      cases hTable : state table
      rw [hTable] at hSchema hData
      cases hSchema
      cases hData
      rfl

/-
  Whatever the repository held, and whichever invocations
  failed on the way: an import that succeeds is faithful
  exactly when its tables were restorable in the repository
  that it found on the branch.
-/
theorem faithful_iff
    (config : VersioningConfig)
    (commit : ImportedCommit)
    (branch hash : String)
    (state : ImportedTable → Table)
    (steps : List VersioningTaken)
    (s t : VersioningState)
    (hExports :
      ∀ table ∈ commit.tables,
        Exports config.dolt table (state table))
    (hSolo :
      Solo (VersioningOp.exec config)
        (runDoltCommitImport commit branch) s steps (.ok hash)
        t) :
    ∃ first rest onBranch,
      steps = first ++ rest ∧
        Solo (VersioningOp.exec config) (checkoutTarget branch)
          s first (.ok ()) onBranch ∧
        (Faithful state commit.tables t.repo ↔
          Restorable config.dolt state commit.tables
            onBranch.repo) := by
  rw [runDoltCommitImport_eq] at hSolo
  rcases hSolo.of_bind with
    ⟨first, rest, _, onBranch, hSteps, hCheckout, hImport⟩
  have hCommitted := returns_imported hExports _ _ _ hImport
  refine ⟨first, rest, onBranch, hSteps, hCheckout, ?_⟩
  constructor
  · exact restorable_of_faithful hExports hCommitted
  · exact faithful_of_restorable hExports hCommitted

/- A binary that knows one table, with one column. -/
def oneTable : DoltConfig where
  sql text repo :=
    match repo.working.find "t" with
    | none =>
        { answer := .ok ()
          made := []
          heads := repo.heads
          working := repo.working.set "t" ⟨text, "c\n"⟩
          staged := repo.staged
          merging := repo.merging }
    | some _ =>
        { answer := .error (tableExists "t")
          made := []
          heads := repo.heads
          working := repo.working
          staged := repo.staged
          merging := repo.merging }
  emptied _ := "c\n"
  loaded _ csv := .ok csv
  inserted _ data row := .ok (data ++ row)
  merged ours _ := .merged ours.tables

def oneTableConfig : VersioningConfig where
  repoId := "r"
  dolt := oneTable

theorem exports_oneTable
    (schema data : String) :
    Exports oneTable ⟨"t", schema, data⟩ ⟨schema, data⟩ := by
  constructor
  · intro repo after hAbsent hSql
    unfold DoltRepo.sql oneTable at hSql
    dsimp only at hSql
    rw [hAbsent] at hSql
    cases hSql
    constructor
    · exact FiniteMap.find_set_self ..
    · exact leavesOthers_setTable ..
  · intro repo after old hPresent hSql
    unfold DoltRepo.sql oneTable at hSql
    dsimp only at hSql
    rw [hPresent] at hSql
    cases hSql
  · intro repo after stderr hSql
    unfold DoltRepo.sql oneTable at hSql
    dsimp only at hSql
    cases hOld : repo.working.find "t" with
    | none =>
        rw [hOld] at hSql
        cases hSql
    | some old =>
        rw [hOld] at hSql
        cases hSql
        rfl
  · rfl
  · rfl

/- A clean repository with such tables. -/
def cleanState (tables : Tables) : VersioningState where
  repo := {
    commits := ⟨[⟨"h", [], "a", "m", tables⟩], by simp⟩
    heads := fun branch =>
      if branch = "main" then some ⟨"h", [], "a", "m", tables⟩
      else none
    checkedOut := "main"
    working := tables
    staged := tables
    merging := none }
  lock := none

def rowImport : ImportedCommit where
  message := "m"
  author := "a"
  tables := [⟨"t", "CREATE TABLE t (c TEXT)", "c\nx\n"⟩]

/- What was sent, as the table that it was exported from. -/
def sentTable (table : ImportedTable) : Table where
  schema := table.schema
  data := table.data

theorem exports_rowImport :
    ∀ table ∈ rowImport.tables,
      Exports oneTableConfig.dolt table (sentTable table) := by
  intro table hMember
  rw [List.mem_singleton.mp hMember]
  exact exports_oneTable ..

/- A new table is imported as it was sent. -/
theorem faithful_iff_of_new_table :
    ∃ steps t first rest onBranch,
      Solo (VersioningOp.exec oneTableConfig)
          (runDoltCommitImport rowImport "main")
          (cleanState FiniteMap.empty) steps (.ok "c1") t ∧
        steps = first ++ rest ∧
        Solo (VersioningOp.exec oneTableConfig)
          (checkoutTarget "main") (cleanState FiniteMap.empty)
          first (.ok ()) onBranch ∧
        (Faithful sentTable rowImport.tables t.repo ↔
          Restorable oneTable sentTable rowImport.tables
            onBranch.repo) := by
  have hReplay :
      ∃ q : List VersioningTaken ×
          Except VersioningError String × VersioningState,
        solo? (VersioningOp.exec oneTableConfig)
            (runDoltCommitImport rowImport "main")
            (cleanState FiniteMap.empty)
            (List.replicate 9 ⟨⟨false, "c1", "c1"⟩, 0⟩) =
          some q ∧
        q.2.1 = .ok "c1" :=
    ⟨_, rfl, by decide⟩
  rcases hReplay with ⟨⟨steps, outcome, t⟩, hRun, hOutcome⟩
  cases hOutcome
  have hSolo := solo_of_solo? hRun
  rcases
    faithful_iff oneTableConfig rowImport "main" "c1" sentTable
      steps (cleanState FiniteMap.empty) t exports_rowImport
      hSolo with
    ⟨first, rest, onBranch, hSteps, hCheckout, hIff⟩
  exact
    ⟨steps, t, first, rest, onBranch, hSolo, hSteps, hCheckout,
      hIff⟩

/- A table that is there keeps the schema that it has. -/
theorem old_schema_kept :
    ∃ steps t,
      (∀ table ∈ rowImport.tables,
        Exports oneTableConfig.dolt table
          (sentTable table)) ∧
        Solo (VersioningOp.exec oneTableConfig)
          (runDoltCommitImport rowImport "main")
          (cleanState
            (FiniteMap.ofList
              [("t", ⟨"CREATE TABLE t (c INT)", "c\n1\n"⟩)]))
          steps (.ok "c1") t ∧
        ¬ Faithful sentTable rowImport.tables t.repo := by
  have hReplay :
      (solo? (VersioningOp.exec oneTableConfig)
          (runDoltCommitImport rowImport "main")
          (cleanState
            (FiniteMap.ofList
              [("t",
                ⟨"CREATE TABLE t (c INT)", "c\n1\n"⟩)]))
          (List.replicate 10
            ⟨⟨false, "c1", "c1"⟩, 0⟩)).map
          (fun q =>
            (q.2.1, q.2.2.repo.headTables.find "t")) =
        some
          (.ok "c1",
            some ⟨"CREATE TABLE t (c INT)", "c\nx\n"⟩) := by
    decide +kernel
  rw [Option.map_eq_some_iff] at hReplay
  rcases hReplay with ⟨⟨steps, outcome, t⟩, hRun, hEq⟩
  rw [Prod.mk.injEq] at hEq
  rcases hEq with ⟨hOutcome, hHead⟩
  cases hOutcome
  refine ⟨steps, t, exports_rowImport, solo_of_solo? hRun, ?_⟩
  intro hFaithful
  have hSent := hFaithful _ List.mem_cons_self
  rw [hHead] at hSent
  revert hSent
  decide

end Versioning
