import Deltix.Concurrency.Solo
import Deltix.Text.Split
import Deltix.Text.Units
import Deltix.Versioning.RepoServices
import Mathlib.Data.List.Dedup

/-
  The sync preferences of a repository, and the tables that
  a push with its own options covers.

  Key definitions include:
    * `normalizeTables`
    * `computeClosure`
    * `buildPlan`
    * `upsertPreference`
    * `validatePushOptions`

  Key theorems include:
    * `mem_computeClosure_of_mem`
    * `returns_validatePushOptions`
-/

------------------------------------------------------------
-- Plans
------------------------------------------------------------

namespace Versioning

inductive SyncMode where
  | schemaOnly
  | schemaAndData
  deriving DecidableEq, Repr

structure ForeignKeyEdge where
  tableName : String
  referencedTableName : String
  constraintName : String
  deriving DecidableEq, Repr

structure SyncPreference where
  mode : SyncMode
  requestedTables : Option (List String)
  createdAt : Nat
  updatedAt : Nat
  deriving DecidableEq, Repr

structure SyncPlan where
  mode : SyncMode
  requestedTables : Option (List String)
  resolvedTables : Option (List String)
  autoIncludedTables : List String
  deriving DecidableEq, Repr

inductive SyncError where
  | invalidRepoId (message : String)
  | repoNotFound (repoId : String)
  | preferenceConflict (tables : List String)
  | foreignKeysFailed (stderr : String)
  | foreignKeyRow
  | unsafeTableName (tableName : String)
  | store (reason : String)
  deriving DecidableEq, Repr

def SyncError.message : SyncError → String
  | .invalidRepoId message => message
  | .repoNotFound repoId => "Repo not found: " ++ repoId
  | .preferenceConflict tables =>
      "Requested tables require additional FK " ++
        "dependencies: " ++ ", ".intercalate tables ++
        ". Re-run with the full closure or use dry-run " ++
        "preview first."
  | .foreignKeysFailed stderr =>
      "dolt sql (foreign keys) failed: " ++ stderr
  | .foreignKeyRow =>
      "Unexpected foreign key catalog row returned by " ++
        "dolt sql"
  | .unsafeTableName tableName =>
      "Unsafe table name: " ++ tableName
  | .store reason => reason

def invalidTableError (table : String) : SyncError :=
  .invalidRepoId
    ("Invalid table name \"" ++ table ++ "\": must start " ++
      "with a letter/underscore and contain only letters, " ++
      "digits, or underscores")

/- `[...new Set(values)].sort()` -/
def uniqueSorted (values : List String) : List String :=
  Text.sortTexts values.dedup

def trimName (table : String) : String :=
  String.ofList (Text.trimChars table.toList)

/- `VALID_TABLE` is the pattern of a safe table name. -/
def normalizeTables :
    Option (List String) →
      Except SyncError (Option (List String))
  | none => .ok none
  | some tables =>
      let normalized :=
        (tables.map trimName).filter fun table => table ≠ ""
      if normalized = [] then .ok none
      else
        match normalized.find? fun t => !safeTableRe t with
        | some table => .error (invalidTableError table)
        | none => .ok (some (uniqueSorted normalized))

/- `byTable.get(table)`, which is sorted and has no doubles. -/
def dependencies
    (edges : List ForeignKeyEdge)
    (table : String) : List String :=
  uniqueSorted
    ((edges.filter fun edge => edge.tableName = table).map
      ForeignKeyEdge.referencedTableName)

/-
  Work through the queue.  A table enters it once, when it
  is resolved, so there are no more rounds than requested
  tables and edges.
-/
def resolveQueue
    (edges : List ForeignKeyEdge) :
    (rounds : Nat) → (resolved queue : List String) →
      List String
  | 0, resolved, _ => resolved
  | _ + 1, resolved, [] => resolved
  | rounds + 1, resolved, table :: queue =>
      if table = "" then
        resolveQueue edges rounds resolved queue
      else
        let found :=
          (dependencies edges table).filter fun dependency =>
            !resolved.contains dependency
        resolveQueue edges rounds (resolved ++ found)
          (queue ++ found)

def computeClosure
    (requestedTables : List String)
    (edges : List ForeignKeyEdge) : List String :=
  Text.sortTexts
    (resolveQueue edges (requestedTables.length + edges.length)
      requestedTables.dedup requestedTables)

def buildPlan
    (mode : SyncMode)
    (requestedTables : Option (List String))
    (edges : List ForeignKeyEdge) : SyncPlan :=
  match requestedTables with
  | none =>
      { mode := mode
        requestedTables := none
        resolvedTables := none
        autoIncludedTables := [] }
  | some requested =>
      let resolvedTables := computeClosure requested edges
      { mode := mode
        requestedTables := some requested
        resolvedTables := some resolvedTables
        autoIncludedTables :=
          resolvedTables.filter fun table =>
            !requested.contains table }

------------------------------------------------------------
-- The Service
------------------------------------------------------------

open Concurrency

/- The rows that the preferences are kept in. -/
structure SyncState where
  provisioned : String → Bool
  preference : String → Option SyncPreference

inductive SyncOp where
  | now
  | getRepo (repoId : String)
  | getSyncPreference (repoId : String)
  | upsertSyncPreference
      (repoId : String)
      (preference : SyncPreference)
  | foreignKeys

abbrev SyncOp.Answer : SyncOp → Type
  | .now => Nat
  | .getRepo _ => Except String Bool
  | .getSyncPreference _ =>
      Except String (Option SyncPreference)
  | .upsertSyncPreference _ _ => Except String Unit
  | .foreignKeys => Except String String

/- `text` is what the binary prints, or an error text. -/
structure SyncChoice where
  fails : Bool
  text : String
  now : Nat
  deriving DecidableEq, Repr

/- A row that is there keeps the time of its creation. -/
def upsertRow
    (preference : SyncPreference) :
    Option SyncPreference → SyncPreference
  | some present =>
      { mode := preference.mode
        requestedTables := preference.requestedTables
        createdAt := present.createdAt
        updatedAt := preference.updatedAt }
  | none => preference

def SyncState.setPreference
    (s : SyncState)
    (repoId : String)
    (preference : SyncPreference) : SyncState where
  provisioned := s.provisioned
  preference :=
    Function.update s.preference repoId (some preference)

def SyncOp.run :
    (op : SyncOp) → SyncChoice → SyncState →
      op.Answer × SyncState
  | .now, choice, s => (choice.now, s)
  | .getRepo repoId, choice, s =>
      if choice.fails then (.error choice.text, s)
      else (.ok (s.provisioned repoId), s)
  | .getSyncPreference repoId, choice, s =>
      if choice.fails then (.error choice.text, s)
      else (.ok (s.preference repoId), s)
  | .upsertSyncPreference repoId preference, choice, s =>
      if choice.fails then (.error choice.text, s)
      else
        (.ok (),
          s.setPreference repoId
            (upsertRow preference (s.preference repoId)))
  | .foreignKeys, choice, s =>
      if choice.fails then (.error choice.text, s)
      else (.ok choice.text, s)

def SyncOp.exec
    (op : SyncOp)
    (choice : SyncChoice)
    (s : SyncState) : Option (op.Answer × SyncState) :=
  some (op.run choice s)

abbrev SyncProgram (α : Type) : Type :=
  Async SyncOp SyncOp.Answer SyncError α

/- Continue with an answer of the store. -/
def ofStore
    {α : Type} :
    Except String α → SyncProgram α
  | .ok answer => .returned answer
  | .error reason => .threw (.store reason)

/- A row of the catalog of the foreign keys. -/
def foreignKeyEdge (line : List Char) :
    Except SyncError ForeignKeyEdge :=
  match (Text.split ',' line).map Text.trimChars with
  | tableName :: referencedTableName :: constraintName :: _ =>
      if tableName = [] ∨ referencedTableName = [] ∨
          constraintName = [] then
        .error .foreignKeyRow
      else
        let edge : ForeignKeyEdge :=
          { tableName := String.ofList tableName
            referencedTableName :=
              String.ofList referencedTableName
            constraintName := String.ofList constraintName }
        if !safeTableRe edge.tableName then
          .error (.unsafeTableName edge.tableName)
        else if !safeTableRe edge.referencedTableName then
          .error (.unsafeTableName edge.referencedTableName)
        else .ok edge
  | _ => .error .foreignKeyRow

/- The first line is that of the column names. -/
def foreignKeyLines (stdout : String) : List (List Char) :=
  ((Text.split '\n' (Text.trimChars stdout.toList)).filter
    fun line => line ≠ []).drop 1

def readForeignKeyEdges :
    SyncProgram (List ForeignKeyEdge) := do
  let result ← Async.call SyncOp.foreignKeys
  match result with
  | .error stderr => throw (.foreignKeysFailed stderr)
  | .ok stdout =>
      Async.ofExcept
        ((foreignKeyLines stdout).mapM foreignKeyEdge)

def invalidRepoId (repoId : String) : SyncError :=
  .invalidRepoId
    ("Invalid repoId \"" ++ repoId ++ "\": must be 1-64 " ++
      "characters, letters/digits/dash/underscore only")

def requireSyncRepo (repoId : String) : SyncProgram Unit := do
  Async.ensure (validRepoId repoId) (invalidRepoId repoId)
  let repo ← (Async.call (SyncOp.getRepo repoId)).bind ofStore
  Async.ensure repo (.repoNotFound repoId)

def getPreference (repoId : String) :
    SyncProgram (Option SyncPreference) :=
  (Async.call (SyncOp.getSyncPreference repoId)).bind
    ofStore

/- The edges are read only for a request that names tables. -/
def readEdgesFor :
    (requestedTables : Option (List String)) →
      SyncProgram (List ForeignKeyEdge)
  | none => return []
  | some _ => readForeignKeyEdges

def assertNoExcludedDependencies (plan : SyncPlan) :
    SyncProgram Unit :=
  Async.ensure
    (plan.autoIncludedTables = [] ∨
      plan.requestedTables = none)
    (.preferenceConflict plan.autoIncludedTables)

/- `get` of the service. -/
def getSyncPreference (repoId : String) :
    SyncProgram (Option SyncPreference) := do
  Async.ensure (validRepoId repoId) (invalidRepoId repoId)
  getPreference repoId

/- `preview` -/
def previewPlan
    (repoId : String)
    (mode : SyncMode)
    (tables : Option (List String)) :
    SyncProgram SyncPlan := do
  requireSyncRepo repoId
  let requested ← Async.ofExcept (normalizeTables tables)
  let edges ← readEdgesFor requested
  return buildPlan mode requested edges

/- `upsert` -/
def upsertPreference
    (repoId : String)
    (mode : SyncMode)
    (tables : Option (List String)) :
    SyncProgram SyncPreference := do
  let plan ← previewPlan repoId mode tables
  assertNoExcludedDependencies plan
  let timestamp ← Async.call SyncOp.now
  let record : SyncPreference :=
    { mode := plan.mode
      requestedTables := plan.requestedTables
      createdAt := timestamp
      updatedAt := timestamp }
  (Async.call
    (SyncOp.upsertSyncPreference repoId record)).bind ofStore
  return record

structure PushSyncValidationResult where
  repoId : String
  plan : SyncPlan
  dryRun : Bool
  deriving DecidableEq, Repr

/- What the push asks for itself, or what is stored. -/
def requestedOf
    (stored : Option SyncPreference) :
    (tables : Option (Option (List String))) →
      Option (List String)
  | none => stored.bind SyncPreference.requestedTables
  | some tables => tables

def validatePushOptions
    (repoId : String)
    (mode : Option SyncMode)
    (tables : Option (Option (List String)))
    (dryRun : Bool) :
    SyncProgram PushSyncValidationResult := do
  requireSyncRepo repoId
  let stored ← getPreference repoId
  let mode :=
    mode.getD
      ((stored.map SyncPreference.mode).getD .schemaAndData)
  let requested ←
    Async.ofExcept
      (normalizeTables (requestedOf stored tables))
  let edges ← readEdgesFor requested
  let plan := buildPlan mode requested edges
  assertNoExcludedDependencies plan
  return ⟨repoId, plan, dryRun⟩

variable {requested resolved queue : List String}
variable {edges : List ForeignKeyEdge} {table : String}

/- The same tables, in any order. -/
def SameTables :
    (requested resolved : Option (List String)) → Prop
  | none, none => True
  | some requested, some resolved =>
      ∀ table, table ∈ resolved ↔ table ∈ requested
  | _, _ => False

/- A resolved table stays resolved. -/
theorem mem_resolveQueue
    {rounds : Nat}
    (hMember : table ∈ resolved) :
    table ∈ resolveQueue edges rounds resolved queue := by
  induction rounds generalizing resolved queue with
  | zero => exact hMember
  | succ rounds ih =>
      cases queue with
      | nil => exact hMember
      | cons first rest =>
          unfold resolveQueue
          split
          · exact ih hMember
          · exact ih (List.mem_append_left _ hMember)

theorem mem_computeClosure_of_mem
    (hMember : table ∈ requested) :
    table ∈ computeClosure requested edges := by
  unfold computeClosure
  rw [Text.mem_sortTexts]
  apply mem_resolveQueue
  exact List.mem_dedup.mpr hMember

/- A plan that includes nothing on its own covers exactly
   what was requested. -/
theorem sameTables_buildPlan
    {mode : SyncMode}
    {request : Option (List String)}
    (hNone :
      (buildPlan mode request edges).autoIncludedTables = [] ∨
        (buildPlan mode request edges).requestedTables =
          none) :
    SameTables request
      (buildPlan mode request edges).resolvedTables := by
  cases request with
  | none => trivial
  | some requested =>
      intro table
      constructor
      · intro hResolved
        by_contra hMissing
        rcases hNone with hEmpty | hAbsent
        · have hAuto :
              table ∈
                (buildPlan mode (some requested)
                  edges).autoIncludedTables := by
            simp only [buildPlan, List.mem_filter]
            refine ⟨hResolved, ?_⟩
            simpa using hMissing
          rw [hEmpty] at hAuto
          cases hAuto
        · cases hAbsent
      · exact mem_computeClosure_of_mem

/- A list of tables that passed names at least one. -/
theorem normalizeTables_ne_nil
    {tables : Option (List String)}
    (hNormal : normalizeTables tables = .ok (some requested)) :
    requested ≠ [] := by
  cases tables with
  | none => cases hNormal
  | some tables =>
      unfold normalizeTables at hNormal
      dsimp only at hNormal
      split at hNormal
      · cases hNormal
      · rename_i hNames
        split at hNormal
        · cases hNormal
        · cases hNormal
          intro hEmpty
          apply hNames
          rw [List.eq_nil_iff_forall_not_mem]
          intro name hName
          have hSorted :
              name ∈
                uniqueSorted
                  ((tables.map trimName).filter
                    fun table => table ≠ "") := by
            unfold uniqueSorted
            rw [Text.mem_sortTexts, List.mem_dedup]
            exact hName
          rw [hEmpty] at hSorted
          cases hSorted

variable {s : SyncState}

/- A store answers from its rows, which it leaves alone. -/
theorem returns_getPreference
    {repoId : String} :
    Returns SyncOp.exec (getPreference repoId) s
      fun stored u => stored = s.preference repoId ∧ u = s := by
  apply returns_bind
  apply returns_call
  intro choice answer next hExec
  simp only [SyncOp.exec, SyncOp.run] at hExec
  split at hExec
  · cases hExec
    exact returns_threw _ _ _
  · cases hExec
    exact returns_returned ⟨rfl, rfl⟩

theorem returns_requireSyncRepo
    {repoId : String} :
    Returns SyncOp.exec (requireSyncRepo repoId) s
      fun _ u => u = s := by
  apply returns_bind
  apply returns_ensure
  intro _
  apply returns_bind
  apply returns_bind
  apply returns_call
  intro choice answer next hExec
  simp only [SyncOp.exec, SyncOp.run] at hExec
  split at hExec
  · cases hExec
    exact returns_threw _ _ _
  · cases hExec
    apply returns_returned
    apply returns_ensure
    intro _
    rfl

theorem returns_readEdgesFor
    {request : Option (List String)} :
    Returns SyncOp.exec (readEdgesFor request) s
      fun _ u => u = s := by
  cases request with
  | none => exact returns_returned rfl
  | some tables =>
      apply returns_bind
      apply returns_call
      intro choice answer next hExec
      simp only [SyncOp.exec, SyncOp.run] at hExec
      split at hExec
      · cases hExec
        exact returns_threw _ _ _
      · cases hExec
        dsimp only
        cases (foreignKeyLines choice.text).mapM
            foreignKeyEdge with
        | ok edges => exact returns_returned rfl
        | error error => exact returns_threw error _ _

/- The tables of a push are those that were asked for. -/
theorem returns_validatePushOptions
    {repoId : String}
    {mode : Option SyncMode}
    {tables : Option (Option (List String))}
    {dryRun : Bool} :
    Returns SyncOp.exec
      (validatePushOptions repoId mode tables dryRun) s
      fun result _ =>
        ∃ requested,
          normalizeTables
              (requestedOf (s.preference repoId) tables) =
            .ok requested ∧
            SameTables requested
              result.plan.resolvedTables := by
  apply returns_bind
  refine returns_mono returns_requireSyncRepo ?_
  intro _ u hSame
  subst hSame
  apply returns_bind
  refine returns_mono returns_getPreference ?_
  rintro stored v ⟨hStored, hSame⟩
  subst hStored hSame
  dsimp only
  apply returns_bind
  cases hNormal :
      normalizeTables
        (requestedOf (v.preference repoId) tables) with
  | error error => exact returns_threw error _ _
  | ok requested =>
      apply returns_returned
      apply returns_bind
      refine returns_mono returns_readEdgesFor ?_
      intro edges w _
      apply returns_bind
      apply returns_ensure
      intro hNone
      apply returns_returned
      refine ⟨requested, rfl, ?_⟩
      apply sameTables_buildPlan
      exact of_decide_eq_true hNone

end Versioning
