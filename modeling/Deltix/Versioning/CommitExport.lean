import Deltix.Concurrency.Disturbed
import Deltix.Text.Lines
import Deltix.Versioning.Dolt
import Deltix.Versioning.TableName

/-
  The export of commits for a pull: the head of the branch
  is announced, the commits that the client lacks are listed,
  and each is sent with the tables that it changed.

  Key definitions include:
    * `ExportOp`
    * `ExportOp.exec`
    * `runDoltCommitExport`
    * `pullCommits`
-/

------------------------------------------------------------
-- What The Queries Answer
------------------------------------------------------------

namespace Versioning

open Relational

/- A row as `JSON.parse` reads it. -/
abbrev JsonRow : Type :=
  List (String × String)

/- `row[column] ?? ''` -/
def JsonRow.getD (row : JsonRow) (column : String) : String :=
  (List.lookup column row).getD ""

/- The name in `Name <email>`. -/
def Commit.authorName (commit : Commit) : String :=
  String.ofList
    (Text.trimChars
      (commit.author.toList.takeWhile fun c => c ≠ '<'))

/- A row of `SELECT commit_hash, message, author`. -/
def Commit.logRow (commit : Commit) : JsonRow :=
  [("commit_hash", commit.hash), ("message", commit.message),
    ("author", commit.authorName)]

@[simp] theorem Commit.hash_logRow (commit : Commit) :
    commit.logRow.getD "commit_hash" = commit.hash := rfl

@[simp] theorem Commit.message_logRow (commit : Commit) :
    commit.logRow.getD "message" = commit.message := rfl

@[simp] theorem Commit.author_logRow (commit : Commit) :
    commit.logRow.getD "author" = commit.authorName := rfl

namespace DoltRepo

variable (repo : DoltRepo)

/- What a reference names: a branch, or a commit. -/
def resolve (ref : String) : Option Commit :=
  match repo.heads ref with
  | some head => some head
  | none => repo.commits.find? ref

/- `dolt_log AS OF`: a commit and its ancestors. -/
def ancestors (commit : Commit) : List Commit :=
  repo.commits.rows.filter fun other =>
    repo.isAncestor other.hash commit.hash

/- The commits of a log that are not in another. -/
def missingFrom
    (head : Commit)
    (known : Option Commit) : List Commit :=
  (repo.ancestors head).filter fun commit =>
    known.all fun known =>
      !repo.isAncestor commit.hash known.hash

/- No commit stands before one of its ancestors. -/
def ancestorsFirst (order : List String) : Bool :=
  decide
    (order.Pairwise fun earlier later =>
      repo.isAncestor later earlier = false)

/-
  `commit_order` is a topological order; which one is left
  open.
-/
def logRows
    (order : List String)
    (head : Commit)
    (known : Option Commit) : Option (List JsonRow) :=
  if order.isPerm
        ((repo.missingFrom head known).map Commit.hash) &&
      repo.ancestorsFirst order then
    some
      ((order.filterMap repo.commits.find?).map Commit.logRow)
  else none

/- The tables of the first parent of a commit. -/
def parentTables (commit : Commit) : Option Tables :=
  commit.parents.head?.bind fun parent =>
    (repo.commits.find? parent).map Commit.tables

end DoltRepo

/- The tables that are new or not as they were. -/
def changedNames (before after : Tables) : List String :=
  after.keys.dedup.filter fun name =>
    after.find name ≠ none ∧ after.find name ≠ before.find name

def addedNames (before after : Tables) : List String :=
  (changedNames before after).filter fun name =>
    before.find name = none

def droppedNames (before after : Tables) : List String :=
  before.keys.dedup.filter fun name =>
    before.find name ≠ none ∧ after.find name = none

/-
  The column `to_table_name` of a diff.  It is empty for a
  table that was dropped, unless the diff takes a table that
  was added for the same one under a new name.
-/
def diffNames
    (names : List String)
    (before after : Tables) : Bool :=
  let drops := names.count ""
  let dropped := (droppedNames before after).length
  (names.filter fun name => name ≠ "").isPerm
      (changedNames before after) &&
    drops ≤ dropped &&
    dropped ≤ drops + (addedNames before after).length

------------------------------------------------------------
-- Operations
------------------------------------------------------------

structure ExportedTable where
  name : String
  schema : String
  data : String
  deriving DecidableEq, Repr

structure ExportedCommit where
  hash : String
  message : String
  author : String
  tables : List ExportedTable
  deriving DecidableEq, Repr

/-
  The lookup of the repository, the queries, the header
  `x-deltix-server-head` and a line of the response.
-/
inductive ExportOp where
  | getRepo (repoId : String)
  | branchHead (branch : String)
  | commitsSince (branch : String) (fromHash : Option String)
  | diffSummary (commitHash : String)
  | showCreate (table commitHash : String)
  | selectAll (table commitHash : String)
  | announce (head : String)
  | emit (commit : ExportedCommit)
  deriving DecidableEq

/- An error carries what the binary prints. -/
abbrev ExportOp.Answer : ExportOp → Type
  | .getRepo _ => Except String Bool
  | .branchHead _ => Option String
  | .commitsSince _ _ => Except String (List JsonRow)
  | .diffSummary _ => Except String (List JsonRow)
  | .showCreate _ _ => Except String (List JsonRow)
  | .selectAll _ _ => Except String String
  | .announce _ => Unit
  | .emit _ => Unit

/-
  What a query leaves open: whether it fails, what it prints
  then, the order of a log and the names of a diff.
-/
structure ExportChoice where
  fails : Bool
  text : String
  order : List String
  names : List String
  deriving DecidableEq, Repr

/-
  The id of the repository, and the names that the database
  does not take for a table unless they are quoted.
-/
structure ExportConfig where
  repoId : String
  reserved : String → Bool

def logAnswer
    (choice : ExportChoice)
    (repo : DoltRepo)
    (branch : String)
    (fromHash : Option String) :
    Option (Except String (List JsonRow)) :=
  match repo.resolve branch, fromHash with
  | none, _ => some (.error choice.text)
  | some head, none =>
      (repo.logRows choice.order head none).map .ok
  | some head, some fromHash =>
      match repo.resolve fromHash with
      | none => some (.error choice.text)
      | some known =>
          (repo.logRows choice.order head (some known)).map .ok

/- A commit without a parent has no diff. -/
def diffAnswer
    (choice : ExportChoice)
    (repo : DoltRepo)
    (commitHash : String) :
    Option (Except String (List JsonRow)) :=
  match repo.commits.find? commitHash with
  | none => some (.error choice.text)
  | some commit =>
      match repo.parentTables commit with
      | none => some (.error choice.text)
      | some before =>
          if diffNames choice.names before commit.tables then
            some
              (.ok
                (choice.names.map fun name =>
                  [("to_table_name", name)]))
          else none

/- A table as of a commit. -/
def tableAnswer
    {α : Type}
    (config : ExportConfig)
    (choice : ExportChoice)
    (repo : DoltRepo)
    (table commitHash : String)
    (read : Table → α) : Except String α :=
  match repo.commits.find? commitHash with
  | none => .error choice.text
  | some commit =>
      match commit.tables.find table with
      | none => .error choice.text
      | some found =>
          if config.reserved table then .error choice.text
          else .ok (read found)

def ExportOp.exec
    (config : ExportConfig) :
    (op : ExportOp) → ExportChoice → DoltRepo →
      Option (op.Answer × DoltRepo)
  | .getRepo repoId, choice, repo =>
      if choice.fails then some (.error choice.text, repo)
      else some (.ok (repoId = config.repoId), repo)
  | .branchHead branch, choice, repo =>
      if choice.fails then some (none, repo)
      else some ((repo.heads branch).map Commit.hash, repo)
  | .commitsSince branch fromHash, choice, repo =>
      if choice.fails then some (.error choice.text, repo)
      else
        (logAnswer choice repo branch fromHash).map fun rows =>
          (rows, repo)
  | .diffSummary commitHash, choice, repo =>
      if choice.fails then some (.error choice.text, repo)
      else
        (diffAnswer choice repo commitHash).map fun rows =>
          (rows, repo)
  | .showCreate table commitHash, choice, repo =>
      if choice.fails then some (.error choice.text, repo)
      else
        some
          (tableAnswer config choice repo table commitHash
              fun found =>
                [[("Table", table),
                  ("Create Table", found.schema)]],
            repo)
  | .selectAll table commitHash, choice, repo =>
      if choice.fails then some (.error choice.text, repo)
      else
        some
          (tableAnswer config choice repo table commitHash
              Table.data,
            repo)
  | .announce _, _, repo => some ((), repo)
  | .emit _, _, repo => some ((), repo)

open Concurrency

inductive ExportError where
  | repoNotFound (repoId : String)
  | branchNotFound (branch : String)
  | sqlFailed (output : String)
  | exportFailed (table output : String)
  | noDdl (table commitHash : String)
  | store (reason : String)
  deriving DecidableEq, Repr

def ExportError.message : ExportError → String
  | .repoNotFound repoId => "Repo not found: " ++ repoId
  | .branchNotFound branch => "Branch not found: " ++ branch
  | .sqlFailed output => "dolt sql failed: " ++ output
  | .exportFailed table output =>
      "dolt export of " ++ table ++ " failed: " ++ output
  | .noDdl table commitHash =>
      "dolt schema export of " ++ table ++ " AS OF " ++
        commitHash ++ " returned no DDL"
  | .store reason => reason

abbrev ExportProgram (α : Type) : Type :=
  Async ExportOp ExportOp.Answer ExportError α

/- The value of an answer, or an error. -/
def received
    {α : Type}
    (toError : String → ExportError) :
    Except String α → ExportProgram α
  | .ok value => .returned value
  | .error output => .threw (toError output)

/- The value of a computation, if it does not throw. -/
def attempted
    {α : Type}
    (program : ExportProgram α) : ExportProgram (Option α) :=
  (program.bind fun value => .returned (some value)).catchError
    fun _ => .returned none

/- `tables` leaves out what was dropped; `hadAnyDiff` does
   not. -/
structure ChangedTables where
  tables : List String
  hadAnyDiff : Bool
  deriving DecidableEq, Repr

/- The names of a diff that are exported. -/
def exportable (table : String) : Bool :=
  table ≠ "" && safeTableRe table &&
    !isDoltFulltextInternalTable table

/- Any error is taken for that of a commit with no parent. -/
def changedTables (commitHash : String) :
    ExportProgram ChangedTables := do
  let rows ← attempted do
    let answer ← Async.call (ExportOp.diffSummary commitHash)
    received .sqlFailed answer
  match rows with
  | none => return { tables := [], hadAnyDiff := false }
  | some rows =>
      let names :=
        rows.map fun row => row.getD "to_table_name"
      return {
        tables := names.filter exportable
        hadAnyDiff := rows ≠ [] }

def tableData (table commitHash : String) :
    ExportProgram String := do
  let answer ← Async.call (ExportOp.selectAll table commitHash)
  received (.exportFailed table) answer

def tableSchema (table commitHash : String) :
    ExportProgram String := do
  let answer ← Async.call (ExportOp.showCreate table commitHash)
  let rows ← received .sqlFailed answer
  let ddl := (rows.headD []).getD "Create Table"
  Async.ensure (ddl ≠ "") (.noDdl table commitHash)
  return ddl ++ ";"

/- A table whose schema cannot be read is skipped. -/
def exportTable (table hash : String) :
    ExportProgram (Option ExportedTable) := do
  let schema ← attempted (tableSchema table hash)
  match schema with
  | none => return none
  | some schema =>
      let data ← tableData table hash
      return some
        { name := table, schema := schema, data := data }

def exportTables (hash : String) :
    List String → ExportProgram (List ExportedTable)
  | [] => return []
  | table :: rest => do
      let result ← exportTable table hash
      let exported ← exportTables hash rest
      return result.toList ++ exported

/- One row of the log.  A commit without a diff is skipped. -/
def exportCommit (row : JsonRow) : ExportProgram Unit :=
  let hash := row.getD "commit_hash"
  if hash = "" then return ()
  else do
    let changed ← changedTables hash
    if changed.hadAnyDiff then
      let exported ← exportTables hash changed.tables
      Async.call
        (ExportOp.emit
          { hash := hash
            message := row.getD "message"
            author := row.getD "author"
            tables := exported })
    else return ()

def queryCommits
    (branch : String)
    (fromHash : Option String) :
    ExportProgram (List JsonRow) := do
  let answer ←
    Async.call (ExportOp.commitsSince branch fromHash)
  received .sqlFailed answer

/- Any error degrades to the full history. -/
def queryCommitsSince
    (branch : String)
    (fromHash : Option String) :
    ExportProgram (List JsonRow) :=
  match fromHash.filter fun hash => hash ≠ "" with
  | none => queryCommits branch none
  | some fromHash => do
      let rows ←
        attempted (queryCommits branch (some fromHash))
      match rows with
      | some rows => return rows
      | none => queryCommits branch none

def runDoltCommitExport
    (branch : String)
    (fromHash : Option String) : ExportProgram Unit := do
  let rows ← queryCommitsSince branch fromHash
  Async.forEach exportCommit rows

def CommitExport.requireRepo (repoId : String) :
    ExportProgram Unit := do
  let answer ← Async.call (ExportOp.getRepo repoId)
  let found ← received .store answer
  Async.ensure found (.repoNotFound repoId)

def getBranchHead (repoId branch : String) :
    ExportProgram (Option String) := do
  CommitExport.requireRepo repoId
  Async.call (ExportOp.branchHead branch)

def streamCommits
    (repoId branch : String)
    (fromHash : Option String) : ExportProgram Unit := do
  CommitExport.requireRepo repoId
  runDoltCommitExport branch fromHash

/- The route, once the caller may read the repository. -/
def pullCommits
    (repoId : String)
    (branch : Option String)
    (fromHash : Option String) : ExportProgram Unit := do
  let branch := branch.getD "main"
  let head ← getBranchHead repoId branch
  match head with
  | none => throw (.branchNotFound branch)
  | some head => do
      Async.call (ExportOp.announce head)
      streamCommits repoId branch fromHash

/- The lines that a run has written. -/
def emittedBy {Choice State : Type} :
    List (Taken ExportOp ExportOp.Answer State Choice) →
      List ExportedCommit :=
  List.filterMap fun step =>
    match step.op with
    | .emit commit => some commit
    | _ => none

------------------------------------------------------------
-- The Operations Of An Export
------------------------------------------------------------

variable {cond : ExportOp → Prop}

theorem only_received
    {α : Type}
    (toError : String → ExportError)
    (answer : Except String α) :
    (received toError answer).Only cond := by
  cases answer with
  | ok value => exact Async.only_returned value
  | error output => exact Async.only_threw _

theorem only_attempted
    {α : Type}
    {program : ExportProgram α}
    (hOnly : program.Only cond) :
    (attempted program).Only cond := by
  apply Async.only_catchError
  · apply Async.only_bind hOnly
    intro value
    exact Async.only_returned _
  · intro _
    exact Async.only_returned _

theorem only_changedTables
    {commitHash : String}
    (hDiff : cond (.diffSummary commitHash)) :
    (changedTables commitHash).Only cond := by
  apply Async.only_bind
  · apply only_attempted
    apply Async.only_bind (Async.only_call.mpr hDiff)
    intro answer
    exact only_received _ answer
  · intro rows
    cases rows with
    | none => exact Async.only_returned _
    | some rows => exact Async.only_returned _

theorem only_exportTable
    {table hash : String}
    (hCreate : cond (.showCreate table hash))
    (hSelect : cond (.selectAll table hash)) :
    (exportTable table hash).Only cond := by
  apply Async.only_bind
  · apply only_attempted
    apply Async.only_bind (Async.only_call.mpr hCreate)
    intro answer
    apply Async.only_bind (only_received _ answer)
    intro rows
    apply Async.only_bind Async.only_ensure
    intro _
    exact Async.only_returned _
  · intro schema
    cases schema with
    | none => exact Async.only_returned _
    | some schema =>
        apply Async.only_bind
        · apply Async.only_bind (Async.only_call.mpr hSelect)
          intro answer
          exact only_received _ answer
        · intro data
          exact Async.only_returned _

theorem only_exportTables
    {hash : String}
    {tables : List String}
    (hCreate : ∀ table ∈ tables, cond (.showCreate table hash))
    (hSelect : ∀ table ∈ tables, cond (.selectAll table hash)) :
    (exportTables hash tables).Only cond := by
  induction tables with
  | nil => exact Async.only_returned []
  | cons table rest ih =>
      rw [List.forall_mem_cons] at hCreate hSelect
      apply Async.only_bind
      · exact only_exportTable hCreate.1 hSelect.1
      · intro result
        apply Async.only_bind (ih hCreate.2 hSelect.2)
        intro exported
        exact Async.only_returned _

theorem only_exportRow
    (hDiff : ∀ hash, cond (.diffSummary hash))
    (hCreate : ∀ table hash, cond (.showCreate table hash))
    (hSelect : ∀ table hash, cond (.selectAll table hash))
    (hEmit : ∀ commit, cond (.emit commit))
    (row : JsonRow) :
    (exportCommit row).Only cond := by
  unfold exportCommit
  dsimp only
  split_ifs
  · exact Async.only_returned ()
  · apply Async.only_bind
    · exact only_changedTables (hDiff _)
    intro changed
    split_ifs
    · apply Async.only_bind
      · apply only_exportTables
        · intro table _
          exact hCreate table _
        · intro table _
          exact hSelect table _
      · intro exported
        exact Async.only_call.mpr (hEmit _)
    · exact Async.only_returned ()

theorem only_queryCommits
    {branch : String}
    {fromHash : Option String}
    (hQuery : cond (.commitsSince branch fromHash)) :
    (queryCommits branch fromHash).Only cond := by
  apply Async.only_bind (Async.only_call.mpr hQuery)
  intro answer
  exact only_received _ answer

theorem only_requireExportRepo
    {repoId : String}
    (hRepo : cond (.getRepo repoId)) :
    (CommitExport.requireRepo repoId).Only cond := by
  apply Async.only_bind (Async.only_call.mpr hRepo)
  intro answer
  apply Async.only_bind (only_received _ answer)
  intro found
  exact Async.only_ensure

variable {State Choice : Type}
variable
  {exec :
    (op : ExportOp) → Choice → State →
      Option (op.Answer × State)}
variable {s : State}

abbrev ExportTaken (State Choice : Type) : Type :=
  Taken ExportOp ExportOp.Answer State Choice

theorem emittedBy_append
    (first rest : List (ExportTaken State Choice)) :
    emittedBy (first ++ rest) =
      emittedBy first ++ emittedBy rest :=
  List.filterMap_append

/- The operations that write no line. -/
def EmitsNothing : ExportOp → Prop
  | .emit _ => False
  | _ => True

theorem ends_emitsNothing
    {α : Type}
    {program : ExportProgram α}
    (hOnly : program.Only EmitsNothing) :
    Ends exec program s fun steps _ _ =>
      emittedBy steps = [] := by
  intro steps outcome t hSolo
  unfold emittedBy
  rw [List.filterMap_eq_nil_iff]
  intro step hMember
  have hOp := hSolo.only hOnly step hMember
  cases hStep : step.op with
  | emit commit =>
      rw [hStep] at hOp
      exact hOp.elim
  | _ => rfl

variable {config : ExportConfig} {choice : ExportChoice}
variable {repo next : DoltRepo}
variable {rows : List JsonRow}

/- The commit from which a log is cut off, if any. -/
def DoltRepo.Known
    (repo : DoltRepo)
    (fromHash : Option String)
    (known : Option Commit) : Prop :=
  fromHash.map repo.resolve = known.map some

/- An export changes nothing. -/
theorem ExportOp.repo_of_exec
    {op : ExportOp}
    {answer : op.Answer}
    (hExec : op.exec config choice repo = some (answer, next)) :
    next = repo := by
  cases op with
  | getRepo repoId =>
      simp only [exec] at hExec
      split at hExec
      all_goals
        cases hExec
        rfl
  | branchHead branch =>
      simp only [exec] at hExec
      split at hExec
      all_goals
        cases hExec
        rfl
  | commitsSince branch fromHash =>
      simp only [exec] at hExec
      split at hExec
      · cases hExec
        rfl
      · rw [Option.map_eq_some_iff] at hExec
        rcases hExec with ⟨_, _, hEq⟩
        cases hEq
        rfl
  | diffSummary commitHash =>
      simp only [exec] at hExec
      split at hExec
      · cases hExec
        rfl
      · rw [Option.map_eq_some_iff] at hExec
        rcases hExec with ⟨_, _, hEq⟩
        cases hEq
        rfl
  | showCreate table commitHash =>
      simp only [exec] at hExec
      split at hExec
      all_goals
        cases hExec
        rfl
  | selectAll table commitHash =>
      simp only [exec] at hExec
      split at hExec
      all_goals
        cases hExec
        rfl
  | announce head =>
      cases hExec
      rfl
  | emit commit =>
      cases hExec
      rfl

/- A log that is answered lists what is missing. -/
theorem logRows_of_commitsSince
    {branch : String}
    {fromHash : Option String}
    (hExec :
      (ExportOp.commitsSince branch fromHash).exec config choice
          repo =
        some (.ok rows, next)) :
    ∃ head known,
      repo.resolve branch = some head ∧
        repo.Known fromHash known ∧
        repo.logRows choice.order head known = some rows := by
  simp only [ExportOp.exec] at hExec
  split at hExec
  · cases hExec
  rw [Option.map_eq_some_iff] at hExec
  rcases hExec with ⟨answer, hAnswer, hEq⟩
  cases hEq
  unfold logAnswer at hAnswer
  split at hAnswer
  · cases hAnswer
  · rename_i head hHead
    rw [Option.map_eq_some_iff] at hAnswer
    rcases hAnswer with ⟨listed, hListed, hSame⟩
    cases hSame
    exact ⟨head, none, hHead, rfl, hListed⟩
  · rename_i head fromHash hHead
    split at hAnswer
    · cases hAnswer
    · rename_i known hKnown
      rw [Option.map_eq_some_iff] at hAnswer
      rcases hAnswer with ⟨listed, hListed, hSame⟩
      cases hSame
      refine ⟨head, some known, hHead, ?_, hListed⟩
      unfold DoltRepo.Known
      rw [Option.map_some, Option.map_some, hKnown]

theorem mem_logRows
    {order : List String}
    {head : Commit}
    {known : Option Commit}
    {row : JsonRow}
    (hRows : repo.logRows order head known = some rows)
    (hRow : row ∈ rows) :
    ∃ commit,
      repo.commits.find? commit.hash = some commit ∧
        row = commit.logRow := by
  unfold DoltRepo.logRows at hRows
  split at hRows
  · cases hRows
    rcases List.mem_map.mp hRow with ⟨commit, hListed, hSame⟩
    rcases List.mem_filterMap.mp hListed with
      ⟨hash, _, hFind⟩
    have hHash := KeyedTable.key_of_find? hFind
    refine ⟨commit, ?_, hSame.symm⟩
    rw [hHash]
    exact hFind
  · cases hRows

end Versioning
