import Deltix.Versioning.CommitExport
import Mathlib.Data.List.Dedup

/-
  A pull in which invocations of the binary fail, any of
  them: what it leaves out without an error.

  Key definitions include:
    * `DoltAnswers`
    * `hides`
    * `Complete`

  Key theorems include:
    * `append_eq_append_of_key`
    * `ends_exportTables`
    * `ends_exportCommits_exactly`
    * `pull_complete_iff`
-/

namespace Relational

variable {α Key : Type} [DecidableEq Key]
variable {key : α → Key} {k : Key}
variable {first other rest more : List α}

theorem filter_append_of_key
    (hFirst : ∀ x ∈ first, key x = k)
    (hRest : ∀ x ∈ rest, key x ≠ k) :
    (first ++ rest).filter (fun x => key x = k) = first ∧
      (first ++ rest).filter (fun x => key x ≠ k) = rest := by
  have hNone :
      rest.filter (fun x => key x = k) = [] := by
    rw [List.filter_eq_nil_iff]
    intro x hMember
    simpa using hRest x hMember
  have hAll :
      first.filter (fun x => key x = k) = first := by
    rw [List.filter_eq_self]
    intro x hMember
    simpa using hFirst x hMember
  have hGone :
      first.filter (fun x => key x ≠ k) = [] := by
    rw [List.filter_eq_nil_iff]
    intro x hMember
    simpa using hFirst x hMember
  have hStays :
      rest.filter (fun x => key x ≠ k) = rest := by
    rw [List.filter_eq_self]
    intro x hMember
    simpa using hRest x hMember
  constructor
  · rw [List.filter_append, hAll, hNone, List.append_nil]
  · rw [List.filter_append, hGone, hStays, List.nil_append]

/- Two lists are the same if they are so before and after a
   key that only stands in front. -/
theorem append_eq_append_of_key
    (hFirst : ∀ x ∈ first, key x = k)
    (hOther : ∀ x ∈ other, key x = k)
    (hRest : ∀ x ∈ rest, key x ≠ k)
    (hMore : ∀ x ∈ more, key x ≠ k) :
    first ++ rest = other ++ more ↔
      first = other ∧ rest = more := by
  constructor
  · intro hSame
    rcases filter_append_of_key hFirst hRest with
      ⟨hFront, hBack⟩
    rcases filter_append_of_key hOther hMore with
      ⟨hFront', hBack'⟩
    rw [hSame] at hFront hBack
    constructor
    · rw [← hFront, hFront']
    · rw [← hBack, hBack']
  · intro hBoth
    rw [hBoth.1, hBoth.2]

theorem toList_eq_iff
    {α : Type}
    {x y : Option α} :
    x.toList = y.toList ↔ x = y := by
  constructor
  · intro hSame
    have hHead := congrArg List.head? hSame
    rw [Option.head?_toList, Option.head?_toList] at hHead
    exact hHead
  · intro hSame
    rw [hSame]

end Relational

namespace Versioning

open Concurrency Relational

/- How the binary answers what it is asked of a repository,
   where it does not fail. -/
structure DoltAnswers
    (config : ExportConfig)
    (repo : DoltRepo) where
  choice : ExportOp → ExportChoice
  works : ∀ op, (choice op).fails = false
  answered :
    ∀ op : ExportOp, ∃ answer,
      op.exec config (choice op) repo = some (answer, repo)

def failing (text : String) : ExportChoice where
  fails := true
  text := text
  order := []
  names := []

variable {config : ExportConfig} {repo : DoltRepo}
variable (answers : DoltAnswers config repo)

/- An operation answers so, or fails with a text. -/
def DoltAnswers.exec
    (op : ExportOp)
    (failure : Option String)
    (s : DoltRepo) : Option (op.Answer × DoltRepo) :=
  match failure with
  | none => op.exec config (answers.choice op) s
  | some text => op.exec config (failing text) s

abbrev PullStep : Type :=
  Taken ExportOp ExportOp.Answer DoltRepo (Option String)

/- The column `to_table_name` of the diff of a commit. -/
def DoltAnswers.diffed (commitHash : String) : List String :=
  match
    diffAnswer (answers.choice (.diffSummary commitHash)) repo
      commitHash with
  | some (.ok rows) => rows.map fun row => row.getD "to_table_name"
  | _ => []

/- A table as of a commit, if it can be read. -/
def readable
    (config : ExportConfig)
    (repo : DoltRepo)
    (hash table : String) : Option Table :=
  ((repo.commits.find? hash).bind fun commit =>
      commit.tables.find table).filter
    fun found => !config.reserved table && found.schema ≠ ""

def exportedTable
    (config : ExportConfig)
    (repo : DoltRepo)
    (hash table : String) : Option ExportedTable :=
  (readable config repo hash table).map fun found =>
    { name := table
      schema := found.schema ++ ";"
      data := found.data }

/- What is lost when this invocation fails: the tables of a
   commit that has some, or a table that can be read. -/
def hides : ExportOp → Bool
  | .diffSummary hash => answers.diffed hash ≠ []
  | .showCreate table hash =>
      (exportedTable config repo hash table).isSome
  | _ => false

/- No stream goes on when this invocation fails. -/
def isFatal : ExportOp → Bool
  | .getRepo _ => true
  | .branchHead _ => true
  | .commitsSince _ none => true
  | .selectAll _ _ => true
  | _ => false

def isCutOff : ExportOp → Bool
  | .commitsSince _ (some _) => true
  | _ => false

def Aborts (steps : List PullStep) : Prop :=
  ∃ step ∈ steps,
    step.choice.isSome = true ∧ isFatal step.op = true

def HidesNothing (steps : List PullStep) : Prop :=
  ∀ step ∈ steps,
    step.choice.isSome = true → hides answers step.op = false

/- The log that leaves out what the client has was not
   answered. -/
def cutOffFails (steps : List PullStep) : Bool :=
  steps.any fun step => step.choice.isSome && isCutOff step.op

/- The commits that a pull sends if no invocation fails. -/
def SendsSteadily
    (repoId : String)
    (branch fromHash : Option String)
    (sent : List ExportedCommit) : Prop :=
  ∃ steps t,
    Solo answers.exec (pullCommits repoId branch fromHash) repo
        steps (.ok ()) t ∧
      (∀ step ∈ steps, step.choice = none) ∧
      emittedBy steps = sent

/- It ends with an error or sends what it sends if nothing
   fails, from the beginning if it cannot tell what the client
   has. -/
def Complete
    (repoId : String)
    (branch fromHash : Option String)
    (steps : List PullStep)
    (outcome : Except ExportError Unit) : Prop :=
  (∃ error, outcome = .error error) ∨
    SendsSteadily answers repoId branch
      (if cutOffFails steps then none else fromHash)
      (emittedBy steps)

variable {config : ExportConfig} {repo : DoltRepo}
variable {answers : DoltAnswers config repo}
variable {α : Type}
variable {step : PullStep} {steps first rest : List PullStep}

@[simp] theorem not_aborts_nil : ¬ Aborts [] := by
  intro hAborts
  rcases hAborts with ⟨step, hMember, _⟩
  cases hMember

@[simp] theorem hidesNothing_nil : HidesNothing answers [] := by
  intro step hMember
  cases hMember

theorem aborts_append :
    Aborts (first ++ rest) ↔ Aborts first ∨ Aborts rest := by
  unfold Aborts
  simp only [List.mem_append, or_and_right, exists_or]

theorem hidesNothing_append :
    HidesNothing answers (first ++ rest) ↔
      HidesNothing answers first ∧ HidesNothing answers rest := by
  unfold HidesNothing
  constructor
  · intro hNothing
    constructor
    · intro step hMember
      exact hNothing step (List.mem_append_left _ hMember)
    · intro step hMember
      exact hNothing step (List.mem_append_right _ hMember)
  · intro hBoth step hMember
    rcases List.mem_append.mp hMember with hIn | hIn
    · exact hBoth.1 step hIn
    · exact hBoth.2 step hIn

theorem aborts_cons :
    Aborts (step :: steps) ↔
      (step.choice.isSome = true ∧ isFatal step.op = true) ∨
        Aborts steps := by
  unfold Aborts
  simp only [List.mem_cons, exists_eq_or_imp]

theorem hidesNothing_cons :
    HidesNothing answers (step :: steps) ↔
      (step.choice.isSome = true →
          hides answers step.op = false) ∧
        HidesNothing answers steps := by
  unfold HidesNothing
  simp only [List.mem_cons, forall_eq_or_imp]

theorem cutOffFails_append :
    cutOffFails (first ++ rest) =
      (cutOffFails first || cutOffFails rest) := by
  unfold cutOffFails
  rw [List.any_append]

/- An invocation is answered, or it fails. -/
theorem ends_answers
    {op : ExportOp}
    {resume : op.Answer → ExportProgram α}
    {answer : op.Answer}
    {failed : String → op.Answer}
    {post :
      List PullStep → Except ExportError α → DoltRepo → Prop}
    (hExec :
      op.exec config (answers.choice op) repo =
        some (answer, repo))
    (hFailed :
      ∀ text,
        op.exec config (failing text) repo =
          some (failed text, repo))
    (hAnswer :
      Ends answers.exec (resume answer) repo fun steps =>
        post (⟨op, none, repo, answer, repo⟩ :: steps))
    (hFails :
      ∀ text,
        Ends answers.exec (resume (failed text)) repo
          fun steps =>
            post
              (⟨op, some text, repo, failed text, repo⟩ ::
                steps)) :
    Ends answers.exec (.await op resume) repo post := by
  apply ends_await
  intro failure found t hRan
  cases failure with
  | none =>
      have hSame : some (answer, repo) = some (found, t) :=
        hExec.symm.trans hRan
      cases hSame
      exact hAnswer
  | some text =>
      have hSame : some (failed text, repo) = some (found, t) :=
        (hFailed text).symm.trans hRan
      cases hSame
      exact hFails text

/- A part of a pull ends in the repository as it was: with an
   error only if an invocation that is fatal has failed, and
   else with the right result just when nothing is hidden. -/
def Exactly
    {α β : Type}
    (answers : DoltAnswers config repo)
    (keyed : β → Prop)
    (right : β)
    (result : List PullStep → α → β)
    (steps : List PullStep)
    (outcome : Except ExportError α)
    (t : DoltRepo) : Prop :=
  t = repo ∧
    match outcome with
    | .error _ => Aborts steps
    | .ok value =>
        ¬ Aborts steps ∧ keyed (result steps value) ∧
          (result steps value = right ↔
            HidesNothing answers steps)

------------------------------------------------------------
-- The Tables Of A Commit
------------------------------------------------------------

variable {hash table : String} {tables : List String}

/- Reading a schema takes one invocation. -/
inductive ReadsSchema
    (config : ExportConfig)
    (repo : DoltRepo)
    (hash table : String) :
    List PullStep → Except ExportError (Option String) →
      DoltRepo → Prop where
  | answered
      {answer : ExportOp.Answer (.showCreate table hash)}
      {schema : Option String}
      (read :
        schema =
          (readable config repo hash table).map fun found =>
            found.schema ++ ";") :
      ReadsSchema config repo hash table
        [⟨.showCreate table hash, none, repo, answer, repo⟩]
        (.ok schema) repo
  | failed
      {text : String}
      {answer : ExportOp.Answer (.showCreate table hash)} :
      ReadsSchema config repo hash table
        [⟨.showCreate table hash, some text, repo, answer,
          repo⟩]
        (.ok none) repo

/- What the binary prints for a table. -/
def createRows (table schema : String) : List JsonRow :=
  [[("Table", table), ("Create Table", schema)]]

@[simp] theorem createRows_schema (schema : String) :
    ((createRows table schema).headD []).getD "Create Table" =
      schema := rfl

/- A table that can be read is printed; any other is not
   there, or is printed without a schema. -/
theorem showCreate_cases
    (answers : DoltAnswers config repo)
    (hash table : String) :
    (∃ found,
        readable config repo hash table = some found ∧
          found.schema ≠ "" ∧
          (ExportOp.showCreate table hash).exec config
              (answers.choice (.showCreate table hash)) repo =
            some (.ok (createRows table found.schema), repo) ∧
          (ExportOp.selectAll table hash).exec config
              (answers.choice (.selectAll table hash)) repo =
            some (.ok found.data, repo)) ∨
      (readable config repo hash table = none ∧
        ∃ answer,
          (ExportOp.showCreate table hash).exec config
                (answers.choice (.showCreate table hash))
                repo =
              some (answer, repo) ∧
            ((∃ output, answer = .error output) ∨
              answer = .ok (createRows table ""))) := by
  have hCreate := answers.works (.showCreate table hash)
  have hSelect := answers.works (.selectAll table hash)
  simp only [ExportOp.exec, hCreate, hSelect, if_false,
    Bool.false_eq_true]
  unfold tableAnswer readable
  cases hCommit : repo.commits.find? hash with
  | none =>
      right
      exact ⟨rfl, _, rfl, Or.inl ⟨_, rfl⟩⟩
  | some commit =>
      simp only [Option.bind_some]
      cases hTable : commit.tables.find table with
      | none =>
          right
          exact ⟨rfl, _, rfl, Or.inl ⟨_, rfl⟩⟩
      | some found =>
          simp only [Option.filter_some]
          cases hReserved : config.reserved table with
          | true =>
              right
              exact ⟨rfl, _, rfl, Or.inl ⟨_, rfl⟩⟩
          | false =>
              by_cases hSchema : found.schema = ""
              · right
                refine ⟨by simp [hSchema], _, rfl, Or.inr ?_⟩
                simp only [if_false, Bool.false_eq_true]
                rw [hSchema]
                rfl
              · left
                refine ⟨found, by simp [hSchema], hSchema, ?_⟩
                exact ⟨rfl, rfl⟩

theorem ends_tableSchema :
    Ends answers.exec (attempted (tableSchema table hash)) repo
      (ReadsSchema config repo hash table) := by
  unfold attempted tableSchema Async.call
  simp only [Async.bind_eq, Async.bind_await,
    Async.bind_returned, Async.catchError_await,
    Async.pure_eq_returned]
  rcases showCreate_cases answers hash table with
    ⟨found, hReadable, hSchema, hExec, _⟩ |
      ⟨hNone, answer, hExec, hAnswer⟩
  · refine ends_answers hExec (fun _ => rfl) ?_ ?_
    · have hPasses :
          ∀ error,
            (Async.ensure
                (((createRows table found.schema).headD []).getD
                    "Create Table" ≠
                  "")
                error :
              ExportProgram Unit) =
              .returned () := by
        intro error
        exact if_pos (decide_eq_true hSchema)
      simp only [received, Async.bind_returned, hPasses]
      apply ends_returned
      apply ReadsSchema.answered
      rw [hReadable]
      rfl
    · intro text
      exact ends_returned .failed
  · refine ends_answers hExec (fun _ => rfl) ?_ ?_
    · have hRead :
          (none : Option String) =
            (readable config repo hash table).map fun found =>
              found.schema ++ ";" := by
        rw [hNone]
        rfl
      rcases hAnswer with ⟨output, hError⟩ | hEmpty
      · subst hError
        exact ends_returned (.answered hRead)
      · subst hEmpty
        exact ends_returned (.answered hRead)
    · intro text
      exact ends_returned .failed

def NamesTable (table : String) (result : Option ExportedTable) :
    Prop :=
  ∀ exported ∈ result, exported.name = table

theorem namesTable_exportedTable
    (config : ExportConfig)
    (repo : DoltRepo)
    (hash table : String) :
    NamesTable table (exportedTable config repo hash table) := by
  intro exported hMember
  unfold exportedTable at hMember
  rw [Option.mem_def, Option.map_eq_some_iff] at hMember
  rcases hMember with ⟨found, _, hSame⟩
  rw [← hSame]

/- A table that can be read is skipped if its schema is not
   answered, and stops the stream if its rows are not. -/
theorem ends_exportTable :
    Ends answers.exec (exportTable table hash) repo
      (Exactly answers (NamesTable table)
        (exportedTable config repo hash table)
        fun _ result => result) := by
  unfold exportTable
  simp only [Async.bind_eq]
  refine ends_bind_of ends_tableSchema ?_ ?_
  · intro steps schema u hRead
    cases hRead with
    | failed =>
        apply ends_returned
        refine ⟨rfl, ?_, ?_, ?_⟩
        · simp [aborts_cons, isFatal]
        · intro exported hMember
          cases hMember
        · cases hTable : exportedTable config repo hash table with
          | none => simp [hidesNothing_cons, hides, hTable]
          | some exported =>
              simp [hidesNothing_cons, hides, hTable]
    | answered hRead =>
        rcases showCreate_cases answers hash table with
          ⟨found, hReadable, _, _, hExec⟩ | ⟨hNone, _⟩
        · rw [hReadable, Option.map_some] at hRead
          have hRight :
              exportedTable config repo hash table =
                some
                  { name := table
                    schema := found.schema ++ ";"
                    data := found.data } := by
            unfold exportedTable
            rw [hReadable]
            rfl
          subst hRead
          unfold tableData Async.call
          simp only [Async.bind_eq, Async.bind_await,
            Async.bind_returned]
          refine ends_answers hExec (fun _ => rfl) ?_ ?_
          · apply ends_returned
            refine ⟨rfl, ?_, ?_, ?_⟩
            · simp [aborts_cons]
            · intro exported hMember
              cases hMember
              rfl
            · simp [hidesNothing_cons, hRight]
          · intro text
            apply ends_threw
            refine ⟨rfl, ?_⟩
            simp [aborts_cons, isFatal]
        · rw [hNone, Option.map_none] at hRead
          subst hRead
          have hRight :
              exportedTable config repo hash table = none := by
            unfold exportedTable
            rw [hNone]
            rfl
          apply ends_returned
          refine ⟨rfl, ?_, ?_, ?_⟩
          · simp [aborts_cons]
          · intro exported hMember
            cases hMember
          · simp [hidesNothing_cons, hRight]
  · intro steps error u hRead
    cases hRead

def exportedTables
    (config : ExportConfig)
    (repo : DoltRepo)
    (hash : String)
    (tables : List String) : List ExportedTable :=
  tables.flatMap fun table =>
    (exportedTable config repo hash table).toList

def NamesTables
    (tables : List String)
    (result : List ExportedTable) : Prop :=
  ∀ exported ∈ result, exported.name ∈ tables

theorem namesTables_exportedTables
    (config : ExportConfig)
    (repo : DoltRepo)
    (hash : String)
    (tables : List String) :
    NamesTables tables
      (exportedTables config repo hash tables) := by
  intro exported hMember
  rcases List.mem_flatMap.mp hMember with
    ⟨table, hTable, hExported⟩
  rw [Option.mem_toList] at hExported
  rw [namesTable_exportedTable config repo hash table exported
    hExported]
  exact hTable

/- What is sent of the tables is right just when it is of each
   of them. -/
theorem ends_exportTables
    (hNodup : tables.Nodup) :
    Ends answers.exec (exportTables hash tables) repo
      (Exactly answers (NamesTables tables)
        (exportedTables config repo hash tables)
        fun _ result => result) := by
  induction tables with
  | nil =>
      apply ends_returned
      refine ⟨rfl, not_aborts_nil, ?_, ?_⟩
      · intro exported hMember
        cases hMember
      · simp [exportedTables]
  | cons table rest ih =>
      rw [List.nodup_cons] at hNodup
      unfold exportTables
      simp only [Async.bind_eq]
      refine ends_bind_of ends_exportTable ?_ ?_
      · intro first result u hFirst
        rcases hFirst with ⟨hSame, hWhole, hKeyed, hExact⟩
        subst hSame
        refine ends_bind_of (ih hNodup.2) ?_ ?_
        · intro second more v hSecond
          rcases hSecond with ⟨hSame, hWhole', hKeyed', hExact'⟩
          apply ends_returned
          refine ⟨hSame, ?_, ?_, ?_⟩
          · rw [List.append_nil, aborts_append]
            simp [hWhole, hWhole']
          · intro exported hMember
            rcases List.mem_append.mp hMember with hIn | hIn
            · rw [Option.mem_toList] at hIn
              rw [hKeyed exported hIn]
              exact List.mem_cons_self
            · exact
                List.mem_cons_of_mem _ (hKeyed' exported hIn)
          · rw [List.append_nil, hidesNothing_append, ← hExact,
              ← hExact']
            have hFront :
                ∀ result : Option ExportedTable,
                  NamesTable table result →
                    ∀ x ∈ result.toList, x.name = table := by
              intro result hNames x hMember
              exact hNames x (Option.mem_toList.mp hMember)
            have hBack :
                ∀ result : List ExportedTable,
                  NamesTables rest result →
                    ∀ x ∈ result, x.name ≠ table := by
              intro result hNames x hMember hTable
              exact hNodup.1 (hTable ▸ hNames x hMember)
            have hSplit :=
              append_eq_append_of_key (hFront _ hKeyed)
                (hFront _
                  (namesTable_exportedTable config u hash table))
                (hBack _ hKeyed')
                (hBack _
                  (namesTables_exportedTables config u hash rest))
            rw [toList_eq_iff] at hSplit
            exact hSplit
        · intro second error v hSecond
          refine ⟨hSecond.1, ?_⟩
          rw [aborts_append]
          exact Or.inr hSecond.2
      · intro first error u hFirst
        exact hFirst

------------------------------------------------------------
-- The Commits Of A Log
------------------------------------------------------------

variable {row : JsonRow} {rows : List JsonRow}

/- What is sent for a row, if nothing fails. -/
def DoltAnswers.sentFor
    (answers : DoltAnswers config repo)
    (row : JsonRow) : List ExportedCommit :=
  let hash := row.getD "commit_hash"
  if hash = "" ∨ answers.diffed hash = [] then []
  else
    [{ hash := hash
       message := row.getD "message"
       author := row.getD "author"
       tables :=
        exportedTables config repo hash
          ((answers.diffed hash).filter exportable) }]

theorem rows_of_diffAnswer
    {choice : ExportChoice}
    (hAnswer :
      diffAnswer choice repo hash = some (.ok rows)) :
    ∃ commit before,
      repo.commits.find? hash = some commit ∧
        repo.parentTables commit = some before ∧
        diffNames choice.names before commit.tables = true ∧
        (rows.map fun row => row.getD "to_table_name") =
          choice.names := by
  unfold diffAnswer at hAnswer
  split at hAnswer
  · cases hAnswer
  · rename_i commit hCommit
    split at hAnswer
    · cases hAnswer
    · rename_i before hParent
      split at hAnswer
      · rename_i hDiff
        cases hAnswer
        refine ⟨commit, before, hCommit, hParent, hDiff, ?_⟩
        rw [List.map_map]
        exact List.map_id _
      · cases hAnswer

/- No table is named twice. -/
theorem nodup_diffed
    (answers : DoltAnswers config repo)
    (hash : String) :
    ((answers.diffed hash).filter exportable).Nodup := by
  unfold DoltAnswers.diffed
  split
  · rename_i rows hAnswer
    rcases rows_of_diffAnswer hAnswer with
      ⟨commit, before, _, _, hDiff, hNames⟩
    rw [hNames]
    unfold diffNames at hDiff
    simp only [Bool.and_eq_true] at hDiff
    have hPerm := List.isPerm_iff.mp hDiff.1.1
    have hNodup := hPerm.nodup_iff.mpr
      ((List.nodup_dedup _).filter _)
    refine List.Nodup.sublist ?_ hNodup
    apply List.monotone_filter_right
    intro name hExported
    unfold exportable at hExported
    rw [Bool.and_assoc, Bool.and_eq_true] at hExported
    exact hExported.1
  · exact List.nodup_nil

/- Reading the diff of a commit takes one invocation. -/
inductive ReadsDiff
    (answers : DoltAnswers config repo)
    (hash : String) :
    List PullStep → Except ExportError ChangedTables →
      DoltRepo → Prop where
  | answered
      {answer : ExportOp.Answer (.diffSummary hash)} :
      ReadsDiff answers hash
        [⟨.diffSummary hash, none, repo, answer, repo⟩]
        (.ok
          { tables := (answers.diffed hash).filter exportable
            hadAnyDiff := answers.diffed hash ≠ [] })
        repo
  | failed
      {text : String}
      {answer : ExportOp.Answer (.diffSummary hash)} :
      ReadsDiff answers hash
        [⟨.diffSummary hash, some text, repo, answer, repo⟩]
        (.ok { tables := [], hadAnyDiff := false }) repo

theorem diffSummary_cases
    (answers : DoltAnswers config repo)
    (hash : String) :
    ∃ answer,
      (ExportOp.diffSummary hash).exec config
            (answers.choice (.diffSummary hash)) repo =
          some (answer, repo) ∧
        ((∃ rows,
            answer = .ok rows ∧
              (rows.map fun row => row.getD "to_table_name") =
                answers.diffed hash) ∨
          (∃ output, answer = .error output) ∧
            answers.diffed hash = []) := by
  rcases answers.answered (.diffSummary hash) with
    ⟨answer, hExec⟩
  refine ⟨answer, hExec, ?_⟩
  simp only [ExportOp.exec, answers.works, if_false,
    Bool.false_eq_true] at hExec
  rw [Option.map_eq_some_iff] at hExec
  rcases hExec with ⟨found, hFound, hEq⟩
  cases hEq
  unfold DoltAnswers.diffed
  rw [hFound]
  cases answer with
  | ok rows => exact Or.inl ⟨rows, rfl, rfl⟩
  | error output => exact Or.inr ⟨⟨output, rfl⟩, rfl⟩

theorem ends_changedTables :
    Ends answers.exec (changedTables hash) repo
      (ReadsDiff answers hash) := by
  unfold changedTables attempted Async.call
  simp only [Async.bind_eq, Async.bind_await,
    Async.bind_returned, Async.catchError_await]
  rcases diffSummary_cases answers hash with
    ⟨answer, hExec, hAnswer⟩
  refine ends_answers hExec (fun _ => rfl) ?_ ?_
  · rcases hAnswer with ⟨rows, hRows, hNames⟩ | ⟨hError, hNone⟩
    · subst hRows
      simp only [received, Async.bind_returned,
        Async.catchError_returned, Async.pure_eq_returned]
      apply ends_returned
      have hSome : (rows ≠ []) = (answers.diffed hash ≠ []) := by
        rw [← hNames]
        simp
      simp only [hNames, hSome]
      exact .answered
    · rcases hError with ⟨output, hError⟩
      subst hError
      apply ends_returned
      have hAnswered :
          ReadsDiff answers hash
            [⟨.diffSummary hash, none, repo, .error output,
              repo⟩]
            (.ok
              { tables :=
                  (answers.diffed hash).filter exportable
                hadAnyDiff := answers.diffed hash ≠ [] })
            repo :=
        .answered
      rw [hNone] at hAnswered
      exact hAnswered
  · intro text
    exact ends_returned .failed

def NamesCommit
    (hash : String)
    (sent : List ExportedCommit) : Prop :=
  ∀ commit ∈ sent, commit.hash = hash

theorem namesCommit_sentFor
    (answers : DoltAnswers config repo)
    (row : JsonRow) :
    NamesCommit (row.getD "commit_hash")
      (answers.sentFor row) := by
  intro commit hMember
  unfold DoltAnswers.sentFor at hMember
  dsimp only at hMember
  split_ifs at hMember
  · cases hMember
  · rw [List.mem_singleton.mp hMember]

theorem ends_exportTables_silently
    {tables : List String} :
    Ends answers.exec (exportTables hash tables) repo
      fun steps _ _ => emittedBy steps = [] := by
  apply ends_emitsNothing
  apply only_exportTables
  · intro _ _
    trivial
  · intro _ _
    trivial

def sendingStep
    (repo : DoltRepo)
    (row : JsonRow)
    (exported : List ExportedTable)
    (failure : Option String) : PullStep where
  op :=
    .emit
      { hash := row.getD "commit_hash"
        message := row.getD "message"
        author := row.getD "author"
        tables := exported }
  choice := failure
  before := repo
  answer := ()
  after := repo

/- A commit is sent right just when its tables are. -/
theorem exactly_sent
    {keyed : List ExportedTable → Prop}
    {second : List PullStep}
    {exported : List ExportedTable}
    (failure : Option String)
    (hHash : row.getD "commit_hash" ≠ "")
    (hDiff : answers.diffed (row.getD "commit_hash") ≠ [])
    (hFirst : ¬ Aborts first)
    (hNothing : HidesNothing answers first)
    (hQuiet : emittedBy first = [])
    (hSecond :
      Exactly answers keyed
        (exportedTables config repo (row.getD "commit_hash")
          ((answers.diffed (row.getD "commit_hash")).filter
            exportable))
        (fun _ result => result) second (.ok exported) repo)
    (hSilent : emittedBy second = []) :
    Exactly answers (NamesCommit (row.getD "commit_hash"))
      (answers.sentFor row) (fun steps _ => emittedBy steps)
      (first ++
        (second ++ [sendingStep repo row exported failure]))
      (.ok ()) repo := by
  rcases hSecond with ⟨_, hWhole, _, hExact⟩
  have hEmitted :
      emittedBy
          (first ++
            (second ++
              [sendingStep repo row exported failure])) =
        [{ hash := row.getD "commit_hash"
           message := row.getD "message"
           author := row.getD "author"
           tables := exported }] := by
    rw [emittedBy_append, emittedBy_append, hQuiet, hSilent]
    rfl
  refine ⟨rfl, ?_, ?_, ?_⟩
  · simp [aborts_append, aborts_cons, hFirst, hWhole,
      sendingStep, isFatal]
  · dsimp only
    rw [hEmitted]
    intro commit hMember
    rw [List.mem_singleton.mp hMember]
  · dsimp only
    rw [hEmitted, hidesNothing_append, hidesNothing_append,
      hidesNothing_cons, ← hExact]
    simp [DoltAnswers.sentFor, hHash, hDiff, hNothing, hides,
      sendingStep]

/- A commit with a diff is skipped if its diff is not
   answered. -/
theorem ends_exportCommit_exactly :
    Ends answers.exec (exportCommit row) repo
      (Exactly answers
        (NamesCommit (row.getD "commit_hash"))
        (answers.sentFor row)
        fun steps _ => emittedBy steps) := by
  have hSkipped :
      NamesCommit (row.getD "commit_hash") [] := by
    intro commit hMember
    cases hMember
  unfold exportCommit
  dsimp only
  by_cases hHash : row.getD "commit_hash" = ""
  · rw [if_pos hHash]
    apply ends_returned
    refine ⟨rfl, not_aborts_nil, hSkipped, ?_⟩
    simp [DoltAnswers.sentFor, hHash, emittedBy]
  · rw [if_neg hHash]
    simp only [Async.bind_eq]
    refine ends_bind_of ends_changedTables ?_ ?_
    · intro first changed u hRead
      cases hRead with
      | failed =>
          apply ends_returned
          refine ⟨rfl, ?_, hSkipped, ?_⟩
          · simp [aborts_cons, isFatal]
          · by_cases hNone :
                answers.diffed (row.getD "commit_hash") = []
            · simp [hidesNothing_cons, hides, emittedBy,
                DoltAnswers.sentFor, hNone]
            · simp [hidesNothing_cons, hides, emittedBy,
                DoltAnswers.sentFor, hHash, hNone]
      | answered =>
          by_cases hNone :
              answers.diffed (row.getD "commit_hash") = []
          · simp only [hNone]
            apply ends_returned
            refine ⟨rfl, ?_, hSkipped, ?_⟩
            · simp [aborts_cons]
            · simp [hidesNothing_cons, emittedBy,
                DoltAnswers.sentFor, hNone]
          · simp only [hNone, ne_eq, not_false_eq_true,
              decide_true, if_true]
            refine
              ends_bind_of
                (ends_and
                  (ends_exportTables (nodup_diffed answers _))
                  ends_exportTables_silently)
                ?_ ?_
            · intro second exported v hSecond
              rcases hSecond with ⟨hTables, hSilent⟩
              have hSame := hTables.1
              subst hSame
              unfold Async.call
              refine ends_answers rfl (fun _ => rfl) ?_ ?_
              · apply ends_returned
                refine
                  exactly_sent none hHash hNone ?_ ?_ rfl hTables
                    hSilent
                · simp [aborts_cons]
                · simp [hidesNothing_cons]
              · intro text
                apply ends_returned
                refine
                  exactly_sent (some text) hHash hNone ?_ ?_ rfl
                    hTables hSilent
                · simp [aborts_cons]
                · simp [hidesNothing_cons]
            · intro second error v hSecond
              rcases hSecond with ⟨⟨hSame, hAborts⟩, _⟩
              refine ⟨hSame, ?_⟩
              rw [aborts_append]
              exact Or.inr hAborts
    · intro first error u hRead
      cases hRead

def NamesCommits
    (rows : List JsonRow)
    (sent : List ExportedCommit) : Prop :=
  ∀ commit ∈ sent,
    commit.hash ∈ rows.map fun row => row.getD "commit_hash"

theorem namesCommits_sent
    (answers : DoltAnswers config repo)
    (rows : List JsonRow) :
    NamesCommits rows (rows.flatMap answers.sentFor) := by
  intro commit hMember
  rcases List.mem_flatMap.mp hMember with ⟨row, hRow, hSent⟩
  rw [namesCommit_sentFor answers row commit hSent]
  exact List.mem_map.mpr ⟨row, hRow, rfl⟩

/- What is sent of a log is right just when it is of each of
   its rows. -/
theorem ends_exportCommits_exactly
    (hNodup :
      (rows.map fun row => row.getD "commit_hash").Nodup) :
    Ends answers.exec (Async.forEach exportCommit rows) repo
      (Exactly answers (NamesCommits rows)
        (rows.flatMap answers.sentFor)
        fun steps _ => emittedBy steps) := by
  induction rows with
  | nil =>
      apply ends_returned
      refine ⟨rfl, not_aborts_nil, ?_, ?_⟩
      · intro commit hMember
        cases hMember
      · simp [emittedBy]
  | cons row rest ih =>
      rw [List.map_cons, List.nodup_cons] at hNodup
      unfold Async.forEach
      refine ends_bind_of ends_exportCommit_exactly ?_ ?_
      · intro first _ u hFirst
        rcases hFirst with ⟨hSame, hWhole, hKeyed, hExact⟩
        subst hSame
        refine ends_mono (ih hNodup.2) ?_
        intro second outcome t hSecond
        cases outcome with
        | error error =>
            refine ⟨hSecond.1, ?_⟩
            exact aborts_append.mpr (Or.inr hSecond.2)
        | ok value =>
            rcases hSecond with
              ⟨hSame, hWhole', hKeyed', hExact'⟩
            have hBack :
                ∀ sent,
                  NamesCommits rest sent →
                    ∀ commit ∈ sent,
                      commit.hash ≠ row.getD "commit_hash" := by
              intro sent hNames commit hMember hHash
              exact hNodup.1 (hHash ▸ hNames commit hMember)
            refine ⟨hSame, ?_, ?_, ?_⟩
            · rw [aborts_append]
              simp [hWhole, hWhole']
            · dsimp only
              rw [emittedBy_append]
              intro commit hMember
              rcases List.mem_append.mp hMember with hIn | hIn
              · rw [hKeyed commit hIn]
                exact List.mem_cons_self
              · exact
                  List.mem_cons_of_mem _ (hKeyed' commit hIn)
            · dsimp only
              rw [emittedBy_append, hidesNothing_append,
                ← hExact, ← hExact', List.flatMap_cons]
              exact
                append_eq_append_of_key hKeyed
                  (namesCommit_sentFor answers row)
                  (hBack _ hKeyed')
                  (hBack _ (namesCommits_sent answers rest))
      · intro first error u hFirst
        exact hFirst

------------------------------------------------------------
-- The Log
------------------------------------------------------------

variable {branch repoId : String} {fromHash : Option String}
variable {known : String}

/- A log, if it is answered when nothing fails. -/
def DoltAnswers.logged
    (answers : DoltAnswers config repo)
    (branch : String)
    (fromHash : Option String) : Option (List JsonRow) :=
  match
    logAnswer (answers.choice (.commitsSince branch fromHash))
      repo branch fromHash with
  | some (.ok rows) => some rows
  | _ => none

/- The commits that are listed when nothing fails. -/
def DoltAnswers.listed
    (answers : DoltAnswers config repo)
    (branch : String)
    (fromHash : Option String) : List JsonRow :=
  ((fromHash.filter fun hash => hash ≠ "").bind fun hash =>
      answers.logged branch (some hash)).getD
    ((answers.logged branch none).getD [])

theorem commitsSince_cases
    (answers : DoltAnswers config repo)
    (branch : String)
    (fromHash : Option String) :
    ∃ answer,
      (ExportOp.commitsSince branch fromHash).exec config
            (answers.choice (.commitsSince branch fromHash))
            repo =
          some (answer, repo) ∧
        ((∃ rows,
            answer = .ok rows ∧
              answers.logged branch fromHash = some rows) ∨
          (∃ output, answer = .error output) ∧
            answers.logged branch fromHash = none) := by
  rcases answers.answered (.commitsSince branch fromHash) with
    ⟨answer, hExec⟩
  refine ⟨answer, hExec, ?_⟩
  simp only [ExportOp.exec, answers.works, if_false,
    Bool.false_eq_true] at hExec
  rw [Option.map_eq_some_iff] at hExec
  rcases hExec with ⟨found, hFound, hEq⟩
  cases hEq
  unfold DoltAnswers.logged
  rw [hFound]
  cases answer with
  | ok rows => exact Or.inl ⟨rows, rfl, rfl⟩
  | error output => exact Or.inr ⟨⟨output, rfl⟩, rfl⟩

theorem hashes_filterMap_find?
    (commits : CommitTable)
    (order : List String) :
    ((order.filterMap commits.find?).map Commit.logRow).map
        (fun row => row.getD "commit_hash") =
      order.filter fun hash => (commits.find? hash).isSome := by
  induction order with
  | nil => rfl
  | cons hash rest ih =>
      cases hFind : commits.find? hash with
      | none => simpa [hFind] using ih
      | some commit =>
          have hHash := KeyedTable.key_of_find? hFind
          simpa [hFind, hHash] using ih

/- A log has every commit once. -/
theorem nodup_logRows
    {order : List String}
    {head : Commit}
    {known : Option Commit}
    (hRows : repo.logRows order head known = some rows) :
    (rows.map fun row => row.getD "commit_hash").Nodup := by
  unfold DoltRepo.logRows at hRows
  split at hRows
  · rename_i hOrder
    rw [Bool.and_eq_true] at hOrder
    cases hRows
    have hPerm := List.isPerm_iff.mp hOrder.1
    have hMissing :
        ((repo.missingFrom head known).map Commit.hash).Nodup := by
      unfold DoltRepo.missingFrom DoltRepo.ancestors
      refine List.Nodup.sublist ?_ repo.commits.distinct
      apply List.Sublist.map
      exact List.filter_sublist.trans List.filter_sublist
    have hNodup := hPerm.nodup_iff.mpr hMissing
    rw [hashes_filterMap_find?]
    exact hNodup.filter _
  · cases hRows

theorem nodup_logged
    (hLogged : answers.logged branch fromHash = some rows) :
    (rows.map fun row => row.getD "commit_hash").Nodup := by
  rcases commitsSince_cases answers branch fromHash with
    ⟨answer, hExec, ⟨found, hFound, hSome⟩ | ⟨_, hNone⟩⟩
  · rw [hSome] at hLogged
    cases hLogged
    subst hFound
    rcases logRows_of_commitsSince hExec with
      ⟨head, known, _, _, hRows⟩
    exact nodup_logRows hRows
  · rw [hNone] at hLogged
    cases hLogged

theorem nodup_listed
    (answers : DoltAnswers config repo)
    (branch : String)
    (fromHash : Option String) :
    ((answers.listed branch fromHash).map fun row =>
        row.getD "commit_hash").Nodup := by
  have hAll :
      (((answers.logged branch none).getD []).map fun row =>
          row.getD "commit_hash").Nodup := by
    cases hLogged : answers.logged branch none with
    | none => exact List.nodup_nil
    | some rows => exact nodup_logged hLogged
  unfold DoltAnswers.listed
  cases fromHash.filter fun hash => hash ≠ "" with
  | none => exact hAll
  | some hash =>
      rw [Option.bind_some]
      cases hLogged : answers.logged branch (some hash) with
      | none => exact hAll
      | some rows => exact nodup_logged hLogged

/- Where a branch is, its whole log is answered. -/
theorem logged_of_head
    (answers : DoltAnswers config repo)
    (hHead : repo.heads branch ≠ none) :
    ∃ rows, answers.logged branch none = some rows := by
  rcases commitsSince_cases answers branch none with
    ⟨answer, hExec, ⟨rows, _, hSome⟩ | ⟨⟨output, hError⟩, _⟩⟩
  · exact ⟨rows, hSome⟩
  · exfalso
    subst hError
    simp only [ExportOp.exec, answers.works, if_false,
      Bool.false_eq_true] at hExec
    rw [Option.map_eq_some_iff] at hExec
    rcases hExec with ⟨found, hFound, hEq⟩
    cases hEq
    rcases Option.ne_none_iff_exists'.mp hHead with ⟨head, hHead⟩
    unfold logAnswer DoltRepo.resolve at hFound
    rw [hHead] at hFound
    dsimp only at hFound
    rw [Option.map_eq_some_iff] at hFound
    rcases hFound with ⟨rows, _, hOk⟩
    cases hOk

/- One query of the log. -/
inductive ReadsLog
    (answers : DoltAnswers config repo)
    (branch : String)
    (fromHash : Option String) :
    List PullStep → Except ExportError (List JsonRow) →
      DoltRepo → Prop where
  | answered
      {answer : ExportOp.Answer (.commitsSince branch fromHash)}
      {rows : List JsonRow}
      (logged : answers.logged branch fromHash = some rows) :
      ReadsLog answers branch fromHash
        [⟨.commitsSince branch fromHash, none, repo, answer,
          repo⟩]
        (.ok rows) repo
  | refused
      {answer : ExportOp.Answer (.commitsSince branch fromHash)}
      {error : ExportError}
      (logged : answers.logged branch fromHash = none) :
      ReadsLog answers branch fromHash
        [⟨.commitsSince branch fromHash, none, repo, answer,
          repo⟩]
        (.error error) repo
  | failed
      {text : String}
      {answer : ExportOp.Answer (.commitsSince branch fromHash)}
      {error : ExportError} :
      ReadsLog answers branch fromHash
        [⟨.commitsSince branch fromHash, some text, repo, answer,
          repo⟩]
        (.error error) repo

theorem ends_queryCommits_exactly :
    Ends answers.exec (queryCommits branch fromHash) repo
      (ReadsLog answers branch fromHash) := by
  unfold queryCommits Async.call
  simp only [Async.bind_eq, Async.bind_await,
    Async.bind_returned]
  rcases commitsSince_cases answers branch fromHash with
    ⟨answer, hExec, hAnswer⟩
  refine ends_answers hExec (fun _ => rfl) ?_ ?_
  · rcases hAnswer with ⟨rows, hRows, hSome⟩ | ⟨hError, hNone⟩
    · subst hRows
      exact ends_returned (.answered hSome)
    · rcases hError with ⟨output, hError⟩
      subst hError
      exact ends_threw (.refused hNone)
  · intro text
    exact ends_threw .failed

/- What is listed if the query that leaves out what the client
   has may fail. -/
def ReadsLogs
    (answers : DoltAnswers config repo)
    (branch : String)
    (fromHash : Option String)
    (steps : List PullStep)
    (outcome : Except ExportError (List JsonRow))
    (t : DoltRepo) : Prop :=
  t = repo ∧ emittedBy steps = [] ∧
    match outcome with
    | .error _ => Aborts steps
    | .ok rows =>
        ¬ Aborts steps ∧ HidesNothing answers steps ∧
          rows =
            answers.listed branch
              (if cutOffFails steps then none else fromHash)

theorem ends_queryAll
    (hHead : repo.heads branch ≠ none) :
    Ends answers.exec (queryCommits branch none) repo
      (ReadsLogs answers branch none) := by
  rcases logged_of_head answers hHead with ⟨all, hAll⟩
  refine ends_mono ends_queryCommits_exactly ?_
  intro steps outcome t hRead
  cases hRead with
  | answered hLogged =>
      refine ⟨rfl, rfl, ?_, ?_, ?_⟩
      · simp [aborts_cons]
      · simp [hidesNothing_cons]
      · simp [DoltAnswers.listed, hLogged]
  | refused hLogged =>
      rw [hAll] at hLogged
      cases hLogged
  | failed =>
      refine ⟨rfl, rfl, ?_⟩
      simp [aborts_cons, isFatal]

theorem listed_of_none
    (hFrom : (fromHash.filter fun hash => hash ≠ "") = none) :
    answers.listed branch fromHash =
      answers.listed branch none := by
  unfold DoltAnswers.listed
  rw [hFrom]
  rfl

theorem listed_of_logged
    (hFrom :
      (fromHash.filter fun hash => hash ≠ "") = some known)
    (hLogged : answers.logged branch (some known) = some rows) :
    answers.listed branch fromHash = rows := by
  unfold DoltAnswers.listed
  rw [hFrom, Option.bind_some, hLogged]
  rfl

theorem listed_of_refused
    (hFrom :
      (fromHash.filter fun hash => hash ≠ "") = some known)
    (hLogged : answers.logged branch (some known) = none) :
    answers.listed branch fromHash =
      answers.listed branch none := by
  unfold DoltAnswers.listed
  rw [hFrom, Option.bind_some, hLogged]
  rfl

/- The rest of a query that has gone on from the beginning. -/
theorem ReadsLogs.after
    {more : List PullStep}
    {outcome : Except ExportError (List JsonRow)}
    {t : DoltRepo}
    (hMore : ReadsLogs answers branch none more outcome t)
    (hSilent : emittedBy [step] = [])
    (hFatal : isFatal step.op = false)
    (hHides : hides answers step.op = false)
    (hListed :
      cutOffFails [step] = false →
        answers.listed branch fromHash =
          answers.listed branch none) :
    ReadsLogs answers branch fromHash (step :: more) outcome
      t := by
  rcases hMore with ⟨hSame, hQuiet, hOutcome⟩
  refine ⟨hSame, ?_, ?_⟩
  · have hBoth := emittedBy_append [step] more
    rw [hSilent, hQuiet] at hBoth
    exact hBoth
  · cases outcome with
    | error error => exact aborts_cons.mpr (Or.inr hOutcome)
    | ok rows =>
        rcases hOutcome with ⟨hWhole, hNothing, hRows⟩
        refine ⟨?_, ?_, ?_⟩
        · rw [aborts_cons, hFatal]
          simpa using hWhole
        · rw [hidesNothing_cons]
          exact ⟨fun _ => hHides, hNothing⟩
        · rw [hRows, ite_self]
          split_ifs with hFails
          · rfl
          · refine (hListed ?_).symm
            have hBoth : cutOffFails ([step] ++ more) = false := by
              simpa using hFails
            rw [cutOffFails_append, Bool.or_eq_false_iff] at hBoth
            exact hBoth.1

theorem ends_queryCommitsSince_exactly
    (hHead : repo.heads branch ≠ none) :
    Ends answers.exec (queryCommitsSince branch fromHash) repo
      (ReadsLogs answers branch fromHash) := by
  have hNone :
      ∀ steps : List PullStep,
        answers.listed branch
            (if cutOffFails steps then none
              else (none : Option String)) =
          answers.listed branch none := by
    intro steps
    rw [ite_self]
  unfold queryCommitsSince
  split
  · rename_i hFrom
    refine ends_mono (ends_queryAll hHead) ?_
    intro steps outcome t hRead
    cases outcome with
    | error error => exact hRead
    | ok rows =>
        rcases hRead with ⟨hSame, hSilent, hWhole, hNothing, hRows⟩
        refine ⟨hSame, hSilent, hWhole, hNothing, ?_⟩
        rw [hRows, hNone]
        split_ifs
        · rfl
        · exact (listed_of_none hFrom).symm
  · rename_i known hFrom
    simp only [Async.bind_eq]
    apply ends_bind
    apply ends_catchError
    refine ends_bind_of ends_queryCommits_exactly ?_ ?_
    · intro steps rows u hRead
      cases hRead with
      | answered hLogged =>
          apply ends_returned
          apply ends_returned
          refine ⟨rfl, rfl, ?_, ?_, ?_⟩
          · simp [aborts_cons]
          · simp [hidesNothing_cons]
          · exact (listed_of_logged hFrom hLogged).symm
    · intro steps error u hRead
      apply ends_returned
      cases hRead with
      | refused hLogged =>
          refine ends_mono (ends_queryAll hHead) ?_
          intro more outcome t hMore
          refine hMore.after rfl rfl rfl ?_
          intro _
          exact listed_of_refused hFrom hLogged
      | failed =>
          refine ends_mono (ends_queryAll hHead) ?_
          intro more outcome t hMore
          refine hMore.after rfl rfl rfl ?_
          intro hFails
          cases hFails

------------------------------------------------------------
-- Whole Pulls
------------------------------------------------------------

variable {repoId : String} {branch fromHash : Option String}
variable {steps : List PullStep}
variable {outcome : Except ExportError Unit} {t : DoltRepo}
variable {step : PullStep} {error : ExportError}

/- The repository and the branch are there. -/
def Pullable
    (config : ExportConfig)
    (repo : DoltRepo)
    (repoId branch : String) : Prop :=
  repoId = config.repoId ∧ repo.heads branch ≠ none

/- A lookup that does not fail finds the repository. -/
theorem ends_requireRepo_bind
    {α : Type}
    {next : Unit → ExportProgram α}
    {post :
      List PullStep → Except ExportError α → DoltRepo → Prop}
    (hFound :
      repoId = config.repoId →
        ∀ step : PullStep,
          step.op = .getRepo repoId → step.choice = none →
            Ends answers.exec (next ()) repo fun steps =>
              post (step :: steps))
    (hUnknown :
      repoId ≠ config.repoId →
        ∀ (step : PullStep) error,
          step.op = .getRepo repoId → step.choice = none →
            post [step] (.error error) repo)
    (hFails :
      ∀ (step : PullStep) error,
        step.op = .getRepo repoId → step.choice.isSome = true →
          post [step] (.error error) repo) :
    Ends answers.exec
      ((CommitExport.requireRepo repoId).bind next) repo
      post := by
  unfold CommitExport.requireRepo Async.call
  simp only [Async.bind_eq, Async.bind_await,
    Async.bind_returned]
  have hExec :
      (ExportOp.getRepo repoId).exec config
          (answers.choice (.getRepo repoId)) repo =
        some (.ok (repoId = config.repoId), repo) := by
    simp only [ExportOp.exec, answers.works, if_false,
      Bool.false_eq_true]
  refine ends_answers hExec (fun _ => rfl) ?_ ?_
  · by_cases hRepo : repoId = config.repoId
    · simp only [received, Async.bind_returned,
        decide_eq_true hRepo]
      exact hFound hRepo _ rfl rfl
    · simp only [received, Async.bind_returned,
        decide_eq_false hRepo]
      apply ends_threw
      exact hUnknown hRepo _ _ rfl rfl
  · intro text
    apply ends_threw
    exact hFails _ _ rfl rfl

/- How a pull ends. -/
def Pulls
    (answers : DoltAnswers config repo)
    (repoId branch : String)
    (fromHash : Option String)
    (steps : List PullStep)
    (outcome : Except ExportError Unit)
    (t : DoltRepo) : Prop :=
  t = repo ∧
    match outcome with
    | .error _ =>
        Aborts steps ∨
          ¬ Pullable config repo repoId branch ∧
            HidesNothing answers steps
    | .ok _ =>
        Pullable config repo repoId branch ∧ ¬ Aborts steps ∧
          (emittedBy steps =
              (answers.listed branch
                  (if cutOffFails steps then none
                    else fromHash)).flatMap
                answers.sentFor ↔
            HidesNothing answers steps)

/- Steps before the log that have not failed. -/
theorem Pulls.after
    {branch : String}
    (hPulls : Pulls answers repoId branch fromHash steps outcome t)
    (hSilent : emittedBy [step] = [])
    (hCutOff : isCutOff step.op = false)
    (hHides : hides answers step.op = false)
    (hWorks : step.choice = none ∨ isFatal step.op = false) :
    Pulls answers repoId branch fromHash (step :: steps) outcome
      t := by
  have hWhole :
      Aborts (step :: steps) ↔ Aborts steps := by
    rw [aborts_cons]
    constructor
    · intro hAborts
      rcases hAborts with ⟨hFailed, hFatal⟩ | hAborts
      · rcases hWorks with hNone | hNot
        · rw [hNone] at hFailed
          cases hFailed
        · rw [hNot] at hFatal
          cases hFatal
      · exact hAborts
    · exact Or.inr
  have hNothing :
      HidesNothing answers (step :: steps) ↔
        HidesNothing answers steps := by
    rw [hidesNothing_cons]
    constructor
    · exact And.right
    · exact fun hRest => ⟨fun _ => hHides, hRest⟩
  have hEmitted : emittedBy (step :: steps) = emittedBy steps := by
    have hBoth := emittedBy_append [step] steps
    rw [hSilent] at hBoth
    exact hBoth
  have hFails : cutOffFails (step :: steps) = cutOffFails steps := by
    unfold cutOffFails
    rw [List.any_cons, hCutOff, Bool.and_false, Bool.false_or]
  refine ⟨hPulls.1, ?_⟩
  have hOutcome := hPulls.2
  cases outcome with
  | error error =>
      dsimp only at hOutcome ⊢
      rw [hWhole, hNothing]
      exact hOutcome
  | ok value =>
      dsimp only at hOutcome ⊢
      rw [hWhole, hNothing, hEmitted, hFails]
      exact hOutcome

theorem cutOffFails_exportCommits
    {rows : List JsonRow} :
    Ends answers.exec (Async.forEach exportCommit rows) repo
      fun steps _ _ => cutOffFails steps = false := by
  intro steps outcome t hSolo
  have hOnly :
      (Async.forEach exportCommit rows : ExportProgram Unit).Only
        fun op => isCutOff op = false := by
    apply Async.only_forEach
    intro row _
    apply only_exportRow
    all_goals
      intros
      rfl
  unfold cutOffFails
  rw [List.any_eq_false]
  intro step hMember
  rw [hSolo.only hOnly step hMember, Bool.and_false]
  exact Bool.false_ne_true

theorem ends_export
    {branch : String}
    (hPullable : Pullable config repo repoId branch) :
    Ends answers.exec (runDoltCommitExport branch fromHash) repo
      (Pulls answers repoId branch fromHash) := by
  unfold runDoltCommitExport
  simp only [Async.bind_eq]
  refine
    ends_bind_of (ends_queryCommitsSince_exactly hPullable.2)
      ?_ ?_
  · intro first rows u hFirst
    rcases hFirst with ⟨hSame, hSilent, hWhole, hNothing, hRows⟩
    subst hSame
    have hNodup :
        (rows.map fun row => row.getD "commit_hash").Nodup := by
      rw [hRows]
      exact nodup_listed answers _ _
    refine
      ends_mono
        (ends_and (ends_exportCommits_exactly hNodup)
          cutOffFails_exportCommits)
        ?_
    intro more outcome t hMore
    rcases hMore with ⟨⟨hSame, hOutcome⟩, hListed⟩
    refine ⟨hSame, ?_⟩
    cases outcome with
    | error error =>
        exact Or.inl (aborts_append.mpr (Or.inr hOutcome))
    | ok value =>
        rcases hOutcome with ⟨hWhole', _, hExact⟩
        refine ⟨hPullable, ?_, ?_⟩
        · rw [aborts_append]
          simp [hWhole, hWhole']
        · rw [emittedBy_append, hSilent, List.nil_append,
            cutOffFails_append, hListed, Bool.or_false, ← hRows,
            hidesNothing_append, ← hExact]
          exact (and_iff_right hNothing).symm
  · intro first error u hFirst
    exact ⟨hFirst.1, Or.inl hFirst.2.2⟩

/- A first step that has been answered. -/
theorem ends_pulls_after
    {branch : String}
    {program : ExportProgram Unit}
    (hEnds :
      Ends answers.exec program repo
        (Pulls answers repoId branch fromHash))
    (hSilent : emittedBy [step] = [])
    (hCutOff : isCutOff step.op = false)
    (hHides : hides answers step.op = false)
    (hWorks : step.choice = none ∨ isFatal step.op = false) :
    Ends answers.exec program repo fun steps =>
      Pulls answers repoId branch fromHash (step :: steps) := by
  refine ends_mono hEnds ?_
  intro steps outcome t hPulls
  exact hPulls.after hSilent hCutOff hHides hWorks

theorem pulls_aborted
    {branch : String}
    (hFailed : step.choice.isSome = true)
    (hFatal : isFatal step.op = true) :
    Pulls answers repoId branch fromHash [step] (.error error)
      repo :=
  ⟨rfl, Or.inl (aborts_cons.mpr (Or.inl ⟨hFailed, hFatal⟩))⟩

theorem pulls_unknown
    {branch : String}
    (hUnknown : ¬ Pullable config repo repoId branch)
    (hWorks : step.choice = none) :
    Pulls answers repoId branch fromHash [step] (.error error)
      repo := by
  refine ⟨rfl, Or.inr ⟨hUnknown, ?_⟩⟩
  rw [hidesNothing_cons, hWorks]
  constructor
  · intro hFailed
    cases hFailed
  · exact hidesNothing_nil

/- The lookup comes before the head and before the stream. -/
theorem ends_pulls_requireRepo
    {branch : String}
    {next : Unit → ExportProgram Unit}
    (hNext :
      repoId = config.repoId →
        Ends answers.exec (next ()) repo
          (Pulls answers repoId branch fromHash)) :
    Ends answers.exec
      ((CommitExport.requireRepo repoId).bind next) repo
      (Pulls answers repoId branch fromHash) := by
  apply ends_requireRepo_bind
  · intro hRepo step hOp hNone
    refine
      ends_pulls_after (hNext hRepo) ?_ ?_ ?_ (Or.inl hNone)
    · simp [emittedBy, hOp]
    · rw [hOp]
      rfl
    · rw [hOp]
      rfl
  · intro hUnknown step error hOp hNone
    exact pulls_unknown (fun hKnown => hUnknown hKnown.1) hNone
  · intro step error hOp hFailed
    apply pulls_aborted hFailed
    rw [hOp]
    rfl

theorem ends_pull
    (repoId : String)
    (branch fromHash : Option String) :
    Ends answers.exec (pullCommits repoId branch fromHash) repo
      (Pulls answers repoId (branch.getD "main") fromHash) := by
  unfold pullCommits getBranchHead streamCommits Async.call
  simp only [Async.bind_eq, Async.bind_assoc, Async.bind_await,
    Async.bind_returned]
  apply ends_pulls_requireRepo
  intro hRepo
  have hExec :
      (ExportOp.branchHead (branch.getD "main")).exec config
          (answers.choice (.branchHead (branch.getD "main")))
          repo =
        some
          ((repo.heads (branch.getD "main")).map Commit.hash,
            repo) := by
    simp only [ExportOp.exec, answers.works, if_false,
      Bool.false_eq_true]
  refine ends_answers hExec (fun _ => rfl) ?_ ?_
  · cases hHead : repo.heads (branch.getD "main") with
    | none =>
        apply ends_threw
        apply pulls_unknown _ rfl
        intro hKnown
        exact hKnown.2 hHead
    | some head =>
        have hPullable :
            Pullable config repo repoId (branch.getD "main") := by
          refine ⟨hRepo, ?_⟩
          rw [hHead]
          simp
        refine ends_pulls_after ?_ rfl rfl rfl (Or.inl rfl)
        refine ends_answers rfl (fun _ => rfl) ?_ ?_
        · refine ends_pulls_after ?_ rfl rfl rfl (Or.inr rfl)
          apply ends_pulls_requireRepo
          intro _
          exact ends_export hPullable
        · intro text
          refine ends_pulls_after ?_ rfl rfl rfl (Or.inr rfl)
          apply ends_pulls_requireRepo
          intro _
          exact ends_export hPullable
  · intro text
    apply ends_threw
    exact pulls_aborted rfl rfl

theorem exists_steady
    (answers : DoltAnswers config repo)
    (program : ExportProgram Unit) :
    ∃ steps outcome t,
      Solo answers.exec program repo steps outcome t ∧
        ∀ step ∈ steps, step.choice = none := by
  refine
    exists_solo_within (fun u => u = repo) ?_ program rfl
  intro op u hSame
  subst hSame
  rcases answers.answered op with ⟨answer, hExec⟩
  exact ⟨answer, u, hExec, rfl⟩

/- What is sent when nothing fails. -/
theorem sendsSteadily_iff
    {sent : List ExportedCommit}
    (hPullable :
      Pullable config repo repoId (branch.getD "main")) :
    SendsSteadily answers repoId branch fromHash sent ↔
      sent =
        (answers.listed (branch.getD "main") fromHash).flatMap
          answers.sentFor := by
  have hSends :
      ∀ steps outcome t,
        Solo answers.exec (pullCommits repoId branch fromHash)
            repo steps outcome t →
          (∀ step ∈ steps, step.choice = none) →
            outcome = .ok () ∧
              emittedBy steps =
                (answers.listed (branch.getD "main")
                    fromHash).flatMap
                  answers.sentFor := by
    intro steps outcome t hSolo hNone
    have hWhole : ¬ Aborts steps := by
      intro hAborts
      rcases hAborts with ⟨step, hMember, hFailed, _⟩
      rw [hNone step hMember] at hFailed
      cases hFailed
    have hNothing : HidesNothing answers steps := by
      intro step hMember hFailed
      rw [hNone step hMember] at hFailed
      cases hFailed
    have hCutOff : cutOffFails steps = false := by
      unfold cutOffFails
      rw [List.any_eq_false]
      intro step hMember
      rw [hNone step hMember]
      exact Bool.false_ne_true
    have hPulls :=
      ends_pull repoId branch fromHash steps outcome t hSolo
    rcases hPulls with ⟨_, hOutcome⟩
    cases outcome with
    | error error =>
        rcases hOutcome with hAborts | ⟨hUnknown, _⟩
        · exact absurd hAborts hWhole
        · exact absurd hPullable hUnknown
    | ok value =>
        rw [hCutOff] at hOutcome
        exact ⟨rfl, hOutcome.2.2.mpr hNothing⟩
  constructor
  · intro hSteadily
    rcases hSteadily with ⟨steps, t, hSolo, hNone, hSent⟩
    rw [← hSent]
    exact (hSends steps _ t hSolo hNone).2
  · intro hSent
    rcases
      exists_steady answers (pullCommits repoId branch fromHash)
      with ⟨steps, outcome, t, hSolo, hNone⟩
    rcases hSends steps outcome t hSolo hNone with
      ⟨hOk, hEmitted⟩
    subst hOk
    exact ⟨steps, t, hSolo, hNone, hEmitted.trans hSent.symm⟩

/- A stream is complete just when an invocation that stops it
   has failed, or none has whose failure is taken for an empty
   answer. -/
theorem pull_complete_iff
    (answers : DoltAnswers config repo)
    (hSolo :
      Solo answers.exec (pullCommits repoId branch fromHash) repo
        steps outcome t) :
    Complete answers repoId branch fromHash steps outcome ↔
      Aborts steps ∨ HidesNothing answers steps := by
  have hPulls :=
    ends_pull repoId branch fromHash steps outcome t hSolo
  rcases hPulls with ⟨_, hOutcome⟩
  unfold Complete
  cases outcome with
  | error error =>
      constructor
      · intro _
        rcases hOutcome with hAborts | ⟨_, hNothing⟩
        · exact Or.inl hAborts
        · exact Or.inr hNothing
      · intro _
        exact Or.inl ⟨error, rfl⟩
  | ok value =>
      rcases hOutcome with ⟨hPullable, hWhole, hExact⟩
      rw [sendsSteadily_iff hPullable, hExact]
      constructor
      · intro hEither
        rcases hEither with ⟨error, hError⟩ | hNothing
        · cases hError
        · exact Or.inr hNothing
      · intro hEither
        rcases hEither with hAborts | hNothing
        · exact absurd hAborts hWhole
        · exact Or.inr hNothing

end Versioning

------------------------------------------------------------
-- A Repository With Two Commits
------------------------------------------------------------

namespace Versioning

namespace TwoCommits

open Concurrency Relational

def initCommit : Commit where
  hash := "c0"
  parents := []
  author := "dolt"
  message := "Initialize data repository"
  tables := FiniteMap.empty

def userTables : Tables :=
  FiniteMap.ofList
    [("users",
      { schema := "CREATE TABLE users", data := "id\n1\n" })]

def addsUsers : Commit where
  hash := "c1"
  parents := ["c0"]
  author := "ada"
  message := "users"
  tables := userTables

def repo : DoltRepo where
  commits :=
    { rows := [initCommit, addsUsers], distinct := by decide }
  heads := fun branch =>
    if branch = "main" then some addsUsers else none
  checkedOut := "main"
  working := userTables
  staged := userTables
  merging := none

def config : ExportConfig where
  repoId := "r"
  reserved := fun _ => false

/- A log is in the order in which the commits were made. -/
def choiceFor (op : ExportOp) : ExportChoice where
  fails := false
  text := ""
  order :=
    match op with
    | .commitsSince branch fromHash =>
        match repo.resolve branch with
        | none => []
        | some head =>
            (repo.missingFrom head
                (fromHash.bind repo.resolve)).map Commit.hash
    | _ => []
  names := ["users"]

def Listed (commit : Commit) : Prop :=
  commit = initCommit ∨ commit = addsUsers

theorem listed_of_find?
    {hash : String}
    {commit : Commit}
    (hFind : repo.commits.find? hash = some commit) :
    Listed commit := by
  have hMember := KeyedTable.mem_of_find? hFind
  simpa [repo, Listed] using hMember

theorem resolve_cases (ref : String) :
    repo.resolve ref = none ∨
      ∃ commit, Listed commit ∧ repo.resolve ref = some commit := by
  unfold DoltRepo.resolve
  cases hHead : repo.heads ref with
  | some head =>
      right
      simp only [repo] at hHead
      split_ifs at hHead
      cases hHead
      exact ⟨addsUsers, Or.inr rfl, rfl⟩
  | none =>
      cases hFind : repo.commits.find? ref with
      | none => exact Or.inl rfl
      | some commit =>
          exact Or.inr ⟨commit, listed_of_find? hFind, rfl⟩

theorem logRows_listed
    {head : Commit}
    {known : Option Commit}
    (hHead : Listed head)
    (hKnown : ∀ commit, known = some commit → Listed commit) :
    ∃ rows,
      repo.logRows
          ((repo.missingFrom head known).map Commit.hash) head
          known =
        some rows := by
  have hCases :
      known = none ∨ known = some initCommit ∨
        known = some addsUsers := by
    cases known with
    | none => exact Or.inl rfl
    | some commit =>
        rcases hKnown commit rfl with hFirst | hSecond
        · exact Or.inr (Or.inl (congrArg some hFirst))
        · exact Or.inr (Or.inr (congrArg some hSecond))
  rw [← Option.isSome_iff_exists]
  rcases hHead with hHead | hHead
  · subst hHead
    rcases hCases with hKnown | hKnown | hKnown
    all_goals
      subst hKnown
      decide +kernel
  · subst hHead
    rcases hCases with hKnown | hKnown | hKnown
    all_goals
      subst hKnown
      decide +kernel

theorem answered_log
    (branch : String)
    (fromHash : Option String) :
    ∃ answer,
      logAnswer (choiceFor (.commitsSince branch fromHash)) repo
          branch fromHash =
        some answer := by
  unfold logAnswer
  rcases resolve_cases branch with hNone | ⟨head, hIs, hHead⟩
  · rw [hNone]
    exact ⟨_, rfl⟩
  · have hOrder :
        (choiceFor (.commitsSince branch fromHash)).order =
          (repo.missingFrom head
              (fromHash.bind repo.resolve)).map Commit.hash := by
      simp only [choiceFor, hHead]
    rw [hHead]
    cases fromHash with
    | none =>
        have hListed :
            ∀ commit, none = some commit → Listed commit := by
          intro commit hSome
          cases hSome
        rcases logRows_listed hIs hListed with ⟨rows, hRows⟩
        dsimp only
        rw [hOrder, Option.bind_none, hRows]
        exact ⟨_, rfl⟩
    | some fromHash =>
        rcases resolve_cases fromHash with
          hUnknown | ⟨known, hAs, hKnown⟩
        · dsimp only
          rw [hUnknown]
          exact ⟨_, rfl⟩
        · have hListed :
              ∀ commit, some known = some commit →
                Listed commit := by
            intro commit hSame
            cases hSame
            exact hAs
          rcases logRows_listed hIs hListed with ⟨rows, hRows⟩
          dsimp only
          rw [hKnown]
          dsimp only
          rw [hOrder, Option.bind_some, hKnown, hRows]
          exact ⟨_, rfl⟩

theorem answered_diff (hash : String) :
    ∃ answer,
      diffAnswer (choiceFor (.diffSummary hash)) repo hash =
        some answer := by
  unfold diffAnswer
  cases hFind : repo.commits.find? hash with
  | none => exact ⟨_, rfl⟩
  | some commit =>
      rcases listed_of_find? hFind with hCommit | hCommit
      · subst hCommit
        exact ⟨_, rfl⟩
      · subst hCommit
        exact ⟨_, rfl⟩

def answers : DoltAnswers config repo where
  choice := choiceFor
  works := fun _ => rfl
  answered := by
    intro op
    cases op with
    | commitsSince branch fromHash =>
        rcases answered_log branch fromHash with
          ⟨answer, hAnswer⟩
        have hWorks :
            (choiceFor (.commitsSince branch fromHash)).fails = false := rfl
        refine ⟨answer, ?_⟩
        simp only [ExportOp.exec, hWorks, hAnswer]
        rfl
    | diffSummary hash =>
        rcases answered_diff hash with ⟨answer, hAnswer⟩
        have hWorks :
            (choiceFor (.diffSummary hash)).fails = false := rfl
        refine ⟨answer, ?_⟩
        simp only [ExportOp.exec, hWorks, hAnswer]
        rfl
    | _ => exact ⟨_, rfl⟩

def sentUsers : ExportedCommit where
  hash := "c1"
  message := "users"
  author := "ada"
  tables :=
    [{ name := "users"
       schema := "CREATE TABLE users;"
       data := "id\n1\n" }]

/- The diff of the second commit is not answered, and the
   stream ends as if there were no such commit. -/
theorem omits_silently :
    ∃ steps t,
      Solo answers.exec (pullCommits "r" none none) repo steps
          (.ok ()) t ∧
        emittedBy steps = [] ∧
        ¬ Complete answers "r" none none steps (.ok ()) := by
  have hRun :
      ∃ steps t,
        solo? answers.exec (pullCommits "r" none none) repo
            (List.replicate 6 none ++ [some "database locked"]) =
          some (steps, .ok (), t) ∧
          emittedBy steps = [] :=
    ⟨_, _, rfl, rfl⟩
  rcases hRun with ⟨steps, t, hRun, hSent⟩
  refine ⟨steps, t, solo_of_solo? hRun, hSent, ?_⟩
  intro hComplete
  rcases hComplete with ⟨error, hError⟩ | hSteadily
  · cases hError
  · have hPullable :
        Pullable config repo "r" ((none : Option String).getD
          "main") := by
      refine ⟨rfl, ?_⟩
      simp [repo]
    rw [ite_self, sendsSteadily_iff hPullable, hSent] at hSteadily
    have hNone :
        (answers.listed "main" none).flatMap answers.sentFor ≠
          [] := by
      decide +kernel
    exact hNone hSteadily.symm

/- Nothing fails, and everything is sent. -/
theorem pull_complete_iff_steady :
    ∃ steps t,
      Solo answers.exec (pullCommits "r" none none) repo steps
          (.ok ()) t ∧
        emittedBy steps = [sentUsers] ∧
        Complete answers "r" none none steps (.ok ()) := by
  have hRun :
      ∃ steps t,
        solo? answers.exec (pullCommits "r" none none) repo
            (List.replicate 10 none) =
          some (steps, .ok (), t) ∧
          emittedBy steps = [sentUsers] ∧
          (steps.all fun step => step.choice.isNone) = true :=
    ⟨_, _, rfl, rfl, rfl⟩
  rcases hRun with ⟨steps, t, hRun, hSent, hNone⟩
  refine ⟨steps, t, solo_of_solo? hRun, hSent, ?_⟩
  apply (pull_complete_iff answers (solo_of_solo? hRun)).mpr
  right
  intro step hMember hFailed
  have hStep := List.all_eq_true.mp hNone step hMember
  rw [Option.isNone_iff_eq_none] at hStep
  rw [hStep] at hFailed
  cases hFailed

end TwoCommits

end Versioning
