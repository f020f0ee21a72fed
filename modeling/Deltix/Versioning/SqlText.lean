import Deltix.Sql.Literal
import Deltix.Versioning.TableName

/-
  The statements that the export and log commands build out
  of strings, and what the lexer of the database reads in
  them.

  Key definitions include:
    * `escapeSql`
    * `quoteSqlString`
    * `MySqlDialect`
    * `Query`
    * `Query.ReadAsWritten`

  Key theorems include:
    * `Query.writes_parts`
    * `Query.readAsWritten_iff`
-/

namespace Versioning

/- `value.replace(/'/g, "''")` -/
def doubleQuotes (value : String) : String :=
  String.ofList
    (value.toList.flatMap fun c =>
      if c = '\'' then ['\'', '\''] else [c])

def escapeSql (value : String) : String :=
  doubleQuotes value

def quoteSqlString (value : String) : String :=
  "'" ++ doubleQuotes value ++ "'"

/- An escaped value between the quotes of a statement. -/
def quoted (value : String) : String :=
  "'" ++ escapeSql value ++ "'"

/-
  A lexer of the MySQL dialect: which quote and which
  backslash it knows.  How it reads an escape sequence may
  depend on its version.
-/
structure MySqlDialect extends Sql.Dialect Char where
  quote_eq : quote = '\''
  backslash_eq : backslash = '\\'

/-
  The escape sequences of MySQL.  `\%` and `\_` keep their
  backslash, and any other character stands for itself.
-/
def mysqlUnescape (c : Char) : List Char :=
  match c with
  | '0' => [Char.ofNat 0]
  | 'b' => [Char.ofNat 8]
  | 'n' => ['\n']
  | 'r' => ['\r']
  | 't' => ['\t']
  | 'Z' => [Char.ofNat 26]
  | '%' => ['\\', '%']
  | '_' => ['\\', '_']
  | c => [c]

def mysql : MySqlDialect where
  quote := '\''
  backslash := '\\'
  unescape := mysqlUnescape
  quote_ne_backslash := by decide
  unescape_cases := by
    intro c
    unfold mysqlUnescape
    split
    all_goals first
      | exact Or.inr ⟨_, rfl, by decide⟩
      | exact Or.inr ⟨_, rfl, Iff.rfl⟩
      | exact Or.inl (by decide)
  quote_eq := rfl
  backslash_eq := rfl

theorem doubleQuotes_toList
    (L : MySqlDialect)
    (value : String) :
    (doubleQuotes value).toList =
      L.doubled value.toList := by
  unfold doubleQuotes Sql.Dialect.doubled
  rw [String.toList_ofList]
  congr 1
  funext c
  by_cases hQuote : c = '\''
  · simp [hQuote, L.quote_eq]
  · simp [hQuote, L.quote_eq]

------------------------------------------------------------
-- Statements
------------------------------------------------------------

/- The statements of the two commands that place a value. -/
inductive Query where
  | changedTables (commitHash : String)
  | tableData (table : SafeTable) (commitHash : String)
  | tableSchema (table : SafeTable) (commitHash : String)
  | commitsSince (branch : String) (from' : Option String)
  | branchHead (branch : String)
  | readLog (branchName : String) (limit : Nat)

def changedTablesQuery (commitHash : String) : String :=
  "SELECT to_table_name FROM dolt_diff_summary(" ++
    ("'" ++ escapeSql commitHash ++ "^'") ++ ", " ++
    quoted commitHash ++ ")"

def tableDataQuery
    (table commitHash : String) : String :=
  "SELECT * FROM " ++ table ++ " AS OF " ++
    quoted commitHash

def tableSchemaQuery
    (table commitHash : String) : String :=
  "SHOW CREATE TABLE " ++ table ++ " AS OF " ++
    quoted commitHash

/- `base` of `queryCommitsSince`. -/
def commitsBase (branch : String) : String :=
  "SELECT commit_hash, message, author FROM " ++
    "dolt_log AS OF " ++ quoted branch

/- `where` of `queryCommitsSince`. -/
def commitsWhere (fromHash : String) : String :=
  "WHERE commit_hash NOT IN (SELECT " ++
    "commit_hash FROM dolt_log AS OF " ++
    quoted fromHash ++ ")"

def commitsSinceQuery
    (branch : String) : Option String → String
  | some fromHash =>
      commitsBase branch ++ " " ++ commitsWhere fromHash ++
        " ORDER BY commit_order ASC"
  | none => commitsBase branch ++ " ORDER BY commit_order ASC"

def branchHeadQuery (branch : String) : String :=
  "SELECT hash FROM dolt_branches WHERE name = " ++
    quoted branch

def readLogQuery
    (branchName : String)
    (limit : Nat) : String :=
  "SELECT commit_hash, author, author_email, date, " ++
    "message, parents FROM dolt_log AS OF " ++
    quoteSqlString branchName ++
    " ORDER BY date DESC LIMIT " ++ toString limit

namespace Query

/- The statement that is sent. -/
def text : Query → String
  | .changedTables commitHash => changedTablesQuery commitHash
  | .tableData table commitHash =>
      tableDataQuery table.name commitHash
  | .tableSchema table commitHash =>
      tableSchemaQuery table.name commitHash
  | .commitsSince branch from' =>
      commitsSinceQuery branch from'
  | .branchHead branch => branchHeadQuery branch
  | .readLog branchName limit =>
      readLogQuery branchName limit

/- The values that the statement places between quotes. -/
def values : Query → List String
  | .changedTables commitHash =>
      [commitHash ++ "^", commitHash]
  | .tableData _ commitHash => [commitHash]
  | .tableSchema _ commitHash => [commitHash]
  | .commitsSince branch none => [branch]
  | .commitsSince branch (some fromHash) =>
      [branch, fromHash]
  | .branchHead branch => [branch]
  | .readLog branchName _ => [branchName]

/-
  The statement as it is meant: the text of the program and
  the values in it.
-/
def parts : Query → List (Sql.Part Char)
  | .changedTables commitHash =>
      [ .text
          "SELECT to_table_name FROM dolt_diff_summary(".toList
      , .value (commitHash ++ "^").toList
      , .text ", ".toList
      , .value commitHash.toList
      , .text ")".toList ]
  | .tableData table commitHash =>
      [ .text "SELECT * FROM ".toList
      , .text table.name.toList
      , .text " AS OF ".toList
      , .value commitHash.toList ]
  | .tableSchema table commitHash =>
      [ .text "SHOW CREATE TABLE ".toList
      , .text table.name.toList
      , .text " AS OF ".toList
      , .value commitHash.toList ]
  | .commitsSince branch from' =>
      [ .text
          ("SELECT commit_hash, message, author FROM " ++
            "dolt_log AS OF ").toList
      , .value branch.toList ] ++
      (match from' with
        | none => []
        | some fromHash =>
            [ .text " ".toList
            , .text
                ("WHERE commit_hash NOT IN (SELECT " ++
                  "commit_hash FROM dolt_log AS OF ").toList
            , .value fromHash.toList
            , .text ")".toList ]) ++
      [.text " ORDER BY commit_order ASC".toList]
  | .branchHead branch =>
      [ .text
          "SELECT hash FROM dolt_branches WHERE name = ".toList
      , .value branch.toList ]
  | .readLog branchName limit =>
      [ .text
          ("SELECT commit_hash, author, author_email, " ++
            "date, message, parents FROM dolt_log " ++
            "AS OF ").toList
      , .value branchName.toList
      , .text " ORDER BY date DESC LIMIT ".toList
      , .text (toString limit).toList ]

/-
  The lexer reads the statement as it is meant: every value
  is one string literal, and the rest of the statement is
  the text of the program.
-/
def ReadAsWritten (L : MySqlDialect) (q : Query) : Prop :=
  L.tokens q.text.toList =
    some (q.parts.flatMap Sql.Part.tokens)

------------------------------------------------------------
-- What The Lexer Reads
------------------------------------------------------------

variable (L : MySqlDialect) (q : Query)

/- A number has no quote. -/
theorem quote_notMem_toString (n : Nat) :
    '\'' ∉ (toString n).toList := by
  intro hMember
  have hDigits : '\'' ∈ Nat.toDigits 10 n := by
    simpa [Nat.repr] using hMember
  have hDigit :=
    Nat.isDigit_of_mem_toDigits (by omega) (by omega)
      hDigits
  revert hDigit
  decide

/- A string that is what the given parts are rendered to. -/
def Writes
    (written : String)
    (meant : List (Sql.Part Char)) : Prop :=
  written.toList =
    meant.flatMap (Sql.Part.render L.toDialect)

theorem writes_text (written : String) :
    Writes L written [.text written.toList] := by
  simp [Writes, Sql.Part.render]

theorem writes_quoted (value : String) :
    Writes L (quoted value) [.value value.toList] := by
  simp [Writes, quoted, escapeSql, Sql.Part.render,
    doubleQuotes_toList L, L.quote_eq]

variable {L}

theorem Writes.append
    {first second : String}
    {meantFirst meantSecond : List (Sql.Part Char)}
    (hFirst : Writes L first meantFirst)
    (hSecond : Writes L second meantSecond) :
    Writes L (first ++ second)
      (meantFirst ++ meantSecond) := by
  unfold Writes at hFirst hSecond ⊢
  rw [String.toList_append, hFirst, hSecond,
    List.flatMap_append]

variable (L)

/- What is sent is what is meant, with its values escaped. -/
theorem writes_parts : Writes L q.text q.parts := by
  have hText := writes_text L
  have hQuoted := writes_quoted L
  cases q with
  | changedTables commitHash =>
      have hCaret :
          Writes L ("'" ++ escapeSql commitHash ++ "^'")
            [.value (commitHash ++ "^").toList] := by
        simp [Writes, escapeSql, Sql.Part.render,
          doubleQuotes_toList L, L.quote_eq,
          Sql.Dialect.doubled]
      exact
        ((((hText _).append hCaret).append
          (hText _)).append (hQuoted _)).append (hText _)
  | tableData table commitHash =>
      exact
        (((hText _).append (hText _)).append
          (hText _)).append (hQuoted _)
  | tableSchema table commitHash =>
      exact
        (((hText _).append (hText _)).append
          (hText _)).append (hQuoted _)
  | commitsSince branch from' =>
      cases from' with
      | none =>
          exact
            ((hText _).append (hQuoted _)).append (hText _)
      | some fromHash =>
          have hWhere :=
            ((hText
              ("WHERE commit_hash NOT IN (SELECT " ++
                "commit_hash FROM dolt_log AS OF ")).append
              (hQuoted fromHash)).append (hText ")")
          exact
            ((((hText _).append (hQuoted _)).append
              (hText _)).append hWhere).append (hText _)
  | branchHead branch =>
      exact (hText _).append (hQuoted _)
  | readLog branchName limit =>
      exact
        (((hText _).append (hQuoted _)).append
          (hText _)).append (hText _)

/- The text around the values has no quote of its own. -/
theorem spaced_parts : L.Spaced q.parts := by
  cases q with
  | changedTables commitHash =>
      simp [parts, Sql.Dialect.Spaced, Sql.Part.render,
        L.quote_eq]
  | tableData table commitHash =>
      simp [parts, Sql.Dialect.Spaced, L.quote_eq,
        table.quote_notMem]
  | tableSchema table commitHash =>
      simp [parts, Sql.Dialect.Spaced, L.quote_eq,
        table.quote_notMem]
  | commitsSince branch from' =>
      cases from' with
      | none =>
          simp [parts, Sql.Dialect.Spaced, Sql.Part.render,
            L.quote_eq]
      | some fromHash =>
          simp [parts, Sql.Dialect.Spaced, Sql.Part.render,
            L.quote_eq]
  | branchHead branch =>
      simp [parts, Sql.Dialect.Spaced, L.quote_eq]
  | readLog branchName limit =>
      have hLimit := quote_notMem_toString limit
      simp [parts, Sql.Dialect.Spaced, Sql.Part.render,
        L.quote_eq] at hLimit ⊢
      exact hLimit

/- The statement as a template of the dialect. -/
def template : L.Template where
  parts := q.parts
  spaced := q.spaced_parts L

theorem template_render :
    (q.template L).render = q.text.toList :=
  (q.writes_parts L).symm

theorem template_values :
    (q.template L).values = q.values.map String.toList := by
  cases q with
  | commitsSince branch from' => cases from' <;> rfl
  | _ => rfl

/-
  A statement is read as it is meant if and only if every
  backslash in its values starts an escape sequence that the
  lexer leaves as it is.
-/
theorem readAsWritten_iff :
    q.ReadAsWritten L ↔
      ∀ value ∈ q.values, L.EscapesKept value.toList := by
  have hIff := L.tokens_render_iff (q.template L)
  rw [template_render, template_values,
    List.forall_mem_map] at hIff
  exact hIff

/- A lone backslash swallows the closing quote. -/
theorem branchHead_backslash_not_readAsWritten :
    ¬ (Query.branchHead "\\").ReadAsWritten mysql := by
  rw [Query.ReadAsWritten]
  decide

end Query

end Versioning
