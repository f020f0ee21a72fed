import Deltix.Text.Units
import Deltix.Versioning.BranchNames
import Deltix.Versioning.CsvFidelity
import Deltix.Versioning.SqlText

/-
  The log of a repository, as the service reads it out of
  the CSV that the binary prints for a query.

  Key definitions include:
    * `readLog`
    * `runDoltReadLog`
    * `LogService.list`
    * `LoggedCommit`

  Key theorems include:
    * `readLog_iff`
    * `list_of_accepted`
    * `csv_read_back_iff`
-/

namespace Versioning

open Text

structure LogCommitEntry where
  commitHash : String
  author : String
  authorEmail : String
  timestamp : String
  message : String
  parents : List String
  deriving DecidableEq, Repr

def splitParents (parents : String) : List String :=
  (solidParts ',' parents.toList).map String.ofList

/- A column that the row does not have is empty. -/
def CsvRow.getD (row : CsvRow) (key : String) : String :=
  (row.get? key).getD ""

def logEntry (row : CsvRow) :
    Except String LogCommitEntry :=
  let commitHash := row.getD "commit_hash"
  if !validCommitHash commitHash then
    .error ("Unsafe commit hash: " ++ commitHash)
  else
    .ok
      { commitHash := commitHash
        author := row.getD "author"
        authorEmail := row.getD "author_email"
        timestamp := row.getD "date"
        message := row.getD "message"
        parents := splitParents (row.getD "parents") }

def readLog (stdout : String) :
    Except String (List LogCommitEntry) :=
  (DoltLogCli.parseCsv stdout).mapM logEntry

def logQuery
    (branchName : Option String)
    (limit : Nat) : String :=
  match branchName with
  | some branchName => readLogQuery branchName limit
  | none =>
      "SELECT commit_hash, author, author_email, date, " ++
        "message, parents FROM dolt_log ORDER BY date DESC " ++
        "LIMIT " ++ toString limit

/- `dolt` is what the binary answers a query with: what it
   prints, or its error. -/
def runDoltReadLog
    (dolt : String → Except String String)
    (branchName : Option String)
    (limit : Nat) :
    Except String (List LogCommitEntry) :=
  match branchName.filter fun name =>
      !DoltLogCli.acceptsSafeName name with
  | some name => .error ("Unsafe branch name: " ++ name)
  | none =>
      match dolt (logQuery branchName limit) with
      | .error stderr =>
          .error
            ("dolt log query failed: " ++
              String.ofList (trimChars stderr.toList))
      | .ok stdout => readLog stdout

inductive LogError where
  | repoNotFound (repoId : String)
  | invalidBranchName (branchName : String)
  | invalidPaginationLimit (limit : Int)
  | branchNotFound (message : String)
  | invalidCommitReference (message : String)
  | command (message : String)
  deriving DecidableEq, Repr

namespace LogService

def defaultLimit : Nat := 50

def maxLimit : Nat := 200

def normalizeLimit : Option Int → Except LogError Nat
  | none => .ok defaultLimit
  | some limit =>
      if limit < 1 then .error (.invalidPaginationLimit limit)
      else .ok (min limit.toNat maxLimit)

def translateError (message : String) : LogError :=
  if includesLower message "not found" ||
      includesLower message "unknown branch" then
    .branchNotFound message
  else if includesLower message "unsafe commit hash" then
    .invalidCommitReference message
  else .command message

/- An empty name of a branch is none. -/
def list
    (provisioned : String → Bool)
    (dolt : String → Except String String)
    (repoId : String)
    (branch : Option String)
    (limit : Option Int) :
    Except LogError (List LogCommitEntry) :=
  if !validRepoId repoId || !provisioned repoId then
    .error (.repoNotFound repoId)
  else
    let branch := branch.filter fun name => name ≠ ""
    match branch.filter fun name => !acceptsName name with
    | some name => .error (.invalidBranchName name)
    | none =>
        match normalizeLimit limit with
        | .error error => .error error
        | .ok limit =>
            match runDoltReadLog dolt branch limit with
            | .error message => .error (translateError message)
            | .ok commits => .ok commits

end LogService

/- The bounds of a message of the push-commits body. -/
def messageSchema (message : String) : Bool :=
  1 ≤ (Text.js message).length &&
    (Text.js message).length ≤ 1024

/- A commit as the binary has it. -/
structure LoggedCommit where
  entry : LogCommitEntry
  validHash : validCommitHash entry.commitHash = true
  validParents :
    ∀ parent ∈ entry.parents, validCommitHash parent = true

def logHeader : List String :=
  ["commit_hash", "author", "author_email", "date", "message",
    "parents"]

/- The binary separates parents by a comma, and may put a
   blank after it. -/
def joinParents (spaced : Bool) : List String → List Char
  | [] => []
  | [parent] => parent.toList
  | parent :: next :: rest =>
      parent.toList ++
        ',' :: ((if spaced then [' '] else []) ++
          joinParents spaced (next :: rest))

def parentsText
    (spaced : Bool)
    (parents : List String) : String :=
  String.ofList (joinParents spaced parents)

def LoggedCommit.row
    (spaced : Bool)
    (commit : LoggedCommit) : List String :=
  [commit.entry.commitHash, commit.entry.author,
    commit.entry.authorEmail, commit.entry.timestamp,
    commit.entry.message,
    parentsText spaced commit.entry.parents]

/- The texts of a commit that somebody wrote. -/
def LoggedCommit.texts (commit : LoggedCommit) : List String :=
  [commit.entry.author, commit.entry.authorEmail,
    commit.entry.timestamp, commit.entry.message]

variable {hash : String} {parents : List String}
variable {spaced : Bool}

theorem hashChar_of_valid
    (hValid : validCommitHash hash = true) :
    ∀ c ∈ hash.toList,
      isBlank c = false ∧ c ≠ ',' ∧ c ≠ '\n' := by
  unfold validCommitHash at hValid
  rw [Bool.and_eq_true, List.all_eq_true] at hValid
  intro c hMember
  have hChar := hValid.2 c hMember
  have hBranch : isBranchChar c = true := by
    rw [Bool.or_eq_true] at hChar
    unfold isBranchChar
    rcases hChar with hDigit | hLower
    · simp [isAlphanum_of_isDigit hDigit]
    · simp [isAlphanum_of_isLower hLower]
  refine ⟨not_space_of_branchChar hBranch, ?_, ?_⟩
  · intro hSame
    rw [hSame] at hChar
    cases hChar
  · intro hSame
    rw [hSame] at hChar
    cases hChar

theorem ne_nil_of_hash
    (hValid : validCommitHash hash = true) :
    hash.toList ≠ [] := by
  intro hNone
  simp [validCommitHash, hNone] at hValid

theorem trimChars_hash
    (hValid : validCommitHash hash = true) :
    trimChars hash.toList = hash.toList :=
  trimmed_eq_self fun c hMember =>
    (hashChar_of_valid hValid c hMember).1

/- The hashes are read as they were joined. -/
theorem splitParents_parentsText
    (hParents :
      ∀ parent ∈ parents, validCommitHash parent = true) :
    splitParents (parentsText spaced parents) = parents := by
  unfold splitParents parentsText
  rw [String.toList_ofList]
  induction parents with
  | nil => rfl
  | cons parent rest ih =>
      rw [List.forall_mem_cons] at hParents
      have hOne :
          solidParts ',' parent.toList = [parent.toList] := by
        rw [solidParts_of_not_mem, trimChars_hash hParents.1,
          if_neg (ne_nil_of_hash hParents.1)]
        intro hComma
        exact (hashChar_of_valid hParents.1 _ hComma).2.1 rfl
      cases rest with
      | nil =>
          rw [joinParents, hOne, List.map_singleton,
            String.ofList_toList]
      | cons next rest =>
          have hBlank :
              solidParts ','
                  ((if spaced then [' '] else []) ++
                    joinParents spaced (next :: rest)) =
                solidParts ','
                  (joinParents spaced (next :: rest)) := by
            split
            · exact solidParts_cons_of_blank (by decide) _
            · rfl
          rw [joinParents, solidParts_append, hOne, hBlank,
            List.map_append, ih hParents.2, List.map_singleton,
            String.ofList_toList]
          rfl

theorem not_mem_joinParents
    (hParents :
      ∀ parent ∈ parents, validCommitHash parent = true) :
    '\n' ∉ joinParents spaced parents := by
  induction parents with
  | nil => exact List.not_mem_nil
  | cons parent rest ih =>
      rw [List.forall_mem_cons] at hParents
      have hParent : '\n' ∉ parent.toList := by
        intro hMember
        exact
          (hashChar_of_valid hParents.1 _ hMember).2.2 rfl
      cases rest with
      | nil => exact hParent
      | cons next rest =>
          rw [joinParents, List.mem_append, not_or,
            List.mem_cons, not_or, List.mem_append, not_or]
          refine ⟨hParent, by decide, ?_, ih hParents.2⟩
          split
          · decide
          · exact List.not_mem_nil

/- The last character belongs to a hash. -/
theorem getLast?_joinParents
    (hParents :
      ∀ parent ∈ parents, validCommitHash parent = true)
    (hSome : parents ≠ []) :
    ∃ c, (joinParents spaced parents).getLast? = some c ∧
      isBlank c = false := by
  induction parents with
  | nil => exact absurd rfl hSome
  | cons parent rest ih =>
      rw [List.forall_mem_cons] at hParents
      cases rest with
      | nil =>
          have hLast :=
            List.getLast?_eq_some_getLast
              (ne_nil_of_hash hParents.1)
          exact ⟨_, hLast,
            (hashChar_of_valid hParents.1 _
              (List.getLast_mem _)).1⟩
      | cons next rest =>
          rcases ih hParents.2 (List.cons_ne_nil _ _) with
            ⟨c, hLast, hSolid⟩
          refine ⟨c, ?_, hSolid⟩
          rw [joinParents, List.getLast?_append,
            List.getLast?_cons, List.getLast?_append, hLast]
          rfl

------------------------------------------------------------
-- The Table Of A Log
------------------------------------------------------------

variable {style : Csv.Style} {commits : List LoggedCommit}
variable {commit : LoggedCommit} {parsed : CsvRow}

/- A record has a solid line if its first field starts and
   its last field ends with something. -/
theorem solid_of_edges
    {first second : String}
    {rest : List String}
    (hStart :
      ∀ c, first.toList.head? = some c → isBlank c = false)
    (hEnd :
      ∀ last, (first :: second :: rest).getLast? = some last →
        ∀ c, last.toList.getLast? = some c →
          isBlank c = false) :
    Solid style (first :: second :: rest) := by
  have hCells :
      Csv.trimCells (cellsOf style (first :: second :: rest)) =
        cellsOf style (first :: second :: rest) := by
    apply Csv.trimCells_of_edges
    · exact Csv.trimStart_eq_self hStart
    · intro last hLast
      have hMapped :
          (cellsOf style (first :: second :: rest)).getLast? =
            some last :=
        hLast
      unfold cellsOf at hMapped
      rw [List.getLast?_map, List.getLast?_map,
        Option.map_map, Option.map_eq_some_iff] at hMapped
      rcases hMapped with ⟨value, hValue, hSame⟩
      rw [← hSame]
      exact Csv.trimEnd_eq_self (hEnd value hValue)
  refine ⟨?_, ?_⟩
  · rw [lineOf_eq]
    unfold cellsOf
    rw [List.map_cons, List.map_cons, List.map_cons,
      List.map_cons, Csv.printCells]
    simp
  · rw [lineOf_eq, Csv.trimChars_printCells, hCells]

theorem solid_logHeader : Solid style logHeader := by
  apply solid_of_edges
  · intro c hHead
    cases hHead
    decide
  · intro last hLast
    cases hLast
    intro c hChar
    cases hChar
    decide

theorem solid_row (commit : LoggedCommit) :
    Solid style (commit.row spaced) := by
  apply solid_of_edges
  · intro c hHead
    exact
      (hashChar_of_valid commit.validHash c
        (List.mem_of_mem_head? hHead)).1
  · intro last hLast c hChar
    have hSame :
        last = parentsText spaced commit.entry.parents :=
      (Option.some.inj hLast).symm
    rw [hSame] at hChar
    unfold parentsText at hChar
    rw [String.toList_ofList] at hChar
    by_cases hNone : commit.entry.parents = []
    · rw [hNone] at hChar
      cases hChar
    · rcases
          getLast?_joinParents commit.validParents hNone with
        ⟨d, hFound, hSolid⟩
      rw [hFound] at hChar
      cases hChar
      exact hSolid

theorem oneLine_row (commit : LoggedCommit) :
    OneLine (commit.row spaced) ↔ OneLine commit.texts := by
  have hHash : '\n' ∉ commit.entry.commitHash.toList := by
    intro hMember
    exact
      (hashChar_of_valid commit.validHash _ hMember).2.2 rfl
  have hParents :
      '\n' ∉
        (parentsText spaced commit.entry.parents).toList := by
    unfold parentsText
    rw [String.toList_ofList]
    exact not_mem_joinParents commit.validParents
  unfold OneLine LoggedCommit.row LoggedCommit.texts
  simp [hHash, hParents]

/- A log can be read back if its texts are in one line. -/
theorem decodable_log :
    Decodable style logHeader
        (commits.map fun commit => commit.row spaced) ↔
      ∀ commit ∈ commits, OneLine commit.texts := by
  constructor
  · intro hDecodable commit hCommit
    rw [← oneLine_row]
    exact
      hDecodable.rowLines _ (List.mem_map_of_mem hCommit)
  · intro hLines
    refine
      { headerLine := ?_
        rowLines := ?_
        solidHeader := fun _ => solid_logHeader
        solidRows := ?_
        noPrototype := fun _ => by decide }
    · unfold OneLine
      decide
    · intro row hRow
      rcases List.mem_map.mp hRow with
        ⟨commit, hCommit, hSame⟩
      rw [← hSame, oneLine_row]
      exact hLines commit hCommit
    · intro row hRow
      rcases List.mem_map.mp hRow with ⟨commit, _, hSame⟩
      rw [← hSame]
      exact solid_row commit

theorem logEntry_of_rowOf
    (hRow : RowOf logHeader (commit.row spaced) parsed) :
    logEntry parsed = .ok commit.entry := by
  have hValues := hRow.1
  simp only [logHeader, LoggedCommit.row, List.map_cons,
    List.map_nil, List.cons.injEq, and_true] at hValues
  rcases hValues with
    ⟨hHash, hAuthor, hEmail, hDate, hMessage, hParents⟩
  unfold logEntry CsvRow.getD
  simp only [hHash, hAuthor, hEmail, hDate, hMessage, hParents,
    Option.getD_some, commit.validHash,
    splitParents_parentsText commit.validParents]
  rfl

/- The texts of an entry that is read are in one line. -/
theorem oneLine_of_logEntry
    {stdout : String}
    (hParsed : parsed ∈ parseCsv stdout)
    (hEntry : logEntry parsed = .ok commit.entry) :
    OneLine commit.texts := by
  rcases exists_of_mem_parseCsv hParsed with
    ⟨names, values, hSame, _, hValues⟩
  have hGet :
      ∀ key, '\n' ∉ (parsed.getD key).toList := by
    intro key
    unfold CsvRow.getD
    cases hFound : parsed.get? key with
    | none => exact List.not_mem_nil
    | some value =>
        rw [hSame] at hFound
        apply oneLine_get?_csvRow _ hValues hFound
        intro key value hNone
        cases hNone
  unfold logEntry at hEntry
  dsimp only at hEntry
  split at hEntry
  · cases hEntry
  · have hEq := Except.ok.inj hEntry
    unfold OneLine LoggedCommit.texts
    rw [← hEq]
    simp [hGet]

theorem mapM_eq_ok_iff
    {α β ε : Type}
    {f : α → Except ε β}
    {list : List α}
    {results : List β} :
    list.mapM f = .ok results ↔
      List.Forall₂ (fun a b => f a = .ok b) list results := by
  induction list generalizing results with
  | nil =>
      rw [List.mapM_nil, List.forall₂_nil_left_iff]
      constructor
      · intro hSame
        exact (Except.ok.inj hSame).symm
      · intro hSame
        rw [hSame]
        rfl
  | cons a list ih =>
      rw [List.mapM_cons, List.forall₂_cons_left_iff]
      cases hFirst : f a with
      | error error =>
          constructor
          · intro hSame
            cases hSame
          · rintro ⟨b, _, hSame, _⟩
            cases hSame
      | ok b =>
          cases hRest : list.mapM f with
          | error error =>
              constructor
              · intro hSame
                cases hSame
              · rintro ⟨_, more, _, hMore, _⟩
                rw [← ih, hRest] at hMore
                cases hMore
          | ok more =>
              constructor
              · intro hSame
                exact ⟨b, more, rfl, ih.mp hRest,
                  (Except.ok.inj hSame).symm⟩
              · rintro ⟨c, other, hSame, hMore, hAll⟩
                rw [← ih, hRest] at hMore
                cases hSame
                cases hMore
                rw [hAll]
                rfl

/- A log is read as it is, just if its texts are in one
   line. -/
theorem readLog_iff :
    readLog
        (encodeCsv style logHeader
          (commits.map fun commit => commit.row spaced)) =
        .ok (commits.map LoggedCommit.entry) ↔
      ∀ commit ∈ commits, OneLine commit.texts := by
  unfold readLog
  rw [mapM_eq_ok_iff, List.forall₂_map_right_iff]
  constructor
  · intro hAll commit hCommit
    rcases exists_of_forall₂ hAll.flip commit hCommit with
      ⟨parsed, hParsed, hEntry⟩
    exact oneLine_of_logEntry hParsed hEntry
  · intro hLines
    have hDecodable :
        Decodable style logHeader
          (commits.map fun commit => commit.row spaced) :=
      decodable_log.mpr hLines
    have hDecodes :=
      decodes_of_decodable (by decide)
        (by simp [logHeader, LoggedCommit.row]) hDecodable
    unfold Decodes at hDecodes
    rw [List.forall₂_map_left_iff] at hDecodes
    apply hDecodes.flip.imp
    intro parsed commit hRow
    exact logEntry_of_rowOf hRow

------------------------------------------------------------
-- What Is Read Back
------------------------------------------------------------

variable {provisioned : String → Bool}
variable {dolt : String → Except String String}

/- A request for the log of a repository that is there, as
   the route and the service accept it. -/
structure LogRequest
    (provisioned : String → Bool) where
  repoId : String
  branch : Option String
  limit : Option Int
  validRepo : validRepoId repoId = true
  found : provisioned repoId = true
  validName :
    ∀ name, branch = some name →
      LogService.acceptsName name = true
  validLimit : ∀ n, limit = some n → 1 ≤ n

def LogRequest.maxEntries
    (request : LogRequest provisioned) : Nat :=
  match request.limit with
  | none => LogService.defaultLimit
  | some limit => min limit.toNat LogService.maxLimit

/- The query of a request. -/
def LogRequest.query
    (request : LogRequest provisioned) : String :=
  logQuery request.branch request.maxEntries

theorem normalizeLimit_of_accepted
    (request : LogRequest provisioned) :
    LogService.normalizeLimit request.limit =
      .ok request.maxEntries := by
  unfold LogService.normalizeLimit LogRequest.maxEntries
  cases hLimit : request.limit with
  | none => rfl
  | some limit =>
      have hPositive := request.validLimit limit hLimit
      dsimp only
      rw [if_neg (by omega)]

/- What the service makes of the answer to its query. -/
theorem list_of_accepted
    (request : LogRequest provisioned)
    {stdout : String}
    (hAnswer : dolt request.query = .ok stdout) :
    LogService.list provisioned dolt request.repoId
        request.branch request.limit =
      match readLog stdout with
      | .error message =>
          .error (LogService.translateError message)
      | .ok entries => .ok entries := by
  have hNames :
      ∀ name, request.branch = some name →
        name ≠ "" ∧ LogService.acceptsName name = true ∧
          DoltLogCli.acceptsSafeName name = true := by
    intro name hName
    have hAccepts := request.validName name hName
    refine ⟨?_, hAccepts, ?_⟩
    · intro hEmpty
      rw [hEmpty] at hAccepts
      cases hAccepts
    · unfold DoltLogCli.acceptsSafeName
      unfold LogService.acceptsName at hAccepts
      rw [acceptsForCommand_eq, ← acceptsForService_eq]
      exact hAccepts
  have hBranch :
      request.branch.filter (fun name => name ≠ "") =
        request.branch := by
    cases hCase : request.branch with
    | none => rfl
    | some name => simp [(hNames name hCase).1]
  have hService :
      request.branch.filter
          (fun name => !LogService.acceptsName name) =
        none := by
    cases hCase : request.branch with
    | none => rfl
    | some name => simp [(hNames name hCase).2.1]
  have hCommand :
      request.branch.filter
          (fun name => !DoltLogCli.acceptsSafeName name) =
        none := by
    cases hCase : request.branch with
    | none => rfl
    | some name => simp [(hNames name hCase).2.2]
  have hRead :
      runDoltReadLog dolt request.branch request.maxEntries =
        readLog stdout := by
    unfold runDoltReadLog
    rw [hCommand]
    unfold LogRequest.query at hAnswer
    rw [hAnswer]
  unfold LogService.list
  rw [request.validRepo, request.found]
  simp only [hBranch, hService,
    normalizeLimit_of_accepted request, hRead]
  rfl

/- The log of a request is that of the repository just if
   the texts of its commits are in one line. -/
theorem list_iff
    (request : LogRequest provisioned)
    (hAnswer :
      dolt request.query =
        .ok
          (encodeCsv style logHeader
            (commits.map fun commit => commit.row spaced))) :
    LogService.list provisioned dolt request.repoId
        request.branch request.limit =
        .ok (commits.map LoggedCommit.entry) ↔
      ∀ commit ∈ commits, OneLine commit.texts := by
  rw [list_of_accepted request hAnswer, ← readLog_iff]
  cases readLog
      (encodeCsv style logHeader
        (commits.map fun commit => commit.row spaced)) with
  | error message =>
      constructor
      · intro hSame
        cases hSame
      · intro hSame
        cases hSame
  | ok entries =>
      simp only [Except.ok.injEq]

/-
  A table that the binary prints is read back by each of the
  three parsers just if it is decodable, and the route gives
  the commits of a log just if their texts are in one line.
-/
theorem csv_read_back_iff (style : Csv.Style) :
    (∀ decode ∈
        [DoltLogCli.parseCsv, DoltDiffCli.parseCsv,
          DoltMergeCli.parseCsv],
      ∀ header rows,
        header.Nodup →
          (∀ row ∈ rows, row.length = header.length) →
            (Decodes (decode (encodeCsv style header rows))
                header rows ↔
              Decodable style header rows)) ∧
      ∀ provisioned dolt (request : LogRequest provisioned)
        spaced (commits : List LoggedCommit),
        dolt request.query =
            .ok
              (encodeCsv style logHeader
                (commits.map fun commit =>
                  commit.row spaced)) →
          (LogService.list provisioned dolt request.repoId
                request.branch request.limit =
              .ok (commits.map LoggedCommit.entry) ↔
            ∀ commit ∈ commits, OneLine commit.texts) := by
  constructor
  · intro decode hDecode header rows hDistinct hRows
    simp only [List.mem_cons, List.not_mem_nil, or_false]
      at hDecode
    rcases hDecode with hLog | hDiff | hMerge
    · rw [hLog]
      exact decodes_iff hDistinct hRows
    · rw [hDiff]
      exact decodes_iff hDistinct hRows
    · rw [hMerge]
      exact decodes_iff hDistinct hRows
  · intro provisioned dolt request spaced commits hAnswer
    exact list_iff request hAnswer

/- A commit with a message. -/
def messageCommit (message : String) : LoggedCommit where
  entry :=
    { commitHash := "0123456789abcdefghijklmnopqrstuv"
      author := "ann"
      authorEmail := "ann@deltix"
      timestamp := "2026-01-02"
      message := message
      parents := [] }
  validHash := by
    change
      validCommitHash "0123456789abcdefghijklmnopqrstuv" = true
    decide
  validParents := by simp

def logRequest : LogRequest fun _ => true where
  repoId := "demo"
  branch := none
  limit := none
  validRepo := by decide
  found := rfl
  validName := by simp
  validLimit := by simp

/- A binary that prints the log of one commit. -/
def printsLog
    (message : String)
    (_query : String) : Except String String :=
  .ok
    (encodeCsv Csv.minimal logHeader
      ([messageCommit message].map fun commit =>
        commit.row false))

theorem csv_read_back_iff_of_commit :
    (Decodes
          (DoltLogCli.parseCsv
            (encodeCsv Csv.minimal ["a"] [["x"]]))
          ["a"] [["x"]] ↔
        Decodable Csv.minimal ["a"] [["x"]]) ∧
      (LogService.list (fun _ => true) (printsLog "m") "demo"
            none none =
          .ok [(messageCommit "m").entry] ↔
        ∀ commit ∈ [messageCommit "m"],
          OneLine commit.texts) :=
  ⟨(csv_read_back_iff Csv.minimal).1 DoltLogCli.parseCsv
      (by simp) ["a"] [["x"]] (by decide) (by decide),
    (csv_read_back_iff Csv.minimal).2 (fun _ => true)
      (printsLog "m") logRequest false [messageCommit "m"] rfl⟩

/- A message of two lines makes the log fail: the second
   line is read as a commit of its own. -/
theorem two_lines_fail :
    messageSchema "a\nb" = true ∧
      ¬Decodes
          (parseCsv
            (encodeCsv Csv.minimal logHeader
              [(messageCommit "a\nb").row false]))
          logHeader [(messageCommit "a\nb").row false] ∧
      LogService.list (fun _ => true) (printsLog "a\nb") "demo"
          none none =
        .error
          (.invalidCommitReference
            "Unsafe commit hash: b,") := by
  refine ⟨by decide, ?_, ?_⟩
  · intro hDecodes
    have hDecodable :=
      decodable_of_decodes (by decide) (by decide) hDecodes
    have hLine := hDecodable.rowLines _ List.mem_cons_self
    exact absurd hLine (by unfold OneLine; decide)
  · decide +kernel

end Versioning
