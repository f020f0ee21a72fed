import Deltix.Versioning.BranchNames
import Deltix.Versioning.CommitExport
import Deltix.Versioning.ImportRejection

/-
  The message and the author of a commit on its way through
  a push and a later pull.

  The import writes the author in letters, digits and three
  signs, and the export sends what the log has.

  Key definitions include:
    * `commitSteps`
    * `RoundTrip`

  Key theorems include:
    * `sanitizeAuthorName_eq_self_iff`
    * `authorName_authorFlag`
    * `ends_pushCommits`
    * `ends_pullCommits`
    * `metadata_round_trip`
-/

------------------------------------------------------------
-- Author Names
------------------------------------------------------------

namespace Versioning

open Text

variable {author : String} {c : Char}

theorem isAuthorChar_of_mem
    (hMember : c ∈ (sanitizeAuthorName author).toList) :
    isAuthorChar c = true := by
  unfold sanitizeAuthorName at hMember
  rw [String.toList_ofList, List.mem_flatMap] at hMember
  rcases hMember with ⟨d, _, hFrom⟩
  by_cases hSafe : isAuthorChar d = true
  · rw [if_pos hSafe, List.mem_singleton] at hFrom
    rw [hFrom]
    exact hSafe
  · rw [if_neg hSafe, List.mem_map] at hFrom
    rcases hFrom with ⟨_, _, hMark⟩
    rw [← hMark]
    decide

/- An author is kept exactly if no character is replaced. -/
theorem sanitizeAuthorName_eq_self_iff :
    sanitizeAuthorName author = author ↔
      ∀ c ∈ author.toList, isAuthorChar c = true := by
  constructor
  · intro hSame c hMember
    rw [← hSame] at hMember
    exact isAuthorChar_of_mem hMember
  · intro hSafe
    have hEach :
        author.toList.flatMap
            (fun c =>
              if isAuthorChar c then [c]
              else (unitsOf c).map fun _ => '_') =
          author.toList.flatMap fun c => [c] := by
      apply List.flatMap_congr
      intro c hMember
      rw [if_pos (hSafe c hMember)]
    unfold sanitizeAuthorName
    rw [hEach, List.flatMap_singleton', String.ofList_toList]

theorem isBranchChar_of_author
    (hChar : isAuthorChar c = true) :
    isBranchChar c = true := by
  unfold isAuthorChar at hChar
  unfold isBranchChar
  rw [hChar]
  rfl

/- The name that the log reads in the flag. -/
theorem authorName_authorFlag
    {commit : Commit}
    (hFlag : commit.author = authorFlag author) :
    commit.authorName = sanitizeAuthorName author := by
  have hName :
      commit.author.toList.takeWhile (fun c => c ≠ '<') =
        (sanitizeAuthorName author).toList ++ [' '] := by
    have hParts :
        commit.author.toList =
          ((sanitizeAuthorName author).toList ++ [' ']) ++
            '<' :: (sanitizeAuthorName author ++
              "@deltix.local>").toList := by
      rw [hFlag]
      simp [authorFlag, String.toList_append]
    rw [hParts, List.takeWhile_append_of_pos]
    · simp
    · intro c hMember
      rcases List.mem_append.mp hMember with hSafe | hBlank
      · have hChar := isAuthorChar_of_mem hSafe
        rw [decide_eq_true_eq]
        intro hSame
        rw [hSame] at hChar
        revert hChar
        decide
      · rw [List.mem_singleton.mp hBlank]
        decide
  have hSolid :
      trimChars (sanitizeAuthorName author).toList =
        (sanitizeAuthorName author).toList :=
    trimmed_eq_self fun c hMember =>
      not_space_of_branchChar
        (isBranchChar_of_author (isAuthorChar_of_mem hMember))
  unfold Commit.authorName
  rw [hName, trimChars, trimBy_append_of_blank (by decide)]
  rw [← trimChars, hSolid, String.ofList_toList]

------------------------------------------------------------
-- The Commits Of A Push
------------------------------------------------------------

open Concurrency

variable {State Choice : Type}
variable
  {exec :
    (op : VersioningOp) → Choice → State →
      Option (op.Answer × State)}
variable {s : State} {branch : String}
variable {commit : ImportedCommit}
variable {commits : List ImportedCommit}

/- The author and the message of a commit invocation. -/
def commitArgs? : VersioningOp → Option (String × String)
  | .dolt (.commit author message) => some (author, message)
  | _ => none

/- The commit invocations of a run. -/
def commitSteps
    (steps :
      List (Taken VersioningOp VersioningOp.Answer State
        Choice)) :
    List (Taken VersioningOp VersioningOp.Answer State Choice) :=
  steps.filter fun step => (commitArgs? step.op).isSome

/- What the commit invocations of a run were given. -/
def commitArgs
    (steps :
      List (Taken VersioningOp VersioningOp.Answer State
        Choice)) : List (String × String) :=
  steps.filterMap fun step => commitArgs? step.op

/- What an import passes to the commit invocation. -/
def argsOf (commit : ImportedCommit) : String × String :=
  (authorFlag commit.author, commit.message)

theorem commitArgs_append
    (first rest :
      List (Taken VersioningOp VersioningOp.Answer State
        Choice)) :
    commitArgs (first ++ rest) =
      commitArgs first ++ commitArgs rest :=
  List.filterMap_append

theorem map_commitSteps
    (steps :
      List (Taken VersioningOp VersioningOp.Answer State
        Choice)) :
    (commitSteps steps).map (fun step => commitArgs? step.op) =
      (commitArgs steps).map some := by
  induction steps with
  | nil => rfl
  | cons step rest ih =>
      unfold commitSteps commitArgs at ih ⊢
      rw [List.filter_cons, List.filterMap_cons]
      cases hArgs : commitArgs? step.op with
      | none => simpa using ih
      | some args => simpa [hArgs] using ih

/- The operations that do not commit. -/
def CommitsNothing : VersioningOp → Prop
  | .dolt (.commit _ _) => False
  | _ => True

theorem commitArgs?_of_commitsNothing
    {op : VersioningOp}
    (hNothing : CommitsNothing op) :
    commitArgs? op = none := by
  cases op with
  | dolt statement =>
      cases statement with
      | commit author message => exact hNothing.elim
      | _ => rfl
  | _ => rfl

theorem ends_commitsNothing
    {α : Type}
    {program : VersioningProgram α}
    (hOnly : program.Only CommitsNothing) :
    Ends exec program s fun steps _ _ =>
      commitArgs steps = [] := by
  intro steps outcome t hSolo
  unfold commitArgs
  rw [List.filterMap_eq_nil_iff]
  intro step hMember
  exact
    commitArgs?_of_commitsNothing
      (hSolo.only hOnly step hMember)

/- The commit invocations come as the batch says, and a run
   that returns has made all of them. -/
def CommitsOf
    {α : Type}
    (commits : List ImportedCommit)
    (steps :
      List (Taken VersioningOp VersioningOp.Answer State
        Choice))
    (outcome : Except VersioningError α)
    (_ : State) : Prop :=
  commitArgs steps <+: commits.map argsOf ∧
    (outcome.isOk → commitArgs steps = commits.map argsOf)

/- What commits nothing comes before or after. -/
theorem commitsOf_after
    {α β : Type}
    {first : VersioningProgram α}
    {next : α → VersioningProgram β}
    (hFirst : first.Only CommitsNothing)
    (hNext :
      ∀ value u,
        Ends exec (next value) u (CommitsOf commits)) :
    Ends exec (first.bind next) s (CommitsOf commits) := by
  refine ends_bind_of (ends_commitsNothing hFirst) ?_ ?_
  · intro steps value u hNone
    refine ends_mono (hNext value u) ?_
    intro more outcome t hCommits
    unfold CommitsOf at hCommits ⊢
    rw [commitArgs_append, hNone, List.nil_append]
    exact hCommits
  · intro steps error u hNone
    constructor
    · rw [hNone]
      exact List.nil_prefix
    · intro hOk
      cases hOk

theorem ends_commitImported :
    Ends exec (commitImported commit) s
      (CommitsOf [commit]) := by
  apply commitsOf_after
  · exact Async.only_call.mpr trivial
  intro added u
  apply commitsOf_after (only_answered _ added)
  intro _ v
  apply ends_bind
  apply ends_call
  intro choice committed w _
  have hHash : readCommitHash.Only CommitsNothing :=
    only_readCommitHash trivial
  have hRest :
      (Async.bind (expect "commit" committed) fun _ =>
          readCommitHash).Only CommitsNothing := by
    apply Async.only_bind (only_answered _ committed)
    intro _
    exact hHash
  refine ends_mono (ends_commitsNothing hRest) ?_
  intro more outcome t hNone
  have hArgs :
      commitArgs
          ([⟨.dolt
              (.commit (authorFlag commit.author)
                commit.message),
            choice, v, committed, w⟩] ++ more) =
        [argsOf commit] := by
    rw [commitArgs_append, hNone]
    rfl
  constructor
  · rw [hArgs]
    exact List.prefix_rfl
  · intro _
    exact hArgs

theorem ends_importArgs :
    Ends exec (runDoltCommitImport commit branch) s
      (CommitsOf [commit]) := by
  rw [runDoltCommitImport_eq]
  apply commitsOf_after
  · exact only_checkoutTarget_of trivial trivial
  intro _ u
  apply commitsOf_after
  · apply Async.only_forEach
    intro table _
    exact only_importTable trivial trivial trivial trivial
  intro _ v
  exact ends_commitImported

theorem ends_importAllArgs (lastCommitHash : String) :
    Ends exec (importAll branch commits lastCommitHash) s
      (CommitsOf (tabled commits)) := by
  induction commits generalizing lastCommitHash s with
  | nil =>
      apply ends_returned
      exact ⟨List.prefix_rfl, fun _ => rfl⟩
  | cons commit rest ih =>
      unfold importAll
      by_cases hNone : commit.tables = []
      · have hSkip : tabled (commit :: rest) = tabled rest := by
          simp [tabled, hNone]
        rw [if_pos hNone, hSkip]
        exact ih lastCommitHash
      · have hTaken :
            tabled (commit :: rest) =
              commit :: tabled rest := by
          simp [tabled, hNone]
        rw [if_neg hNone, hTaken]
        refine ends_bind_of ends_importArgs ?_ ?_
        · rintro steps commitHash u ⟨_, hAll⟩
          have hOne := hAll rfl
          refine ends_mono (ih commitHash) ?_
          rintro more outcome t ⟨hPrefix, hRest⟩
          unfold CommitsOf
          rw [commitArgs_append, hOne]
          constructor
          · exact
              (List.prefix_append_right_inj _).mpr hPrefix
          · intro hOk
            rw [hRest hOk]
            rfl
        · rintro steps error u ⟨hPrefix, _⟩
          constructor
          · exact hPrefix.trans (List.prefix_append _ _)
          · intro hOk
            cases hOk

/- Every commit of an accepted body carries a table. -/
theorem tabled_of_accepted
    {body : PushCommitsBody}
    (hAccepted : pushCommitsBodySchema body = true) :
    tabled body.commits = body.commits := by
  unfold tabled
  rw [List.filter_eq_self]
  intro commit hMember
  simp only [pushCommitsBodySchema, Bool.and_eq_true,
    List.all_eq_true, commitSchema, decide_eq_true_eq]
    at hAccepted
  have hTables := (hAccepted.1.1.1 commit hMember).1.2
  rw [decide_eq_true_eq]
  intro hNone
  rw [hNone] at hTables
  exact absurd hTables (by decide)

/- The commits of a push are made with what was sent. -/
theorem ends_pushCommits
    (repoId : String)
    (body : PushCommitsBody) :
    Ends exec (pushCommits repoId body) s
      (CommitsOf body.commits) := by
  apply ends_bind
  apply ends_ensure
  case hFails =>
    intro _
    constructor
    · exact List.nil_prefix
    · intro hOk
      cases hOk
  case hHolds =>
    intro hAccepted
    have hTabled := tabled_of_accepted hAccepted
    show Ends exec
      (importCommits repoId body.commits body.base
        body.targetBranch) s (CommitsOf body.commits)
    apply commitsOf_after
    · exact only_getRepo trivial
    intro found u
    apply commitsOf_after Async.only_ensure
    intro _ v
    apply commitsOf_after Async.only_ensure
    intro _ w
    apply commitsOf_after
    · exact only_checkFastForward _ trivial
    intro _ x
    refine ends_bind_of (ends_importAllArgs "") ?_ ?_
    · rintro steps lastCommitHash y ⟨hPrefix, hAll⟩
      rw [hTabled] at hPrefix hAll
      have hRest :
          (Async.bind
            (Async.ensure (lastCommitHash ≠ "")
              (VersioningError.commitImport "import"
                "No commits contained table data"))
            fun _ =>
              (Async.returned
                { commitHash := lastCommitHash,
                  repo := repoId } :
                VersioningProgram CommitImportResult)).Only
            CommitsNothing := by
        apply Async.only_bind Async.only_ensure
        intro _
        exact Async.only_returned _
      refine ends_mono (ends_commitsNothing hRest) ?_
      intro more outcome t hNone
      unfold CommitsOf
      rw [commitArgs_append, hNone, List.append_nil]
      exact ⟨hPrefix, fun _ => hAll rfl⟩
    · rintro steps error y ⟨hPrefix, _⟩
      rw [hTabled] at hPrefix
      constructor
      · exact hPrefix
      · intro hOk
        cases hOk

------------------------------------------------------------
-- The Commits Of A Pull
------------------------------------------------------------

variable {State Choice : Type}
variable
  {exec :
    (op : ExportOp) → Choice → State →
      Option (op.Answer × State)}
variable {s : State}

/- The rows that a log was answered with. -/
def logRowsOf : ExportTaken State Choice → List JsonRow
  | ⟨.commitsSince _ _, _, _, .ok rows, _⟩ => rows
  | _ => []

/- A commit is sent as the row of a log says. -/
structure Carries
    (row : JsonRow)
    (exported : ExportedCommit) : Prop where
  hash : exported.hash = row.getD "commit_hash"
  message : exported.message = row.getD "message"
  author : exported.author = row.getD "author"

/- What is sent comes out of the rows. -/
def SentFrom
    (rows : List JsonRow)
    (sent : List ExportedCommit) : Prop :=
  ∀ exported ∈ sent, ∃ row ∈ rows, Carries row exported

theorem SentFrom.mono
    {rows more : List JsonRow}
    {sent : List ExportedCommit}
    (hSent : SentFrom rows sent)
    (hRows : ∀ row ∈ rows, row ∈ more) :
    SentFrom more sent := by
  intro exported hMember
  rcases hSent exported hMember with ⟨row, hRow, hCarries⟩
  exact ⟨row, hRows row hRow, hCarries⟩

theorem SentFrom.append
    {rows : List JsonRow}
    {first rest : List ExportedCommit}
    (hFirst : SentFrom rows first)
    (hRest : SentFrom rows rest) :
    SentFrom rows (first ++ rest) := by
  intro exported hMember
  rcases List.mem_append.mp hMember with hIn | hIn
  · exact hFirst exported hIn
  · exact hRest exported hIn

/- One commit is sent for a row, at most. -/
theorem ends_exportCommit (row : JsonRow) :
    Ends exec (exportCommit row) s fun steps _ _ =>
      SentFrom [row] (emittedBy steps) := by
  have hNothing : SentFrom [row] [] := by
    intro exported hMember
    cases hMember
  unfold exportCommit
  dsimp only
  split_ifs
  · exact ends_returned hNothing
  · refine
      ends_bind_of
        (ends_emitsNothing (only_changedTables trivial)) ?_ ?_
    · intro first changed u hFirst
      split_ifs
      · have hTables :
            (exportTables (row.getD "commit_hash")
              changed.tables).Only EmitsNothing := by
          apply only_exportTables
          · intro _ _
            trivial
          · intro _ _
            trivial
        refine
          ends_bind_of (ends_emitsNothing hTables) ?_ ?_
        · intro second exported v hSecond
          apply ends_call
          intro choice answer next _
          rw [emittedBy_append, hFirst, List.nil_append,
            emittedBy_append, hSecond, List.nil_append]
          intro sent hMember
          rw [List.mem_singleton.mp hMember]
          exact ⟨row, List.mem_cons_self, ⟨rfl, rfl, rfl⟩⟩
        · intro second error v hSecond
          rw [emittedBy_append, hFirst, hSecond]
          exact hNothing
      · apply ends_returned
        rw [List.append_nil, hFirst]
        exact hNothing
    · intro first error u hFirst
      rw [hFirst]
      exact hNothing

theorem ends_exportCommits (rows : List JsonRow) :
    Ends exec (Async.forEach exportCommit rows) s
      fun steps _ _ => SentFrom rows (emittedBy steps) := by
  induction rows generalizing s with
  | nil =>
      apply ends_returned
      intro exported hMember
      cases hMember
  | cons row rest ih =>
      have hHere :
          ∀ other ∈ [row], other ∈ row :: rest := by
        intro other hMember
        rw [List.mem_singleton.mp hMember]
        exact List.mem_cons_self
      refine ends_bind_of (ends_exportCommit row) ?_ ?_
      · intro first _ u hFirst
        refine ends_mono ih ?_
        intro more outcome t hMore
        rw [emittedBy_append]
        apply (hFirst.mono hHere).append
        apply hMore.mono
        intro other hMember
        exact List.mem_cons_of_mem _ hMember
      · intro first error u hFirst
        exact hFirst.mono hHere

/- What a query returns is what a log was answered with. -/
def ReturnsLogged
    (steps : List (ExportTaken State Choice))
    (outcome : Except ExportError (List JsonRow))
    (_ : State) : Prop :=
  emittedBy steps = [] ∧
    ∀ rows, outcome = .ok rows →
      ∀ row ∈ rows, row ∈ steps.flatMap logRowsOf

theorem ends_queryCommits
    (branch : String)
    (fromHash : Option String) :
    Ends exec (queryCommits branch fromHash) s
      ReturnsLogged := by
  apply ends_bind
  apply ends_call
  intro choice answer u _
  cases answer with
  | ok rows =>
      apply ends_returned
      refine ⟨rfl, ?_⟩
      intro found hFound row hMember
      cases hFound
      exact List.mem_append_left _ hMember
  | error output =>
      apply ends_threw
      refine ⟨rfl, ?_⟩
      intro found hFound
      cases hFound

theorem ReturnsLogged.after
    {first rest : List (ExportTaken State Choice)}
    {outcome : Except ExportError (List JsonRow)}
    {t : State}
    (hFirst : emittedBy first = [])
    (hRest : ReturnsLogged rest outcome t) :
    ReturnsLogged (first ++ rest) outcome t := by
  refine ⟨?_, ?_⟩
  · rw [emittedBy_append, hFirst, hRest.1, List.append_nil]
  · intro rows hRows row hMember
    rw [List.flatMap_append]
    exact
      List.mem_append_right _ (hRest.2 rows hRows row hMember)

theorem ends_queryCommitsSince
    (branch : String)
    (fromHash : Option String) :
    Ends exec (queryCommitsSince branch fromHash) s
      ReturnsLogged := by
  unfold queryCommitsSince
  split
  · exact ends_queryCommits branch none
  · rename_i known _
    apply ends_bind
    apply ends_catchError
    apply ends_bind
    refine ends_mono (ends_queryCommits branch (some known)) ?_
    intro first outcome u hFirst
    cases outcome with
    | ok rows =>
        apply ends_returned
        apply ends_returned
        rw [List.append_nil, List.append_nil]
        exact hFirst
    | error error =>
        apply ends_returned
        refine ends_mono (ends_queryCommits branch none) ?_
        intro more outcome t hMore
        rw [List.append_nil]
        exact hMore.after hFirst.1

variable {State Choice : Type}
variable
  {exec :
    (op : ExportOp) → Choice → State →
      Option (op.Answer × State)}
variable {s : State}

/- A run sends what its logs were answered with. -/
def SendsLogged
    {α : Type}
    (steps : List (ExportTaken State Choice))
    (_ : Except ExportError α)
    (_ : State) : Prop :=
  SentFrom (steps.flatMap logRowsOf) (emittedBy steps)

theorem sendsLogged_nil
    {α : Type}
    {steps : List (ExportTaken State Choice)}
    {outcome : Except ExportError α}
    {t : State}
    (hNone : emittedBy steps = []) :
    SendsLogged steps outcome t := by
  unfold SendsLogged
  rw [hNone]
  intro exported hMember
  cases hMember

theorem sendsLogged_after
    {α β : Type}
    {first : ExportProgram α}
    {next : α → ExportProgram β}
    (hFirst : first.Only EmitsNothing)
    (hNext : ∀ value u, Ends exec (next value) u SendsLogged) :
    Ends exec (first.bind next) s SendsLogged := by
  refine ends_bind_of (ends_emitsNothing hFirst) ?_ ?_
  · intro steps value u hNone
    refine ends_mono (hNext value u) ?_
    intro more outcome t hSent
    unfold SendsLogged at hSent ⊢
    rw [emittedBy_append, hNone, List.nil_append,
      List.flatMap_append]
    apply hSent.mono
    intro row hMember
    exact List.mem_append_right _ hMember
  · intro steps error u hNone
    exact sendsLogged_nil hNone

theorem ends_runDoltCommitExport
    (branch : String)
    (fromHash : Option String) :
    Ends exec (runDoltCommitExport branch fromHash) s
      SendsLogged := by
  refine
    ends_bind_of (ends_queryCommitsSince branch fromHash) ?_ ?_
  · intro first rows u hFirst
    refine ends_mono (ends_exportCommits rows) ?_
    intro more outcome t hSent
    unfold SendsLogged
    rw [emittedBy_append, hFirst.1, List.nil_append,
      List.flatMap_append]
    apply hSent.mono
    intro row hMember
    exact
      List.mem_append_left _ (hFirst.2 rows rfl row hMember)
  · intro first error u hFirst
    exact sendsLogged_nil hFirst.1

/- The commits of a pull are sent with what the log has. -/
theorem ends_pullCommits
    (repoId : String)
    (branch fromHash : Option String) :
    Ends exec (pullCommits repoId branch fromHash) s
      SendsLogged := by
  apply sendsLogged_after
  · apply Async.only_bind (only_requireExportRepo trivial)
    intro _
    exact Async.only_call.mpr trivial
  intro head u
  cases head with
  | none =>
      apply ends_threw
      exact sendsLogged_nil rfl
  | some head =>
      apply sendsLogged_after
      · exact Async.only_call.mpr trivial
      intro _ v
      apply sendsLogged_after
      · exact only_requireExportRepo trivial
      intro _ w
      exact ends_runDoltCommitExport _ fromHash

------------------------------------------------------------
-- Round Trips
------------------------------------------------------------

abbrev PushTaken : Type :=
  DisturbedTaken VersioningOp VersioningOp.Answer
    VersioningState VersioningChoice

abbrev PullTaken : Type :=
  DisturbedTaken ExportOp ExportOp.Answer DoltRepo ExportChoice

/- The commit that an invocation has made. -/
def madeBy : PushTaken → Option Commit
  | ⟨.dolt (.commit _ _), _, _, .ok _, after⟩ =>
      after.repo.heads after.repo.checkedOut
  | _ => none

/-
  A commit of a push, the commit that the import has made of
  it, and what a later pull has sent for it.  Others may work
  on the repository at any time, as long as no commit is
  lost.
-/
structure RoundTrip (config : VersioningConfig) where
  repoId : String
  body : PushCommitsBody
  pushSteps : List PushTaken
  pushOutcome : Except VersioningError CommitImportResult
  pushStart : VersioningState
  pushEnd : VersioningState
  pushed :
    Solo (disturbed (VersioningOp.exec config))
      (pushCommits repoId body) pushStart pushSteps
      pushOutcome pushEnd
  place : Nat
  commit : ImportedCommit
  sentAs : body.commits[place]? = some commit
  step : PushTaken
  importedBy : (commitSteps pushSteps)[place]? = some step
  made : Commit
  madeAs : madeBy step = some made
  exportConfig : ExportConfig
  exportId : String
  branch : Option String
  fromHash : Option String
  pullSteps : List PullTaken
  pullOutcome : Except ExportError Unit
  pullStart : DoltRepo
  pullEnd : DoltRepo
  pulled :
    Solo (disturbed (ExportOp.exec exportConfig))
      (pullCommits exportId branch fromHash) pullStart
      pullSteps pullOutcome pullEnd
  later :
    ∀ other ∈ pullSteps,
      step.after.repo.KeepsHistory other.choice.found
  exported : ExportedCommit
  emitted : exported ∈ emittedBy pullSteps
  sameHash : exported.hash = made.hash

variable {config : VersioningConfig}
variable {exportConfig : ExportConfig}

/- The commit that was made has what was passed. -/
theorem made_of_madeBy
    {step : PushTaken}
    {made : Commit}
    {author message : String}
    (hPerformed :
      disturbed (VersioningOp.exec config) step.op step.choice
          step.before =
        some (step.answer, step.after))
    (hArgs : commitArgs? step.op = some (author, message))
    (hMade : madeBy step = some made) :
    made.author = author ∧ made.message = message ∧
      step.after.repo.commits.find? made.hash = some made := by
  rcases step with ⟨op, choice, before, answer, after⟩
  cases op with
  | dolt statement =>
      cases statement with
      | commit given text =>
          cases hArgs
          cases answer with
          | error error => cases hMade
          | ok value =>
              have hRun := (exec_dolt hPerformed).1
              rcases DoltStatement.run_cases hRun with
                ⟨_, hFailed, _⟩ | ⟨_, hPerform⟩
              · cases hFailed
              rcases DoltRepo.commit_cases hPerform with
                ⟨_, hFailed, _⟩ | ⟨_, _, _, hRecord⟩
              · cases hFailed
              have hHead := DoltRepo.head_of_record hRecord
              have hSame := hHead.1.symm.trans hMade
              rw [← Option.some.inj hSame]
              exact ⟨rfl, rfl, hHead.2⟩
      | _ => cases hArgs
  | _ => cases hArgs

/- A row of a log is one of a commit that is recorded. -/
theorem commit_of_logRow
    {step : PullTaken}
    {row : JsonRow}
    (hPerformed :
      disturbed (ExportOp.exec exportConfig) step.op
          step.choice step.before =
        some (step.answer, step.after))
    (hRow : row ∈ logRowsOf step) :
    ∃ commit,
      step.choice.found.commits.find? commit.hash =
          some commit ∧
        row = commit.logRow := by
  rcases step with ⟨op, ⟨choice, found⟩, before, answer, after⟩
  cases op with
  | commitsSince branch fromHash =>
      cases answer with
      | error output => cases hRow
      | ok rows =>
          have hExec :
              (ExportOp.commitsSince branch fromHash).exec
                  exportConfig choice found =
                some (.ok rows, after) :=
            hPerformed
          rcases logRows_of_commitsSince hExec with
            ⟨_, _, _, _, hListed⟩
          exact mem_logRows hListed hRow
  | _ => cases hRow

namespace RoundTrip

variable (trip : RoundTrip config)

/- The invocation was given what was sent for the commit. -/
theorem commitArgs_step :
    commitArgs? trip.step.op = some (argsOf trip.commit) := by
  have hPrefix :
      commitArgs trip.pushSteps <+:
        trip.body.commits.map argsOf :=
    (ends_pushCommits trip.repoId trip.body _ _ _
      trip.pushed).1
  have hStep :
      ((commitSteps trip.pushSteps).map fun step =>
          commitArgs? step.op)[trip.place]? =
        some (commitArgs? trip.step.op) := by
    rw [List.getElem?_map, trip.importedBy, Option.map_some]
  rw [map_commitSteps, List.getElem?_map,
    Option.map_eq_some_iff] at hStep
  rcases hStep with ⟨args, hArgs, hSame⟩
  rcases hPrefix with ⟨others, hOthers⟩
  have hSent :
      (trip.body.commits.map argsOf)[trip.place]? =
        some args := by
    rw [← hOthers]
    exact
      (List.getElem?_append_left
        (List.getElem?_eq_some_iff.mp hArgs).1).trans hArgs
  rw [List.getElem?_map, trip.sentAs, Option.map_some]
    at hSent
  rw [← hSame, hSent]

/- The commit was made of what was sent for it. -/
theorem made_step :
    trip.made.author = authorFlag trip.commit.author ∧
      trip.made.message = trip.commit.message ∧
      trip.step.after.repo.commits.find? trip.made.hash =
        some trip.made := by
  have hMember : trip.step ∈ trip.pushSteps :=
    List.mem_of_mem_filter
      (List.mem_of_getElem? trip.importedBy)
  exact
    made_of_madeBy (trip.pushed.performed _ hMember)
      trip.commitArgs_step trip.madeAs

/- What was sent is the commit that was made. -/
theorem carries_made :
    Carries trip.made.logRow trip.exported := by
  have hSent :
      SentFrom (trip.pullSteps.flatMap logRowsOf)
        (emittedBy trip.pullSteps) :=
    ends_pullCommits trip.exportId trip.branch trip.fromHash
      _ _ _ trip.pulled
  rcases hSent _ trip.emitted with ⟨row, hRow, hCarries⟩
  rcases List.mem_flatMap.mp hRow with ⟨other, hOther, hIn⟩
  rcases
      commit_of_logRow (trip.pulled.performed other hOther)
        hIn with
    ⟨commit, hFind, hSame⟩
  subst hSame
  have hHash : commit.hash = trip.made.hash :=
    hCarries.hash.symm.trans trip.sameHash
  have hKept :=
    trip.later other hOther _ _ trip.made_step.2.2
  rw [← hHash, hFind] at hKept
  rw [← Option.some.inj hKept]
  exact hCarries

theorem message_eq :
    trip.exported.message = trip.commit.message := by
  rw [trip.carries_made.message, Commit.message_logRow]
  exact trip.made_step.2.1

theorem author_eq :
    trip.exported.author =
      sanitizeAuthorName trip.commit.author := by
  rw [trip.carries_made.author, Commit.author_logRow]
  exact authorName_authorFlag trip.made_step.1

end RoundTrip

/-
  The message survives, and the author with every other
  character replaced.  So an author survives that has none to
  replace, and two authors stay apart unless they differ in
  replaced characters only.
-/
theorem metadata_round_trip (config : VersioningConfig) :
    (∀ trip : RoundTrip config,
      trip.exported.message = trip.commit.message ∧
        trip.exported.author =
          sanitizeAuthorName trip.commit.author ∧
        (trip.exported.author = trip.commit.author ↔
          ∀ c ∈ trip.commit.author.toList,
            isAuthorChar c = true)) ∧
      ∀ first second : RoundTrip config,
        first.exported.author = second.exported.author ↔
          sanitizeAuthorName first.commit.author =
            sanitizeAuthorName second.commit.author := by
  constructor
  · intro trip
    refine ⟨trip.message_eq, trip.author_eq, ?_⟩
    rw [trip.author_eq]
    exact sanitizeAuthorName_eq_self_iff
  · intro first second
    rw [first.author_eq, second.author_eq]

------------------------------------------------------------
-- Authors That Collapse
------------------------------------------------------------

open Relational

variable {config : VersioningConfig}
variable {exportConfig : ExportConfig}

/- A run that pushes and one that pulls afterwards, alone. -/
def sendsBack
    (place : Nat)
    (pushSteps : List VersioningTaken)
    (pullSteps : List (ExportTaken DoltRepo ExportChoice)) :
    Bool :=
  ((commitSteps (pushSteps.map quietly))[place]?.bind
    madeBy).any fun made =>
      (emittedBy (pullSteps.map quietly)).any fun exported =>
        exported.hash = made.hash

/- Nothing is lost between two runs that are alone. -/
theorem keepsHistory_alone
    {program : VersioningProgram CommitImportResult}
    {exporting : ExportProgram Unit}
    {pushSteps : List VersioningTaken}
    {pullSteps : List (ExportTaken DoltRepo ExportChoice)}
    {outcome : Except VersioningError CommitImportResult}
    {pullOutcome : Except ExportError Unit}
    {s t : VersioningState}
    {last : DoltRepo}
    {step : PushTaken}
    (hPush :
      Solo (VersioningOp.exec config) program s pushSteps
        outcome t)
    (hPull :
      Solo (ExportOp.exec exportConfig) exporting t.repo
        pullSteps pullOutcome last)
    (hStep : step ∈ pushSteps.map quietly) :
    ∀ other ∈ pullSteps.map quietly,
      step.after.repo.KeepsHistory other.choice.found := by
  rcases List.mem_map.mp hStep with ⟨made, hMade, hSame⟩
  subst hSame
  have hKept : made.after.repo.KeepsHistory t.repo := by
    refine
      (hPush.relates_step
        (fun u v => u.repo.KeepsHistory v.repo) ?_ ?_ ?_ made
        hMade).2
    · intro u
      exact .refl u.repo
    · intro u v w hFirst hSecond
      exact hFirst.trans hSecond
    · intro other hOther
      exact
        keepsHistory_of_performed (hPush.performed other hOther)
  intro other hOther
  rcases List.mem_map.mp hOther with ⟨asked, hAsked, hSame⟩
  subst hSame
  have hUnchanged : asked.before = t.repo := by
    refine
      (hPull.relates_step (fun u v => v = u) ?_ ?_ ?_ asked
        hAsked).1
    · intro u
      rfl
    · intro u v w hFirst hSecond
      exact hSecond.trans hFirst
    · intro each hEach
      exact ExportOp.repo_of_exec (hPull.performed each hEach)
  show made.after.repo.KeepsHistory asked.before
  rw [hUnchanged]
  exact hKept

theorem exists_roundTrip
    {repoId : String}
    {body : PushCommitsBody}
    {s : VersioningState}
    {choices : List VersioningChoice}
    {pullChoices : List ExportChoice}
    {place : Nat}
    {commit : ImportedCommit}
    (hCommit : body.commits[place]? = some commit)
    (hReplay :
      Option.any
          (fun q =>
            Option.any (fun r => sendsBack place q.1 r.1)
              (solo? (ExportOp.exec exportConfig)
                (pullCommits repoId none none) q.2.2.repo
                pullChoices))
          (solo? (VersioningOp.exec config)
            (pushCommits repoId body) s choices) =
        true) :
    ∃ trip : RoundTrip config, trip.commit = commit := by
  rw [Option.any_eq_true] at hReplay
  rcases hReplay with ⟨⟨pushSteps, outcome, t⟩, hPush, hReplay⟩
  rw [Option.any_eq_true] at hReplay
  rcases hReplay with
    ⟨⟨pullSteps, pullOutcome, last⟩, hPull, hReplay⟩
  unfold sendsBack at hReplay
  rw [Option.any_eq_true] at hReplay
  rcases hReplay with ⟨made, hMade, hSent⟩
  rw [Option.bind_eq_some_iff] at hMade
  rcases hMade with ⟨step, hStep, hMade⟩
  rw [List.any_eq_true] at hSent
  rcases hSent with ⟨exported, hExported, hHash⟩
  rw [decide_eq_true_eq] at hHash
  have hPushed := solo_of_solo? hPush
  have hPulled := solo_of_solo? hPull
  have hMember : step ∈ pushSteps.map quietly :=
    List.mem_of_mem_filter (List.mem_of_getElem? hStep)
  have hLater :=
    keepsHistory_alone hPushed hPulled hMember
  let trip : RoundTrip config := {
    repoId := repoId
    body := body
    pushSteps := pushSteps.map quietly
    pushOutcome := outcome
    pushStart := s
    pushEnd := t
    pushed := hPushed.undisturbed
    place := place
    commit := commit
    sentAs := hCommit
    step := step
    importedBy := hStep
    made := made
    madeAs := hMade
    exportConfig := exportConfig
    exportId := repoId
    branch := none
    fromHash := none
    pullSteps := pullSteps.map quietly
    pullOutcome := pullOutcome
    pullStart := t.repo
    pullEnd := last
    pulled := hPulled.undisturbed
    later := hLater
    exported := exported
    emitted := hExported
    sameHash := hHash }
  exact ⟨trip, rfl⟩

def authoredImport
    (author data : String) : ImportedCommit where
  message := "m"
  author := author
  tables := [⟨"t", "CREATE TABLE t (c TEXT)", data⟩]

/- Two authors who differ in a character that is replaced. -/
def twoAuthors : PushCommitsBody where
  commits :=
    [authoredImport "a b" "c\nx\n",
      authoredImport "a_b" "c\ny\n"]
  base := none
  branch := none

def twoAuthorsChoices : List VersioningChoice :=
  List.replicate 10 ⟨⟨false, "c1", "c1"⟩, 0⟩ ++
    List.replicate 10 ⟨⟨false, "c2", "c2"⟩, 0⟩

def plainExport : ExportConfig where
  repoId := "r"
  reserved := fun _ => false

def pullChoicesOf (order : List String) :
    List ExportChoice :=
  List.replicate 20 ⟨false, "", order, ["t"]⟩

/- Push both, pull, and look for what was sent for one. -/
def replaysBack (place : Nat) : Bool :=
  Option.any
    (fun q =>
      Option.any (fun r => sendsBack place q.1 r.1)
        (solo? (ExportOp.exec plainExport)
          (pullCommits "r" none none) q.2.2.repo
          (pullChoicesOf ["h", "c1", "c2"])))
    (solo? (VersioningOp.exec oneTableConfig)
      (pushCommits "r" twoAuthors) (cleanState FiniteMap.empty)
      twoAuthorsChoices)

theorem replaysBack_first : replaysBack 0 = true := by
  decide +kernel

theorem replaysBack_second : replaysBack 1 = true := by
  decide +kernel

/- Both are sent as the second author, and the first is lost. -/
theorem authors_collapse :
    ∃ first second : RoundTrip oneTableConfig,
      first.commit.author ≠ second.commit.author ∧
        first.exported.author = second.exported.author ∧
        first.exported.author ≠ first.commit.author := by
  have hFirstSent :
      twoAuthors.commits[0]? =
        some (authoredImport "a b" "c\nx\n") := rfl
  have hSecondSent :
      twoAuthors.commits[1]? =
        some (authoredImport "a_b" "c\ny\n") := rfl
  rcases exists_roundTrip hFirstSent replaysBack_first with
    ⟨first, hFirst⟩
  rcases exists_roundTrip hSecondSent replaysBack_second with
    ⟨second, hSecond⟩
  refine ⟨first, second, ?_, ?_, ?_⟩
  · rw [hFirst, hSecond]
    decide
  · rw [first.author_eq, second.author_eq, hFirst, hSecond]
    decide
  · rw [first.author_eq, hFirst]
    decide

end Versioning
