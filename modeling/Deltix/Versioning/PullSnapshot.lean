import Deltix.Versioning.CommitGraph
import Deltix.Versioning.CommitMetadata
import Deltix.Versioning.PullCompleteness

/-
  A pull while others write to the repository: the head is
  read and announced, and the commits are listed later.

  Key definitions include:
    * `Consistent`
    * `Steady`
    * `Among`

  Key theorems include:
    * `exported_of_pull`
    * `sent_iff`
    * `pull_consistent_iff`
-/

------------------------------------------------------------
-- What A Pull Sends
------------------------------------------------------------

namespace Versioning

open Concurrency Relational

/- The values of the header `x-deltix-server-head`. -/
def announcedBy (steps : List PullTaken) : List String :=
  steps.filterMap fun step =>
    match step.op with
    | .announce head => some head
    | _ => none

def sentHashes (steps : List PullTaken) : List String :=
  (emittedBy steps).map ExportedCommit.hash

/- The commits whose diff is asked for. -/
def diffsAsked (steps : List PullTaken) : List String :=
  steps.filterMap fun step =>
    match step.op with
    | .diffSummary hash => some hash
    | _ => none

/- The commits whose diff is answered, with some table. -/
def diffsAnswered (steps : List PullTaken) : List String :=
  steps.filterMap fun step =>
    match step with
    | ⟨.diffSummary hash, _, _, .ok (_ :: _), _⟩ => some hash
    | _ => none

/- The queries of the log that are answered, and what they
   find. -/
def logsAnswered (steps : List PullTaken) :
    List (DoltRepo × String × Option String) :=
  steps.filterMap fun step =>
    match step with
    | ⟨.commitsSince branch known, choice, _, .ok _, _⟩ =>
        some (choice.found, branch, known)
    | _ => none

namespace DoltRepo

variable (repo : DoltRepo)

/- The head has the commit, and the client lacks it. -/
def Missing
    (head : String)
    (fromHash : Option String)
    (hash : String) : Prop :=
  repo.Reaches head hash ∧
    ∀ known ∈ fromHash, ¬ repo.Reaches known hash

/- The tables are not those of the first parent. -/
def BearsDiff (hash : String) : Prop :=
  ∃ commit before,
    repo.commits.find? hash = some commit ∧
      repo.parentTables commit = some before ∧
      ∃ name, commit.tables.find name ≠ before.find name

end DoltRepo

/- What is sent is what the announced head has and the client
   lacks, each commit once, and nothing after the head. -/
structure Consistent
    (repo : DoltRepo)
    (head : String)
    (fromHash : Option String)
    (sent : List String) : Prop where
  once : sent.Nodup
  exact :
    ∀ hash,
      hash ∈ sent ↔
        repo.Missing head fromHash hash ∧ repo.BearsDiff hash
  last : head ∈ sent → sent.getLast? = some head

/- A commit that the branch has when the log is queried, less
   what the query leaves out. -/
def Lists (steps : List PullTaken) (hash : String) : Prop :=
  ∃ found branch known tip left,
    (found, branch, known) ∈ logsAnswered steps ∧
      found.resolve branch = some tip ∧
      found.Known known left ∧
      found.Missing tip.hash (left.map Commit.hash) hash

/- The diff of a commit is asked for in vain. -/
def DiffFails (steps : List PullTaken) (hash : String) : Prop :=
  ∃ step ∈ steps,
    step.op = .diffSummary hash ∧
      step.choice.choice.fails = true

/- Of the commits with a diff, the branch has those that the
   announced head has when the log is queried, but for what
   the client has, and no diff of them fails. -/
structure Steady
    (repo : DoltRepo)
    (head : String)
    (fromHash : Option String)
    (steps : List PullTaken) : Prop where
  listed :
    ∀ hash, repo.BearsDiff hash →
      repo.Missing head fromHash hash → Lists steps hash
  answered :
    ∀ hash, repo.BearsDiff hash →
      repo.Missing head fromHash hash → ¬ DiffFails steps hash
  noOther :
    ∀ hash, repo.BearsDiff hash → Lists steps hash →
      ¬ DiffFails steps hash →
        repo.Missing head fromHash hash

/- Between the operations of a pull others write. -/
def Among
    (dolt : DoltConfig)
    (s : DoltRepo)
    (steps : List PullTaken) : Prop :=
  List.IsChain (Written dolt)
    (s :: steps.map fun step => step.choice.found)

variable {steps first rest : List PullTaken}

theorem announcedBy_append (first rest : List PullTaken) :
    announcedBy (first ++ rest) =
      announcedBy first ++ announcedBy rest :=
  List.filterMap_append

theorem sentHashes_append (first rest : List PullTaken) :
    sentHashes (first ++ rest) =
      sentHashes first ++ sentHashes rest := by
  unfold sentHashes
  rw [emittedBy_append, List.map_append]

theorem diffsAsked_append (first rest : List PullTaken) :
    diffsAsked (first ++ rest) =
      diffsAsked first ++ diffsAsked rest :=
  List.filterMap_append

theorem diffsAnswered_append (first rest : List PullTaken) :
    diffsAnswered (first ++ rest) =
      diffsAnswered first ++ diffsAnswered rest :=
  List.filterMap_append

theorem logsAnswered_append (first rest : List PullTaken) :
    logsAnswered (first ++ rest) =
      logsAnswered first ++ logsAnswered rest :=
  List.filterMap_append

/- Steps that are no part of what is sent: they ask for no
   diff, send nothing, announce nothing and list nothing. -/
structure OffStream (steps : List PullTaken) : Prop where
  sent : sentHashes steps = []
  asked : diffsAsked steps = []
  answered : diffsAnswered steps = []
  announced : announcedBy steps = []
  listed : logsAnswered steps = []

theorem OffStream.append
    (hFirst : OffStream first)
    (hRest : OffStream rest) :
    OffStream (first ++ rest) := by
  constructor
  · rw [sentHashes_append, hFirst.sent, hRest.sent,
      List.append_nil]
  · rw [diffsAsked_append, hFirst.asked, hRest.asked,
      List.append_nil]
  · rw [diffsAnswered_append, hFirst.answered, hRest.answered,
      List.append_nil]
  · rw [announcedBy_append, hFirst.announced, hRest.announced,
      List.append_nil]
  · rw [logsAnswered_append, hFirst.listed, hRest.listed,
      List.append_nil]

/- The operations that only look. -/
def OnlyLooks : ExportOp → Prop
  | .emit _ => False
  | .diffSummary _ => False
  | .announce _ => False
  | .commitsSince _ _ => False
  | _ => True

theorem filterMap_of_looks
    {α : Type}
    {part : PullTaken → Option α}
    (hPart : ∀ step, OnlyLooks step.op → part step = none)
    (hLooks : ∀ step ∈ steps, OnlyLooks step.op) :
    steps.filterMap part = [] := by
  rw [List.filterMap_eq_nil_iff]
  intro step hMember
  exact hPart step (hLooks step hMember)

theorem offStream_of_looks
    (hLooks : ∀ step ∈ steps, OnlyLooks step.op) :
    OffStream steps := by
  constructor
  · unfold sentHashes emittedBy
    rw [List.map_eq_nil_iff]
    refine filterMap_of_looks ?_ hLooks
    rintro ⟨op, choice, before, answer, after⟩ hOp
    cases op with
    | emit commit => exact hOp.elim
    | _ => rfl
  · refine filterMap_of_looks ?_ hLooks
    rintro ⟨op, choice, before, answer, after⟩ hOp
    cases op with
    | diffSummary hash => exact hOp.elim
    | _ => rfl
  · refine filterMap_of_looks ?_ hLooks
    rintro ⟨op, choice, before, answer, after⟩ hOp
    cases op with
    | diffSummary hash => exact hOp.elim
    | _ => rfl
  · refine filterMap_of_looks ?_ hLooks
    rintro ⟨op, choice, before, answer, after⟩ hOp
    cases op with
    | announce head => exact hOp.elim
    | _ => rfl
  · refine filterMap_of_looks ?_ hLooks
    rintro ⟨op, choice, before, answer, after⟩ hOp
    cases op with
    | commitsSince branch known => exact hOp.elim
    | _ => rfl

------------------------------------------------------------
-- The Export Of The Rows
------------------------------------------------------------

variable {config : ExportConfig} {s : DoltRepo}

/- Some commits are gone through: the diff of each is asked
   for, and those with a table in it are sent. -/
structure Streams
    (hashes : List String)
    (steps : List PullTaken) : Prop where
  asked :
    diffsAsked steps = hashes.filter fun hash => hash ≠ ""
  sent : sentHashes steps = diffsAnswered steps
  announced : announcedBy steps = []
  listed : logsAnswered steps = []

theorem Streams.append
    {hashes others : List String}
    (hFirst : Streams hashes first)
    (hRest : Streams others rest) :
    Streams (hashes ++ others) (first ++ rest) := by
  constructor
  · rw [diffsAsked_append, hFirst.asked, hRest.asked,
      List.filter_append]
  · rw [sentHashes_append, hFirst.sent, hRest.sent,
      diffsAnswered_append]
  · rw [announcedBy_append, hFirst.announced, hRest.announced,
      List.append_nil]
  · rw [logsAnswered_append, hFirst.listed, hRest.listed,
      List.append_nil]

theorem ends_offStream
    {α : Type}
    {program : ExportProgram α}
    (hOnly : program.Only OnlyLooks) :
    Ends (disturbed (ExportOp.exec config)) program s
      fun steps _ _ => OffStream steps := by
  intro steps outcome t hSolo
  exact offStream_of_looks (hSolo.only hOnly)

/- Reading the diff of a commit takes one operation. -/
structure AsksDiff
    (hash : String)
    (steps : List PullTaken)
    (changed : ChangedTables) : Prop where
  asked : diffsAsked steps = [hash]
  answered :
    diffsAnswered steps =
      if changed.hadAnyDiff then [hash] else []
  sent : sentHashes steps = []
  announced : announcedBy steps = []
  listed : logsAnswered steps = []

theorem ends_asksDiff (hash : String) :
    Ends (disturbed (ExportOp.exec config)) (changedTables hash)
      s fun steps outcome _ =>
        ∀ changed,
          outcome = .ok changed → AsksDiff hash steps changed := by
  unfold changedTables attempted Async.call
  simp only [Async.bind_eq, Async.bind_await,
    Async.bind_returned, Async.catchError_await]
  apply ends_await
  intro choice answer next _
  cases answer with
  | error output =>
      apply ends_returned
      intro changed hChanged
      cases hChanged
      exact ⟨rfl, rfl, rfl, rfl, rfl⟩
  | ok rows =>
      apply ends_returned
      intro changed hChanged
      cases hChanged
      cases rows with
      | nil => exact ⟨rfl, rfl, rfl, rfl, rfl⟩
      | cons row rows => exact ⟨rfl, rfl, rfl, rfl, rfl⟩

theorem ends_streams_row (row : JsonRow) :
    Ends (disturbed (ExportOp.exec config)) (exportCommit row) s
      fun steps outcome _ =>
        outcome = .ok () →
          Streams [row.getD "commit_hash"] steps := by
  unfold exportCommit
  dsimp only
  split_ifs with hNamed
  · apply ends_returned
    intro _
    refine ⟨?_, rfl, rfl, rfl⟩
    rw [hNamed]
    rfl
  refine ends_bind_of (ends_asksDiff _) ?_ ?_
  · intro first changed u hFirst
    have hAsks := hFirst changed rfl
    split_ifs with hDiff
    · have hTables :
          (exportTables (row.getD "commit_hash")
            changed.tables).Only OnlyLooks := by
        apply only_exportTables
        · intro _ _
          trivial
        · intro _ _
          trivial
      refine ends_bind_of (ends_offStream hTables) ?_ ?_
      · intro second exported v hSecond
        apply ends_call
        intro choice answer next _ _
        constructor
        · rw [diffsAsked_append, diffsAsked_append, hAsks.asked,
            hSecond.asked]
          simp [diffsAsked, hNamed]
        · rw [sentHashes_append, sentHashes_append, hAsks.sent,
            hSecond.sent, diffsAnswered_append,
            diffsAnswered_append, hAsks.answered,
            hSecond.answered, if_pos hDiff]
          rfl
        · rw [announcedBy_append, announcedBy_append,
            hAsks.announced, hSecond.announced]
          rfl
        · rw [logsAnswered_append, logsAnswered_append,
            hAsks.listed, hSecond.listed]
          rfl
      · intro second error v _ hOk
        cases hOk
    · apply ends_returned
      intro _
      rw [List.append_nil]
      constructor
      · rw [hAsks.asked]
        simp [hNamed]
      · rw [hAsks.sent, hAsks.answered, if_neg hDiff]
      · exact hAsks.announced
      · exact hAsks.listed
  · intro first error u _ hOk
    cases hOk

theorem ends_streams (rows : List JsonRow) :
    Ends (disturbed (ExportOp.exec config))
      (Async.forEach exportCommit rows) s
      fun steps outcome _ =>
        outcome = .ok () →
          Streams (rows.map fun row => row.getD "commit_hash")
            steps := by
  induction rows generalizing s with
  | nil =>
      apply ends_returned
      intro _
      exact ⟨rfl, rfl, rfl, rfl⟩
  | cons row rows ih =>
      refine ends_bind_of (ends_streams_row row) ?_ ?_
      · intro first _ u hFirst
        refine ends_mono ih ?_
        intro more outcome t hMore hOk
        exact (hFirst rfl).append (hMore hOk)
      · intro first error u _ hOk
        cases hOk

------------------------------------------------------------
-- The Record Of A Pull
------------------------------------------------------------

variable {t : DoltRepo} {branch fromHash : Option String}
variable {repoId head : String} {rows : List JsonRow}

/- The query of a log that is answered with some rows. -/
inductive AnswersLog (rows : List JsonRow) :
    PullTaken → Prop where
  | answered
      (branch : String)
      (known : Option String)
      (choice : Disturbance DoltRepo ExportChoice)
      (before after : DoltRepo) :
      AnswersLog rows
        ⟨.commitsSince branch known, choice, before, .ok rows,
          after⟩

/- What goes before the query that is answered: a head is
   announced, and nothing is sent. -/
structure Opens
    (head : String)
    (steps : List PullTaken) : Prop where
  announced : announcedBy steps = [head]
  sent : sentHashes steps = []
  asked : diffsAsked steps = []
  answered : diffsAnswered steps = []
  listed : logsAnswered steps = []

theorem OffStream.opens
    (hFirst : OffStream first)
    (hRest : Opens head rest) :
    Opens head (first ++ rest) := by
  constructor
  · rw [announcedBy_append, hFirst.announced, hRest.announced,
      List.nil_append]
  · rw [sentHashes_append, hFirst.sent, hRest.sent,
      List.nil_append]
  · rw [diffsAsked_append, hFirst.asked, hRest.asked,
      List.nil_append]
  · rw [diffsAnswered_append, hFirst.answered, hRest.answered,
      List.nil_append]
  · rw [logsAnswered_append, hFirst.listed, hRest.listed,
      List.nil_append]

theorem Opens.append
    (hFirst : Opens head first)
    (hRest : OffStream rest) :
    Opens head (first ++ rest) := by
  constructor
  · rw [announcedBy_append, hFirst.announced, hRest.announced,
      List.append_nil]
  · rw [sentHashes_append, hFirst.sent, hRest.sent,
      List.append_nil]
  · rw [diffsAsked_append, hFirst.asked, hRest.asked,
      List.append_nil]
  · rw [diffsAnswered_append, hFirst.answered, hRest.answered,
      List.append_nil]
  · rw [logsAnswered_append, hFirst.listed, hRest.listed,
      List.append_nil]

/- A query of the log, perhaps a second one, is answered. -/
def ListsRows
    (steps : List PullTaken)
    (rows : List JsonRow) : Prop :=
  ∃ before log,
    steps = before ++ [log] ∧ OffStream before ∧
      AnswersLog rows log

theorem ListsRows.after
    (hFirst : OffStream first)
    (hRest : ListsRows rest rows) :
    ListsRows (first ++ rest) rows := by
  rcases hRest with ⟨before, log, hSteps, hBefore, hLog⟩
  refine ⟨first ++ before, log, ?_, hFirst.append hBefore, hLog⟩
  rw [hSteps, List.append_assoc]

theorem ends_listsRows
    (branch : String)
    (known : Option String) :
    Ends (disturbed (ExportOp.exec config))
      (queryCommits branch known) s fun steps outcome _ =>
        match outcome with
        | .ok rows => ListsRows steps rows
        | .error _ => OffStream steps := by
  apply ends_bind
  apply ends_call
  intro choice answer next _
  cases answer with
  | ok rows =>
      apply ends_returned
      refine ⟨[], _, rfl, ?_, .answered _ _ _ _ _⟩
      exact ⟨rfl, rfl, rfl, rfl, rfl⟩
  | error output =>
      apply ends_threw
      exact ⟨rfl, rfl, rfl, rfl, rfl⟩

theorem ends_listsRowsSince
    (branch : String)
    (fromHash : Option String) :
    Ends (disturbed (ExportOp.exec config))
      (queryCommitsSince branch fromHash) s
      fun steps outcome _ =>
        ∀ rows, outcome = .ok rows → ListsRows steps rows := by
  unfold queryCommitsSince
  split
  · refine ends_mono (ends_listsRows branch none) ?_
    intro steps outcome t hLists rows hOk
    rw [hOk] at hLists
    exact hLists
  · rename_i known _
    apply ends_bind
    apply ends_catchError
    apply ends_bind
    refine ends_mono (ends_listsRows branch (some known)) ?_
    intro first outcome u hFirst
    cases outcome with
    | ok rows =>
        apply ends_returned
        apply ends_returned
        intro found hFound
        cases hFound
        rw [List.append_nil, List.append_nil]
        exact hFirst
    | error error =>
        apply ends_returned
        refine ends_mono (ends_listsRows branch none) ?_
        intro more outcome t hMore rows hOk
        rw [hOk] at hMore
        rw [List.append_nil]
        exact hMore.after hFirst

/- A head is announced, the log is answered, and its rows are
   streamed. -/
structure Exported
    (head : String)
    (rows : List JsonRow)
    (first : List PullTaken)
    (log : PullTaken)
    (rest : List PullTaken) : Prop where
  opens : Opens head first
  answers : AnswersLog rows log
  streams :
    Streams (rows.map fun row => row.getD "commit_hash") rest

def IsExport (steps : List PullTaken) : Prop :=
  ∃ head rows first log rest,
    steps = first ++ log :: rest ∧
      Exported head rows first log rest

theorem ends_isExport
    (repoId : String)
    (branch fromHash : Option String) :
    Ends (disturbed (ExportOp.exec config))
      (pullCommits repoId branch fromHash) s
      fun steps outcome _ =>
        outcome = .ok () → IsExport steps := by
  have hRequire :
      (CommitExport.requireRepo repoId).Only OnlyLooks :=
    only_requireExportRepo trivial
  have hHead :
      (getBranchHead repoId (branch.getD "main")).Only
        OnlyLooks := by
    apply Async.only_bind hRequire
    intro _
    exact Async.only_call.mpr trivial
  refine ends_bind_of (ends_offStream hHead) ?_ ?_
  · intro asked head u hAsked
    cases head with
    | none =>
        apply ends_threw
        intro hOk
        cases hOk
    | some head =>
        apply ends_bind
        apply ends_call
        intro choice answer v _
        refine ends_bind_of (ends_offStream hRequire) ?_ ?_
        · intro again _ w hAgain
          refine ends_bind_of (ends_listsRowsSince _ fromHash) ?_ ?_
          · intro listed rows x hListed
            rcases hListed rows rfl with
              ⟨before, log, hSteps, hBefore, hLog⟩
            refine ends_mono (ends_streams rows) ?_
            intro sent outcome t hSent hOk
            have hAnnounced :
                Opens head
                  ([⟨.announce head, choice, u, answer, v⟩] :
                    List PullTaken) :=
              ⟨rfl, rfl, rfl, rfl, rfl⟩
            refine
              ⟨head, rows,
                asked ++
                  ([⟨.announce head, choice, u, answer, v⟩] ++
                    (again ++ before)),
                log, sent, ?_, ?_, hLog, hSent hOk⟩
            · rw [hSteps]
              simp only [List.append_assoc, List.cons_append,
                List.nil_append]
            · apply hAsked.opens
              exact hAnnounced.append (hAgain.append hBefore)
          · intro listed error x _ hOk
            cases hOk
        · intro again error w _ hOk
          cases hOk
  · intro asked error u _ hOk
    cases hOk

variable {dolt : DoltConfig} {log : PullTaken}

/- What an operation finds is still there at the end. -/
theorem written_of_among
    {α : Type}
    {program : ExportProgram α}
    {outcome : Except ExportError α}
    (hAmong : Among dolt s steps)
    (hSolo :
      Solo (disturbed (ExportOp.exec config)) program s steps
        outcome t) :
    Written dolt s t ∧
      ∀ step ∈ steps, Written dolt step.choice.found t := by
  induction hSolo with
  | returned value s =>
      refine ⟨.refl, ?_⟩
      intro step hMember
      cases hMember
  | threw error s =>
      refine ⟨.refl, ?_⟩
      intro step hMember
      cases hMember
  | @await op resume choice answer s next t steps outcome
      hExec _ ih =>
      unfold Among at hAmong
      rw [List.map_cons, List.isChain_cons_cons] at hAmong
      have hSame : next = choice.found :=
        ExportOp.repo_of_exec hExec
      rw [hSame] at ih
      rcases ih hAmong.2 with ⟨hNow, hLater⟩
      refine ⟨hAmong.1.trans hNow, ?_⟩
      intro step hMember
      rcases List.mem_cons.mp hMember with hFirst | hRest
      · rw [hFirst]
        exact hNow
      · exact hLater step hRest

/- Others have only written between two operations. -/
theorem written_between
    (hAmong : Among dolt s (first ++ log :: rest)) :
    Written dolt s log.choice.found ∧
      ∀ step ∈ rest,
        Written dolt log.choice.found step.choice.found := by
  have hTrans :
      Trans (Written dolt) (Written dolt) (Written dolt) :=
    ⟨Relation.ReflTransGen.trans⟩
  have hPairs := List.IsChain.pairwise hAmong
  rw [List.pairwise_cons, List.map_append, List.map_cons]
    at hPairs
  constructor
  · apply hPairs.1
    exact List.mem_append_right _ List.mem_cons_self
  · have hRest :=
      (List.pairwise_cons.mp
        (List.pairwise_append.mp hPairs.2).2.1).1
    intro step hMember
    exact hRest _ (List.mem_map_of_mem hMember)

------------------------------------------------------------
-- Commits With A Diff
------------------------------------------------------------

variable {choice : ExportChoice} {repo next : DoltRepo}
variable {hash : String}
variable {before after : Tables}

theorem parentTables_keeps
    {commit : Commit}
    (hKeeps : repo.KeepsHistory next)
    (hParent : repo.parentTables commit = some before) :
    next.parentTables commit = some before := by
  unfold DoltRepo.parentTables at hParent ⊢
  rw [Option.bind_eq_some_iff] at hParent ⊢
  rcases hParent with ⟨parent, hHead, hTables⟩
  rw [Option.map_eq_some_iff] at hTables
  rcases hTables with ⟨found, hFound, hSame⟩
  refine ⟨parent, hHead, ?_⟩
  rw [hKeeps _ _ hFound, ← hSame]
  rfl

/- A recorded commit has its diff for good. -/
theorem bearsDiff_keeps
    (hRecorded : repo.Recorded)
    (hKeeps : repo.KeepsHistory next)
    (hHas : repo.Has hash) :
    next.BearsDiff hash ↔ repo.BearsDiff hash := by
  rcases Option.isSome_iff_exists.mp hHas with
    ⟨commit, hFind⟩
  constructor
  · rintro ⟨found, before, hFound, hParent, hName⟩
    rw [hKeeps _ _ hFind] at hFound
    cases hFound
    refine ⟨commit, before, hFind, ?_, hName⟩
    have hOwn : ∃ own, repo.parentTables commit = some own := by
      unfold DoltRepo.parentTables at hParent ⊢
      rw [Option.bind_eq_some_iff] at hParent
      rcases hParent with ⟨parent, hHead, _⟩
      rw [hHead, Option.bind_some]
      have hMember : parent ∈ commit.parents :=
        List.mem_of_head? hHead
      rcases
          Option.isSome_iff_exists.mp
            (hRecorded.parents hash commit hFind parent hMember)
        with ⟨found, hFound⟩
      rw [hFound]
      exact ⟨_, rfl⟩
    rcases hOwn with ⟨own, hOwn⟩
    rw [parentTables_keeps hKeeps hOwn] at hParent
    rw [hOwn, hParent]
  · rintro ⟨found, before, hFound, hParent, hName⟩
    exact
      ⟨found, before, hKeeps _ _ hFound,
        parentTables_keeps hKeeps hParent, hName⟩

theorem mem_changedNames
    {name : String} :
    name ∈ changedNames before after ↔
      after.find name ≠ none ∧
        after.find name ≠ before.find name := by
  unfold changedNames
  rw [List.mem_filter, List.mem_dedup, decide_eq_true_eq]
  constructor
  · exact And.right
  · intro hChanged
    exact ⟨after.covered name hChanged.1, hChanged⟩

theorem mem_droppedNames
    {name : String} :
    name ∈ droppedNames before after ↔
      before.find name ≠ none ∧ after.find name = none := by
  unfold droppedNames
  rw [List.mem_filter, List.mem_dedup, decide_eq_true_eq]
  constructor
  · exact And.right
  · intro hDropped
    exact ⟨before.covered name hDropped.1, hDropped⟩

/- A diff has rows just when some table is not the same. -/
theorem names_ne_nil_iff
    {names : List String}
    (hNames : diffNames names before after = true) :
    names ≠ [] ↔
      ∃ name, after.find name ≠ before.find name := by
  unfold diffNames at hNames
  simp only [Bool.and_eq_true, decide_eq_true_eq] at hNames
  rcases hNames with ⟨⟨hPerm, hDrops⟩, hBound⟩
  have hMember (name : String) :
      name ∈ names.filter (fun name => name ≠ "") ↔
        name ∈ changedNames before after :=
    (List.isPerm_iff.mp hPerm).mem_iff
  constructor
  · intro hSome
    rcases List.exists_mem_of_ne_nil names hSome with
      ⟨name, hName⟩
    by_cases hDropped : name = ""
    · have hCount : 0 < names.count "" := by
        rw [List.count_pos_iff, ← hDropped]
        exact hName
      have hLength :
          0 < (droppedNames before after).length := by
        omega
      rcases List.exists_mem_of_length_pos hLength with
        ⟨gone, hGone⟩
      rw [mem_droppedNames] at hGone
      refine ⟨gone, ?_⟩
      rw [hGone.2]
      exact hGone.1.symm
    · have hChanged : name ∈ changedNames before after := by
        rw [← hMember, List.mem_filter]
        exact ⟨hName, decide_eq_true hDropped⟩
      exact ⟨name, (mem_changedNames.mp hChanged).2⟩
  · rintro ⟨name, hDiffers⟩ hNil
    subst hNil
    have hNone : changedNames before after = [] := by
      rw [List.eq_nil_iff_forall_not_mem]
      intro other hOther
      rw [← hMember] at hOther
      cases hOther
    have hNoDrop : droppedNames before after = [] := by
      unfold addedNames at hBound
      rw [hNone] at hBound
      exact List.eq_nil_of_length_eq_zero (Nat.le_zero.mp hBound)
    by_cases hAfter : after.find name = none
    · have hDropped : name ∈ droppedNames before after := by
        rw [mem_droppedNames]
        refine ⟨?_, hAfter⟩
        rw [hAfter] at hDiffers
        exact hDiffers.symm
      rw [hNoDrop] at hDropped
      cases hDropped
    · have hChanged : name ∈ changedNames before after :=
        mem_changedNames.mpr ⟨hAfter, hDiffers⟩
      rw [hNone] at hChanged
      cases hChanged

/- A query of the diff that does not fail has rows just when
   the commit has a diff. -/
theorem rows_iff_bearsDiff
    {answer : Except String (List JsonRow)}
    (hAnswer : diffAnswer choice repo hash = some answer) :
    (∃ row rows, answer = .ok (row :: rows)) ↔
      repo.BearsDiff hash := by
  constructor
  · rintro ⟨row, rows, hRows⟩
    rw [hRows] at hAnswer
    rcases rows_of_diffAnswer hAnswer with
      ⟨commit, before, hFind, hParent, hDiff, hNames⟩
    refine ⟨commit, before, hFind, hParent, ?_⟩
    rw [← names_ne_nil_iff hDiff, ← hNames]
    exact List.cons_ne_nil _ _
  · rintro ⟨commit, before, hFind, hParent, hDiffers⟩
    unfold diffAnswer at hAnswer
    rw [hFind] at hAnswer
    dsimp only at hAnswer
    rw [hParent] at hAnswer
    dsimp only at hAnswer
    split at hAnswer
    · rename_i hDiff
      cases hAnswer
      have hSome := (names_ne_nil_iff hDiff).mpr hDiffers
      rcases List.exists_cons_of_ne_nil hSome with
        ⟨name, names, hNames⟩
      rw [hNames]
      exact ⟨_, _, rfl⟩
    · cases hAnswer

variable {repo : DoltRepo}
variable {hash : String} {rows : List JsonRow}
variable {order : List String}
variable {head : Commit} {known : Option Commit}

theorem order_of_logRows
    (hRows : repo.logRows order head known = some rows) :
    order.Perm ((repo.missingFrom head known).map Commit.hash) ∧
      repo.ancestorsFirst order = true ∧
      (rows.map fun row => row.getD "commit_hash") = order := by
  unfold DoltRepo.logRows at hRows
  split at hRows
  · rename_i hOrder
    rw [Bool.and_eq_true] at hOrder
    cases hRows
    have hPerm := List.isPerm_iff.mp hOrder.1
    refine ⟨hPerm, hOrder.2, ?_⟩
    rw [hashes_filterMap_find?, List.filter_eq_self]
    intro hash hMember
    rw [hPerm.mem_iff] at hMember
    rcases List.mem_map.mp hMember with ⟨commit, hCommit, hHash⟩
    have hRow : commit ∈ repo.commits.rows := by
      unfold DoltRepo.missingFrom DoltRepo.ancestors at hCommit
      exact List.mem_of_mem_filter (List.mem_of_mem_filter hCommit)
    rw [Option.isSome_iff_exists]
    exact
      ⟨commit, KeyedTable.find?_eq_some_iff.mpr ⟨hRow, hHash⟩⟩
  · cases hRows

/- The rows are the commits that the head has and the other
   commit has not. -/
theorem mem_rows_iff
    (hRecorded : repo.Recorded)
    (hHead : repo.Has head.hash)
    (hRows : repo.logRows order head known = some rows) :
    hash ∈ rows.map (fun row => row.getD "commit_hash") ↔
      repo.Missing head.hash (known.map Commit.hash) hash := by
  rcases order_of_logRows hRows with ⟨hPerm, _, hOrder⟩
  have hKnown (commit : Commit) :
      (known.all fun known =>
          !repo.isAncestor commit.hash known.hash) = true ↔
        ∀ cut ∈ known.map Commit.hash,
          ¬ repo.Reaches cut commit.hash := by
    cases known with
    | none => simp
    | some known => simp [← isAncestor_iff]
  rw [hOrder, hPerm.mem_iff, List.mem_map]
  unfold DoltRepo.missingFrom DoltRepo.ancestors
  constructor
  · rintro ⟨commit, hCommit, hHash⟩
    rw [List.mem_filter, List.mem_filter, isAncestor_iff, hKnown]
      at hCommit
    rw [← hHash]
    exact ⟨hCommit.1.2, hCommit.2⟩
  · rintro ⟨hReaches, hNot⟩
    have hHas : repo.Has hash := hReaches.has hRecorded hHead
    rcases Option.isSome_iff_exists.mp hHas with ⟨commit, hFind⟩
    rcases KeyedTable.find?_eq_some_iff.mp hFind with
      ⟨hRow, hHash⟩
    refine ⟨commit, ?_, hHash⟩
    rw [List.mem_filter, List.mem_filter, isAncestor_iff, hKnown,
      hHash]
    exact ⟨⟨hRow, hReaches⟩, hNot⟩

/- What a reference names is recorded. -/
theorem has_of_resolve
    {ref : String}
    (hRecorded : repo.Recorded)
    (hResolve : repo.resolve ref = some head) :
    repo.Has head.hash := by
  unfold DoltRepo.resolve at hResolve
  unfold DoltRepo.Has
  cases hBranch : repo.heads ref with
  | some found =>
      rw [hBranch] at hResolve
      cases hResolve
      rw [hRecorded.heads ref head hBranch]
      rfl
  | none =>
      rw [hBranch] at hResolve
      have hFind : repo.commits.find? ref = some head := hResolve
      rw [KeyedTable.key_of_find? hFind, hFind]
      rfl

/- Once a commit is listed, none of its ancestors is. -/
theorem getLast?_of_ancestors
    {tip : String}
    (hFirst : repo.ancestorsFirst order = true)
    {sent : List String}
    (hSent : sent.Sublist order)
    (hMember : tip ∈ sent)
    (hBelow : ∀ hash ∈ sent, repo.Reaches tip hash) :
    sent.getLast? = some tip := by
  have hOrder := of_decide_eq_true hFirst
  have hPairs :
      sent.Pairwise fun earlier later =>
        repo.isAncestor later earlier = false :=
    List.Pairwise.sublist hSent hOrder
  rcases List.append_of_mem hMember with ⟨before, after, hSplit⟩
  cases after with
  | nil =>
      rw [hSplit, List.getLast?_concat]
  | cons later more =>
      exfalso
      rw [hSplit, List.pairwise_append, List.pairwise_cons]
        at hPairs
      have hNot := hPairs.2.1.1 later List.mem_cons_self
      have hLater : later ∈ sent := by
        rw [hSplit]
        simp
      rw [isAncestor_iff.mpr (hBelow later hLater)] at hNot
      cases hNot

------------------------------------------------------------
-- The Snapshot Of A Pull
------------------------------------------------------------

variable {config : ExportConfig} {dolt : DoltConfig}
variable {s t : DoltRepo}
variable {steps first rest : List PullTaken}
variable {log : PullTaken}
variable {repoId head hash : String}
variable {branch fromHash : Option String}
variable {rows : List JsonRow}

theorem eq_of_nodup_filterMap
    {α β : Type}
    {part : α → Option β}
    {elements : List α}
    {x y : α}
    (b : β)
    (hNodup : (elements.filterMap part).Nodup)
    (hX : x ∈ elements)
    (hY : y ∈ elements)
    (hPartX : part x = some b)
    (hPartY : part y = some b) :
    x = y := by
  induction elements with
  | nil => cases hX
  | cons element rest ih =>
      have hLater {z : α}
          (hZ : z ∈ rest)
          (hPartZ : part z = some b) :
          b ∈ rest.filterMap part :=
        List.mem_filterMap.mpr ⟨z, hZ, hPartZ⟩
      rw [List.mem_cons] at hX hY
      rcases hX with hX | hX
      · rcases hY with hY | hY
        · rw [hX, hY]
        · rw [hX] at hPartX
          rw [List.filterMap_cons_some hPartX,
            List.nodup_cons] at hNodup
          exact absurd (hLater hY hPartY) hNodup.1
      · rcases hY with hY | hY
        · rw [hY] at hPartY
          rw [List.filterMap_cons_some hPartY,
            List.nodup_cons] at hNodup
          exact absurd (hLater hX hPartX) hNodup.1
        · refine ih (hNodup.sublist ?_) hX hY
          exact (List.sublist_cons_self _ _).filterMap part

/- The query of the log that is answered. -/
structure LogFound
    (steps : List PullTaken)
    (rows : List JsonRow)
    (order : List String)
    (found : DoltRepo) : Prop where
  recorded : found.Recorded
  listed :
    ∃ branch known tip left,
      logsAnswered steps = [(found, branch, known)] ∧
        found.resolve branch = some tip ∧
        found.Known known left ∧
        found.logRows order tip left = some rows

/- What a query of a diff finds: the history of the log and
   perhaps more. -/
structure DiffFound
    (config : ExportConfig)
    (found last : DoltRepo)
    (step : PullTaken) : Prop where
  recorded : step.choice.found.Recorded
  since : found.KeepsHistory step.choice.found
  lasts : step.choice.found.KeepsHistory last
  performed :
    step.op.exec config step.choice.choice step.choice.found =
      some (step.answer, step.after)

/- The record of a pull, by what is announced, what is listed
   and which diffs are asked for. -/
structure Snapshot
    (config : ExportConfig)
    (steps : List PullTaken)
    (last : DoltRepo)
    (head : String)
    (rows : List JsonRow)
    (order : List String)
    (found : DoltRepo) : Prop where
  announced : announcedBy steps = [head]
  sent : sentHashes steps = diffsAnswered steps
  asked :
    diffsAsked steps =
      (rows.map fun row => row.getD "commit_hash").filter
        fun hash => hash ≠ ""
  log : LogFound steps rows order found
  keeps : found.KeepsHistory last
  diffs :
    ∀ step ∈ steps, ∀ hash,
      step.op = .diffSummary hash →
        DiffFound config found last step

theorem mem_diffsAsked :
    hash ∈ diffsAsked steps ↔
      ∃ step ∈ steps, step.op = .diffSummary hash := by
  unfold diffsAsked
  rw [List.mem_filterMap]
  constructor
  · rintro ⟨step, hMember, hHash⟩
    refine ⟨step, hMember, ?_⟩
    cases hOp : step.op with
    | diffSummary other =>
        rw [hOp] at hHash
        cases hHash
        rfl
    | _ =>
        rw [hOp] at hHash
        cases hHash
  · rintro ⟨step, hMember, hOp⟩
    refine ⟨step, hMember, ?_⟩
    rw [hOp]

theorem mem_diffsAnswered :
    hash ∈ diffsAnswered steps ↔
      ∃ choice before row rows after,
        ⟨.diffSummary hash, choice, before, .ok (row :: rows),
            after⟩ ∈ steps := by
  unfold diffsAnswered
  rw [List.mem_filterMap]
  constructor
  · rintro ⟨⟨op, choice, before, answer, after⟩, hMember, hHash⟩
    cases op with
    | diffSummary other =>
        cases answer with
        | error output => cases hHash
        | ok rows =>
            cases rows with
            | nil => cases hHash
            | cons row rows =>
                cases hHash
                exact ⟨_, _, _, _, _, hMember⟩
    | _ => cases hHash
  · rintro ⟨choice, before, row, rows, after, hMember⟩
    exact ⟨_, hMember, rfl⟩

/- What is sent comes in the order in which it is asked for. -/
theorem answered_sublist (steps : List PullTaken) :
    (diffsAnswered steps).Sublist (diffsAsked steps) := by
  induction steps with
  | nil => exact List.Sublist.refl _
  | cons step steps ih =>
      rcases step with ⟨op, choice, before, answer, after⟩
      cases op with
      | diffSummary hash =>
          cases answer with
          | error output => exact ih.cons hash
          | ok rows =>
              cases rows with
              | nil => exact ih.cons hash
              | cons row rows => exact ih.cons_cons hash
      | _ => exact ih

theorem snapshot_of_exported
    (hRecords : dolt.Records)
    (hRecorded : s.Recorded)
    (hAmong : Among dolt s (first ++ log :: rest))
    (hSolo :
      Solo (disturbed (ExportOp.exec config))
        (pullCommits repoId branch fromHash) s
        (first ++ log :: rest) (.ok ()) t)
    (hExported : Exported head rows first log rest) :
    Snapshot config (first ++ log :: rest) t head rows
      log.choice.choice.order log.choice.found := by
  rcases hExported with ⟨hOpens, hLog, hStreams⟩
  have hBetween := written_between hAmong
  have hEnd := (written_of_among hAmong hSolo).2
  have hFound : log.choice.found.Recorded :=
    recorded_written hRecords hRecorded hBetween.1
  have hMember : log ∈ first ++ log :: rest :=
    List.mem_append_right _ List.mem_cons_self
  have hPerformed := hSolo.performed
  have hRan := hPerformed log hMember
  rcases hLog with ⟨branch, known, choice, before, after⟩
  have hSplit :
      ∀ step : PullTaken,
        step ∈ first ++
            (⟨.commitsSince branch known, choice, before,
              .ok rows, after⟩ : PullTaken) :: rest →
          ∀ hash, step.op = .diffSummary hash → step ∈ rest := by
    intro step hStep hash hOp
    rcases List.mem_append.mp hStep with hIn | hIn
    · have hAsked : hash ∈ diffsAsked first :=
        mem_diffsAsked.mpr ⟨step, hIn, hOp⟩
      rw [hOpens.asked] at hAsked
      cases hAsked
    · rcases List.mem_cons.mp hIn with hSame | hLater
      · rw [hSame] at hOp
        cases hOp
      · exact hLater
  constructor
  · rw [announcedBy_append, hOpens.announced]
    have hRest := hStreams.announced
    unfold announcedBy at hRest ⊢
    simp [hRest]
  · rw [sentHashes_append, hOpens.sent, diffsAnswered_append,
      hOpens.answered]
    exact hStreams.sent
  · rw [diffsAsked_append, hOpens.asked]
    exact hStreams.asked
  · refine ⟨hFound, ?_⟩
    rcases logRows_of_commitsSince hRan with
      ⟨tip, left, hTip, hLeft, hRows⟩
    refine ⟨branch, known, tip, left, ?_, hTip, hLeft, hRows⟩
    rw [logsAnswered_append, hOpens.listed]
    have hRest := hStreams.listed
    unfold logsAnswered at hRest ⊢
    simp [hRest]
  · exact (hEnd _ hMember).keeps
  · intro step hStep hash hOp
    have hLater := hSplit step hStep hash hOp
    have hSince := hBetween.2 step hLater
    exact
      { recorded := recorded_written hRecords hFound hSince
        since := hSince.keeps
        lasts := (hEnd step hStep).keeps
        performed := hPerformed step hStep }

theorem exists_snapshot
    (hRecords : dolt.Records)
    (hRecorded : s.Recorded)
    (hAmong : Among dolt s steps)
    (hSolo :
      Solo (disturbed (ExportOp.exec config))
        (pullCommits repoId branch fromHash) s steps (.ok ())
        t) :
    ∃ head rows order found,
      Snapshot config steps t head rows order found := by
  rcases ends_isExport repoId branch fromHash _ _ _ hSolo rfl with
    ⟨head, rows, first, log, rest, hSteps, hExported⟩
  subst hSteps
  exact
    ⟨head, rows, _, _,
      snapshot_of_exported hRecords hRecorded hAmong hSolo
        hExported⟩

variable {config : ExportConfig}
variable {last found : DoltRepo}
variable {steps : List PullTaken}
variable {head hash : String}
variable {rows : List JsonRow} {order : List String}

theorem LogFound.lists_iff
    (hLog : LogFound steps rows order found) :
    Lists steps hash ↔
      hash ∈ rows.map fun row => row.getD "commit_hash" := by
  rcases hLog.listed with
    ⟨branch, known, tip, left, hOnly, hTip, hLeft, hRows⟩
  have hHas := has_of_resolve hLog.recorded hTip
  rw [mem_rows_iff hLog.recorded hHas hRows]
  unfold Lists
  rw [hOnly]
  constructor
  · rintro ⟨other, name, cut, end_, kept, hSame, hResolve, hKnown,
      hMissing⟩
    cases List.mem_singleton.mp hSame
    rw [hTip] at hResolve
    cases hResolve
    have hKept : kept = left := by
      unfold DoltRepo.Known at hKnown hLeft
      rw [hLeft] at hKnown
      exact
        Option.map_injective (fun _ _ => Option.some.inj)
          hKnown.symm
    rw [hKept] at hMissing
    exact hMissing
  · intro hMissing
    exact
      ⟨found, branch, known, tip, left, List.mem_singleton_self _,
        hTip, hLeft, hMissing⟩

theorem LogFound.nodup
    (hLog : LogFound steps rows order found) :
    (rows.map fun row => row.getD "commit_hash").Nodup := by
  rcases hLog.listed with ⟨_, _, _, _, _, _, _, hRows⟩
  exact nodup_logRows hRows

theorem LogFound.has
    (hLog : LogFound steps rows order found)
    (hMember :
      hash ∈ rows.map fun row => row.getD "commit_hash") :
    found.Has hash := by
  rcases hLog.listed with
    ⟨branch, known, tip, left, _, hTip, _, hRows⟩
  have hHas := has_of_resolve hLog.recorded hTip
  rw [mem_rows_iff hLog.recorded hHas hRows] at hMember
  exact hMember.1.has hLog.recorded hHas

theorem Snapshot.nodup_asked
    (hSnapshot :
      Snapshot config steps last head rows order found) :
    (diffsAsked steps).Nodup := by
  rw [hSnapshot.asked]
  exact hSnapshot.log.nodup.filter _

/- The diff of a commit is asked for once. -/
theorem Snapshot.asked_once
    (hSnapshot :
      Snapshot config steps last head rows order found)
    {step other : PullTaken}
    (hStep : step ∈ steps)
    (hOther : other ∈ steps)
    (hOp : step.op = .diffSummary hash)
    (hSame : other.op = .diffSummary hash) :
    step = other := by
  have hNodup := hSnapshot.nodup_asked
  unfold diffsAsked at hNodup
  refine eq_of_nodup_filterMap hash hNodup hStep hOther ?_ ?_
  · rw [hOp]
  · rw [hSame]

/- What is sent: the commits that are listed and have a diff,
   unless the diff is asked for in vain. -/
theorem Snapshot.sent_iff
    (hSnapshot :
      Snapshot config steps last head rows order found) :
    hash ∈ sentHashes steps ↔
      last.BearsDiff hash ∧ Lists steps hash ∧
        ¬ DiffFails steps hash := by
  rw [hSnapshot.sent, hSnapshot.log.lists_iff]
  constructor
  · intro hSent
    have hAsked := (answered_sublist steps).subset hSent
    rw [hSnapshot.asked, List.mem_filter] at hAsked
    rcases mem_diffsAnswered.mp hSent with
      ⟨choice, before, row, others, after, hStep⟩
    have hFound := hSnapshot.diffs _ hStep hash rfl
    have hHas :=
      hFound.since.has (hSnapshot.log.has hAsked.1)
    have hWorks : choice.choice.fails = false := by
      by_contra hFails
      have hRan := hFound.performed
      dsimp only at hRan
      rw [Bool.not_eq_false] at hFails
      simp only [ExportOp.exec, hFails, if_true] at hRan
      cases hRan
    refine ⟨?_, hAsked.1, ?_⟩
    · rw [bearsDiff_keeps hFound.recorded hFound.lasts hHas]
      have hRan := hFound.performed
      simp only [ExportOp.exec, hWorks, Bool.false_eq_true,
        if_false] at hRan
      rw [Option.map_eq_some_iff] at hRan
      rcases hRan with ⟨answer, hAnswer, hSame⟩
      cases hSame
      exact (rows_iff_bearsDiff hAnswer).mp ⟨row, others, rfl⟩
    · rintro ⟨other, hOther, hOp, hFails⟩
      have hOnce :=
        hSnapshot.asked_once hStep hOther rfl hOp
      rw [← hOnce, hWorks] at hFails
      cases hFails
  · rintro ⟨hBears, hListed, hAnswered⟩
    have hHas := hSnapshot.log.has hListed
    have hNamed : hash ≠ "" := by
      intro hEmpty
      rw [hEmpty] at hHas
      exact hSnapshot.log.recorded.named hHas
    have hAsked : hash ∈ diffsAsked steps := by
      rw [hSnapshot.asked, List.mem_filter]
      exact ⟨hListed, decide_eq_true hNamed⟩
    rcases mem_diffsAsked.mp hAsked with ⟨step, hStep, hOp⟩
    have hFound := hSnapshot.diffs step hStep hash hOp
    have hWorks : step.choice.choice.fails = false := by
      by_contra hFails
      apply hAnswered
      exact ⟨step, hStep, hOp, by simpa using hFails⟩
    rw [bearsDiff_keeps hFound.recorded hFound.lasts
      (hFound.since.has hHas)] at hBears
    rw [mem_diffsAnswered]
    rcases step with ⟨op, choice, before, answer, after⟩
    cases hOp
    have hRan := hFound.performed
    dsimp only at hWorks
    simp only [ExportOp.exec, hWorks, Bool.false_eq_true,
      if_false] at hRan
    rw [Option.map_eq_some_iff] at hRan
    rcases hRan with ⟨given, hGiven, hSame⟩
    cases hSame
    rcases (rows_iff_bearsDiff hGiven).mpr hBears with
      ⟨row, others, hRows⟩
    subst hRows
    exact ⟨choice, before, row, others, _, hStep⟩

theorem Snapshot.nodup_sent
    (hSnapshot :
      Snapshot config steps last head rows order found) :
    (sentHashes steps).Nodup := by
  rw [hSnapshot.sent]
  exact hSnapshot.nodup_asked.sublist (answered_sublist steps)

/- The announced head comes last, if what is sent is of it. -/
theorem Snapshot.head_last
    (hSnapshot :
      Snapshot config steps last head rows order found)
    (hSent : head ∈ sentHashes steps)
    (hOf : ∀ hash ∈ sentHashes steps, last.Reaches head hash) :
    (sentHashes steps).getLast? = some head := by
  rcases hSnapshot.log.listed with
    ⟨_, _, tip, left, _, _, _, hRows⟩
  rcases order_of_logRows hRows with ⟨_, hFirst, hOrder⟩
  have hListed :=
    hSnapshot.log.lists_iff.mp (hSnapshot.sent_iff.mp hSent).2.1
  have hHas := hSnapshot.log.has hListed
  refine getLast?_of_ancestors hFirst ?_ hSent ?_
  · rw [hSnapshot.sent, ← hOrder]
    refine (answered_sublist steps).trans ?_
    rw [hSnapshot.asked]
    exact List.filter_sublist
  · intro hash hMember
    rw [← reaches_keeps hSnapshot.log.recorded hSnapshot.keeps
      hHas]
    exact hOf hash hMember

/-
  Whatever others do to the repository while a pull is served:
  the commits that are sent are those of the announced head
  just when the branch has the same ones when its log is read,
  and no diff of them is asked for in vain.
-/
theorem pull_consistent_iff
    {dolt : DoltConfig}
    {s t : DoltRepo}
    {repoId : String}
    {branch fromHash : Option String}
    (hRecords : dolt.Records)
    (hRecorded : s.Recorded)
    (hAmong : Among dolt s steps)
    (hSolo :
      Solo (disturbed (ExportOp.exec config))
        (pullCommits repoId branch fromHash) s steps (.ok ())
        t) :
    ∃ head,
      announcedBy steps = [head] ∧
        (Consistent t head fromHash (sentHashes steps) ↔
          Steady t head fromHash steps) := by
  rcases exists_snapshot hRecords hRecorded hAmong hSolo with
    ⟨head, rows, order, found, hSnapshot⟩
  refine ⟨head, hSnapshot.announced, ?_⟩
  constructor
  · intro hConsistent
    constructor
    · intro hash hBears hMissing
      have hSent := (hConsistent.exact hash).mpr ⟨hMissing, hBears⟩
      exact (hSnapshot.sent_iff.mp hSent).2.1
    · intro hash hBears hMissing
      have hSent := (hConsistent.exact hash).mpr ⟨hMissing, hBears⟩
      exact (hSnapshot.sent_iff.mp hSent).2.2
    · intro hash hBears hListed hAnswered
      have hSent :=
        hSnapshot.sent_iff.mpr ⟨hBears, hListed, hAnswered⟩
      exact ((hConsistent.exact hash).mp hSent).1
  · intro hSteady
    have hExact (hash : String) :
        hash ∈ sentHashes steps ↔
          t.Missing head fromHash hash ∧ t.BearsDiff hash := by
      rw [hSnapshot.sent_iff]
      constructor
      · rintro ⟨hBears, hListed, hAnswered⟩
        exact
          ⟨hSteady.noOther hash hBears hListed hAnswered, hBears⟩
      · rintro ⟨hMissing, hBears⟩
        exact
          ⟨hBears, hSteady.listed hash hBears hMissing,
            hSteady.answered hash hBears hMissing⟩
    constructor
    · exact hSnapshot.nodup_sent
    · exact hExact
    · intro hSent
      apply hSnapshot.head_last hSent
      intro hash hMember
      exact ((hExact hash).mp hMember).1.1

end Versioning

------------------------------------------------------------
-- A Commit After The Head Was Read
------------------------------------------------------------

namespace Versioning

namespace TwoCommits

open Concurrency Relational

/- A second table is staged. -/
def orderTables : Tables :=
  userTables.set "orders"
    { schema := "CREATE TABLE orders", data := "id\n7\n" }

def behind : DoltRepo :=
  repo.setStaged orderTables

/- Another writer commits it. -/
def writes : DoltStatement :=
  .commit "bob" "orders"

def writesAs : DoltChoice where
  fails := false
  text := ""
  hash := "c2"

def ahead : DoltRepo :=
  match writes.run oneTable writesAs behind with
  | some result => result.2
  | none => behind

theorem written_ahead : Written oneTable behind ahead :=
  .single ⟨writes, writesAs, .ok (), rfl⟩

theorem recorded_behind : behind.Recorded := by
  constructor
  · intro branch head hHead
    have hMain :
        (if branch = "main" then some addsUsers else none) =
          some head :=
      hHead
    split_ifs at hMain
    cases hMain
    rfl
  · intro hash commit hFind parent hParent
    rcases listed_of_find? hFind with hCommit | hCommit
    · subst hCommit
      cases hParent
    · subst hCommit
      rw [List.mem_singleton.mp hParent]
      rfl
  · intro hHas
    cases hHas

theorem records_oneTable : oneTable.Records := by
  intro text s hRecorded
  have hEffect :
      (s.sql oneTable text).2.commits = s.commits ∧
        (s.sql oneTable text).2.heads = s.heads := by
    unfold DoltRepo.sql oneTable
    dsimp only
    cases s.working.find "t" with
    | none => exact ⟨rfl, rfl⟩
    | some table => exact ⟨rfl, rfl⟩
  exact recorded_of_same hRecorded hEffect.1 hEffect.2

/- The binary works, on what it finds. -/
def finds
    (found : DoltRepo)
    (order names : List String) :
    Disturbance DoltRepo ExportChoice where
  choice :=
    { fails := false
      text := ""
      order := order
      names := names }
  found := found

theorem among_of_found
    {steps : List PullTaken}
    {n m : Nat}
    (hFound :
      (steps.map fun step => step.choice.found) =
        List.replicate n behind ++ List.replicate m ahead) :
    Among oneTable behind steps := by
  unfold Among
  rw [hFound, ← List.cons_append, ← List.replicate_succ]
  apply List.Pairwise.isChain
  rw [List.pairwise_append]
  refine ⟨?_, ?_, ?_⟩
  · rw [List.pairwise_replicate]
    exact Or.inr .refl
  · rw [List.pairwise_replicate]
    exact Or.inr .refl
  · intro earlier hEarlier later hLater
    rw [List.eq_of_mem_replicate hEarlier,
      List.eq_of_mem_replicate hLater]
    exact written_ahead

/- A commit with one table takes four operations. -/
def exportChoices
    (found : DoltRepo)
    (names : List String) :
    List (Disturbance DoltRepo ExportChoice) :=
  List.replicate 4 (finds found [] names)

/- A commit lands between the head and the log. -/
def overtaken : List (Disturbance DoltRepo ExportChoice) :=
  List.replicate 4 (finds behind [] []) ++
    ([finds ahead ["c0", "c1", "c2"] [],
        finds ahead [] []] ++
      (exportChoices ahead ["users"] ++
        exportChoices ahead ["orders"]))

/- A commit lands after the log was read. -/
def undisturbedPull :
    List (Disturbance DoltRepo ExportChoice) :=
  List.replicate 4 (finds behind [] []) ++
    ([finds behind ["c0", "c1"] [],
        finds ahead [] []] ++
      exportChoices ahead ["users"])

/- The stream has a commit that the announced head does not
   reach. -/
theorem pull_overtaken :
    ∃ steps t,
      Solo (disturbed (ExportOp.exec config))
          (pullCommits "r" none none) behind steps (.ok ()) t ∧
        Among oneTable behind steps ∧
        announcedBy steps = ["c1"] ∧
        ¬ Consistent t "c1" none (sentHashes steps) := by
  have hRun :
      ∃ steps t,
        solo? (disturbed (ExportOp.exec config))
            (pullCommits "r" none none) behind overtaken =
          some (steps, .ok (), t) ∧
          announcedBy steps = ["c1"] ∧
          sentHashes steps = ["c1", "c2"] ∧
          (steps.map fun step => step.choice.found) =
            List.replicate 4 behind ++ List.replicate 10 ahead ∧
          t.isAncestor "c2" "c1" = false :=
    ⟨_, _, rfl, rfl, rfl, rfl, rfl⟩
  rcases hRun with
    ⟨steps, t, hRun, hAnnounced, hSent, hFound, hNot⟩
  refine
    ⟨steps, t, solo_of_solo? hRun, among_of_found hFound,
      hAnnounced, ?_⟩
  intro hConsistent
  have hMember : "c2" ∈ sentHashes steps := by
    rw [hSent]
    decide
  have hReaches :=
    ((hConsistent.exact "c2").mp hMember).1.1
  rw [← isAncestor_iff, hNot] at hReaches
  cases hReaches

theorem pull_consistent_iff_later :
    ∃ steps t head,
      Solo (disturbed (ExportOp.exec config))
          (pullCommits "r" none none) behind steps (.ok ()) t ∧
        Among oneTable behind steps ∧
        sentHashes steps = ["c1"] ∧
        announcedBy steps = [head] ∧
        (Consistent t head none (sentHashes steps) ↔
          Steady t head none steps) := by
  have hRun :
      ∃ steps t,
        solo? (disturbed (ExportOp.exec config))
            (pullCommits "r" none none) behind
            undisturbedPull =
          some (steps, .ok (), t) ∧
          sentHashes steps = ["c1"] ∧
          (steps.map fun step => step.choice.found) =
            List.replicate 5 behind ++ List.replicate 5 ahead :=
    ⟨_, _, rfl, rfl, rfl⟩
  rcases hRun with ⟨steps, t, hRun, hSent, hFound⟩
  have hAmong := among_of_found hFound
  have hSolo := solo_of_solo? hRun
  rcases
      pull_consistent_iff records_oneTable recorded_behind hAmong
        hSolo with
    ⟨head, hAnnounced, hConsistent⟩
  exact
    ⟨steps, t, head, hSolo, hAmong, hSent, hAnnounced,
      hConsistent⟩

end TwoCommits

end Versioning
