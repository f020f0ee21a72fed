import Deltix.Graphs.Worklist
import Deltix.Versioning.BranchNames
import Deltix.Versioning.SyncPreference

/-
  The tables that a request needs besides its own: the least
  set that holds the requested ones and is closed under the
  foreign keys.

  Key definitions include:
    * `ClosedTables`
    * `ClosureCorrect`
    * `AcceptsClosed`

  Key theorems include:
    * `closureCorrect`
    * `closure_decides`
-/

------------------------------------------------------------
-- The Closure
------------------------------------------------------------

namespace Versioning

open Text

/- Whatever a table refers to is there, too. -/
def ClosedTables
    (edges : List ForeignKeyEdge)
    (tables : Set String) : Prop :=
  ∀ edge ∈ edges,
    edge.tableName ∈ tables → edge.referencedTableName ∈ tables

/- The same edges, in any order and number. -/
def SameEdges (edges others : List ForeignKeyEdge) : Prop :=
  ∀ table next,
    (∃ edge ∈ edges,
        edge.tableName = table ∧
          edge.referencedTableName = next) ↔
      ∃ edge ∈ others,
        edge.tableName = table ∧ edge.referencedTableName = next

/- No table is called by the empty name. -/
def NamedEdges (edges : List ForeignKeyEdge) : Prop :=
  ∀ edge ∈ edges, edge.tableName ≠ ""

/- What the computed closure has to be. -/
structure ClosureCorrect
    (edges : List ForeignKeyEdge)
    (requested : List String) : Prop where
  ends :
    ∀ more,
      resolveQueue edges
          (requested.length + edges.length + more)
          requested.dedup requested =
        resolveQueue edges (requested.length + edges.length)
          requested.dedup requested
  nodup : (computeClosure requested edges).Nodup
  sorted : (computeClosure requested edges).Pairwise unitsLe
  least :
    IsLeast
      {tables : Set String |
        (∀ table ∈ requested, table ∈ tables) ∧
          ClosedTables edges tables}
      {table | table ∈ computeClosure requested edges}
  stable :
    ∀ others moreEdges,
      (∀ table, table ∈ others ↔ table ∈ requested) →
        SameEdges moreEdges edges →
          computeClosure others moreEdges =
            computeClosure requested edges

variable {edges moreEdges : List ForeignKeyEdge}
variable {requested : List String} {table next : String}

/- The empty name is taken out of the queue and skipped. -/
def queueSuccessors
    (edges : List ForeignKeyEdge)
    (table : String) : List String :=
  if table = "" then [] else dependencies edges table

theorem resolveQueue_eq_explore
    (rounds : Nat)
    (resolved queue : List String) :
    resolveQueue edges rounds resolved queue =
      Graphs.explore (queueSuccessors edges) rounds resolved
        queue := by
  induction rounds generalizing resolved queue with
  | zero => rfl
  | succ rounds ih =>
      cases queue with
      | nil => rfl
      | cons first rest =>
          unfold resolveQueue Graphs.explore Graphs.fresh
            queueSuccessors
          by_cases hEmpty : first = ""
          · rw [if_pos hEmpty, if_pos hEmpty, List.filter_nil,
              List.append_nil, List.append_nil]
            exact ih resolved rest
          · rw [if_neg hEmpty, if_neg hEmpty]
            exact ih _ _

theorem mem_dependencies :
    next ∈ dependencies edges table ↔
      ∃ edge ∈ edges,
        edge.tableName = table ∧
          edge.referencedTableName = next := by
  simp [dependencies, uniqueSorted, and_assoc]

theorem nodup_queueSuccessors (table : String) :
    (queueSuccessors edges table).Nodup := by
  unfold queueSuccessors
  split
  · exact List.nodup_nil
  · exact nodup_sortTexts.mpr (List.nodup_dedup _)

theorem mem_queueSuccessors :
    next ∈ queueSuccessors edges table ↔
      table ≠ "" ∧
        ∃ edge ∈ edges,
          edge.tableName = table ∧
            edge.referencedTableName = next := by
  unfold queueSuccessors
  split
  · simp_all
  · rename_i hSome
    rw [mem_dependencies]
    exact (and_iff_right hSome).symm

/- The tables that can be found on the way. -/
def referencedTables
    (edges : List ForeignKeyEdge) : Finset String :=
  (edges.map ForeignKeyEdge.referencedTableName).toFinset

theorem queueSuccessors_subset
    (table next : String)
    (hNext : next ∈ queueSuccessors edges table) :
    next ∈ referencedTables edges := by
  rcases (mem_queueSuccessors.mp hNext).2 with
    ⟨edge, hEdge, _, hReferenced⟩
  rw [referencedTables, List.mem_toFinset, List.mem_map]
  exact ⟨edge, hEdge, hReferenced⟩

/- There are rounds enough for everything that is found. -/
theorem budget_le_rounds :
    Graphs.budget (referencedTables edges) requested.dedup
        requested ≤
      requested.length + edges.length := by
  have hCard :
      (referencedTables edges \
          requested.dedup.toFinset).card ≤
        edges.length := by
    apply (Finset.card_le_card Finset.sdiff_subset).trans
    have hLength :=
      List.toFinset_card_le
        (edges.map ForeignKeyEdge.referencedTableName)
    rw [List.length_map] at hLength
    exact hLength
  unfold Graphs.budget
  omega

/- Which names are skipped does not matter to closed sets. -/
theorem closedUnder_queueSuccessors
    (hNamed : NamedEdges edges)
    (tables : Set String) :
    Graphs.ClosedUnder (queueSuccessors edges) tables ↔
      ClosedTables edges tables := by
  constructor
  · intro hClosed edge hEdge hTable
    apply hClosed edge.tableName hTable
    rw [mem_queueSuccessors]
    exact ⟨hNamed edge hEdge, edge, hEdge, rfl, rfl⟩
  · intro hClosed table hTable next hNext
    rcases (mem_queueSuccessors.mp hNext).2 with
      ⟨edge, hEdge, hName, hReferenced⟩
    rw [← hReferenced]
    apply hClosed edge hEdge
    rw [hName]
    exact hTable

theorem isLeast_computeClosure
    (edges : List ForeignKeyEdge)
    (requested : List String) :
    IsLeast
      {tables : Set String |
        (∀ table ∈ requested, table ∈ tables) ∧
          Graphs.ClosedUnder (queueSuccessors edges) tables}
      {table | table ∈ computeClosure requested edges} := by
  have hSame :
      {table | table ∈ computeClosure requested edges} =
        {table |
          table ∈
            Graphs.explore (queueSuccessors edges)
              (requested.length + edges.length)
              requested.dedup requested} := by
    ext table
    simp only [computeClosure, mem_sortTexts, Set.mem_ofPred_eq]
    rw [resolveQueue_eq_explore]
  rw [hSame]
  apply
    Graphs.isLeast_explore queueSuccessors_subset
      nodup_queueSuccessors budget_le_rounds
  · intro table
    exact List.mem_dedup
  · intro table
    exact Iff.rfl

theorem nodup_resolveQueue
    (edges : List ForeignKeyEdge)
    (requested : List String)
    (rounds : Nat) :
    (resolveQueue edges rounds requested.dedup
      requested).Nodup := by
  rw [resolveQueue_eq_explore]
  exact
    Graphs.nodup_explore nodup_queueSuccessors
      (List.nodup_dedup requested)

/- Members decide the closure, so the order does not. -/
theorem computeClosure_stable
    {others : List String}
    (hTables : ∀ table, table ∈ others ↔ table ∈ requested)
    (hEdges : SameEdges moreEdges edges) :
    computeClosure others moreEdges =
      computeClosure requested edges := by
  have hSuccessors :
      ∀ table next,
        next ∈ queueSuccessors moreEdges table ↔
          next ∈ queueSuccessors edges table := by
    intro table next
    rw [mem_queueSuccessors, mem_queueSuccessors,
      hEdges table next]
  have hClosed :
      ∀ tables,
        Graphs.ClosedUnder (queueSuccessors moreEdges) tables ↔
          Graphs.ClosedUnder (queueSuccessors edges)
            tables := by
    intro tables
    simp only [Graphs.ClosedUnder, hSuccessors]
  have hLeft := isLeast_computeClosure moreEdges others
  simp only [hTables, hClosed] at hLeft
  have hRight := isLeast_computeClosure edges requested
  have hSame := hLeft.unique hRight
  have hMembers :
      ∀ table,
        table ∈ computeClosure others moreEdges ↔
          table ∈ computeClosure requested edges :=
    fun table => Set.ext_iff.mp hSame table
  unfold computeClosure at hMembers ⊢
  apply sortTexts_unique
  · exact nodup_resolveQueue moreEdges others _
  · exact nodup_resolveQueue edges requested _
  · intro table
    have hTable := hMembers table
    rw [mem_sortTexts, mem_sortTexts] at hTable
    exact hTable

theorem closureCorrect
    (hNamed : NamedEdges edges)
    (requested : List String) :
    ClosureCorrect edges requested := by
  constructor
  · intro more
    rw [resolveQueue_eq_explore, resolveQueue_eq_explore]
    exact
      Graphs.explore_enough queueSuccessors_subset
        nodup_queueSuccessors budget_le_rounds more
  · exact nodup_sortTexts.mpr (nodup_resolveQueue _ _ _)
  · exact sorted_sortTexts _
  · have hLeast := isLeast_computeClosure edges requested
    simp only [closedUnder_queueSuccessors hNamed] at hLeast
    exact hLeast
  · intro others moreEdges hTables hEdges
    exact computeClosure_stable hTables hEdges

------------------------------------------------------------
-- Requests That Are Answered
------------------------------------------------------------

open Concurrency

abbrev SyncTaken : Type :=
  Taken SyncOp SyncOp.Answer SyncState SyncChoice

/- The store answers, and the catalog has these edges. -/
structure Answers
    (edges : List ForeignKeyEdge)
    (steps : List SyncTaken) : Prop where
  store : ∀ step ∈ steps, step.choice.fails = false
  catalog :
    ∀ step ∈ steps,
      step.op = .foreignKeys →
        (foreignKeyLines step.choice.text).mapM
            foreignKeyEdge =
          .ok edges

variable {α β : Type}
variable {edges : List ForeignKeyEdge}
variable {steps more : List SyncTaken}
variable {s : SyncState}
variable {post : Except SyncError α → SyncState → Prop}
variable {error : SyncError} {repoId : String}

theorem Answers.left
    (hAnswers : Answers edges (steps ++ more)) :
    Answers edges steps := by
  constructor
  · intro step hMember
    exact hAnswers.store step (List.mem_append_left _ hMember)
  · intro step hMember
    exact hAnswers.catalog step (List.mem_append_left _ hMember)

theorem Answers.right
    (hAnswers : Answers edges (steps ++ more)) :
    Answers edges more := by
  constructor
  · intro step hMember
    exact hAnswers.store step (List.mem_append_right _ hMember)
  · intro step hMember
    exact
      hAnswers.catalog step (List.mem_append_right _ hMember)

/- How a program ends if all that it asks is answered. -/
def Answered
    (edges : List ForeignKeyEdge)
    (program : SyncProgram α)
    (s : SyncState)
    (post : Except SyncError α → SyncState → Prop) : Prop :=
  Ends SyncOp.exec program s fun steps outcome t =>
    Answers edges steps → post outcome t

theorem answered_mono
    {program : SyncProgram α}
    {weaker : Except SyncError α → SyncState → Prop}
    (hProgram : Answered edges program s post)
    (hWeaker : ∀ outcome t, post outcome t → weaker outcome t) :
    Answered edges program s weaker := by
  refine ends_mono hProgram ?_
  intro steps outcome t hPost hAnswers
  exact hWeaker outcome t (hPost hAnswers)

theorem answered_returned
    {value : α}
    (hPost : post (.ok value) s) :
    Answered edges (.returned value) s post :=
  ends_returned fun _ => hPost

theorem answered_threw
    (hPost : post (.error error) s) :
    Answered edges (.threw error) s post :=
  ends_threw fun _ => hPost

theorem answered_ensure
    {condition : Bool}
    {post : Except SyncError Unit → SyncState → Prop}
    (hHolds : condition = true → post (.ok ()) s)
    (hFails : condition = false → post (.error error) s) :
    Answered edges (Async.ensure condition error) s post := by
  apply ends_ensure
  case hHolds =>
    intro hCondition _
    exact hHolds hCondition
  case hFails =>
    intro hCondition _
    exact hFails hCondition

/- What a program throws or passes on. -/
theorem answered_bind
    {first : SyncProgram α}
    {next : α → SyncProgram β}
    {post : Except SyncError β → SyncState → Prop}
    (hFirst :
      Answered edges first s fun outcome u =>
        match outcome with
        | .ok value => Answered edges (next value) u post
        | .error error => post (.error error) u) :
    Answered edges (first.bind next) s post := by
  apply ends_bind
  refine ends_mono hFirst ?_
  intro steps outcome u hPost
  cases outcome with
  | ok value =>
      intro rest ended t hSolo hAnswers
      exact
        hPost hAnswers.left rest ended t hSolo hAnswers.right
  | error error => exact hPost

/- An operation that does not fail. -/
theorem answered_call
    {op : SyncOp}
    {post : Except SyncError op.Answer → SyncState → Prop}
    (hPost :
      ∀ choice : SyncChoice,
        choice.fails = false →
          (op = .foreignKeys →
              (foreignKeyLines choice.text).mapM
                  foreignKeyEdge =
                .ok edges) →
            post (.ok (op.run choice s).1)
              (op.run choice s).2) :
    Answered edges (Async.call op) s post := by
  apply ends_call
  intro choice answer next hExec hAnswers
  have hRun : op.run choice s = (answer, next) :=
    Option.some.inj hExec
  have hStore := hAnswers.store _ List.mem_cons_self
  have hCatalog := hAnswers.catalog _ List.mem_cons_self
  have hSame := hPost choice hStore hCatalog
  rw [hRun] at hSame
  exact hSame

theorem answered_ofExcept
    {result : Except SyncError α}
    (hPost : post result s) :
    Answered edges (Async.ofExcept result) s post := by
  cases result with
  | ok value => exact answered_returned hPost
  | error error => exact answered_threw hPost

/- A repository that exists is found. -/
theorem answered_requireSyncRepo
    {post : Except SyncError Unit → SyncState → Prop}
    (hValid : validRepoId repoId = true)
    (hFound : s.provisioned repoId = true)
    (hPost : post (.ok ()) s) :
    Answered edges (requireSyncRepo repoId) s post := by
  apply answered_bind
  apply answered_ensure
  · intro _
    apply answered_bind
    apply answered_bind
    apply answered_call
    intro choice hFails _
    simp only [SyncOp.run, hFails, hFound]
    apply answered_returned
    apply answered_ensure
    · intro _
      exact hPost
    · intro hNot
      cases hNot
  · intro hNot
    rw [hValid] at hNot
    cases hNot

theorem answered_getPreference
    {post :
      Except SyncError (Option SyncPreference) → SyncState →
        Prop}
    (hPost : post (.ok (s.preference repoId)) s) :
    Answered edges (getPreference repoId) s post := by
  apply answered_bind
  apply answered_call
  intro choice hFails _
  simp only [SyncOp.run, hFails]
  exact answered_returned hPost

/- A request that names tables is answered with the edges. -/
theorem answered_readEdgesFor
    {tables : List String}
    {post :
      Except SyncError (List ForeignKeyEdge) → SyncState →
        Prop}
    (hPost : post (.ok edges) s) :
    Answered edges (readEdgesFor (some tables)) s post := by
  apply answered_bind
  apply answered_call
  intro choice hFails hCatalog
  simp only [SyncOp.run, hFails]
  have hEdges := hCatalog rfl
  apply answered_ofExcept
  rw [hEdges]
  exact hPost

------------------------------------------------------------
-- Requests That Are Accepted
------------------------------------------------------------

variable {tables : List String} {mode : SyncMode}
variable {outcome : Except SyncError α} {repoId : String}

/- A list of names that are used as they are. -/
structure TableNames (tables : List String) : Prop where
  some : tables ≠ []
  safe : ∀ table ∈ tables, safeTableRe table = true

/- The tables that the closure adds to a request. -/
def missingTables
    (edges : List ForeignKeyEdge)
    (tables : List String) : List String :=
  (computeClosure tables edges).filter fun table =>
    !tables.contains table

/- A request is accepted if it is closed, and is told what is
   missing otherwise. -/
def AcceptsClosed
    (edges : List ForeignKeyEdge)
    (tables : List String)
    (outcome : Except SyncError α) : Prop :=
  (outcome.isOk = true ↔
      ClosedTables edges {table | table ∈ tables}) ∧
    (outcome.isOk = false →
      ∃ missing,
        outcome = .error (.preferenceConflict missing) ∧
          missing.Nodup ∧ missing.Pairwise unitsLe ∧
          ∀ table,
            table ∈ missing ↔
              table ∈ computeClosure tables edges ∧
                table ∉ tables)

theorem mem_uniqueSorted {table : String} :
    table ∈ uniqueSorted tables ↔ table ∈ tables := by
  unfold uniqueSorted
  rw [mem_sortTexts, List.mem_dedup]

/- A safe name has no blanks around it. -/
theorem trimName_of_safe
    (hSafe : safeTableRe table = true) :
    trimName table = table := by
  have hSpaces :
      ∀ c ∈ table.toList, isSpaceCode c.toNat = false := by
    intro c hMember
    apply not_space_of_branchChar
    have hChar := SafeTable.chars ⟨table, hSafe⟩ hMember
    unfold isBranchChar
    rcases hChar with hAlnum | hUnderscore
    · simp [hAlnum]
    · simp [hUnderscore]
  have hSame : trimChars table.toList = table.toList :=
    trimmed_eq_self hSpaces
  unfold trimName
  rw [hSame]
  exact String.ofList_toList

theorem normalizeTables_of_names
    (hNames : TableNames tables) :
    normalizeTables (some tables) =
      .ok (some (uniqueSorted tables)) := by
  have hTrim : tables.map trimName = tables := by
    conv_rhs => rw [← List.map_id tables]
    apply List.map_congr_left
    intro table hMember
    exact trimName_of_safe (hNames.safe table hMember)
  have hKeep :
      (tables.filter fun table => table ≠ "") = tables := by
    rw [List.filter_eq_self]
    intro table hMember
    have hSafe := hNames.safe table hMember
    rw [decide_eq_true_eq]
    intro hEmpty
    rw [hEmpty] at hSafe
    exact absurd hSafe (by decide)
  have hFind :
      (tables.find? fun table => !safeTableRe table) =
        none := by
    rw [List.find?_eq_none]
    intro table hMember
    rw [hNames.safe table hMember]
    decide
  unfold normalizeTables
  simp only [hTrim, hKeep, if_neg hNames.some, hFind]

/- Nothing is missing exactly if the request is closed. -/
theorem missingTables_eq_nil_iff
    (hNamed : NamedEdges edges) :
    missingTables edges tables = [] ↔
      ClosedTables edges {table | table ∈ tables} := by
  have hLeast := (closureCorrect hNamed tables).least
  have hEmpty :
      missingTables edges tables = [] ↔
        ∀ table ∈ computeClosure tables edges,
          table ∈ tables := by
    simp [missingTables]
  rw [hEmpty]
  constructor
  · intro hAll
    have hSame :
        {table | table ∈ tables} =
          {table | table ∈ computeClosure tables edges} := by
      apply Set.Subset.antisymm
      · exact hLeast.1.1
      · exact hAll
    rw [hSame]
    exact hLeast.1.2
  · intro hClosed
    exact hLeast.2 ⟨fun _ hMember => hMember, hClosed⟩

/- What the check makes of a plan. -/
theorem acceptsClosed_of_plan
    (hNamed : NamedEdges edges)
    (hOk :
      missingTables edges (uniqueSorted tables) = [] →
        outcome.isOk = true)
    (hError :
      missingTables edges (uniqueSorted tables) ≠ [] →
        outcome =
          .error
            (.preferenceConflict
              (missingTables edges (uniqueSorted tables)))) :
    AcceptsClosed edges tables outcome := by
  have hMissing :
      missingTables edges (uniqueSorted tables) = [] ↔
        ClosedTables edges {table | table ∈ tables} := by
    rw [missingTables_eq_nil_iff hNamed]
    simp only [mem_uniqueSorted]
  have hSame :
      computeClosure (uniqueSorted tables) edges =
        computeClosure tables edges :=
    computeClosure_stable (fun _ => mem_uniqueSorted)
      (fun _ _ => Iff.rfl)
  have hCorrect := closureCorrect hNamed (uniqueSorted tables)
  constructor
  · rw [← hMissing]
    constructor
    · intro hAccepted
      by_contra hSome
      rw [hError hSome] at hAccepted
      cases hAccepted
    · exact hOk
  · intro hRefused
    have hSome :
        missingTables edges (uniqueSorted tables) ≠ [] := by
      intro hNone
      rw [hOk hNone] at hRefused
      cases hRefused
    refine ⟨_, hError hSome, ?_, ?_, ?_⟩
    · exact hCorrect.nodup.filter _
    · exact hCorrect.sorted.filter _
    · intro table
      simp [missingTables, hSame, mem_uniqueSorted]

/- A plan for safe names, and the check of it. -/
theorem answered_assertNoExcludedDependencies
    {post : Except SyncError Unit → SyncState → Prop}
    (hOk : missingTables edges requested = [] → post (.ok ()) s)
    (hError :
      missingTables edges requested ≠ [] →
        post
          (.error
            (.preferenceConflict
              (missingTables edges requested)))
          s) :
    Answered edges
      (assertNoExcludedDependencies
        (buildPlan mode (some requested) edges))
      s post := by
  apply answered_ensure
  · intro hHolds
    rw [decide_eq_true_eq] at hHolds
    rcases hHolds with hNone | hAbsent
    · exact hOk hNone
    · cases hAbsent
  · intro hFails
    rw [decide_eq_false_iff_not, not_or] at hFails
    exact hError hFails.1

theorem answered_previewPlan
    {post : Except SyncError SyncPlan → SyncState → Prop}
    (hValid : validRepoId repoId = true)
    (hFound : s.provisioned repoId = true)
    (hNormal :
      normalizeTables (some tables) = .ok (some requested))
    (hPost : post (.ok (buildPlan mode (some requested) edges)) s) :
    Answered edges (previewPlan repoId mode (some tables)) s
      post := by
  apply answered_bind
  refine answered_requireSyncRepo hValid hFound ?_
  apply answered_bind
  refine answered_ofExcept ?_
  rw [hNormal]
  apply answered_bind
  refine answered_readEdgesFor ?_
  exact answered_returned hPost

theorem answered_upsertPreference
    (hNamed : NamedEdges edges)
    (hNames : TableNames tables)
    (hValid : validRepoId repoId = true)
    (hFound : s.provisioned repoId = true) :
    Answered edges (upsertPreference repoId mode (some tables))
      s fun outcome _ => AcceptsClosed edges tables outcome := by
  apply answered_bind
  refine
    answered_previewPlan hValid hFound
      (normalizeTables_of_names hNames) ?_
  apply answered_bind
  refine answered_assertNoExcludedDependencies ?_ ?_
  · intro hNone
    apply answered_bind
    apply answered_call
    intro clock _ _
    apply answered_bind
    apply answered_bind
    apply answered_call
    intro choice hFails _
    simp only [SyncOp.run, hFails]
    apply answered_returned
    apply answered_returned
    apply acceptsClosed_of_plan hNamed
    · intro _
      rfl
    · intro hSome
      exact absurd hNone hSome
  · intro hSome
    apply acceptsClosed_of_plan hNamed
    · intro hNone
      exact absurd hNone hSome
    · intro _
      rfl

theorem answered_validatePushOptions
    {pushMode : Option SyncMode}
    {request : Option (Option (List String))}
    {dryRun : Bool}
    (hNamed : NamedEdges edges)
    (hNames : TableNames tables)
    (hValid : validRepoId repoId = true)
    (hFound : s.provisioned repoId = true)
    (hRequest :
      requestedOf (s.preference repoId) request = some tables) :
    Answered edges
      (validatePushOptions repoId pushMode request dryRun) s
      fun outcome _ => AcceptsClosed edges tables outcome := by
  apply answered_bind
  refine answered_requireSyncRepo hValid hFound ?_
  apply answered_bind
  refine answered_getPreference ?_
  dsimp only
  rw [hRequest, normalizeTables_of_names hNames]
  apply answered_bind
  refine answered_ofExcept ?_
  apply answered_bind
  refine answered_readEdgesFor ?_
  apply answered_bind
  refine answered_assertNoExcludedDependencies ?_ ?_
  · intro hNone
    apply answered_returned
    apply acceptsClosed_of_plan hNamed
    · intro _
      rfl
    · intro hSome
      exact absurd hNone hSome
  · intro hSome
    apply acceptsClosed_of_plan hNamed
    · intro hNone
      exact absurd hNone hSome
    · intro _
      rfl

/-
  The closure is computed right, and decides whether a request
  of an existing repository is accepted.
-/
theorem closure_decides
    (edges : List ForeignKeyEdge)
    (hNamed : NamedEdges edges) :
    (∀ requested, ClosureCorrect edges requested) ∧
      ∀ repoId tables s steps,
        TableNames tables →
          validRepoId repoId = true →
          s.provisioned repoId = true →
          Answers edges steps →
            (∀ mode outcome t,
              Solo SyncOp.exec
                  (upsertPreference repoId mode (some tables))
                  s steps outcome t →
                AcceptsClosed edges tables outcome) ∧
              ∀ mode request dryRun outcome t,
                requestedOf (s.preference repoId) request =
                    some tables →
                  Solo SyncOp.exec
                      (validatePushOptions repoId mode request
                        dryRun)
                      s steps outcome t →
                    AcceptsClosed edges tables outcome := by
  constructor
  · exact closureCorrect hNamed
  · intro repoId tables s steps hNames hValid hFound hAnswers
    constructor
    · intro mode outcome t hSolo
      exact
        answered_upsertPreference hNamed hNames hValid hFound
          steps outcome t hSolo hAnswers
    · intro mode request dryRun outcome t hRequest hSolo
      exact
        answered_validatePushOptions hNamed hNames hValid
          hFound hRequest steps outcome t hSolo hAnswers

/- Two tables that refer to each other. -/
def cycle : List ForeignKeyEdge :=
  [⟨"a", "b", "f"⟩, ⟨"b", "a", "g"⟩]

/- The answer of the binary that lists them. -/
def cycleChoice : SyncChoice :=
  ⟨false, "child,parent,name\na,b,f\nb,a,g\n", 0⟩

def onlyR : SyncState where
  provisioned repoId := repoId = "r"
  preference _ := none

theorem answers_of_replay
    {program : SyncProgram α}
    {t : SyncState}
    (hRun :
      solo? SyncOp.exec program onlyR
          (List.replicate 4 cycleChoice) =
        some (steps, outcome, t)) :
    Answers cycle steps := by
  have hChoices :
      ∀ step ∈ steps, step.choice = cycleChoice := by
    intro step hMember
    have hChoice :
        step.choice ∈ List.replicate 4 cycleChoice := by
      apply (choices_of_solo? hRun).subset
      exact List.mem_map_of_mem hMember
    exact List.eq_of_mem_replicate hChoice
  constructor
  · intro step hMember
    rw [hChoices step hMember]
    rfl
  · intro step hMember _
    rw [hChoices step hMember]
    decide +kernel

/- One table of a cycle cannot go without the other. -/
theorem closure_decides_of_cycle :
    ∃ steps outcome t,
      Solo SyncOp.exec
          (upsertPreference "r" .schemaAndData (some ["a"]))
          onlyR steps outcome t ∧
        AcceptsClosed cycle ["a"] outcome := by
  have hNamed : NamedEdges cycle := by
    unfold NamedEdges
    decide
  have hNames : TableNames ["a"] := by
    constructor
    · exact List.cons_ne_nil _ _
    · decide
  have hReplay :
      (solo? SyncOp.exec
          (upsertPreference "r" .schemaAndData (some ["a"]))
          onlyR (List.replicate 4 cycleChoice)).isSome =
        true := by
    decide +kernel
  rw [Option.isSome_iff_exists] at hReplay
  rcases hReplay with ⟨⟨steps, outcome, t⟩, hRun⟩
  have hSolo := solo_of_solo? hRun
  have hDecides :=
    (closure_decides cycle hNamed).2 "r" ["a"] onlyR steps
      hNames (by decide) (by decide) (answers_of_replay hRun)
  exact ⟨steps, outcome, t, hSolo, hDecides.1 _ _ _ hSolo⟩

end Versioning
