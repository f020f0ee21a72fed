import Deltix.Versioning.TableClosure
import Mathlib.Data.Set.Card
import Mathlib.Logic.Relation

/-
  What a request that lacks dependencies is told to do: send
  the closure that the preview reports.  The schemas of the
  routes bound the number of tables, and the closure may have
  more.

  Key definitions include:
    * `syncRequestSchema`
    * `Remedied`
    * `Fits`

  Key theorems include:
    * `remedied_iff`
    * `wide_closure_refused`
-/

------------------------------------------------------------
-- The Schemas
------------------------------------------------------------

namespace Versioning

open Concurrency Text

/- `z.array(z.string().min(1).max(128)).max(256)`, or null,
   or nothing. -/
def tablesSchema : Option (List String) → Bool
  | none => true
  | some tables =>
      tables.length ≤ 256 && tables.all (lengthWithin 1 128)

/- The body of a preference, as to its tables. -/
def syncRequestSchema : Option (List String) → Bool :=
  tablesSchema

/- The options of a push, as to its tables. -/
def syncOptionsSchema : Option (List String) → Bool :=
  tablesSchema

/- A table refers to another. -/
def Refers
    (edges : List ForeignKeyEdge)
    (table next : String) : Prop :=
  ∃ edge ∈ edges,
    edge.tableName = table ∧ edge.referencedTableName = next

/- The tables that are reached from those of a request. -/
def needed
    (edges : List ForeignKeyEdge)
    (tables : List String) : Set String :=
  {table | ∃ named ∈ tables, trimName named ≠ "" ∧
    Relation.ReflTransGen (Refers edges) (trimName named) table}

/- The closure of a request is within the bounds. -/
structure Fits
    (edges : List ForeignKeyEdge)
    (tables : List String) : Prop where
  few : (needed edges tables).encard ≤ 256
  short :
    ∀ table ∈ needed edges tables,
      (units table.toList).length ≤ 128

/- A preference or a push with such tables is refused for
   missing dependencies. -/
def RefusedForDependencies
    (edges : List ForeignKeyEdge)
    (repoId : String)
    (tables : List String)
    (s : SyncState) : Prop :=
  (∃ mode steps missing t,
      Answers edges steps ∧
        Solo SyncOp.exec
          (upsertPreference repoId mode (some tables)) s steps
          (.error (.preferenceConflict missing)) t) ∨
    ∃ mode dryRun steps missing t,
      Answers edges steps ∧
        Solo SyncOp.exec
          (validatePushOptions repoId mode (some (some tables))
            dryRun)
          s steps (.error (.preferenceConflict missing)) t

/- A list passes the schemas, and is accepted. -/
structure Accepted
    (edges : List ForeignKeyEdge)
    (repoId : String)
    (tables : List String)
    (s : SyncState) : Prop where
  request : syncRequestSchema (some tables) = true
  options : syncOptionsSchema (some tables) = true
  upsert :
    ∀ mode steps outcome t,
      Answers edges steps →
        Solo SyncOp.exec
            (upsertPreference repoId mode (some tables)) s
            steps outcome t →
          outcome.isOk = true
  push :
    ∀ mode dryRun steps outcome t,
      Answers edges steps →
        Solo SyncOp.exec
            (validatePushOptions repoId mode
              (some (some tables)) dryRun)
            s steps outcome t →
          outcome.isOk = true

/- The closure that a preview reports is accepted. -/
def Remedied
    (edges : List ForeignKeyEdge)
    (repoId : String)
    (tables : List String)
    (s : SyncState) : Prop :=
  ∀ mode steps outcome t,
    Answers edges steps →
      Solo SyncOp.exec (previewPlan repoId mode (some tables))
          s steps outcome t →
        ∃ plan resolved,
          outcome = .ok plan ∧
            plan.resolvedTables = some resolved ∧
            Accepted edges repoId resolved t

variable {edges : List ForeignKeyEdge}
variable {tables requested : List String} {s : SyncState}

/- The names of an edge have been checked. -/
theorem safe_of_foreignKeyEdge
    {line : List Char}
    {edge : ForeignKeyEdge}
    (hEdge : foreignKeyEdge line = .ok edge) :
    safeTableRe edge.tableName = true ∧
      safeTableRe edge.referencedTableName = true := by
  unfold foreignKeyEdge at hEdge
  split at hEdge
  · dsimp only at hEdge
    split_ifs at hEdge with hEmpty hTable hReferenced
    cases hEdge
    simp only [Bool.not_eq_true', Bool.not_eq_false]
      at hTable hReferenced
    exact ⟨hTable, hReferenced⟩
  · cases hEdge

theorem safe_of_catalog
    {lines : List (List Char)}
    (hCatalog : lines.mapM foreignKeyEdge = .ok edges) :
    ∀ edge ∈ edges,
      safeTableRe edge.tableName = true ∧
        safeTableRe edge.referencedTableName = true := by
  induction lines generalizing edges with
  | nil =>
      cases hCatalog
      intro edge hMember
      cases hMember
  | cons line rest ih =>
      rw [List.mapM_cons] at hCatalog
      cases hLine : foreignKeyEdge line with
      | error error =>
          rw [hLine] at hCatalog
          cases hCatalog
      | ok first =>
          cases hRest : rest.mapM foreignKeyEdge with
          | error error =>
              rw [hLine, hRest] at hCatalog
              cases hCatalog
          | ok others =>
              rw [hLine, hRest] at hCatalog
              cases hCatalog
              intro edge hMember
              rcases List.mem_cons.mp hMember with
                hFirst | hOther
              · rw [hFirst]
                exact safe_of_foreignKeyEdge hLine
              · exact ih hRest edge hOther

theorem ne_empty_of_safe
    {table : String}
    (hSafe : safeTableRe table = true) :
    table ≠ "" := by
  intro hEmpty
  rw [hEmpty] at hSafe
  exact absurd hSafe (by decide)

/- What is left of a request is safe and named in it. -/
theorem normalizeTables_cases
    (hNormal :
      normalizeTables (some tables) = .ok (some requested)) :
    requested ≠ [] ∧
      (∀ table ∈ requested, safeTableRe table = true) ∧
      ∀ table,
        table ∈ requested ↔
          ∃ named ∈ tables,
            trimName named ≠ "" ∧ trimName named = table := by
  have hSome := normalizeTables_ne_nil hNormal
  unfold normalizeTables at hNormal
  dsimp only at hNormal
  split at hNormal
  · cases hNormal
  · split at hNormal
    · cases hNormal
    · rename_i hFind
      cases hNormal
      refine ⟨hSome, ?_, ?_⟩
      · intro table hMember
        rw [mem_uniqueSorted] at hMember
        have hSafe := List.find?_eq_none.mp hFind table hMember
        simpa using hSafe
      · intro table
        rw [mem_uniqueSorted, List.mem_filter, List.mem_map]
        constructor
        · rintro ⟨⟨named, hNamed, hTrim⟩, hEmpty⟩
          refine ⟨named, hNamed, ?_, hTrim⟩
          rw [hTrim]
          exact of_decide_eq_true hEmpty
        · rintro ⟨named, hNamed, hEmpty, hTrim⟩
          refine ⟨⟨named, hNamed, hTrim⟩, ?_⟩
          rw [← hTrim]
          exact decide_eq_true hEmpty

------------------------------------------------------------
-- The Closure As What Is Reached
------------------------------------------------------------

variable {table : String} {repoId : String}

theorem namedEdges_of_safe
    (hSafe :
      ∀ edge ∈ edges,
        safeTableRe edge.tableName = true ∧
          safeTableRe edge.referencedTableName = true) :
    NamedEdges edges :=
  fun edge hMember => ne_empty_of_safe (hSafe edge hMember).1

/- The reached tables are the least closed set. -/
theorem isLeast_needed
    (hRequested :
      ∀ table,
        table ∈ requested ↔
          ∃ named ∈ tables,
            trimName named ≠ "" ∧ trimName named = table) :
    IsLeast
      {names : Set String |
        (∀ table ∈ requested, table ∈ names) ∧
          ClosedTables edges names}
      (needed edges tables) := by
  constructor
  · constructor
    · intro table hMember
      rcases (hRequested table).mp hMember with
        ⟨named, hNamed, hEmpty, hTrim⟩
      rw [← hTrim]
      exact ⟨named, hNamed, hEmpty, .refl⟩
    · rintro edge hEdge ⟨named, hNamed, hEmpty, hPath⟩
      have hStep :
          Refers edges edge.tableName
            edge.referencedTableName :=
        ⟨edge, hEdge, rfl, rfl⟩
      exact ⟨named, hNamed, hEmpty, hPath.tail hStep⟩
  · rintro names ⟨hStart, hClosed⟩ table
      ⟨named, hNamed, hEmpty, hPath⟩
    induction hPath with
    | refl =>
        apply hStart
        exact (hRequested _).mpr ⟨named, hNamed, hEmpty, rfl⟩
    | tail _ hStep ih =>
        rcases hStep with ⟨edge, hEdge, hTable, hNext⟩
        rw [← hNext]
        apply hClosed edge hEdge
        rw [hTable]
        exact ih

theorem needed_eq_closure
    (hNamed : NamedEdges edges)
    (hRequested :
      ∀ table,
        table ∈ requested ↔
          ∃ named ∈ tables,
            trimName named ≠ "" ∧ trimName named = table) :
    needed edges tables =
      {table | table ∈ computeClosure requested edges} :=
  (isLeast_needed hRequested).unique
    (closureCorrect hNamed requested).least

/- Safe tables only lead to safe tables. -/
theorem safe_of_closure
    (hEdges :
      ∀ edge ∈ edges,
        safeTableRe edge.tableName = true ∧
          safeTableRe edge.referencedTableName = true)
    (hSafe : ∀ table ∈ requested, safeTableRe table = true)
    (hMember : table ∈ computeClosure requested edges) :
    safeTableRe table = true := by
  have hLeast :=
    (closureCorrect (namedEdges_of_safe hEdges) requested).least
  have hClosed :
      ClosedTables edges {name | safeTableRe name = true} := by
    intro edge hEdge _
    exact (hEdges edge hEdge).2
  exact hLeast.2 ⟨hSafe, hClosed⟩ hMember

theorem units_ne_nil
    (hTable : table ≠ "") :
    0 < (units table.toList).length := by
  cases hList : table.toList with
  | nil =>
      exfalso
      apply hTable
      exact String.toList_eq_nil_iff.mp hList
  | cons first rest =>
      have hUnits := unitsOf_ne_nil first
      have hLength := List.length_pos_iff.mpr hUnits
      unfold units
      rw [List.flatMap_cons, List.length_append]
      omega

theorem referenced_mem_closure
    {edge : ForeignKeyEdge}
    (hNamed : NamedEdges edges)
    (hEdge : edge ∈ edges)
    (hTable :
      edge.tableName ∈ computeClosure requested edges) :
    edge.referencedTableName ∈
      computeClosure requested edges :=
  (closureCorrect hNamed requested).least.1.2 edge hEdge hTable

/- The bounds of the schema are those of `Fits`. -/
theorem tablesSchema_closure_iff
    (hEdges :
      ∀ edge ∈ edges,
        safeTableRe edge.tableName = true ∧
          safeTableRe edge.referencedTableName = true)
    (hSafe : ∀ table ∈ requested, safeTableRe table = true)
    (hRequested :
      ∀ table,
        table ∈ requested ↔
          ∃ named ∈ tables,
            trimName named ≠ "" ∧ trimName named = table) :
    tablesSchema (some (computeClosure requested edges)) =
        true ↔
      Fits edges tables := by
  have hNamed := namedEdges_of_safe hEdges
  have hNeeded := needed_eq_closure hNamed hRequested
  have hNodup := (closureCorrect hNamed requested).nodup
  have hCard :
      (needed edges tables).encard =
        (computeClosure requested edges).length := by
    rw [hNeeded, ← List.toFinset_card_of_nodup hNodup,
      ← Set.encard_coe_eq_coe_finsetCard]
    congr 1
    ext table
    simp
  have hFew :
      (computeClosure requested edges).length ≤ 256 ↔
        (needed edges tables).encard ≤ 256 := by
    rw [hCard]
    exact Nat.cast_le.symm
  have hShort :
      (computeClosure requested edges).all
          (lengthWithin 1 128) =
          true ↔
        ∀ table ∈ needed edges tables,
          (units table.toList).length ≤ 128 := by
    rw [List.all_eq_true, hNeeded]
    constructor
    · intro hAll table hMember
      have hWithin := hAll table hMember
      simp only [lengthWithin, Bool.and_eq_true,
        decide_eq_true_eq] at hWithin
      exact hWithin.2
    · intro hAll table hMember
      have hName := safe_of_closure hEdges hSafe hMember
      have hSome := units_ne_nil (ne_empty_of_safe hName)
      simp only [lengthWithin, Bool.and_eq_true,
        decide_eq_true_eq]
      exact ⟨hSome, hAll table hMember⟩
  unfold tablesSchema
  rw [Bool.and_eq_true, decide_eq_true_eq, hFew, hShort]
  constructor
  · rintro ⟨hLength, hNames⟩
    exact ⟨hLength, hNames⟩
  · intro hFits
    exact ⟨hFits.few, hFits.short⟩

------------------------------------------------------------
-- What A Refusal Tells
------------------------------------------------------------

variable {α : Type}
variable {error : SyncError}
variable {post : Except SyncError Unit → SyncState → Prop}

/- The repository exists, and the request names tables. -/
def Requests
    (repoId : String)
    (tables requested : List String)
    (s : SyncState) : Prop :=
  validRepoId repoId = true ∧
    s.provisioned repoId = true ∧
    normalizeTables (some tables) = .ok (some requested)

/- Only a request that names tables lacks dependencies. -/
def ConflictTells
    (repoId : String)
    (tables : List String)
    (s : SyncState)
    (outcome : Except SyncError α) : Prop :=
  ∀ missing,
    outcome = .error (.preferenceConflict missing) →
      ∃ requested, Requests repoId tables requested s

theorem tells_of_other
    (hOther : ∀ missing, error ≠ .preferenceConflict missing) :
    ConflictTells repoId tables s
      (.error error : Except SyncError α) := by
  intro missing hError
  exact absurd (Except.error.inj hError) (hOther missing)

theorem tells_of_requests
    {outcome : Except SyncError α}
    (hRequests : Requests repoId tables requested s) :
    ConflictTells repoId tables s outcome :=
  fun _ _ => ⟨requested, hRequests⟩

theorem answered_of_forall
    {program : SyncProgram α}
    {post : Except SyncError α → SyncState → Prop}
    (hPost : ∀ outcome t, post outcome t) :
    Answered edges program s post :=
  fun _ outcome t _ _ => hPost outcome t

/- Unless the repository exists, another error is thrown. -/
theorem answered_requireSyncRepo_cases
    (hOk :
      validRepoId repoId = true →
        s.provisioned repoId = true → post (.ok ()) s)
    (hOther :
      ∀ error,
        (∀ missing, error ≠ .preferenceConflict missing) →
          post (.error error) s) :
    Answered edges (requireSyncRepo repoId) s post := by
  apply answered_bind
  apply answered_ensure
  · intro hValid
    apply answered_bind
    apply answered_bind
    apply answered_call
    intro choice hFails _
    simp only [SyncOp.run, hFails]
    apply answered_returned
    apply answered_ensure
    · intro hFound
      exact hOk hValid hFound
    · intro _
      apply hOther
      intro missing hSame
      cases hSame
  · intro _
    apply hOther
    intro missing hSame
    cases hSame

/- The error of a name is not one of dependencies. -/
theorem not_conflict_of_normalize
    {request : Option (List String)}
    (hNormal : normalizeTables request = .error error) :
    ∀ missing, error ≠ .preferenceConflict missing := by
  intro missing hSame
  subst hSame
  cases request with
  | none => cases hNormal
  | some tables =>
      unfold normalizeTables at hNormal
      dsimp only at hNormal
      split at hNormal
      · cases hNormal
      · split at hNormal
        · cases hNormal
        · cases hNormal

/- Nothing is missing if no tables are named. -/
theorem answered_no_tables
    {mode : SyncMode}
    (hPost : post (.ok ()) s) :
    Answered edges
      (assertNoExcludedDependencies (buildPlan mode none []))
      s post := by
  apply answered_ensure
  · intro _
    exact hPost
  · intro hFails
    cases hFails

/- A plan without tables, or one for a request. -/
def PlanTells
    (repoId : String)
    (tables : List String)
    (mode : SyncMode)
    (s : SyncState)
    (outcome : Except SyncError SyncPlan)
    (u : SyncState) : Prop :=
  match outcome with
  | .ok plan =>
      u = s ∧
        (plan = buildPlan mode none [] ∨
          ∃ requested, Requests repoId tables requested s)
  | .error error =>
      ∀ missing, error ≠ .preferenceConflict missing

theorem answered_previewPlan_tells (mode : SyncMode) :
    Answered edges (previewPlan repoId mode (some tables)) s
      (PlanTells repoId tables mode s) := by
  apply answered_bind
  refine answered_requireSyncRepo_cases ?_ ?_
  · intro hValid hFound
    apply answered_bind
    refine answered_ofExcept ?_
    cases hNormal : normalizeTables (some tables) with
    | error error => exact not_conflict_of_normalize hNormal
    | ok named =>
        cases named with
        | some requested =>
            apply answered_bind
            refine answered_readEdgesFor ?_
            apply answered_returned
            refine ⟨rfl, Or.inr ⟨requested, ?_⟩⟩
            exact ⟨hValid, hFound, hNormal⟩
        | none =>
            apply answered_bind
            apply answered_returned
            apply answered_returned
            exact ⟨rfl, Or.inl rfl⟩
  · intro error hOther
    exact hOther

theorem answered_upsert_tells (mode : SyncMode) :
    Answered edges (upsertPreference repoId mode (some tables))
      s fun outcome _ =>
        ConflictTells repoId tables s outcome := by
  apply answered_bind
  refine answered_mono (answered_previewPlan_tells mode) ?_
  intro outcome u hTells
  cases outcome with
  | error error => exact tells_of_other hTells
  | ok plan =>
      rcases hTells with ⟨hSame, hNone | ⟨requested, hRequests⟩⟩
      · subst hNone
        apply answered_bind
        refine answered_no_tables ?_
        apply answered_bind
        apply answered_call
        intro clock _ _
        apply answered_bind
        apply answered_bind
        apply answered_call
        intro choice hFails _
        simp only [SyncOp.run, hFails]
        apply answered_returned
        apply answered_returned
        intro missing hError
        cases hError
      · apply answered_of_forall
        intro outcome t
        exact tells_of_requests hRequests

theorem answered_push_tells
    (mode : Option SyncMode)
    (dryRun : Bool) :
    Answered edges
      (validatePushOptions repoId mode (some (some tables))
        dryRun)
      s fun outcome _ =>
        ConflictTells repoId tables s outcome := by
  apply answered_bind
  refine answered_requireSyncRepo_cases ?_ ?_
  · intro hValid hFound
    apply answered_bind
    refine answered_getPreference ?_
    dsimp only [requestedOf]
    apply answered_bind
    refine answered_ofExcept ?_
    cases hNormal : normalizeTables (some tables) with
    | error error =>
        exact tells_of_other (not_conflict_of_normalize hNormal)
    | ok named =>
        cases named with
        | some requested =>
            apply answered_of_forall
            intro outcome t
            exact
              tells_of_requests ⟨hValid, hFound, hNormal⟩
        | none =>
            apply answered_bind
            apply answered_returned
            apply answered_bind
            refine answered_no_tables ?_
            apply answered_returned
            intro missing hError
            cases hError
  · intro error hOther
    exact tells_of_other hOther

/- A request that was refused names tables. -/
theorem requests_of_refused
    (hRefused :
      RefusedForDependencies edges repoId tables s) :
    ∃ requested, Requests repoId tables requested s := by
  rcases hRefused with hUpsert | hPush
  · rcases hUpsert with
      ⟨mode, steps, missing, t, hAnswers, hSolo⟩
    exact
      answered_upsert_tells mode steps _ t hSolo hAnswers
        missing rfl
  · rcases hPush with
      ⟨mode, dryRun, steps, missing, t, hAnswers, hSolo⟩
    exact
      answered_push_tells mode dryRun steps _ t hSolo hAnswers
        missing rfl

------------------------------------------------------------
-- Requests For The Closure
------------------------------------------------------------

variable {text : String}

/- A catalog can be read whatever is asked. -/
theorem exists_answered
    {α : Type}
    (hCatalog :
      (foreignKeyLines text).mapM foreignKeyEdge = .ok edges)
    (program : SyncProgram α)
    (s : SyncState) :
    ∃ steps outcome t,
      Answers edges steps ∧
        Solo SyncOp.exec program s steps outcome t := by
  have hEnabled :
      ∀ op u,
        (SyncOp.exec op ⟨false, text, 0⟩ u).isSome :=
    fun _ _ => rfl
  rcases exists_solo_of_choice hEnabled program s with
    ⟨steps, outcome, t, hSolo, hChoices⟩
  refine ⟨steps, outcome, t, ?_, hSolo⟩
  constructor
  · intro step hMember
    rw [hChoices step hMember]
  · intro step hMember _
    rw [hChoices step hMember]
    exact hCatalog

/- The closure of a request is accepted if the schemas let
   it through. -/
theorem accepted_closure
    (hEdges :
      ∀ edge ∈ edges,
        safeTableRe edge.tableName = true ∧
          safeTableRe edge.referencedTableName = true)
    (hRequests : Requests repoId tables requested s)
    (hSchema :
      tablesSchema (some (computeClosure requested edges)) =
        true) :
    Accepted edges repoId (computeClosure requested edges) s := by
  have hNamed := namedEdges_of_safe hEdges
  rcases hRequests with ⟨hValid, hFound, hNormal⟩
  rcases normalizeTables_cases hNormal with ⟨hSome, hSafe, _⟩
  have hLeast := (closureCorrect hNamed requested).least
  have hNames :
      TableNames (computeClosure requested edges) := by
    constructor
    · intro hNone
      rcases List.exists_mem_of_ne_nil requested hSome with
        ⟨table, hMember⟩
      have hIn := hLeast.1.1 table hMember
      rw [hNone] at hIn
      cases hIn
    · intro table hMember
      exact safe_of_closure hEdges hSafe hMember
  have hClosed := hLeast.1.2
  constructor
  · exact hSchema
  · exact hSchema
  · intro mode steps outcome t hAnswers hSolo
    have hAccepts :=
      answered_upsertPreference hNamed hNames hValid hFound
        steps outcome t hSolo hAnswers
    exact hAccepts.1.mpr hClosed
  · intro mode dryRun steps outcome t hAnswers hSolo
    have hAccepts :=
      answered_validatePushOptions hNamed hNames hValid hFound
        rfl steps outcome t hSolo hAnswers
    exact hAccepts.1.mpr hClosed

/-
  A request that was refused for missing dependencies is
  accepted with the closure that the preview reports exactly
  if the closure has at most 256 tables, with names of at
  most 128 units.
-/
theorem remedied_iff
    (edges : List ForeignKeyEdge)
    (text repoId : String)
    (tables : List String)
    (s : SyncState)
    (hCatalog :
      (foreignKeyLines text).mapM foreignKeyEdge = .ok edges)
    (hRefused :
      RefusedForDependencies edges repoId tables s) :
    Remedied edges repoId tables s ↔ Fits edges tables := by
  have hEdges := safe_of_catalog hCatalog
  rcases requests_of_refused hRefused with
    ⟨requested, hRequests⟩
  rcases normalizeTables_cases hRequests.2.2 with
    ⟨_, hSafe, hMembers⟩
  have hIff := tablesSchema_closure_iff hEdges hSafe hMembers
  have hPreview :
      ∀ mode,
        Answered edges (previewPlan repoId mode (some tables))
          s fun outcome t =>
            outcome =
                .ok (buildPlan mode (some requested) edges) ∧
              t = s := by
    intro mode
    refine
      answered_previewPlan hRequests.1 hRequests.2.1
        hRequests.2.2 ?_
    exact ⟨rfl, rfl⟩
  rw [← hIff]
  constructor
  · intro hRemedied
    rcases
      exists_answered hCatalog
        (previewPlan repoId .schemaAndData (some tables)) s with
      ⟨steps, outcome, t, hAnswers, hSolo⟩
    rcases hRemedied _ steps outcome t hAnswers hSolo with
      ⟨plan, resolved, hOutcome, hResolved, hAccepted⟩
    have hPlan := (hPreview _ steps outcome t hSolo hAnswers).1
    rw [hOutcome] at hPlan
    cases hPlan
    cases hResolved
    exact hAccepted.request
  · intro hFits mode steps outcome t hAnswers hSolo
    rcases hPreview mode steps outcome t hSolo hAnswers with
      ⟨hOutcome, hSame⟩
    refine ⟨_, _, hOutcome, rfl, ?_⟩
    rw [hSame]
    exact accepted_closure hEdges hRequests hFits

theorem refused_of_not_closed
    (hCatalog :
      (foreignKeyLines text).mapM foreignKeyEdge = .ok edges)
    (hNames : TableNames tables)
    (hValid : validRepoId repoId = true)
    (hFound : s.provisioned repoId = true)
    (hOpen :
      ¬ ClosedTables edges {table | table ∈ tables}) :
    RefusedForDependencies edges repoId tables s := by
  have hNamed :=
    namedEdges_of_safe (safe_of_catalog hCatalog)
  rcases
    exists_answered hCatalog
      (upsertPreference repoId .schemaAndData (some tables))
      s with
    ⟨steps, outcome, t, hAnswers, hSolo⟩
  have hAccepts :=
    answered_upsertPreference hNamed hNames hValid hFound steps
      outcome t hSolo hAnswers
  have hRefused : outcome.isOk = false := by
    rw [← Bool.not_eq_true, hAccepts.1]
    exact hOpen
  rcases hAccepts.2 hRefused with ⟨missing, hError, _⟩
  left
  refine ⟨.schemaAndData, steps, missing, t, hAnswers, ?_⟩
  rw [← hError]
  exact hSolo

/- One table of a cycle. -/
theorem remedied_iff_of_cycle :
    Remedied cycle "r" ["a"] onlyR ↔ Fits cycle ["a"] := by
  have hCatalog :
      (foreignKeyLines cycleChoice.text).mapM foreignKeyEdge =
        .ok cycle := by
    decide +kernel
  have hNames : TableNames ["a"] := by
    constructor
    · exact List.cons_ne_nil _ _
    · decide
  have hOpen :
      ¬ ClosedTables cycle {table | table ∈ ["a"]} := by
    intro hClosed
    have hNext :=
      hClosed ⟨"a", "b", "f"⟩ List.mem_cons_self
        List.mem_cons_self
    exact absurd hNext (by decide)
  apply
    remedied_iff cycle cycleChoice.text "r" ["a"] onlyR hCatalog
  exact
    refused_of_not_closed hCatalog hNames (by decide)
      (by decide) hOpen

/- A table that refers to 256 others. -/
def wideName (i : Nat) : List Char :=
  ['t', Char.ofNat (97 + i / 16), Char.ofNat (97 + i % 16)]

def wide : List ForeignKeyEdge :=
  (List.range 256).map fun i =>
    ⟨"a", String.ofList (wideName i), "f"⟩

def wideText : String :=
  String.ofList
    ('h' :: (List.range 256).flatMap fun i =>
      '\n' :: 'a' :: ',' :: wideName i ++ [',', 'f'])

theorem wide_catalog :
    (foreignKeyLines wideText).mapM foreignKeyEdge =
      .ok wide := by
  unfold foreignKeyLines wideText
  rw [String.toList_ofList]
  decide +kernel

theorem wideName_injective
    {i j : Nat}
    (hi : i < 256)
    (hj : j < 256)
    (hSame : wideName i = wideName j) :
    i = j := by
  have hLetter :
      ∀ k l : Fin 16,
        Char.ofNat (97 + k) = Char.ofNat (97 + l) → k = l := by
    decide
  simp only [wideName, List.cons.injEq, true_and, and_true]
    at hSame
  have hTens :=
    hLetter ⟨i / 16, by omega⟩ ⟨j / 16, by omega⟩ hSame.1
  have hUnits :=
    hLetter ⟨i % 16, by omega⟩ ⟨j % 16, by omega⟩ hSame.2
  simp only [Fin.mk.injEq] at hTens hUnits
  omega

/- The closure of the one table has 257. -/
theorem closure_wide_length :
    256 < (computeClosure ["a"] wide).length := by
  have hNamed :=
    namedEdges_of_safe (safe_of_catalog wide_catalog)
  have hStart : "a" ∈ computeClosure ["a"] wide :=
    mem_computeClosure_of_mem List.mem_cons_self
  have hNext :
      ∀ i ∈ List.range 256,
        String.ofList (wideName i) ∈
          computeClosure ["a"] wide := by
    intro i hMember
    have hEdge : ⟨"a", String.ofList (wideName i), "f"⟩ ∈ wide :=
      List.mem_map_of_mem hMember
    exact referenced_mem_closure hNamed hEdge hStart
  have hNodup :
      ("a" ::
        (List.range 256).map fun i =>
          String.ofList (wideName i)).Nodup := by
    rw [List.nodup_cons]
    constructor
    · intro hMember
      rcases List.mem_map.mp hMember with ⟨i, _, hName⟩
      have hChars := congrArg String.toList hName
      rw [String.toList_ofList] at hChars
      simp [wideName] at hChars
    · apply List.Nodup.map_on _ List.nodup_range
      intro i hi j hj hSame
      apply wideName_injective
      · exact List.mem_range.mp hi
      · exact List.mem_range.mp hj
      · exact String.ofList_injective hSame
  have hSubset :
      ("a" ::
        (List.range 256).map fun i =>
          String.ofList (wideName i)) ⊆
        computeClosure ["a"] wide := by
    intro table hMember
    rcases List.mem_cons.mp hMember with hFirst | hOther
    · rw [hFirst]
      exact hStart
    · rcases List.mem_map.mp hOther with ⟨i, hRange, hName⟩
      rw [← hName]
      exact hNext i hRange
  have hLength := (hNodup.subperm hSubset).length_le
  rw [List.length_cons, List.length_map, List.length_range]
    at hLength
  omega

/- The closure is too long for the schema that it is to be
   sent through. -/
theorem wide_closure_refused :
    (foreignKeyLines wideText).mapM foreignKeyEdge =
        .ok wide ∧
      syncRequestSchema (some ["a"]) = true ∧
      RefusedForDependencies wide "r" ["a"] onlyR ∧
      ¬ Remedied wide "r" ["a"] onlyR := by
  have hNames : TableNames ["a"] := by
    constructor
    · exact List.cons_ne_nil _ _
    · decide
  have hOpen :
      ¬ ClosedTables wide {table | table ∈ ["a"]} := by
    intro hClosed
    have hEdge : ⟨"a", String.ofList (wideName 0), "f"⟩ ∈ wide :=
      List.mem_map_of_mem (List.mem_range.mpr (by decide))
    have hNext := hClosed _ hEdge List.mem_cons_self
    exact absurd hNext (by decide)
  have hNormal :
      normalizeTables (some ["a"]) = .ok (some ["a"]) := by
    decide
  refine
    ⟨wide_catalog, by decide,
      refused_of_not_closed wide_catalog hNames (by decide)
        (by decide) hOpen, ?_⟩
  intro hRemedied
  rcases
    exists_answered wide_catalog
      (previewPlan "r" .schemaAndData (some ["a"])) onlyR with
    ⟨steps, outcome, t, hAnswers, hSolo⟩
  rcases hRemedied _ steps outcome t hAnswers hSolo with
    ⟨plan, resolved, hOutcome, hResolved, hAccepted⟩
  have hPreview :
      Answered wide
        (previewPlan "r" .schemaAndData (some ["a"])) onlyR
        fun outcome _ =>
          outcome =
            .ok
              (buildPlan .schemaAndData (some ["a"]) wide) := by
    refine
      answered_previewPlan (by decide) (by decide) hNormal ?_
    rfl
  have hPlan := hPreview steps outcome t hSolo hAnswers
  rw [hOutcome] at hPlan
  rw [Except.ok.inj hPlan] at hResolved
  have hClosure : computeClosure ["a"] wide = resolved :=
    Option.some.inj hResolved
  have hSchema := hAccepted.request
  rw [← hClosure] at hSchema
  have hLong := closure_wide_length
  simp only [syncRequestSchema, tablesSchema,
    Bool.and_eq_true, decide_eq_true_eq] at hSchema
  omega

end Versioning
