import Deltix.Text.JsonText
import Deltix.Versioning.SyncPreference

/-
  The rows that the store of the repositories keeps the sync
  preferences in, and what the service reads back of what it
  has written.

  A row has the list of the tables as a JSON text.  A write
  over a row that is there leaves its `created_at`, while
  the service returns a record of its own making.

  Key definitions include:
    * `PreferenceRow`
    * `SyncOp.execRows`
    * `Upserts`
    * `Coherent`

  Key theorems include:
    * `readRow_writeRow`
    * `execRows_state`
    * `solo_state`
    * `ends_upsert`
    * `coherent_iff`
-/

------------------------------------------------------------
-- Rows
------------------------------------------------------------

namespace Versioning

/- A row of `repo_sync_preferences`. -/
structure PreferenceRow where
  mode : SyncMode
  requestedTablesJson : Option String
  createdAt : Nat
  updatedAt : Nat
  deriving DecidableEq, Repr

/- What is bound to the parameters of the statement. -/
def writeRow (preference : SyncPreference) : PreferenceRow where
  mode := preference.mode
  requestedTablesJson :=
    preference.requestedTables.map fun tables =>
      String.ofList (Text.Json.stringifyTexts tables)
  createdAt := preference.createdAt
  updatedAt := preference.updatedAt

/- `ON CONFLICT(repo_id) DO UPDATE` -/
def mergeRow (excluded : PreferenceRow) :
    Option PreferenceRow → PreferenceRow
  | some present =>
      { mode := excluded.mode
        requestedTablesJson := excluded.requestedTablesJson
        createdAt := present.createdAt
        updatedAt := excluded.updatedAt }
  | none => excluded

/- The list of a JSON text, or the text `null`.  There is
   none where the text is no JSON, or no list of texts. -/
def readTables (text : String) : Option (Option (List String)) :=
  match Text.Json.parse text.toList with
  | none => none
  | some .null => some none
  | some json => (Text.Json.texts? json).map some

def readRow (row : PreferenceRow) : Option SyncPreference :=
  (match row.requestedTablesJson with
    | none => some none
    | some text => readTables text).map
    fun requestedTables =>
      { mode := row.mode
        requestedTables := requestedTables
        createdAt := row.createdAt
        updatedAt := row.updatedAt }

theorem readTables_stringify (tables : List String) :
    readTables
        (String.ofList (Text.Json.stringifyTexts tables)) =
      some (some tables) := by
  unfold readTables
  rw [String.toList_ofList, Text.Json.parse_stringifyTexts]
  dsimp only
  rw [Text.Json.texts?_array]
  rfl

/- A preference is read from its row as it was written. -/
theorem readRow_writeRow (preference : SyncPreference) :
    readRow (writeRow preference) = some preference := by
  unfold readRow writeRow
  cases preference with
  | mk mode requestedTables createdAt updatedAt =>
      cases requestedTables with
      | none => rfl
      | some tables =>
          simp only [Option.map_some, readTables_stringify]

/- What a merged row has, whatever is in the present one. -/
theorem readRow_mergeRow
    (preference : SyncPreference)
    (present : Option PreferenceRow) :
    readRow (mergeRow (writeRow preference) present) =
      some
        { mode := preference.mode
          requestedTables := preference.requestedTables
          createdAt :=
            (present.map PreferenceRow.createdAt).getD
              preference.createdAt
          updatedAt := preference.updatedAt } := by
  cases present with
  | none => exact readRow_writeRow preference
  | some row =>
      have hWritten := readRow_writeRow preference
      unfold readRow writeRow at hWritten
      rw [Option.map_eq_some_iff] at hWritten
      rcases hWritten with ⟨tables, hTables, hSame⟩
      unfold readRow mergeRow writeRow
      dsimp only at hTables ⊢
      rw [hTables, ← hSame]
      rfl

/- The merge of rows is that of the preferences in them. -/
theorem readRow_mergeRow_upsertRow
    {present : Option PreferenceRow}
    {stored : Option SyncPreference}
    (preference : SyncPreference)
    (hStored : present.map readRow = stored.map some) :
    readRow (mergeRow (writeRow preference) present) =
      some (upsertRow preference stored) := by
  rw [readRow_mergeRow]
  cases present with
  | none =>
      cases stored with
      | none => rfl
      | some stored => cases hStored
  | some row =>
      cases stored with
      | none => cases hStored
      | some stored =>
          have hRead : readRow row = some stored :=
            Option.some.inj hStored
          unfold readRow at hRead
          rw [Option.map_eq_some_iff] at hRead
          rcases hRead with ⟨_, _, hSame⟩
          rw [← hSame]
          rfl

------------------------------------------------------------
-- The Store
------------------------------------------------------------

open Concurrency

/- The tables `repos` and `repo_sync_preferences`. -/
structure SyncRows where
  provisioned : String → Bool
  rows : String → Option PreferenceRow

def SyncRows.setRow
    (s : SyncRows)
    (repoId : String)
    (row : PreferenceRow) : SyncRows where
  provisioned := s.provisioned
  rows := Function.update s.rows repoId (some row)

/- The operations on the rows.  A statement that fails
   changes no row. -/
def SyncOp.execRows :
    (op : SyncOp) → SyncChoice → SyncRows →
      Option (op.Answer × SyncRows)
  | .now, choice, s => some (choice.now, s)
  | .getRepo repoId, choice, s =>
      if choice.fails then some (.error choice.text, s)
      else some (.ok (s.provisioned repoId), s)
  | .getSyncPreference repoId, choice, s =>
      if choice.fails then some (.error choice.text, s)
      else
        match s.rows repoId with
        | none => some (.ok none, s)
        | some row =>
            match readRow row with
            | none => some (.error choice.text, s)
            | some preference => some (.ok (some preference), s)
  | .upsertSyncPreference repoId preference, choice, s =>
      if choice.fails then some (.error choice.text, s)
      else
        some
          (.ok (),
            s.setRow repoId
              (mergeRow (writeRow preference) (s.rows repoId)))
  | .foreignKeys, choice, s =>
      if choice.fails then some (.error choice.text, s)
      else some (.ok choice.text, s)

/- Every row can be read. -/
def SyncRows.Readable (s : SyncRows) : Prop :=
  ∀ repoId row,
    s.rows repoId = some row → ∃ p, readRow row = some p

/- The preferences that the rows hold. -/
def SyncRows.state (s : SyncRows) : SyncState where
  provisioned := s.provisioned
  preference := fun repoId => (s.rows repoId).bind readRow

variable {s t : SyncRows} {repoId : String}
variable {row : PreferenceRow} {preference : SyncPreference}

theorem rows_setRow_self
    (s : SyncRows)
    (repoId : String)
    (row : PreferenceRow) :
    (s.setRow repoId row).rows repoId = some row :=
  Function.update_self ..

theorem rows_setRow_of_ne
    {other : String}
    (s : SyncRows)
    (row : PreferenceRow)
    (hOther : other ≠ repoId) :
    (s.setRow repoId row).rows other = s.rows other :=
  Function.update_of_ne hOther ..

theorem map_readRow
    (repoId : String)
    (hReadable : s.Readable) :
    (s.rows repoId).map readRow =
      (s.state.preference repoId).map some := by
  unfold SyncRows.state
  dsimp only
  cases hRow : s.rows repoId with
  | none => rfl
  | some row =>
      rcases hReadable repoId row hRow with ⟨p, hRead⟩
      rw [Option.bind_some, Option.map_some, hRead]
      rfl

/- A row that is written is the preference that is set. -/
theorem state_setRow
    (hRead : readRow row = some preference) :
    (s.setRow repoId row).state =
      s.state.setPreference repoId preference := by
  unfold SyncRows.state SyncRows.setRow
    SyncState.setPreference
  simp only [SyncState.mk.injEq, true_and]
  funext other
  by_cases hSame : other = repoId
  · subst hSame
    rw [Function.update_self, Function.update_self,
      Option.bind_some, hRead]
  · rw [Function.update_of_ne hSame,
      Function.update_of_ne hSame]

theorem readable_setRow
    (hReadable : s.Readable)
    (hRead : readRow row = some preference) :
    (s.setRow repoId row).Readable := by
  intro other written hRow
  by_cases hSame : other = repoId
  · subst hSame
    rw [rows_setRow_self] at hRow
    cases hRow
    exact ⟨preference, hRead⟩
  · rw [rows_setRow_of_ne s row hSame] at hRow
    exact hReadable other written hRow

/-
  An operation on the rows is that on the preferences which
  they hold, and it keeps the rows readable.
-/
theorem execRows_state
    {op : SyncOp}
    {choice : SyncChoice}
    {answer : op.Answer}
    (hReadable : s.Readable)
    (hExec : op.execRows choice s = some (answer, t)) :
    t.Readable ∧
      op.exec choice s.state = some (answer, t.state) := by
  unfold SyncOp.exec
  cases op with
  | now =>
      cases hExec
      exact ⟨hReadable, rfl⟩
  | getRepo repoId =>
      simp only [SyncOp.execRows] at hExec
      simp only [SyncOp.run]
      split at hExec
      · cases hExec
        exact ⟨hReadable, by rw [if_pos ‹_›]⟩
      · cases hExec
        exact ⟨hReadable, by rw [if_neg ‹_›]; rfl⟩
  | getSyncPreference repoId =>
      simp only [SyncOp.execRows] at hExec
      simp only [SyncOp.run]
      split at hExec
      · cases hExec
        exact ⟨hReadable, by rw [if_pos ‹_›]⟩
      · rw [if_neg ‹_›]
        cases hRow : s.rows repoId with
        | none =>
            simp only [hRow] at hExec
            cases hExec
            refine ⟨hReadable, ?_⟩
            simp only [SyncRows.state, hRow, Option.bind_none]
        | some row =>
            rcases hReadable repoId row hRow with ⟨p, hRead⟩
            simp only [hRow, hRead] at hExec
            cases hExec
            refine ⟨hReadable, ?_⟩
            simp only [SyncRows.state, hRow, Option.bind_some,
              hRead]
  | upsertSyncPreference repoId preference =>
      simp only [SyncOp.execRows] at hExec
      simp only [SyncOp.run]
      split at hExec
      · cases hExec
        exact ⟨hReadable, by rw [if_pos ‹_›]⟩
      · cases hExec
        have hRead :=
          readRow_mergeRow_upsertRow preference
            (map_readRow repoId hReadable)
        refine ⟨readable_setRow hReadable hRead, ?_⟩
        rw [if_neg ‹_›, state_setRow hRead]
  | foreignKeys =>
      simp only [SyncOp.execRows] at hExec
      simp only [SyncOp.run]
      split at hExec
      · cases hExec
        exact ⟨hReadable, by rw [if_pos ‹_›]⟩
      · cases hExec
        exact ⟨hReadable, by rw [if_neg ‹_›]⟩

/- A run over the rows is one over the preferences, at
   whatever times the clock shows on the way. -/
theorem solo_state
    {α : Type}
    {body : SyncProgram α}
    {steps : List (Taken SyncOp SyncOp.Answer SyncRows SyncChoice)}
    {outcome : Except SyncError α}
    (hReadable : s.Readable)
    (hSolo : Solo SyncOp.execRows body s steps outcome t) :
    t.Readable ∧
      ∃ others,
        Solo SyncOp.exec body s.state others outcome
          t.state := by
  refine
    hSolo.simulates SyncRows.Readable SyncRows.state ?_
      hReadable
  intro op choice u answer v hInv hExec
  rcases execRows_state hInv hExec with ⟨hNext, hState⟩
  exact ⟨hNext, choice, hState⟩

structure RepoSyncPreferenceRecord where
  repoId : String
  mode : SyncMode
  requestedTables : Option (List String)
  createdAt : Nat
  updatedAt : Nat
  deriving DecidableEq, Repr

def recordOf
    (repoId : String)
    (preference : SyncPreference) :
    RepoSyncPreferenceRecord where
  repoId := repoId
  mode := preference.mode
  requestedTables := preference.requestedTables
  createdAt := preference.createdAt
  updatedAt := preference.updatedAt

namespace SyncPreferenceService

def get (repoId : String) :
    SyncProgram (Option RepoSyncPreferenceRecord) := do
  let stored ← getSyncPreference repoId
  return stored.map (recordOf repoId)

def upsert
    (repoId : String)
    (mode : SyncMode)
    (tables : Option (List String)) :
    SyncProgram RepoSyncPreferenceRecord := do
  let record ← upsertPreference repoId mode tables
  return recordOf repoId record

end SyncPreferenceService

/- The operations while the clock shows `clock`. -/
def SyncOp.execRowsAt
    (clock : Nat)
    (op : SyncOp)
    (choice : SyncChoice) :
    SyncRows → Option (op.Answer × SyncRows) :=
  op.execRows ⟨choice.fails, choice.text, clock⟩

/- A call of `upsert`, when the clock shows `clock`. -/
structure UpsertCall where
  repoId : String
  mode : SyncMode
  tables : Option (List String)
  clock : Nat
  deriving DecidableEq, Repr

/- A call that has ended, with the rows around it. -/
structure Upserted where
  call : UpsertCall
  before : SyncRows
  outcome : Except SyncError RepoSyncPreferenceRecord
  after : SyncRows

def UpsertCall.EndsIn
    (call : UpsertCall)
    (s : SyncRows)
    (outcome : Except SyncError RepoSyncPreferenceRecord)
    (t : SyncRows) : Prop :=
  ∃ steps,
    Solo (SyncOp.execRowsAt call.clock)
      (SyncPreferenceService.upsert call.repoId call.mode
        call.tables)
      s steps outcome t

/- Calls one after another. -/
inductive Upserts :
    SyncRows → List Upserted → SyncRows → Prop where
  | nil (s : SyncRows) : Upserts s [] s
  | cons
      {call : UpsertCall}
      {outcome : Except SyncError RepoSyncPreferenceRecord}
      {s u t : SyncRows}
      {rest : List Upserted}
      (first : call.EndsIn s outcome u)
      (later : Upserts u rest t) :
      Upserts s (⟨call, s, outcome, u⟩ :: rest) t

def Upserted.Succeeds
    (done : Upserted)
    (repoId : String) : Prop :=
  done.call.repoId = repoId ∧
    ∃ record, done.outcome = .ok record

/- What `get` returns wherever the store answers it. -/
def GetReturns
    (s : SyncRows)
    (repoId : String)
    (record : RepoSyncPreferenceRecord) : Prop :=
  ∀ clock steps outcome t,
    Solo (SyncOp.execRowsAt clock)
        (SyncPreferenceService.get repoId) s steps outcome
        t →
      (∀ step ∈ steps, step.choice.fails = false) →
        outcome = .ok (some record)

/- `get` returns the record until the next success. -/
def Serves
    (repoId : String)
    (record : RepoSyncPreferenceRecord) :
    SyncRows → List Upserted → Prop
  | s, [] => GetReturns s repoId record
  | s, next :: rest =>
      GetReturns s repoId record ∧
        (¬next.Succeeds repoId →
          Serves repoId record next.after rest)

/- What is returned is what is read, and a failure leaves
   every row as it is. -/
def Coherent : List Upserted → Prop
  | [] => True
  | done :: rest =>
      (match done.outcome with
        | .ok record =>
            Serves done.call.repoId record done.after rest
        | .error _ => done.after.rows = done.before.rows) ∧
        Coherent rest

/- There was no row, or one created at this very time. -/
def Upserted.Dated (done : Upserted) : Prop :=
  ∀ row,
    done.before.rows done.call.repoId = some row →
      row.createdAt = done.call.clock

------------------------------------------------------------
-- What One Call Does
------------------------------------------------------------

variable {s t : SyncRows} {repoId : String} {clock : Nat}
variable {mode : SyncMode} {tables : Option (List String)}

/- An operation that only reads. -/
def SyncOp.ReadsRows : SyncOp → Prop
  | .upsertSyncPreference _ _ => False
  | _ => True

theorem execRows_of_reads
    {op : SyncOp}
    {choice : SyncChoice}
    {answer : op.Answer}
    (hReads : op.ReadsRows)
    (hExec : op.execRows choice s = some (answer, t)) :
    t = s := by
  cases op with
  | now =>
      cases hExec
      rfl
  | getRepo repoId =>
      simp only [SyncOp.execRows] at hExec
      split at hExec
      · cases hExec
        rfl
      · cases hExec
        rfl
  | getSyncPreference repoId =>
      simp only [SyncOp.execRows] at hExec
      split at hExec
      · cases hExec
        rfl
      · split at hExec
        · cases hExec
          rfl
        · split at hExec
          · cases hExec
            rfl
          · cases hExec
            rfl
  | upsertSyncPreference repoId preference => exact hReads.elim
  | foreignKeys =>
      simp only [SyncOp.execRows] at hExec
      split at hExec
      · cases hExec
        rfl
      · cases hExec
        rfl

/- An operation is never kept from being performed. -/
theorem execRows_isSome
    (op : SyncOp)
    (choice : SyncChoice)
    (s : SyncRows) :
    (op.execRows choice s).isSome := by
  cases op with
  | now => rfl
  | getRepo repoId =>
      simp only [SyncOp.execRows]
      split
      · rfl
      · rfl
  | getSyncPreference repoId =>
      simp only [SyncOp.execRows]
      split
      · rfl
      · split
        · rfl
        · split
          · rfl
          · rfl
  | upsertSyncPreference repoId preference =>
      simp only [SyncOp.execRows]
      split
      · rfl
      · rfl
  | foreignKeys =>
      simp only [SyncOp.execRows]
      split
      · rfl
      · rfl

theorem only_ofStore
    {α : Type}
    {cond : SyncOp → Prop}
    (answer : Except String α) :
    (ofStore answer).Only cond := by
  cases answer with
  | ok value => exact Async.only_returned value
  | error reason => exact Async.only_threw _

theorem only_requireSyncRepo :
    (requireSyncRepo repoId).Only SyncOp.ReadsRows := by
  apply Async.only_bind Async.only_ensure
  intro _
  apply Async.only_bind
  · apply Async.only_bind (Async.only_call.mpr trivial)
    exact only_ofStore
  · intro found
    exact Async.only_ensure

theorem only_readEdgesFor
    (requested : Option (List String)) :
    (readEdgesFor requested).Only SyncOp.ReadsRows := by
  cases requested with
  | none => exact Async.only_returned []
  | some tables =>
      apply Async.only_bind (Async.only_call.mpr trivial)
      intro answer
      cases answer with
      | error stderr => exact Async.only_threw _
      | ok stdout => exact Async.only_ofExcept

theorem only_previewPlan :
    (previewPlan repoId mode tables).Only
      SyncOp.ReadsRows := by
  apply Async.only_bind only_requireSyncRepo
  intro _
  apply Async.only_bind Async.only_ofExcept
  intro requested
  apply Async.only_bind (only_readEdgesFor requested)
  intro edges
  exact Async.only_returned _

/- A computation that only reads leaves the rows. -/
theorem ends_of_reads
    {α : Type}
    {body : SyncProgram α}
    (hOnly : body.Only SyncOp.ReadsRows) :
    Ends (SyncOp.execRowsAt clock) body s
      fun _ _ t => t = s := by
  intro steps outcome t hSolo
  apply
    hSolo.relates (fun u v => v = u) (fun _ => rfl)
      (fun _ _ _ hFirst hSecond => hSecond.trans hFirst)
  intro step hMember
  exact
    execRows_of_reads (hSolo.only hOnly step hMember)
      (hSolo.performed step hMember)

/- A plan is made for valid names only. -/
theorem ends_previewPlan :
    Ends (SyncOp.execRowsAt clock)
      (previewPlan repoId mode tables) s
      fun _ outcome t =>
        t = s ∧
          ∀ plan, outcome = .ok plan →
            validRepoId repoId = true := by
  intro steps outcome t hSolo
  refine
    ⟨ends_of_reads only_previewPlan _ _ _ hSolo, ?_⟩
  intro plan hPlan
  cases hValid : validRepoId repoId with
  | true => rfl
  | false =>
      exfalso
      have hThrows :
          previewPlan repoId mode tables =
            .threw (invalidRepoId repoId) := by
        unfold previewPlan requireSyncRepo Async.ensure
        rw [hValid]
        rfl
      rw [hThrows] at hSolo
      cases hSolo
      cases hPlan

/- What a successful call writes, and what a failed one
   leaves. -/
theorem ends_upsertPreference :
    Ends (SyncOp.execRowsAt clock)
      (upsertPreference repoId mode tables) s
      fun _ outcome t =>
        match outcome with
        | .ok written =>
            validRepoId repoId = true ∧
              written.createdAt = clock ∧
              t =
                s.setRow repoId
                  (mergeRow (writeRow written)
                    (s.rows repoId))
        | .error _ => t = s := by
  unfold upsertPreference
  refine ends_bind_of ends_previewPlan ?_ ?_
  · rintro steps plan u ⟨hSame, hPlan⟩
    subst hSame
    have hValid := hPlan plan rfl
    apply ends_bind
    apply ends_ensure
    case hFails =>
      intro _
      rfl
    case hHolds =>
      intro _
      apply ends_bind
      apply ends_call
      intro choice timestamp u hExec
      cases hExec
      apply ends_bind
      apply ends_bind
      apply ends_call
      intro choice answer u hExec
      simp only [SyncOp.execRowsAt, SyncOp.execRows] at hExec
      split at hExec
      · cases hExec
        exact ends_threw rfl
      · cases hExec
        apply ends_returned
        apply ends_returned
        exact ⟨hValid, rfl, rfl⟩
  · rintro steps error u ⟨hSame, _⟩
    exact hSame

theorem ends_upsert :
    Ends (SyncOp.execRowsAt clock)
      (SyncPreferenceService.upsert repoId mode tables) s
      fun _ outcome t =>
        match outcome with
        | .ok record =>
            ∃ written,
              record = recordOf repoId written ∧
                validRepoId repoId = true ∧
                written.createdAt = clock ∧
                t =
                  s.setRow repoId
                    (mergeRow (writeRow written)
                      (s.rows repoId))
        | .error _ => t = s := by
  unfold SyncPreferenceService.upsert
  refine ends_bind_of ends_upsertPreference ?_ ?_
  · intro steps written u hWritten
    apply ends_returned
    exact ⟨written, rfl, hWritten⟩
  · intro steps error u hSame
    exact hSame

/- What `get` returns is what it reads. -/
theorem getReturns_iff
    {row : PreferenceRow}
    {preference : SyncPreference}
    {record : RepoSyncPreferenceRecord}
    (hValid : validRepoId repoId = true)
    (hRow : s.rows repoId = some row)
    (hRead : readRow row = some preference) :
    GetReturns s repoId record ↔
      record = recordOf repoId preference := by
  have hEnds :
      ∀ clock,
        Ends (SyncOp.execRowsAt clock)
          (SyncPreferenceService.get repoId) s
          fun steps outcome _ =>
            (∀ step ∈ steps, step.choice.fails = false) →
              outcome =
                .ok (some (recordOf repoId preference)) := by
    intro clock
    unfold SyncPreferenceService.get getSyncPreference
    apply ends_bind
    apply ends_bind
    apply ends_ensure
    case hFails =>
      intro hInvalid
      rw [hValid] at hInvalid
      cases hInvalid
    case hHolds =>
      intro _
      apply ends_bind
      apply ends_call
      intro choice answer u hExec
      simp only [SyncOp.execRowsAt, SyncOp.execRows, hRow,
        hRead] at hExec
      split at hExec
      · rename_i hFails
        cases hExec
        apply ends_threw
        intro hCalm
        have hNot := hCalm _ List.mem_cons_self
        rw [hFails] at hNot
        cases hNot
      · cases hExec
        apply ends_returned
        apply ends_returned
        intro _
        rfl
  constructor
  · intro hReturns
    have hEnabled :
        ∀ op u,
          (SyncOp.execRowsAt 0 op ⟨false, "", 0⟩ u).isSome :=
      fun op u => execRows_isSome op _ u
    rcases
        exists_solo_of_choice hEnabled
          (SyncPreferenceService.get repoId) s with
      ⟨steps, outcome, t, hSolo, hChoices⟩
    have hCalm :
        ∀ step ∈ steps, step.choice.fails = false := by
      intro step hMember
      rw [hChoices step hMember]
    have hOne := hReturns _ _ _ _ hSolo hCalm
    have hOther := hEnds _ _ _ _ hSolo hCalm
    rw [hOne] at hOther
    exact Option.some.inj (Except.ok.inj hOther)
  · intro hSame clock steps outcome t hSolo hCalm
    rw [hSame]
    exact hEnds clock steps outcome t hSolo hCalm

------------------------------------------------------------
-- Sequences Of Calls
------------------------------------------------------------

variable {u : SyncRows} {call : UpsertCall}
variable {calls rest : List Upserted}
variable {outcome : Except SyncError RepoSyncPreferenceRecord}

/- A call that does not succeed on a repository leaves its
   row. -/
theorem rows_of_not_succeeds
    (hEnds : call.EndsIn s outcome u)
    (hOther :
      ¬(Upserted.mk call s outcome u).Succeeds repoId) :
    u.rows repoId = s.rows repoId := by
  rcases hEnds with ⟨steps, hSolo⟩
  have hPost := ends_upsert _ _ _ hSolo
  cases outcome with
  | error error =>
      dsimp only at hPost
      rw [hPost]
  | ok record =>
      rcases hPost with ⟨written, _, _, _, hAfter⟩
      rw [hAfter]
      apply rows_setRow_of_ne
      intro hSame
      exact hOther ⟨hSame.symm, record, rfl⟩

/- What is read now is read until the next success. -/
theorem serves_iff
    {row : PreferenceRow}
    {preference : SyncPreference}
    {record : RepoSyncPreferenceRecord}
    (hValid : validRepoId repoId = true)
    (hRow : s.rows repoId = some row)
    (hRead : readRow row = some preference)
    (hRuns : Upserts s rest t) :
    Serves repoId record s rest ↔
      record = recordOf repoId preference := by
  have hNow :
      GetReturns s repoId record ↔
        record = recordOf repoId preference :=
    getReturns_iff hValid hRow hRead
  induction hRuns with
  | nil s => exact hNow
  | cons hFirst _ ih =>
      constructor
      · intro hServes
        exact hNow.mp hServes.1
      · intro hSame
        refine ⟨hNow.mpr hSame, ?_⟩
        intro hOther
        have hKept := rows_of_not_succeeds hFirst hOther
        have hLater := hKept.trans hRow
        exact
          (ih hLater
            (getReturns_iff hValid hLater hRead)).mpr hSame

/- A call is coherent if it fails, or if the row that was
   there has the time that it returns. -/
theorem coherent_cons_iff
    (hFirst : call.EndsIn s outcome u)
    (hLater : Upserts u rest t) :
    Coherent (⟨call, s, outcome, u⟩ :: rest) ↔
      ((Upserted.mk call s outcome u).Succeeds call.repoId →
          (Upserted.mk call s outcome u).Dated) ∧
        Coherent rest := by
  rcases hFirst with ⟨steps, hSolo⟩
  have hPost := ends_upsert _ _ _ hSolo
  cases outcome with
  | error error =>
      dsimp only at hPost
      subst hPost
      constructor
      · rintro ⟨_, hRest⟩
        refine ⟨?_, hRest⟩
        rintro ⟨_, record, hRecord⟩
        cases hRecord
      · rintro ⟨_, hRest⟩
        exact ⟨rfl, hRest⟩
  | ok record =>
      rcases hPost with
        ⟨written, hRecord, hValid, hClock, hAfter⟩
      have hRow :
          u.rows call.repoId =
            some
              (mergeRow (writeRow written)
                (s.rows call.repoId)) := by
        rw [hAfter]
        exact rows_setRow_self ..
      have hServes :
          Serves call.repoId record u rest ↔
            record = recordOf call.repoId _ :=
        serves_iff hValid hRow (readRow_mergeRow _ _) hLater
      have hSame :
          Serves call.repoId record u rest ↔
            (Upserted.mk call s (.ok record) u).Dated := by
        rw [hServes, hRecord]
        simp only [recordOf,
          RepoSyncPreferenceRecord.mk.injEq, true_and,
          and_true, hClock]
        unfold Upserted.Dated
        dsimp only
        cases s.rows call.repoId with
        | none => simp
        | some present =>
            constructor
            · rintro hTime row hPresent
              cases hPresent
              exact hTime.symm
            · intro hDated
              exact (hDated present rfl).symm
      constructor
      · rintro ⟨hServed, hRest⟩
        exact ⟨fun _ => hSame.mp hServed, hRest⟩
      · rintro ⟨hDated, hRest⟩
        refine ⟨hSame.mpr ?_, hRest⟩
        exact hDated ⟨rfl, record, rfl⟩

/-
  What the calls return is what is read back, just if every
  successful call finds no preference of its repository, or
  one created when the clock showed the same time.
-/
theorem coherent_iff
    (hRuns : Upserts s calls t) :
    Coherent calls ↔
      ∀ done ∈ calls,
        done.Succeeds done.call.repoId → done.Dated := by
  induction hRuns with
  | nil s => simp [Coherent]
  | cons hFirst hLater ih =>
      rw [coherent_cons_iff hFirst hLater, ih,
        List.forall_mem_cons]

/- A store that has every repository. -/
def everyRepo
    (rows : String → Option PreferenceRow) : SyncRows where
  provisioned := fun _ => true
  rows := rows

/- A call for all tables that nothing fails. -/
theorem endsIn_of_all
    (rows : String → Option PreferenceRow)
    (mode : SyncMode)
    (clock : Nat) :
    UpsertCall.EndsIn ⟨"demo", mode, none, clock⟩
      (everyRepo rows)
      (.ok (recordOf "demo" ⟨mode, none, clock, clock⟩))
      ((everyRepo rows).setRow "demo"
        (mergeRow (writeRow ⟨mode, none, clock, clock⟩)
          (rows "demo"))) := by
  have hRun :
      solo? (SyncOp.execRowsAt clock)
          (SyncPreferenceService.upsert "demo" mode none)
          (everyRepo rows)
          (List.replicate 3 ⟨false, "", 0⟩) =
        some (_, _, _) :=
    rfl
  exact ⟨_, solo_of_solo? hRun⟩

/- The rows after a first call at a time. -/
def afterFirst (first : Nat) : SyncRows :=
  (everyRepo fun _ => none).setRow "demo"
    (mergeRow (writeRow ⟨.schemaOnly, none, first, first⟩) none)

/- A list is stored, replaced by a shorter one, and read. -/
def listsInTurn :
    SyncProgram (Option RepoSyncPreferenceRecord) := do
  let _ ←
    SyncPreferenceService.upsert "demo" .schemaAndData
      (some ["a", "b"])
  let _ ←
    SyncPreferenceService.upsert "demo" .schemaOnly
      (some ["b"])
  SyncPreferenceService.get "demo"

/- The clock shows 1 in the first call, and 2 after it. -/
theorem solo_state_of_lists :
    ∃ steps t others,
      Solo SyncOp.execRows listsInTurn
          (everyRepo fun _ => none) steps
          (.ok (some ⟨"demo", .schemaOnly, some ["b"], 1, 2⟩))
          t ∧
        t.rows "demo" =
          some ⟨.schemaOnly, some "[\"b\"]", 1, 2⟩ ∧
        Solo SyncOp.exec listsInTurn
          (everyRepo fun _ => none).state others
          (.ok (some ⟨"demo", .schemaOnly, some ["b"], 1, 2⟩))
          t.state := by
  have hReplay :
      (solo? SyncOp.execRows listsInTurn
          (everyRepo fun _ => none)
          (List.replicate 4 ⟨false, "", 1⟩ ++
            List.replicate 5 ⟨false, "", 2⟩)).map
          (fun q => (q.2.1, q.2.2.rows "demo")) =
        some
          (.ok (some ⟨"demo", .schemaOnly, some ["b"], 1, 2⟩),
            some ⟨.schemaOnly, some "[\"b\"]", 1, 2⟩) := by
    decide +kernel
  rw [Option.map_eq_some_iff] at hReplay
  rcases hReplay with ⟨⟨steps, outcome, t⟩, hRun, hEq⟩
  rw [Prod.mk.injEq] at hEq
  rcases hEq with ⟨hOutcome, hRow⟩
  cases hOutcome
  have hReadable : (everyRepo fun _ => none).Readable := by
    intro repoId row hNone
    cases hNone
  have hSolo := solo_of_solo? hRun
  rcases (solo_state hReadable hSolo).2 with ⟨others, hOther⟩
  exact ⟨steps, t, others, hSolo, hRow, hOther⟩

/- Two calls for one repository, at two times. -/
def twoUpserts (first second : Nat) : List Upserted :=
  [⟨⟨"demo", .schemaOnly, none, first⟩,
      everyRepo fun _ => none,
      .ok (recordOf "demo" ⟨.schemaOnly, none, first, first⟩),
      afterFirst first⟩,
    ⟨⟨"demo", .schemaAndData, none, second⟩,
      afterFirst first,
      .ok
        (recordOf "demo"
          ⟨.schemaAndData, none, second, second⟩),
      (afterFirst first).setRow "demo"
        (mergeRow
          (writeRow ⟨.schemaAndData, none, second, second⟩)
          ((afterFirst first).rows "demo"))⟩]

theorem exists_twoUpserts (first second : Nat) :
    ∃ t,
      Upserts (everyRepo fun _ => none)
        (twoUpserts first second) t :=
  ⟨_, .cons (endsIn_of_all _ _ _)
    (.cons (endsIn_of_all _ _ _) (.nil _))⟩

theorem coherent_iff_of_twoUpserts :
    Coherent (twoUpserts 1 1) ↔
      ∀ done ∈ twoUpserts 1 1,
        done.Succeeds done.call.repoId → done.Dated := by
  rcases exists_twoUpserts 1 1 with ⟨t, hRuns⟩
  exact coherent_iff hRuns

/- The second of two calls returns the time that it made the
   record at, and the row keeps that of the first. -/
theorem second_upsert_misdated :
    (∃ t,
        Upserts (everyRepo fun _ => none) (twoUpserts 1 2) t) ∧
      (twoUpserts 1 2).Pairwise
        (fun done next => done.call.clock ≤ next.call.clock) ∧
      ¬Coherent (twoUpserts 1 2) := by
  refine ⟨exists_twoUpserts 1 2, ?_, ?_⟩
  · simp [twoUpserts]
  · intro hCoherent
    have hSecond :=
      (coherent_cons_iff (endsIn_of_all _ _ _) (.nil _)).mp
        hCoherent.2
    have hDated := hSecond.1 ⟨rfl, _, rfl⟩
    have hTime := hDated _ (rows_setRow_self ..)
    cases hTime

end Versioning
