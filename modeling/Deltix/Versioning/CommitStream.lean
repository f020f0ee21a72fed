import Deltix.Text.JsonWrite
import Deltix.Text.Lines
import Deltix.Text.Utf8
import Mathlib.Data.List.Induction
import Mathlib.Data.List.Infix
import Mathlib.Data.List.ReduceOption

/-
  The response of a pull: a line for each commit, and blank
  lines from a timer while the next commit takes its time.

  Key definitions include:
    * `ExportedCommit.stringify`
    * `PullStream`
    * `PullStream.step`
    * `readCommits`

  Key theorems include:
    * `isRead_stringify`
    * `readCommits_chunks`
    * `stream_faithful`
-/

namespace Versioning

namespace Wire

open Text

structure ExportedTable where
  name : JsString
  schema : JsString
  data : JsString
  deriving DecidableEq, Repr

structure ExportedCommit where
  hash : JsString
  message : JsString
  author : JsString
  tables : List ExportedTable
  deriving DecidableEq, Repr

/- `JSON.stringify` of a table. -/
def ExportedTable.stringify (table : ExportedTable) : List Char :=
  Json.objectText
    [(js "name", Json.quoteUnits table.name),
      (js "schema", Json.quoteUnits table.schema),
      (js "data", Json.quoteUnits table.data)]

/- `JSON.stringify` of a commit. -/
def ExportedCommit.stringify
    (commit : ExportedCommit) : List Char :=
  Json.objectText
    [(js "hash", Json.quoteUnits commit.hash),
      (js "message", Json.quoteUnits commit.message),
      (js "author", Json.quoteUnits commit.author),
      (js "tables",
        Json.arrayText
          (commit.tables.map ExportedTable.stringify))]

/- A string among the members of an object. -/
def stringAt
    (members : List (JsString × Json))
    (key : String) : Option JsString :=
  match Json.get? members key with
  | some (.string value) => some value
  | _ => none

def tableOf : Json → Option ExportedTable
  | .object members => do
      let name ← stringAt members "name"
      let schema ← stringAt members "schema"
      let data ← stringAt members "data"
      return { name, schema, data }
  | _ => none

/- The commit that was parsed. -/
def commitOf : Json → Option ExportedCommit
  | .object members => do
      let hash ← stringAt members "hash"
      let message ← stringAt members "message"
      let author ← stringAt members "author"
      match Json.get? members "tables" with
      | some (.array elements) =>
          let tables ← elements.mapM tableOf
          return { hash, message, author, tables }
      | _ => none
  | _ => none

inductive StreamState where
  | readable
  | closed
  | errored
  deriving DecidableEq, Repr

/- The controller of a stream, what was enqueued, and whether
   the source has come to its end. -/
structure PullStream where
  state : StreamState
  chunks : List (List UInt8)
  finished : Bool
  deriving DecidableEq

def PullStream.start : PullStream where
  state := .readable
  chunks := []
  finished := false

/- `controller.enqueue(encoder.encode(text))`, which throws
   once the stream is not readable. -/
def PullStream.enqueue
    (stream : PullStream)
    (text : List Char) : Option PullStream :=
  if stream.state = .readable then
    some
      { stream with
        chunks := stream.chunks ++ [Utf8.encode text] }
  else none

/- `controller.error(err)`, and the end of the source. -/
def PullStream.fail (stream : PullStream) : PullStream :=
  { stream with
    state :=
      if stream.state = .readable then .errored
      else stream.state
    finished := true }

/- The timer fires, the export yields a commit, comes to its
   end or throws, or the client goes away. -/
inductive StreamEvent where
  | heartbeat
  | yielded (commit : ExportedCommit)
  | ended
  | threw
  | cancelled
  deriving DecidableEq

def line (commit : ExportedCommit) : List Char :=
  commit.stringify ++ ['\n']

/- The export does not go on after its end. -/
def PullStream.step
    (stream : PullStream) :
    StreamEvent → Option PullStream
  | .heartbeat =>
      if stream.finished then some stream
      else some ((stream.enqueue ['\n']).getD stream)
  | .yielded commit =>
      if stream.finished then none
      else
        some
          ((stream.enqueue (line commit)).getD stream.fail)
  | .ended =>
      if stream.finished then none
      else if stream.state = .readable then
        some { stream with state := .closed, finished := true }
      else some stream.fail
  | .threw =>
      if stream.finished then none else some stream.fail
  | .cancelled =>
      if stream.state = .readable then
        some { stream with state := .closed }
      else some stream

/- The events of a stream, each of them possible. -/
def streamed (events : List StreamEvent) : Option PullStream :=
  events.foldlM PullStream.step PullStream.start

/- The commits of the export while the client is there. -/
def yieldedCommits
    (events : List StreamEvent) : List ExportedCommit :=
  (events.takeWhile fun event => event ≠ .cancelled).filterMap
    fun
      | .yielded commit => some commit
      | _ => none

/- The lines of the bytes that are not blank, parsed. -/
def readCommits
    (bytes : List UInt8) : Option (List ExportedCommit) :=
  (((split 0x0A bytes).map Utf8.decode).filter fun text =>
      trimChars text ≠ []).mapM fun text =>
    (Json.parse text).bind commitOf

------------------------------------------------------------
-- A Commit And Its Line
------------------------------------------------------------

/- The value that a table is parsed to. -/
def ExportedTable.toJson (table : ExportedTable) : Json :=
  .object
    [(js "name", .string table.name),
      (js "schema", .string table.schema),
      (js "data", .string table.data)]

def ExportedCommit.toJson (commit : ExportedCommit) : Json :=
  .object
    [(js "hash", .string commit.hash),
      (js "message", .string commit.message),
      (js "author", .string commit.author),
      (js "tables",
        .array (commit.tables.map ExportedTable.toJson))]

theorem isRead_table (table : ExportedTable) :
    Json.IsRead table.stringify table.toJson := by
  have hObject :=
    Json.isRead_objectText
      [⟨js "name", Json.quoteUnits table.name,
          .string table.name⟩,
        ⟨js "schema", Json.quoteUnits table.schema,
          .string table.schema⟩,
        ⟨js "data", Json.quoteUnits table.data,
          .string table.data⟩]
  apply hObject
  intro member hMember
  simp only [List.mem_cons, List.not_mem_nil, or_false]
    at hMember
  rcases hMember with hSame | hSame | hSame
  · rw [hSame]
    exact Json.isRead_quoteUnits table.name
  · rw [hSame]
    exact Json.isRead_quoteUnits table.schema
  · rw [hSame]
    exact Json.isRead_quoteUnits table.data

theorem isRead_tables (tables : List ExportedTable) :
    Json.IsRead
      (Json.arrayText (tables.map ExportedTable.stringify))
      (.array (tables.map ExportedTable.toJson)) := by
  have hArray :=
    Json.isRead_arrayText
      (tables.map fun table => (table.stringify, table.toJson))
  simp only [List.map_map] at hArray
  apply hArray
  · intro element hElement
    rcases List.mem_map.mp hElement with ⟨table, _, hSame⟩
    rw [← hSame]
    exact isRead_table table
  · intro element hElement
    rcases List.mem_map.mp hElement with ⟨table, _, hSame⟩
    rw [← hSame]
    exact ⟨'\x7b', _, rfl, by decide, by decide⟩

theorem isRead_stringify (commit : ExportedCommit) :
    Json.IsRead commit.stringify commit.toJson := by
  have hObject :=
    Json.isRead_objectText
      [⟨js "hash", Json.quoteUnits commit.hash,
          .string commit.hash⟩,
        ⟨js "message", Json.quoteUnits commit.message,
          .string commit.message⟩,
        ⟨js "author", Json.quoteUnits commit.author,
          .string commit.author⟩,
        ⟨js "tables",
          Json.arrayText
            (commit.tables.map ExportedTable.stringify),
          .array (commit.tables.map ExportedTable.toJson)⟩]
  apply hObject
  intro member hMember
  simp only [List.mem_cons, List.not_mem_nil, or_false]
    at hMember
  rcases hMember with hSame | hSame | hSame | hSame
  · rw [hSame]
    exact Json.isRead_quoteUnits commit.hash
  · rw [hSame]
    exact Json.isRead_quoteUnits commit.message
  · rw [hSame]
    exact Json.isRead_quoteUnits commit.author
  · rw [hSame]
    exact isRead_tables commit.tables

theorem tableOf_toJson (table : ExportedTable) :
    tableOf table.toJson = some table :=
  rfl

theorem commitOf_toJson (commit : ExportedCommit) :
    commitOf commit.toJson = some commit := by
  have hTables :
      (commit.tables.map ExportedTable.toJson).mapM tableOf =
        some commit.tables := by
    induction commit.tables with
    | nil => rfl
    | cons table rest ih =>
        rw [List.map_cons, List.mapM_cons, tableOf_toJson, ih]
        rfl
  have hAt :
      Json.get?
          [(js "hash", .string commit.hash),
            (js "message", .string commit.message),
            (js "author", .string commit.author),
            (js "tables",
              .array (commit.tables.map ExportedTable.toJson))]
          "tables" =
        some
          (.array (commit.tables.map ExportedTable.toJson)) :=
    rfl
  unfold commitOf ExportedCommit.toJson
  dsimp only
  rw [hAt]
  simp only [hTables]
  rfl

theorem oneLine_stringify (commit : ExportedCommit) :
    Json.OneLine commit.stringify := by
  apply Json.oneLine_objectText
  intro member hMember
  simp only [List.mem_cons, List.not_mem_nil, or_false]
    at hMember
  rcases hMember with hSame | hSame | hSame | hSame
  · rw [hSame]
    exact Json.oneLine_quoteUnits commit.hash
  · rw [hSame]
    exact Json.oneLine_quoteUnits commit.message
  · rw [hSame]
    exact Json.oneLine_quoteUnits commit.author
  · rw [hSame]
    apply Json.oneLine_arrayText
    intro text hText
    rcases List.mem_map.mp hText with ⟨table, _, hTable⟩
    rw [← hTable]
    apply Json.oneLine_objectText
    intro cell hCell
    simp only [List.mem_cons, List.not_mem_nil, or_false]
      at hCell
    rcases hCell with hSame | hSame | hSame
    · rw [hSame]
      exact Json.oneLine_quoteUnits table.name
    · rw [hSame]
      exact Json.oneLine_quoteUnits table.schema
    · rw [hSame]
      exact Json.oneLine_quoteUnits table.data

/- What was written: a heartbeat, or a commit. -/
abbrev Entry : Type := Option ExportedCommit

def Entry.text : Entry → List Char
  | none => []
  | some commit => commit.stringify

def Entry.chunk (entry : Entry) : List UInt8 :=
  Utf8.encode (entry.text ++ ['\n'])

theorem chunk_eq (entry : Entry) :
    entry.chunk = Utf8.encode entry.text ++ [0x0A] := by
  unfold Entry.chunk
  rw [Utf8.encode_append]
  rfl

theorem newline_not_mem_text (entry : Entry) :
    0x0A ∉ Utf8.encode entry.text := by
  intro hMember
  have hBreak :=
    Utf8.mem_of_ascii_mem_encode
      (show 0x0A < 0x80 by omega) hMember
  cases entry with
  | none => cases hBreak
  | some commit => exact oneLine_stringify commit hBreak

/- The bytes fall into what was written, each apart. -/
theorem split_chunks (entries : List Entry) :
    split 0x0A (entries.map Entry.chunk).flatten =
      (entries.map fun entry => Utf8.encode entry.text) ++
        [[]] := by
  induction entries with
  | nil => rfl
  | cons entry rest ih =>
      rw [List.map_cons, List.flatten_cons, chunk_eq,
        List.append_assoc, List.singleton_append,
        split_append,
        split_of_not_mem (newline_not_mem_text entry), ih]
      rfl

/- Only a commit is not blank. -/
theorem trimChars_text_iff (entry : Entry) :
    trimChars entry.text ≠ [] ↔ entry.isSome = true := by
  cases entry with
  | none => decide
  | some commit =>
      have hSolid : trimChars (Entry.text (some commit)) ≠ [] := by
        intro hBlank
        rw [trimChars_eq, trimBy_eq_nil_iff] at hBlank
        have hOpen := hBlank '\x7b' List.mem_cons_self
        revert hOpen
        decide
      simp [hSolid]

/- What is read is what was yielded, whatever heartbeats
   stand between. -/
theorem readCommits_chunks (entries : List Entry) :
    readCommits (entries.map Entry.chunk).flatten =
      some entries.reduceOption := by
  unfold readCommits
  rw [split_chunks, List.map_append, List.filter_append]
  have hLast :
      (([[]] : List (List UInt8)).map Utf8.decode).filter
          (fun text => trimChars text ≠ []) =
        [] := by
    decide
  rw [hLast, List.append_nil, List.map_map]
  have hTexts :
      (entries.map
          (Utf8.decode ∘ fun entry =>
            Utf8.encode (Entry.text entry))) =
        entries.map Entry.text := by
    apply List.map_congr_left
    intro entry _
    exact Utf8.decode_encode _
  rw [hTexts]
  induction entries with
  | nil => rfl
  | cons entry rest ih =>
      have hRest := ih ?_
      · rw [List.map_cons, List.filter_cons]
        cases entry with
        | none =>
            rw [if_neg (by decide), hRest]
            rfl
        | some commit =>
            have hSolid :=
              (trimChars_text_iff (some commit)).mpr rfl
            have hParse :
                (Json.parse (Entry.text (some commit))).bind
                    commitOf =
                  some commit := by
              have hRead :=
                Json.parse_of_isRead (isRead_stringify commit)
              unfold Entry.text
              rw [hRead, Option.bind_some, commitOf_toJson]
            rw [if_pos (by simpa using hSolid),
              List.mapM_cons, hParse, hRest]
            rfl
      · apply List.map_congr_left
        intro entry _
        exact Utf8.decode_encode _

------------------------------------------------------------
-- Runs Of The Stream
------------------------------------------------------------

variable {events : List StreamEvent} {event : StreamEvent}
variable {stream next : PullStream}
variable {earlier later : List StreamEvent}

/- What an event leaves of a stream to which it writes
   nothing. -/
structure Quiet
    (stream : PullStream)
    (event : StreamEvent)
    (next : PullStream) : Prop where
  same : next.chunks = stream.chunks
  still :
    stream.state ≠ .readable → next.state ≠ .readable
  ended : stream.finished = true → next.finished = true
  left :
    next.state ≠ .readable →
      stream.state ≠ .readable ∨ next.finished = true ∨
        event = .cancelled
  late
      (commit : ExportedCommit) :
    event = .yielded commit →
      stream.state ≠ .readable ∧ stream.finished = false
  gone : event = .cancelled → next.state ≠ .readable

/- An event writes one entry to a stream that goes on, or
   nothing. -/
inductive Wrote
    (stream : PullStream) :
    StreamEvent → PullStream → Prop where
  | quiet
      {event : StreamEvent}
      {next : PullStream}
      (nothing : Quiet stream event next) :
      Wrote stream event next
  | blank
      (readable : stream.state = .readable)
      (going : stream.finished = false) :
      Wrote stream .heartbeat
        { stream with
          chunks := stream.chunks ++ [Entry.chunk none] }
  | commit
      {commit : ExportedCommit}
      (readable : stream.state = .readable)
      (going : stream.finished = false) :
      Wrote stream (.yielded commit)
        { stream with
          chunks :=
            stream.chunks ++ [Entry.chunk (some commit)] }

/- A stream that stays as it is. -/
theorem quiet_refl
    (hEvent : ∀ commit, event ≠ .yielded commit)
    (hGone : event = .cancelled → stream.state ≠ .readable) :
    Quiet stream event stream where
  same := rfl
  still := id
  ended := id
  left := Or.inl
  late commit hYielded := absurd hYielded (hEvent commit)
  gone := hGone

theorem fail_state_ne (stream : PullStream) :
    stream.fail.state ≠ .readable := by
  unfold PullStream.fail
  dsimp only
  split
  · decide
  · assumption

/- A source that comes to its end. -/
theorem quiet_fail
    (hLate :
      ∀ commit, event = .yielded commit →
        stream.state ≠ .readable ∧ stream.finished = false) :
    Quiet stream event stream.fail where
  same := rfl
  still _ := fail_state_ne stream
  ended _ := rfl
  left _ := Or.inr (Or.inl rfl)
  late := hLate
  gone _ := fail_state_ne stream

theorem wrote_step
    (hStep : stream.step event = some next) :
    Wrote stream event next := by
  have hClosed : StreamState.closed ≠ .readable := by
    decide
  cases event with
  | heartbeat =>
      have hStays : Quiet stream .heartbeat stream :=
        quiet_refl (fun _ hEvent => nomatch hEvent)
          (fun hEvent => nomatch hEvent)
      dsimp only [PullStream.step] at hStep
      split at hStep
      · cases hStep
        exact .quiet hStays
      · rename_i hGoing
        unfold PullStream.enqueue at hStep
        split at hStep
        · rename_i hReadable
          cases hStep
          exact .blank hReadable (Bool.eq_false_iff.mpr hGoing)
        · cases hStep
          exact .quiet hStays
  | yielded commit =>
      dsimp only [PullStream.step] at hStep
      split at hStep
      · cases hStep
      · rename_i hGoing
        have hFalse := Bool.eq_false_iff.mpr hGoing
        unfold PullStream.enqueue at hStep
        split at hStep
        · rename_i hReadable
          cases hStep
          exact .commit hReadable hFalse
        · rename_i hNot
          cases hStep
          exact .quiet (quiet_fail fun _ _ => ⟨hNot, hFalse⟩)
  | ended =>
      dsimp only [PullStream.step] at hStep
      split at hStep
      · cases hStep
      · split at hStep
        · cases hStep
          exact
            .quiet
              { same := rfl
                still := fun _ => hClosed
                ended := fun _ => rfl
                left := fun _ => Or.inr (Or.inl rfl)
                late := fun _ hEvent => nomatch hEvent
                gone := fun hEvent => nomatch hEvent }
        · cases hStep
          exact .quiet (quiet_fail fun _ hEvent => nomatch hEvent)
  | threw =>
      dsimp only [PullStream.step] at hStep
      split at hStep
      · cases hStep
      · cases hStep
        exact .quiet (quiet_fail fun _ hEvent => nomatch hEvent)
  | cancelled =>
      dsimp only [PullStream.step] at hStep
      split at hStep
      · cases hStep
        exact
          .quiet
            { same := rfl
              still := fun _ => hClosed
              ended := id
              left := fun _ => Or.inr (Or.inr rfl)
              late := fun _ hEvent => nomatch hEvent
              gone := fun _ => hClosed }
      · rename_i hNot
        cases hStep
        exact
          .quiet
            (quiet_refl (fun _ hEvent => nomatch hEvent)
              fun _ => hNot)

theorem streamed_concat_iff :
    streamed (events ++ [event]) = some next ↔
      ∃ stream,
        streamed events = some stream ∧
          stream.step event = some next := by
  unfold streamed
  rw [List.foldlM_append]
  simp [Option.bind_eq_some_iff]

/- A run passes through its beginnings. -/
theorem exists_streamed
    (hRun : streamed (earlier ++ later) = some stream) :
    ∃ past, streamed earlier = some past := by
  unfold streamed at hRun ⊢
  rw [List.foldlM_append] at hRun
  rcases Option.bind_eq_some_iff.mp hRun with
    ⟨past, hPast, hRest⟩
  exact ⟨past, hPast⟩

/- What is left of a client that goes away. -/
theorem yieldedCommits_concat :
    yieldedCommits (events ++ [event]) =
      if .cancelled ∈ events then yieldedCommits events
      else
        yieldedCommits events ++
          (match event with
          | .yielded commit => [commit]
          | _ => []) := by
  unfold yieldedCommits
  induction events with
  | nil =>
      rw [if_neg List.not_mem_nil]
      cases event with
      | heartbeat => rfl
      | yielded commit => rfl
      | ended => rfl
      | threw => rfl
      | cancelled => rfl
  | cons first rest ih =>
      rw [List.cons_append, List.takeWhile_cons,
        List.takeWhile_cons]
      by_cases hFirst : first = .cancelled
      · subst hFirst
        simp
      · have hOther : ¬ StreamEvent.cancelled = first :=
          fun hSame => hFirst hSame.symm
        simp only [ne_eq, hFirst, not_false_eq_true,
          decide_true, if_true, List.mem_cons, hOther,
          false_or]
        cases first with
        | yielded commit =>
            simp only [List.filterMap_cons]
            rw [ih]
            split
            · rfl
            · rfl
        | heartbeat => exact ih
        | ended => exact ih
        | threw => exact ih
        | cancelled => exact absurd rfl hFirst

/- What the stream has written so far. -/
structure Written
    (events : List StreamEvent)
    (stream : PullStream) : Prop where
  gone : .cancelled ∈ events → stream.state ≠ .readable
  left :
    stream.state ≠ .readable →
      stream.finished = true ∨ .cancelled ∈ events
  entries :
    ∃ entries : List Entry,
      stream.chunks = entries.map Entry.chunk ∧
        entries.reduceOption = yieldedCommits events

/- An entry for a client that is still there. -/
theorem Written.write
    (hWritten : Written events stream)
    (hReadable : stream.state = .readable)
    (entry : Entry)
    (hEntry :
      [entry].reduceOption =
        match event with
        | .yielded commit => [commit]
        | _ => [])
    (hEvent : .cancelled ≠ event) :
    Written (events ++ [event])
      { stream with
        chunks := stream.chunks ++ [entry.chunk] } := by
  have hNot : StreamEvent.cancelled ∉ events :=
    fun hMember => hWritten.gone hMember hReadable
  rcases hWritten.entries with ⟨entries, hChunks, hRead⟩
  constructor
  · intro hMember
    rcases List.mem_append.mp hMember with hOld | hNew
    · exact absurd hOld hNot
    · exact absurd (List.mem_singleton.mp hNew) hEvent
  · intro hState
    exact absurd hReadable hState
  · refine ⟨entries ++ [entry], ?_, ?_⟩
    · rw [List.map_append, hChunks]
      rfl
    · rw [List.reduceOption_append, hRead, hEntry,
        yieldedCommits_concat, if_neg hNot]

/- By induction on the run: an event writes an entry or
   nothing. -/
theorem written_streamed
    (hRun : streamed events = some stream) :
    Written events stream := by
  induction events using List.reverseRecOn
    generalizing stream with
  | nil =>
      cases hRun
      constructor
      · intro hMember
        cases hMember
      · intro hState
        exact absurd rfl hState
      · exact ⟨[], rfl, rfl⟩
  | append_singleton before event ih =>
      rcases streamed_concat_iff.mp hRun with
        ⟨past, hPast, hStep⟩
      have hWritten := ih hPast
      rcases hWritten.entries with ⟨entries, hChunks, hRead⟩
      have hWrote := wrote_step hStep
      cases hWrote with
      | quiet hQuiet =>
          constructor
          · intro hMember
            rcases List.mem_append.mp hMember with hOld | hNew
            · exact hQuiet.still (hWritten.gone hOld)
            · exact
                hQuiet.gone (List.mem_singleton.mp hNew).symm
          · intro hState
            rcases hQuiet.left hState with
              hOld | hEnded | hCancelled
            · rcases hWritten.left hOld with hDone | hMember
              · exact Or.inl (hQuiet.ended hDone)
              · exact Or.inr (List.mem_append_left _ hMember)
            · exact Or.inl hEnded
            · subst hCancelled
              exact
                Or.inr
                  (List.mem_append_right _ List.mem_cons_self)
          · refine ⟨entries, hQuiet.same.trans hChunks, ?_⟩
            rw [hRead, yieldedCommits_concat]
            split
            · rfl
            · rename_i hNot
              cases event with
              | yielded commit =>
                  exfalso
                  rcases hQuiet.late commit rfl with
                    ⟨hState, hGoing⟩
                  rcases hWritten.left hState with
                    hDone | hMember
                  · rw [hGoing] at hDone
                    cases hDone
                  · exact hNot hMember
              | heartbeat => exact (List.append_nil _).symm
              | ended => exact (List.append_nil _).symm
              | threw => exact (List.append_nil _).symm
              | cancelled => exact (List.append_nil _).symm
      | blank hReadable hGoing =>
          exact hWritten.write hReadable none rfl nofun
      | commit hReadable hGoing =>
          exact hWritten.write hReadable (some _) rfl nofun

/- Nothing is written after the end of the source. -/
theorem chunks_of_finished
    {past : PullStream}
    (hPast : streamed earlier = some past)
    (hDone : past.finished = true)
    (hRun : streamed (earlier ++ later) = some stream) :
    stream.chunks = past.chunks ∧ stream.finished = true := by
  induction later using List.reverseRecOn
    generalizing stream with
  | nil =>
      rw [List.append_nil, hPast] at hRun
      cases hRun
      exact ⟨rfl, hDone⟩
  | append_singleton before event ih =>
      rw [← List.append_assoc] at hRun
      rcases streamed_concat_iff.mp hRun with
        ⟨reached, hReached, hStep⟩
      rcases ih hReached with ⟨hChunks, hFinished⟩
      have hWrote := wrote_step hStep
      cases hWrote with
      | quiet hQuiet =>
          exact
            ⟨hQuiet.same.trans hChunks,
              hQuiet.ended hFinished⟩
      | blank hReadable hGoing =>
          rw [hFinished] at hGoing
          cases hGoing
      | commit hReadable hGoing =>
          rw [hFinished] at hGoing
          cases hGoing

/- A source that comes to its end, or fails, is over. -/
theorem finished_step
    (hEvent : event = .ended ∨ event = .threw)
    (hStep : stream.step event = some next) :
    next.finished = true := by
  rcases hEvent with hEnded | hThrew
  · subst hEnded
    dsimp only [PullStream.step] at hStep
    split at hStep
    · cases hStep
    · split at hStep
      · cases hStep
        rfl
      · cases hStep
        rfl
  · subst hThrew
    dsimp only [PullStream.step] at hStep
    split at hStep
    · cases hStep
    · cases hStep
      rfl

theorem finished_of_over
    (hRun : streamed events = some stream)
    (hMember : event ∈ events)
    (hEvent : event = .ended ∨ event = .threw) :
    stream.finished = true := by
  rcases List.append_of_mem hMember with
    ⟨before, after, hEvents⟩
  rw [hEvents, List.append_cons] at hRun
  rcases exists_streamed hRun with ⟨reached, hReached⟩
  rcases streamed_concat_iff.mp hReached with
    ⟨past, hPast, hStep⟩
  have hDone := finished_step hEvent hStep
  exact (chunks_of_finished hReached hDone hRun).2

/- At every point of a run the bytes are read as the commits
   that were yielded, and they are all there are once the
   export has ended or failed. -/
theorem stream_faithful
    (events : List StreamEvent)
    (stream : PullStream)
    (hRun : streamed events = some stream) :
    readCommits stream.chunks.flatten =
        some (yieldedCommits events) ∧
      ∀ earlier past, earlier <+: events →
        streamed earlier = some past →
        .ended ∈ earlier ∨ .threw ∈ earlier →
        stream.chunks = past.chunks := by
  constructor
  · rcases (written_streamed hRun).entries with
      ⟨entries, hChunks, hRead⟩
    rw [hChunks, readCommits_chunks, hRead]
  · rintro earlier past ⟨later, hEvents⟩ hPast hOver
    subst hEvents
    have hDone : past.finished = true := by
      rcases hOver with hEnded | hThrew
      · exact finished_of_over hPast hEnded (Or.inl rfl)
      · exact finished_of_over hPast hThrew (Or.inr rfl)
    exact (chunks_of_finished hPast hDone hRun).1

/- A commit with a line break, and two heartbeats. -/
theorem stream_faithful_break :
    let commit : ExportedCommit :=
      { hash := js "c1", message := js "a\nb"
        author := [0xD83D], tables := [] }
    let events : List StreamEvent :=
      [.heartbeat, .yielded commit, .heartbeat, .ended,
        .heartbeat]
    ∃ stream,
      streamed events = some stream ∧
        readCommits stream.chunks.flatten =
          some [commit] ∧
        ∀ earlier past, earlier <+: events →
          streamed earlier = some past →
          .ended ∈ earlier ∨ .threw ∈ earlier →
          stream.chunks = past.chunks := by
  intro commit events
  exact ⟨_, rfl, stream_faithful events _ rfl⟩

end Wire

end Versioning
