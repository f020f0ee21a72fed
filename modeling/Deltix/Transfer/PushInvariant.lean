import Deltix.Transfer.PushContent
import Deltix.Transfer.PushOutline
import Deltix.Transfer.TicketSystem

/-
  What a run keeps about its push streams: what was taken in
  and written, what disturbed a stream, which streams have
  begun to finish, and which tickets they have activated.

  Key definitions include:
    * `Integrity`
    * `namesUnique`
    * `PushInv`
    * `Owes`

  Key theorems include:
    * `pushInv_perform`
    * `keeps_perform`
    * `keeps_event`
-/

------------------------------------------------------------
-- The Property
------------------------------------------------------------

namespace Transfer

namespace PushIntegrity

open Auth Concurrency Relational Storage NasPaths

/- A stream with its messages, and whether it ends. -/
def Pushes
    (i : Nat)
    (messages : List PushMessage)
    (ends : Bool)
    (trace : List TransferEvent) : Prop :=
  .started i (.push messages ends) ∈ trace

/- `finish` has begun: the end of the stream was processed,
   and nothing is in its way. -/
def Begins
    (i : Nat)
    (started : PushFinish)
    (event : TransferEvent) : Prop :=
  ∃ before after,
    event =
      .performed i (.session i .finalize) (.finishing started)
        before after

def Began
    (i : Nat)
    (started : PushFinish)
    (trace : List TransferEvent) : Prop :=
  ∃ event ∈ trace, Begins i started event

def Creates
    (i : Nat)
    (job : TransferJob)
    (event : TransferEvent) : Prop :=
  ∃ before after,
    event =
      .performed i (.jobs (.create job)) (.ok ()) before after

def Created
    (i : Nat)
    (job : TransferJob)
    (trace : List TransferEvent) : Prop :=
  ∃ event ∈ trace, Creates i job event

/- The ticket of a header was consumed. -/
def Consumes
    (i : Nat)
    (header : PushHeader)
    (event : TransferEvent) : Prop :=
  ∃ ticket path before after,
    event =
      .performed i (.session i (.ticketConsumed header ticket))
        path before after

def Consumed
    (i : Nat)
    (header : PushHeader)
    (trace : List TransferEvent) : Prop :=
  ∃ event ∈ trace, Consumes i header event

/- A cancellation, an error or an abort of a stream. -/
def Disturbs (i : Nat) (event : TransferEvent) : Prop :=
  ∃ (k : Nat) (step : SessionStep) (answer : step.Answer)
    (before after : TransferState),
    event = .performed k (.session i step) answer before after ∧
      step.disturbs answer = true

/- A chunk is written. -/
def Writes (i : Nat) (event : TransferEvent) : Prop :=
  ∃ k data before after,
    event =
      .performed k (.session i (.chunk data)) .accepted before
        after

/- A stream is answered with a result. -/
def Replies
    (i : Nat)
    (result : PushSessionResult)
    (event : TransferEvent) : Prop :=
  event = .finished i (.ok (.pushed (some (.done result))))

/- Integrity in a reachable world. -/
structure Integrity
    (config : TransferConfig)
    (w : TransferWorld) : Prop where
  single :
    ∀ newer event older i job,
      w.trace = newer ++ event :: older →
        Creates i job event →
          ∀ other, ¬ Created i other older
  ended :
    ∀ newer event older i job,
      w.trace = newer ++ event :: older →
        Creates i job event →
          ∃ started messages,
            Began i started older ∧
              Pushes i messages true w.trace
  undisturbed :
    ∀ newer event older i started,
      w.trace = newer ++ event :: older →
        Begins i started event →
          ∀ other ∈ older, ¬ Disturbs i other
  content :
    ∀ i messages ends job,
      Pushes i messages ends w.trace →
        Created i job w.trace →
          job.checksum =
              config.sha256 (afterHeader messages) ∧
            w.state.files job.stagingPath =
              some (afterHeader messages) ∧
            ∃ started,
              Began i started w.trace ∧
                started.bytesReceived =
                  (afterHeader messages).length
  answered :
    ∀ newer event older i messages ends result,
      w.trace = newer ++ event :: older →
        Pushes i messages ends w.trace →
          Replies i result event →
            result.checksum =
                config.sha256 (afterHeader messages) ∧
              result.bytesReceived =
                (afterHeader messages).length ∧
              (result.jobId = "dry-run" ∨
                ∃ job,
                  Created i job older ∧
                    job.id = result.jobId)
  early :
    ∀ newer event older i,
      w.trace = newer ++ event :: older → Writes i event →
        ∃ header, Consumed i header older
  written :
    ∀ i messages ends sink,
      Pushes i messages ends w.trace →
        (w.state.pushes i).fileSink = some sink →
          ∃ n, sink.written = afterHeader (messages.take n)
  consumed :
    ∀ i started, Began i started w.trace →
      ∃ header, Consumed i header w.trace ∧
        header.ticketId = started.ticketId
  ticket :
    ∀ i j started second,
      Began i started w.trace → Began j second w.trace →
        started.ticketId = second.ticketId → i = j

/- The stream that draws a name for its staging file, and
   the path it gets. -/
def staging : TransferEvent → Option (Nat × String)
  | .performed _ (.session k (.ticketConsumed _ _)) path _ _ =>
      some (k, path)
  | _ => none

/- The names of staging files are random UUIDs: no two
   streams have drawn the same. -/
def namesUnique : TransferAllowed where
  start := fun _ _ _ => True
  perform := fun _ _ w =>
    ∀ i j path,
      (i, path) ∈ w.trace.filterMap staging →
        (j, path) ∈ w.trace.filterMap staging → i = j

------------------------------------------------------------
-- The Invariant
------------------------------------------------------------

variable (config : TransferConfig)

/- A stream has activated a ticket. -/
def Activates
    (i : Nat)
    (ticketId : String)
    (event : TransferEvent) : Prop :=
  ∃ operation repo now before after,
    event =
      .performed i
        (.tickets (.activate ticketId operation repo now))
        (.ok true) before after

def Activated
    (i : Nat)
    (ticketId : String)
    (trace : List TransferEvent) : Prop :=
  ∃ event ∈ trace, Activates i ticketId event

/- A stream that finishes has its file on disk, and nothing
   touches it any more. -/
structure Committed
    (i : Nat)
    (started : PushFinish)
    (s : TransferState) : Prop where
  closed : (s.pushes i).closed = true
  path :
    (s.pushes i).stagingFilePath = some started.stagingPath
  ended :
    ∀ sink, (s.pushes i).fileSink = some sink →
      sink.ended = true
  file : s.files started.stagingPath = some started.hashed

/- A task that is no push. -/
def NoPush (i : Nat) (trace : List TransferEvent) : Prop :=
  ∃ call, .started i call ∈ trace ∧
    ∀ messages ends, call ≠ .push messages ends

/- What a reply to a stream tells. -/
def Answered
    (event : TransferEvent)
    (older : List TransferEvent) : Prop :=
  ∀ i result, Replies i result event →
    NoPush i older ∨
      ∃ started,
        Began i started older ∧
          result.checksum = config.sha256 started.hashed ∧
          result.bytesReceived = started.bytesReceived ∧
          (result.jobId = "dry-run" ∨
            ∃ job,
              Created i job older ∧ job.id = result.jobId)

structure PushInv (w : TransferWorld) : Prop where
  staged : Staged w.state
  unique : StartsOnce w.trace
  fresh :
    ∀ i, w.Fresh i →
      Intact [] (w.state.pushes i) ∧
        (w.state.pushes i).stagingFilePath = none
  named :
    ∀ i path, (w.state.pushes i).stagingFilePath = some path →
      (i, path) ∈ w.trace.filterMap staging
  open_ :
    ∀ i sink, (w.state.pushes i).fileSink = some sink →
      sink.ended = true → (w.state.pushes i).closed = true
  disturbed :
    ∀ i, ∀ event ∈ w.trace, Disturbs i event →
      (w.state.pushes i).aborted = true ∨
        (w.state.pushes i).closed = true
  committed :
    ∀ i started, Began i started w.trace →
      Committed i started w.state
  began :
    ∀ i started, Began i started w.trace →
      ∃ messages,
        Pushes i messages true w.trace ∧
          started.hashed = afterHeader messages ∧
          started.bytesReceived = started.hashed.length
  sinks :
    ∀ i sink, (w.state.pushes i).fileSink = some sink →
      ∃ header, Consumed i header w.trace
  owner :
    ∀ i ticketId,
      (w.state.pushes i).ticketId = some ticketId →
        ∃ header, Consumed i header w.trace ∧
          header.ticketId = ticketId
  consumed :
    ∀ i started, Began i started w.trace →
      ∃ header, Consumed i header w.trace ∧
        header.ticketId = started.ticketId
  written :
    ∀ i messages ends sink,
      Pushes i messages ends w.trace →
        (w.state.pushes i).fileSink = some sink →
          ∃ n, sink.written = afterHeader (messages.take n)
  activated :
    ∀ i header, Consumed i header w.trace →
      Activated i header.ticketId w.trace
  spent :
    ∀ i ticketId, Activated i ticketId w.trace →
      ∃ ticket,
        w.state.tickets.find? ticketId = some ticket ∧
          ticket.status ≠ .issued
  single :
    ∀ i j ticketId, Activated i ticketId w.trace →
      Activated j ticketId w.trace → i = j
  undisturbed :
    Throughout
      (fun event older =>
        ∀ i started, Begins i started event →
          ∀ other ∈ older, ¬ Disturbs i other)
      w.trace
  created :
    Throughout
      (fun event older =>
        ∀ i job, Creates i job event →
          (∀ other, ¬ Created i other older) ∧
            ∃ started,
              Began i started older ∧
                job.checksum = config.sha256 started.hashed ∧
                job.stagingPath = started.stagingPath)
      w.trace
  answered : Throughout (Answered config) w.trace
  early :
    Throughout
      (fun event older =>
        ∀ i, Writes i event →
          ∃ header, Consumed i header older)
      w.trace

/- A stream that was aborted before it could finish. -/
structure Dead (k : Nat) (w : TransferWorld) : Prop where
  closed : (w.state.pushes k).closed = true
  unfinished : ∀ started, ¬ Began k started w.trace

/- The staging file of such a stream. -/
def Doomed (path : String) (w : TransferWorld) : Prop :=
  ∃ k,
    (w.state.pushes k).stagingFilePath = some path ∧ Dead k w

/- While a task waits, the others only let its session wind
   down, and what is doomed stays so. -/
structure PushRely (i : Nat) (w v : TransferWorld) :
    Prop where
  winds : WindsDown (w.state.pushes i) (v.state.pushes i)
  doomed : ∀ path, Doomed path w → Doomed path v

def pushContract : TransferContract where
  inv := PushInv config
  rely := PushRely
  rely_refl := fun _ _ =>
    { winds := .refl _
      doomed := fun _ hDoomed => hDoomed }
  rely_trans := fun _ _ _ _ hFirst hSecond =>
    { winds := hFirst.winds.trans hSecond.winds
      doomed := fun path hDoomed =>
        hSecond.doomed path (hFirst.doomed path hDoomed) }

/- What a task owes before an operation. -/
def Owes
    (i : Nat)
    (op : TransferOp)
    (w : TransferWorld) : Prop :=
  match op with
  | .files statement =>
      ∀ path ∈ statement.writes, OnNas path ∨ Doomed path w
  | .jobs (.create job) =>
      (∀ other, ¬ Created i other w.trace) ∧
        ∃ started,
          Began i started w.trace ∧
            job.checksum = config.sha256 started.hashed ∧
            job.stagingPath = started.stagingPath
  | .session k (.header _) => k = i
  | .session k (.chunk data) =>
      k = i ∧
        ∃ done messages ends,
          Pushes i messages ends w.trace ∧
            done ++ [.chunk data] <+: messages ∧
            ((w.state.pushes i).aborted = true ∨
              Intact done (w.state.pushes i))
  | .session k (.ticketConsumed header _) =>
      k = i ∧
        Activated i header.ticketId w.trace ∧
        (w.state.pushes i).stagingFilePath = none
  | .session k .openSink =>
      k = i ∧
        (∀ started, ¬ Began i started w.trace) ∧
        ∃ header, Consumed i header w.trace
  | .session k .finalize =>
      k = i ∧
        ∃ messages,
          Pushes i messages true w.trace ∧
            ((w.state.pushes i).aborted = true ∨
              Intact messages (w.state.pushes i))
  | _ => True

------------------------------------------------------------
-- What An Operation Does To The Streams
------------------------------------------------------------

variable {config : TransferConfig} {op : TransferOp}
variable {choice : TransferChoice} {answer : op.Answer}
variable {s t after : TransferState} {w : TransferWorld}
variable {i k : Nat} {path : String}
variable {step : SessionStep} {sink : FileSink}
variable {ticketId : String} {ticket : Ticket}
variable {started : PushFinish} {header : PushHeader}
variable {messages : List PushMessage}

/- A step of a stream writes what ending its sink writes. -/
theorem flush_exec
    {reply : step.Answer}
    (hExec :
      (TransferOp.session k step).exec config choice s =
        some (reply, t)) :
    t.files = flush (s.pushes k) (t.pushes k) s.files := by
  rw [(exec_session hExec).2]
  have hRun := (TransferOp.exec_eq_some_iff.mp hExec).2
  cases hRun
  rfl

/- Only a step of a stream changes its session. -/
theorem pushes_exec
    (hExec : op.exec config choice s = some (answer, t))
    (k : Nat) :
    t.pushes k = s.pushes k ∨
      ∃ step,
        op = .session k step ∧
          SessionStep.Change (s.pushes k) step
            (t.pushes k) := by
  rcases TransferOp.exec_pushes hExec with
    hSame | ⟨stream, step, rfl, hPushes⟩
  · exact Or.inl (by rw [hSame])
  · by_cases hStream : k = stream
    · subst hStream
      refine Or.inr ⟨step, rfl, ?_⟩
      rw [(exec_session hExec).2]
      exact SessionStep.change_run step
    · rw [hPushes, Function.update_of_ne hStream]
      exact Or.inl rfl

theorem closed_exec
    (hExec : op.exec config choice s = some (answer, t))
    (hClosed : (s.pushes k).closed = true) :
    (t.pushes k).closed = true := by
  rcases pushes_exec hExec k with hSame | ⟨_, _, hChange⟩
  · rw [hSame]
    exact hClosed
  · exact hChange.closed hClosed

theorem aborted_exec
    (hExec : op.exec config choice s = some (answer, t))
    (hAborted : (s.pushes k).aborted = true) :
    (t.pushes k).aborted = true := by
  rcases pushes_exec hExec k with hSame | ⟨_, _, hChange⟩
  · rw [hSame]
    exact hAborted
  · exact hChange.aborted hAborted

/- Ending a sink is winding down. -/
theorem winds_of_ended
    {session next : PushSession}
    {open_ : FileSink}
    (hChange : SessionStep.Change session step next)
    (hOpen : session.fileSink = some open_)
    (hNot : open_.ended = false)
    (hSink : next.fileSink = some sink)
    (hEnded : sink.ended = true) :
    WindsDown session next := by
  cases hChange with
  | winds hWinds => exact hWinds
  | header sent =>
      rw [hOpen, Option.some.injEq] at hSink
      rw [hSink, hEnded] at hNot
      cases hNot
  | chunk data other _ _ hOther =>
      rw [hOpen, Option.some.injEq] at hOther
      subst hOther
      rw [Option.some.injEq] at hSink
      rw [← hSink, FileSink.write, hNot] at hEnded
      simp at hEnded
  | identity sent ticket given =>
      have hSame : session.fileSink = some sink := hSink
      rw [hOpen, Option.some.injEq] at hSame
      rw [hSame, hEnded] at hNot
      cases hNot
  | sink =>
      rw [Option.some.injEq] at hSink
      rw [← hSink] at hEnded
      cases hEnded

/- A session that takes nothing in only winds down. -/
theorem winds_of_steps
    (hExec : op.exec config choice s = some (answer, t))
    (hSteps :
      ∀ step, op = .session k step → ¬ step.TakesIn) :
    WindsDown (s.pushes k) (t.pushes k) := by
  rcases pushes_exec hExec k with
    hSame | ⟨step, rfl, hChange⟩
  · rw [hSame]
    exact .refl _
  · have hNone := hSteps step rfl
    generalize t.pushes k = next at hChange
    cases hChange with
    | winds hWinds => exact hWinds
    | _ => exact absurd trivial hNone

/- A staging file keeps its name. -/
theorem path_exec
    (hFirst :
      ∀ header ticket,
        op = .session k (.ticketConsumed header ticket) →
          (s.pushes k).stagingFilePath = none)
    (hExec : op.exec config choice s = some (answer, t))
    (hPath : (s.pushes k).stagingFilePath = some path) :
    (t.pushes k).stagingFilePath = some path := by
  rcases pushes_exec hExec k with
    hSame | ⟨step, rfl, hChange⟩
  · rw [hSame]
    exact hPath
  · generalize t.pushes k = next at hChange
    cases hChange with
    | winds hWinds =>
        rw [hWinds.identity.stagingFilePath]
        exact hPath
    | header sent => exact hPath
    | chunk data => exact hPath
    | identity sent ticket given =>
        rw [hFirst sent ticket rfl] at hPath
        cases hPath
    | sink => exact hPath

/- How an operation may change a file that is not on the
   NAS. -/
theorem files_cases
    (path : String)
    (hExec : op.exec config choice s = some (answer, t)) :
    t.files path = s.files path ∨
      (∃ statement,
        op = .files statement ∧ path ∈ statement.writes) ∨
      ∃ stream step open_,
        op = .session stream step ∧
          (s.pushes stream).fileSink = some open_ ∧
          open_.ended = false ∧
          (s.pushes stream).stagingFilePath = some path := by
  by_cases hWrites :
      ∃ statement,
        op = .files statement ∧ path ∈ statement.writes
  · exact Or.inr (Or.inl hWrites)
  · cases op with
    | session stream step =>
        have hFiles := flush_exec hExec
        rcases flush_cases
            (s.pushes stream) (t.pushes stream) s.files with
          hKept | ⟨open_, sink, other, hOpen, hNot, hSink,
            hEnded, hOther, hFlush⟩
        · rw [hFiles, hKept]
          exact Or.inl rfl
        · have hWinds :
              WindsDown (s.pushes stream)
                (t.pushes stream) := by
            rcases pushes_exec hExec stream with
              hSame | ⟨_, _, hChange⟩
            · rw [hSame]
              exact .refl _
            · exact
                winds_of_ended hChange hOpen hNot hSink hEnded
          by_cases hPath : path = other
          · subst hPath
            rw [hWinds.identity.stagingFilePath] at hOther
            exact
              Or.inr (Or.inr
                ⟨stream, step, open_, rfl, hOpen, hNot,
                  hOther⟩)
          · rw [hFiles, hFlush, Function.update_of_ne hPath]
            exact Or.inl rfl
    | files statement =>
        refine Or.inl ?_
        have hRun := (TransferOp.exec_eq_some_iff.mp hExec).2
        cases hRun
        apply runFiles_of_ne
        intro hPath
        exact hWrites ⟨statement, rfl, hPath⟩
    | _ =>
        refine Or.inl ?_
        have hRun := (TransferOp.exec_eq_some_iff.mp hExec).2
        cases hRun
        rfl

/- A step that wants a file removed closes its session. -/
theorem closes_exec
    {stream : Nat}
    {step : SessionStep}
    {reply : step.Answer}
    {path : String}
    (hExec :
      (TransferOp.session stream step).exec config choice s =
        some (reply, t))
    (hRemoval : step.removal reply = some path) :
    (s.pushes stream).closed = false ∧
      (t.pushes stream).closed = true ∧
      (s.pushes stream).stagingFilePath = some path := by
  have hSession := exec_session hExec
  rw [← hSession.1] at hRemoval
  have hCloses :=
    removal_closes (s.pushes stream) step path hRemoval
  refine ⟨hCloses.1, ?_, step_removal step _ hRemoval⟩
  rw [hSession.2]
  exact hCloses.2

/- A ticket moves in its state machine only. -/
theorem moved_run
    {tickets : TicketTable}
    (statement : TicketStatement)
    (hFind : tickets.find? ticketId = some ticket) :
    ∃ later,
      (statement.run tickets).2.find? ticketId = some later ∧
        StatusMove ticket.status later.status :=
  statement.row_run hFind (.stays _)
    fun _ _ hSets hCond => (statusMove_of_sets hSets hCond).2

theorem moved_exec
    (hExec : op.exec config choice s = some (answer, t))
    (hFind : s.tickets.find? ticketId = some ticket) :
    ∃ later,
      t.tickets.find? ticketId = some later ∧
        StatusMove ticket.status later.status := by
  rcases (TransferOp.exec_frame hExec).tickets with
    hSame | ⟨statement, _, hRun⟩
  · rw [hSame]
    exact ⟨ticket, hFind, .stays _⟩
  · rw [hRun]
    exact moved_run statement hFind

------------------------------------------------------------
-- Operations Keep The Invariant
------------------------------------------------------------

/- What happened before an operation happened. -/
theorem Began.perform
    (hBegan : Began k started w.trace) :
    Began k started (w.perform i op answer after).trace := by
  rcases hBegan with ⟨event, hEvent, hBegins⟩
  exact ⟨event, List.mem_cons_of_mem _ hEvent, hBegins⟩

theorem Consumed.perform
    (hConsumed : Consumed k header w.trace) :
    Consumed k header (w.perform i op answer after).trace := by
  rcases hConsumed with ⟨event, hEvent, hConsumes⟩
  exact ⟨event, List.mem_cons_of_mem _ hEvent, hConsumes⟩

theorem Activated.perform
    (hActivated : Activated k ticketId w.trace) :
    Activated k ticketId
      (w.perform i op answer after).trace := by
  rcases hActivated with ⟨event, hEvent, hActivates⟩
  exact ⟨event, List.mem_cons_of_mem _ hEvent, hActivates⟩

/- No operation starts a stream. -/
theorem pushes_perform
    {ends : Bool} :
    Pushes k messages ends
        (w.perform i op answer after).trace ↔
      Pushes k messages ends w.trace := by
  unfold Pushes
  rw [World.perform_trace, List.mem_cons]
  constructor
  · rintro (hNew | hOld)
    · cases hNew
    · exact hOld
  · exact Or.inr

/- What `finish` finds when it begins. -/
theorem finalize_exec
    (hExec :
      (TransferOp.session i .finalize).exec config choice s =
        some (.finishing started, t)) :
    (s.pushes i).aborted = false ∧
      (s.pushes i).closed = false ∧
      ∃ sink,
        (s.pushes i).fileSink = some sink ∧
          (s.pushes i).stagingFilePath =
            some started.stagingPath ∧
          (s.pushes i).ticketId = some started.ticketId ∧
          started.hashed = (s.pushes i).hashed ∧
          started.bytesReceived =
            (s.pushes i).bytesReceived ∧
          (t.pushes i).closed = true ∧
          (t.pushes i).stagingFilePath =
            some started.stagingPath ∧
          (t.pushes i).fileSink = some sink.end ∧
          t.files =
            flush (s.pushes i) (t.pushes i) s.files := by
  have hSession := exec_session hExec
  have hFiles := flush_exec hExec
  have hAnswer :
      ((s.pushes i).finalizeStream s.clock choice.fails).1 =
        .finishing started := hSession.1
  have hNext :
      t.pushes i =
        ((s.pushes i).finalizeStream s.clock
          choice.fails).2 := hSession.2
  have hIdentity :=
    PushSession.finalizeStream_identity (s.pushes i) s.clock
      choice.fails
  rcases
      ((s.pushes i).finalizeStream_cases s.clock
        choice.fails).2 with
    ⟨_, _, hOther⟩ | ⟨_, _, hOther, _⟩ | ⟨_, hOther⟩ |
      ⟨hAborted, hClosed, other, sink, hOther, hSink, hPath,
        hTicket, hHashed, hBytes, hCloses, hEnds⟩
  · rw [hAnswer] at hOther
    cases hOther
  · rw [hAnswer] at hOther
    cases hOther
  · rw [hAnswer] at hOther
    cases hOther
  · rw [hAnswer] at hOther
    cases hOther
    refine
      ⟨hAborted, hClosed, sink, hSink, hPath, hTicket, hHashed,
        hBytes, ?_, ?_, ?_, hFiles⟩
    · rw [hNext]
      exact hCloses
    · rw [hNext, hIdentity.stagingFilePath]
      exact hPath
    · rw [hNext]
      exact hEnds

/- When `finish` begins, the file is on disk. -/
theorem committed_begins
    (hInv : PushInv config w)
    (hIntact : Intact messages (w.state.pushes i))
    (hExec :
      (TransferOp.session i .finalize).exec config choice
          w.state =
        some (.finishing started, after)) :
    Committed i started after ∧
      started.hashed = afterHeader messages ∧
      started.bytesReceived = started.hashed.length := by
  rcases finalize_exec hExec with
    ⟨_, hClosed, sink, hSink, _, _, hHashed, hBytes, hCloses,
      hPath, hEnds, hFiles⟩
  have hOpen : sink.ended = false := by
    by_contra hEnded
    rw [Bool.not_eq_false] at hEnded
    rw [hInv.open_ i sink hSink hEnded] at hClosed
    cases hClosed
  constructor
  · refine ⟨hCloses, hPath, ?_, ?_⟩
    · intro other hOther
      rw [hEnds, Option.some.injEq] at hOther
      rw [← hOther]
      rfl
    · rw [hFiles]
      unfold flush
      rw [hSink, hEnds, hPath]
      dsimp only
      rw [if_pos (by simp [FileSink.end, hOpen]),
        Function.update_self, hHashed]
      exact congrArg some (hIntact.sink sink hSink hOpen)
  · rw [hHashed, hBytes]
    exact ⟨hIntact.hashed, hIntact.bytes⟩

/- A stream consumes one ticket. -/
theorem owes_first
    (hOwes : Owes config i op w)
    (hOp : op = .session k (.ticketConsumed header ticket)) :
    (w.state.pushes k).stagingFilePath = none := by
  subst hOp
  rcases hOwes with ⟨rfl, _, hNone⟩
  exact hNone

/- What is committed stays so. -/
theorem committed_perform
    (hInv : PushInv config w)
    (hOk : namesUnique.perform i op w)
    (hOwes : Owes config i op w)
    (hExec :
      op.exec config choice w.state = some (answer, after))
    (hBegan : Began k started w.trace) :
    Committed k started after := by
  have hCommitted := hInv.committed k started hBegan
  have hOpens : op ≠ .session k .openSink := by
    rintro rfl
    have hSelf : k = i := hOwes.1
    subst hSelf
    exact hOwes.2.1 started hBegan
  refine ⟨closed_exec hExec hCommitted.closed, ?_, ?_, ?_⟩
  · exact path_exec (fun _ _ => owes_first hOwes) hExec hCommitted.path
  · intro sink hSink
    rcases pushes_exec hExec k with
      hSame | ⟨step, rfl, hChange⟩
    · rw [hSame] at hSink
      exact hCommitted.ended sink hSink
    · exact
        hChange.staysEnded
          (fun hStep => hOpens (hStep ▸ rfl))
          hCommitted.ended sink hSink
  · rcases files_cases started.stagingPath hExec with
      hSame | ⟨statement, rfl, hWrites⟩ |
        ⟨stream, step, open_, rfl, hOpen, hNot, hPath⟩
    · rw [hSame]
      exact hCommitted.file
    · exfalso
      rcases hOwes _ hWrites with hNas | ⟨other, hOther, hDead⟩
      · exact hInv.staged k _ hCommitted.path hNas
      · have hSelf :=
          hOk other k _ (hInv.named other _ hOther)
            (hInv.named k _ hCommitted.path)
        subst hSelf
        exact hDead.unfinished started hBegan
    · exfalso
      have hSelf :=
        hOk stream k _ (hInv.named stream _ hPath)
          (hInv.named k _ hCommitted.path)
      subst hSelf
      rw [hCommitted.ended open_ hOpen] at hNot
      cases hNot

/- The sessions of the other streams only wind down. -/
theorem winds_exec
    (hOwes : Owes config i op w)
    (hExec :
      op.exec config choice w.state = some (answer, after))
    (hOther : k ≠ i) :
    WindsDown (w.state.pushes k) (after.pushes k) := by
  apply winds_of_steps hExec
  rintro step rfl hTakes
  cases step with
  | header sent => exact hOther hOwes
  | chunk data => exact hOther hOwes.1
  | ticketConsumed sent ticket => exact hOther hOwes.1
  | openSink => exact hOther hOwes.1
  | _ => exact hTakes

/- What a stream has written is what it has received. -/
theorem written_perform
    {ends : Bool}
    (hInv : PushInv config w)
    (hOwes : Owes config i op w)
    (hExec :
      op.exec config choice w.state = some (answer, after))
    (hPushes : Pushes k messages ends w.trace)
    (hSink : (after.pushes k).fileSink = some sink) :
    ∃ n, sink.written = afterHeader (messages.take n) := by
  rcases pushes_exec hExec k with
    hSame | ⟨step, rfl, hChange⟩
  · rw [hSame] at hSink
    exact hInv.written k messages ends sink hPushes hSink
  · generalize after.pushes k = next at hChange hSink
    cases hChange with
    | winds hWinds =>
        rcases hWinds.written hSink with
          ⟨open_, hOpen, hWritten, _⟩
        rw [hWritten]
        exact
          hInv.written k messages ends open_ hPushes hOpen
    | header sent =>
        exact hInv.written k messages ends sink hPushes hSink
    | chunk data open_ hAborted hReceived hOpen =>
        rcases hOwes with
          ⟨rfl, done, others, ends', hOther, hPrefix, hReady⟩
        cases hInv.unique k _ _ hPushes hOther
        rw [Option.some.injEq] at hSink
        subst hSink
        by_cases hEnded : open_.ended = true
        · rw [FileSink.write, if_pos hEnded]
          exact
            hInv.written k messages ends open_ hPushes hOpen
        · rw [FileSink.write, if_neg hEnded]
          rw [Bool.not_eq_true] at hEnded
          have hIntact : Intact done (w.state.pushes k) := by
            rcases hReady with hStopped | hIntact
            · rw [hAborted] at hStopped
              cases hStopped
            · exact hIntact
          have hAny := hIntact.header
          rw [hReceived] at hAny
          refine ⟨(done ++ [PushMessage.chunk data]).length, ?_⟩
          rw [← List.prefix_iff_eq_take.mp hPrefix,
            afterHeader_append_of_any hAny.symm]
          dsimp only
          rw [hIntact.sink open_ hOpen hEnded, hIntact.hashed]
          rfl
    | identity sent ticket given =>
        exact hInv.written k messages ends sink hPushes hSink
    | sink =>
        rw [Option.some.injEq] at hSink
        subst hSink
        exact ⟨0, rfl⟩

/- A disturbed stream is stopped. -/
theorem disturbed_perform
    (hInv : PushInv config w)
    (hExec :
      op.exec config choice w.state = some (answer, after))
    {event : TransferEvent}
    (hEvent : event ∈ (w.perform i op answer after).trace)
    (hDisturbs : Disturbs k event) :
    (after.pushes k).aborted = true ∨
      (after.pushes k).closed = true := by
  rcases List.mem_cons.mp hEvent with rfl | hOld
  · rcases hDisturbs with
      ⟨j, step, reply, before, later, hEq, hStops⟩
    cases hEq
    have hSession := exec_session hExec
    rw [hSession.2]
    apply SessionStep.disturbs_run step
    rw [hSession.1]
    exact hStops
  · rcases hInv.disturbed k event hOld hDisturbs with
      hAborted | hClosed
    · exact Or.inl (aborted_exec hExec hAborted)
    · exact Or.inr (closed_exec hExec hClosed)

/- A stream with a sink has consumed its header. -/
theorem sinks_perform
    (hInv : PushInv config w)
    (hOwes : Owes config i op w)
    (hExec :
      op.exec config choice w.state = some (answer, after))
    (hSink : (after.pushes k).fileSink = some sink) :
    ∃ header, Consumed k header w.trace := by
  rcases pushes_exec hExec k with
    hSame | ⟨step, rfl, hChange⟩
  · rw [hSame] at hSink
    exact hInv.sinks k sink hSink
  · generalize after.pushes k = next at hChange hSink
    cases hChange with
    | winds hWinds =>
        rcases hWinds.written hSink with ⟨open_, hOpen, _⟩
        exact hInv.sinks k open_ hOpen
    | header sent => exact hInv.sinks k sink hSink
    | chunk data open_ _ _ hOpen =>
        exact hInv.sinks k open_ hOpen
    | identity sent ticket given =>
        exact hInv.sinks k sink hSink
    | sink =>
        rcases hOwes with ⟨rfl, _, hConsumed⟩
        exact hConsumed

/- A stream has the staging file whose name it has drawn. -/
theorem named_perform
    (hInv : PushInv config w)
    (hExec :
      op.exec config choice w.state = some (answer, after))
    (hPath : (after.pushes k).stagingFilePath = some path) :
    (k, path) ∈
      (w.perform i op answer after).trace.filterMap staging := by
  have hKept :
      (w.state.pushes k).stagingFilePath = some path →
        (k, path) ∈
          (w.perform i op answer after).trace.filterMap
            staging := by
    intro hBefore
    rw [World.perform_trace, List.filterMap_cons]
    split
    · exact hInv.named k path hBefore
    · exact
        List.mem_cons_of_mem _ (hInv.named k path hBefore)
  rcases pushes_exec hExec k with
    hSame | ⟨step, rfl, hChange⟩
  · rw [hSame] at hPath
    exact hKept hPath
  · have hSession := exec_session hExec
    generalize hNext : after.pushes k = next
      at hChange hPath
    cases hChange with
    | winds hWinds =>
        rw [hWinds.identity.stagingFilePath] at hPath
        exact hKept hPath
    | header sent => exact hKept hPath
    | chunk data => exact hKept hPath
    | identity sent ticket given =>
        have hGiven : given = answer := by
          rw [hSession.2] at hNext
          rw [← hSession.1]
          exact
            (Option.some.inj
              (congrArg PushSession.stagingFilePath
                hNext)).symm
        have hDrawn : answer = path :=
          hGiven.symm.trans (Option.some.inj hPath)
        exact
          List.mem_filterMap.mpr
            ⟨_, List.mem_cons_self, by rw [← hDrawn]; rfl⟩
    | sink => exact hKept hPath

/- A stream has the ticket of a header it has consumed. -/
theorem owner_perform
    (hInv : PushInv config w)
    (hExec :
      op.exec config choice w.state = some (answer, after))
    (hTicket : (after.pushes k).ticketId = some ticketId)
    (hOwes : Owes config i op w) :
    ∃ header,
      Consumed k header (w.perform i op answer after).trace ∧
        header.ticketId = ticketId := by
  have hKept :
      (w.state.pushes k).ticketId = some ticketId →
        ∃ header,
          Consumed k header
              (w.perform i op answer after).trace ∧
            header.ticketId = ticketId := by
    intro hBefore
    rcases hInv.owner k ticketId hBefore with
      ⟨header, hConsumed, hSame⟩
    exact ⟨header, hConsumed.perform, hSame⟩
  rcases pushes_exec hExec k with
    hSame | ⟨step, rfl, hChange⟩
  · rw [hSame] at hTicket
    exact hKept hTicket
  · generalize hNext : after.pushes k = next
      at hChange hTicket
    cases hChange with
    | winds hWinds =>
        rw [hWinds.identity.ticketId] at hTicket
        exact hKept hTicket
    | header sent => exact hKept hTicket
    | chunk data => exact hKept hTicket
    | identity sent ticket given =>
        rcases hOwes with ⟨rfl, _⟩
        exact
          ⟨sent,
            ⟨_, List.mem_cons_self, ticket, answer, w.state,
              after, rfl⟩,
            Option.some.inj hTicket⟩
    | sink => exact hKept hTicket

/- Tickets that were activated are not issued any more. -/
theorem spent_perform
    (hInv : PushInv config w)
    (hExec :
      op.exec config choice w.state = some (answer, after))
    (hActivated :
      Activated k ticketId
        (w.perform i op answer after).trace) :
    ∃ ticket,
      after.tickets.find? ticketId = some ticket ∧
        ticket.status ≠ .issued := by
  rcases hActivated with ⟨event, hEvent, hActivates⟩
  rcases List.mem_cons.mp hEvent with rfl | hOld
  · rcases hActivates with
      ⟨operation, repo, now, before, later, hEq⟩
    cases hEq
    have hRun := exec_tickets_ok hExec
    rcases run_activate_true (congrArg Prod.fst hRun) with
      ⟨row, _, _, _, _, _, hAfter⟩
    rw [hRun] at hAfter
    exact ⟨_, hAfter, by simp⟩
  · rcases hInv.spent k ticketId ⟨event, hOld, hActivates⟩ with
      ⟨ticket, hFind, hSpent⟩
    rcases moved_exec hExec hFind with ⟨later, hLater, hMove⟩
    exact ⟨later, hLater, ne_issued_of_move hMove hSpent⟩

/- A ticket is activated once. -/
theorem not_activated
    {before later : TransferState}
    (hInv : PushInv config w)
    (hExec :
      op.exec config choice w.state = some (answer, after))
    (hActivates :
      Activates k ticketId
        (.performed i op answer before later)) :
    k = i ∧ ∀ j, ¬ Activated j ticketId w.trace := by
  rcases hActivates with
    ⟨operation, repo, now, first, second, hEq⟩
  cases hEq
  refine ⟨rfl, ?_⟩
  intro j hActivated
  have hRun := exec_tickets_ok hExec
  rcases run_activate_true (congrArg Prod.fst hRun) with
    ⟨row, hFind, _, _, hIssued, _⟩
  rcases hInv.spent j ticketId hActivated with
    ⟨ticket, hOther, hSpent⟩
  rw [hFind, Option.some.injEq] at hOther
  rw [← hOther] at hSpent
  exact hSpent hIssued

theorem single_perform
    {j : Nat}
    (hInv : PushInv config w)
    (hExec :
      op.exec config choice w.state = some (answer, after))
    (hFirst :
      Activated k ticketId
        (w.perform i op answer after).trace)
    (hSecond :
      Activated j ticketId
        (w.perform i op answer after).trace) :
    k = j := by
  rcases hFirst with ⟨event, hEvent, hActivates⟩
  rcases hSecond with ⟨other, hOther, hActivates'⟩
  rcases List.mem_cons.mp hEvent with rfl | hOld
  · have hNew := not_activated hInv hExec hActivates
    rcases List.mem_cons.mp hOther with rfl | hOld'
    · have hNew' := not_activated hInv hExec hActivates'
      exact hNew.1.trans hNew'.1.symm
    · exact absurd ⟨other, hOld', hActivates'⟩ (hNew.2 j)
  · rcases List.mem_cons.mp hOther with rfl | hOld'
    · have hNew' := not_activated hInv hExec hActivates'
      exact absurd ⟨event, hOld, hActivates⟩ (hNew'.2 k)
    · exact
        hInv.single k j ticketId ⟨event, hOld, hActivates⟩
          ⟨other, hOld', hActivates'⟩

/- A header was consumed by the stream that had activated
   its ticket. -/
theorem activated_perform
    (hInv : PushInv config w)
    (hOwes : Owes config i op w)
    (hConsumed :
      Consumed k header (w.perform i op answer after).trace) :
    Activated k header.ticketId
      (w.perform i op answer after).trace := by
  rcases hConsumed with ⟨event, hEvent, hConsumes⟩
  rcases List.mem_cons.mp hEvent with rfl | hOld
  · rcases hConsumes with
      ⟨ticket, given, before, later, hEq⟩
    cases hEq
    exact Activated.perform hOwes.2.1
  · exact
      (hInv.activated k header
        ⟨event, hOld, hConsumes⟩).perform

/- A stream has begun to finish before, or does so now. -/
theorem began_perform
    (hBegan :
      Began k started (w.perform i op answer after).trace) :
    Began k started w.trace ∨
      (k = i ∧
        op = .session i .finalize ∧
        HEq answer (Ended.finishing started)) := by
  rcases hBegan with ⟨event, hEvent, hBegins⟩
  rcases List.mem_cons.mp hEvent with rfl | hOld
  · rcases hBegins with ⟨before, later, hEq⟩
    cases hEq
    exact Or.inr ⟨rfl, rfl, HEq.rfl⟩
  · exact Or.inl ⟨event, hOld, hBegins⟩

/- A chunk is written to a sink that is open, so a header
   was consumed before. -/
theorem early_perform
    (hInv : PushInv config w)
    (hExec :
      op.exec config choice w.state = some (answer, after))
    (hWrites :
      Writes k (.performed i op answer w.state after)) :
    ∃ header, Consumed k header w.trace := by
  rcases hWrites with ⟨j, data, before, later, hEq⟩
  cases hEq
  have hAnswer :
      ((w.state.pushes k).processChunk choice.fails data).1 =
        .accepted :=
    (exec_session hExec).1
  rcases
      (w.state.pushes k).processChunk_cases choice.fails
        data with
    ⟨_, hCase⟩ | ⟨_, _, _, hCase, _⟩ | ⟨_, hCase⟩ |
      ⟨_, _, sink, hSink, _⟩
  · rw [hCase] at hAnswer
    cases hAnswer
  · rw [hCase] at hAnswer
    cases hAnswer
  · rcases hCase with ⟨_, hCase⟩ | hCase
    · rw [hCase] at hAnswer
      cases hAnswer
    · rw [hCase] at hAnswer
      cases hAnswer
  · exact hInv.sinks k sink hSink

theorem pushInv_perform
    (hInv : PushInv config w)
    (hOk : namesUnique.perform i op w)
    (hOwes : Owes config i op w)
    (hExec :
      op.exec config choice w.state = some (answer, after)) :
    PushInv config (w.perform i op answer after) where
  staged := staged_exec hInv.staged hExec
  unique := hInv.unique.cons (by simp)
  fresh := by
    intro k hFresh
    have hOther : k ≠ i := fun hEq =>
      hFresh _ List.mem_cons_self hEq.symm
    have hBefore : w.Fresh k := fun event hEvent =>
      hFresh event (List.mem_cons_of_mem _ hEvent)
    have hWinds := winds_exec hOwes hExec hOther
    have hHeld := hInv.fresh k hBefore
    refine ⟨hWinds.intact hHeld.1, ?_⟩
    exact hWinds.identity.stagingFilePath.trans hHeld.2
  named := fun _ _ hPath => named_perform hInv hExec hPath
  open_ := by
    intro k sink hSink hEnded
    rcases pushes_exec hExec k with
      hSame | ⟨step, _, hChange⟩
    · rw [World.perform_state, hSame] at hSink ⊢
      exact hInv.open_ k sink hSink hEnded
    · exact hChange.ended (hInv.open_ k) sink hSink hEnded
  disturbed := fun _ _ hEvent hDisturbs =>
    disturbed_perform hInv hExec hEvent hDisturbs
  committed := by
    intro k started hBegan
    rcases began_perform hBegan with hOld | ⟨rfl, rfl, hReply⟩
    · exact committed_perform hInv hOk hOwes hExec hOld
    · cases eq_of_heq hReply
      rcases hOwes.2 with ⟨messages, _, hStopped | hIntact⟩
      · rw [(finalize_exec hExec).1] at hStopped
        cases hStopped
      · exact (committed_begins hInv hIntact hExec).1
  began := by
    intro k started hBegan
    rcases began_perform hBegan with hOld | ⟨rfl, rfl, hReply⟩
    · rcases hInv.began k started hOld with
        ⟨messages, hPushes, hContent⟩
      exact ⟨messages, pushes_perform.mpr hPushes, hContent⟩
    · cases eq_of_heq hReply
      rcases hOwes.2 with
        ⟨messages, hPushes, hStopped | hIntact⟩
      · rw [(finalize_exec hExec).1] at hStopped
        cases hStopped
      · exact
          ⟨messages, pushes_perform.mpr hPushes,
            (committed_begins hInv hIntact hExec).2⟩
  sinks := by
    intro k sink hSink
    rcases sinks_perform hInv hOwes hExec hSink with
      ⟨header, hConsumed⟩
    exact ⟨header, hConsumed.perform⟩
  written := by
    intro k messages ends sink hPushes hSink
    exact
      written_perform hInv hOwes hExec
        (pushes_perform.mp hPushes) hSink
  owner := fun _ _ hTicket =>
    owner_perform hInv hExec hTicket hOwes
  consumed := by
    intro k started hBegan
    have hBefore :
        ∃ header, Consumed k header w.trace ∧
          header.ticketId = started.ticketId := by
      rcases began_perform hBegan with
        hOld | ⟨rfl, rfl, hReply⟩
      · exact hInv.consumed k started hOld
      · cases eq_of_heq hReply
        rcases finalize_exec hExec with
          ⟨_, _, _, _, _, hTicket, _⟩
        exact hInv.owner k started.ticketId hTicket
    rcases hBefore with ⟨header, hConsumed, hTicket⟩
    exact ⟨header, hConsumed.perform, hTicket⟩
  activated := fun _ _ hConsumed =>
    activated_perform hInv hOwes hConsumed
  spent := fun _ _ hActivated =>
    spent_perform hInv hExec hActivated
  single := fun _ _ _ hFirst hSecond =>
    single_perform hInv hExec hFirst hSecond
  undisturbed := by
    refine ⟨?_, hInv.undisturbed⟩
    rintro k started ⟨before, later, hEq⟩ other hOther hStops
    cases hEq
    have hFinds := finalize_exec hExec
    rcases hInv.disturbed _ other hOther hStops with
      hAborted | hClosed
    · rw [hFinds.1] at hAborted
      cases hAborted
    · rw [hFinds.2.1] at hClosed
      cases hClosed
  created := by
    refine ⟨?_, hInv.created⟩
    rintro k job ⟨before, later, hEq⟩
    cases hEq
    exact hOwes
  answered := by
    refine ⟨?_, hInv.answered⟩
    intro k result hEq
    cases hEq
  early :=
    ⟨fun _ hWrites => early_perform hInv hExec hWrites,
      hInv.early⟩

/- A stream that is dead stays so. -/
theorem dead_perform
    (hExec :
      op.exec config choice w.state = some (answer, after))
    (hDead : Dead k w) :
    Dead k (w.perform i op answer after) where
  closed := closed_exec hExec hDead.closed
  unfinished := by
    intro started hBegan
    rcases began_perform hBegan with hOld | ⟨rfl, rfl, hReply⟩
    · exact hDead.unfinished started hOld
    · cases eq_of_heq hReply
      have hOpen := (finalize_exec hExec).2.1
      rw [hDead.closed] at hOpen
      cases hOpen

theorem doomed_perform
    (hOwes : Owes config i op w)
    (hExec :
      op.exec config choice w.state = some (answer, after))
    (hDoomed : Doomed path w) :
    Doomed path (w.perform i op answer after) := by
  rcases hDoomed with ⟨k, hPath, hDead⟩
  exact
    ⟨k, path_exec (fun _ _ => owes_first hOwes) hExec hPath,
      dead_perform hExec hDead⟩

/- An operation that owes nothing keeps the contract. -/
theorem keeps_perform
    (hInv : PushInv config w)
    (hOk : namesUnique.perform i op w)
    (hOwes : Owes config i op w)
    (hExec :
      op.exec config choice w.state = some (answer, after)) :
    (pushContract config).Keeps i w
      (w.perform i op answer after) := by
  refine ⟨pushInv_perform hInv hOk hOwes hExec, ?_⟩
  intro k hOther
  exact
    { winds := winds_exec hOwes hExec hOther
      doomed := fun _ hDoomed =>
        doomed_perform hOwes hExec hDoomed }

------------------------------------------------------------
-- Starts And Ends Keep The Invariant
------------------------------------------------------------

variable {v : TransferWorld} {event : TransferEvent}

section Events

variable
  (hTrace : v.trace = event :: w.trace)
variable
  (hEvent :
    ∀ k op answer before later,
      event ≠ .performed k op answer before later)

include hTrace hEvent

/- No operation is added to those of the trace. -/
theorem exists_event_iff
    {P : TransferEvent → Prop}
    (hOnly :
      ∀ other, P other →
        ∃ l op answer before later,
          other = .performed l op answer before later) :
    (∃ other ∈ v.trace, P other) ↔
      ∃ other ∈ w.trace, P other := by
  rw [hTrace]
  constructor
  · rintro ⟨other, hOther, hP⟩
    rcases List.mem_cons.mp hOther with hNew | hOld
    · rcases hOnly other hP with ⟨_, _, _, _, _, hPerformed⟩
      exact absurd (hNew.symm.trans hPerformed)
        (hEvent _ _ _ _ _)
    · exact ⟨other, hOld, hP⟩
  · rintro ⟨other, hOther, hP⟩
    exact ⟨other, List.mem_cons_of_mem _ hOther, hP⟩

theorem began_event
    {started : PushFinish} :
    Began k started v.trace ↔ Began k started w.trace := by
  refine exists_event_iff hTrace hEvent ?_
  rintro _ ⟨before, later, rfl⟩
  exact ⟨_, _, _, before, later, rfl⟩

theorem consumed_event
    {header : PushHeader} :
    Consumed k header v.trace ↔ Consumed k header w.trace := by
  refine exists_event_iff hTrace hEvent ?_
  rintro _ ⟨_, _, before, later, rfl⟩
  exact ⟨_, _, _, before, later, rfl⟩

theorem activated_event
    {ticketId : String} :
    Activated k ticketId v.trace ↔
      Activated k ticketId w.trace := by
  refine exists_event_iff hTrace hEvent ?_
  rintro _ ⟨_, _, _, before, later, rfl⟩
  exact ⟨_, _, _, before, later, rfl⟩

theorem pushInv_event
    (hInv : PushInv config w)
    (hState : v.state = w.state)
    (hFresh :
      ∀ k call, event = .started k call → w.Fresh k)
    (hAnswered : Answered config event w.trace) :
    PushInv config v where
  staged := by
    rw [hState]
    exact hInv.staged
  unique := by
    rw [hTrace]
    exact hInv.unique.cons hFresh
  fresh := by
    intro k hNone
    rw [hState]
    apply hInv.fresh k
    intro other hOther
    apply hNone
    rw [hTrace]
    exact List.mem_cons_of_mem _ hOther
  named := by
    intro k path hPath
    rw [hState] at hPath
    rw [hTrace, List.filterMap_cons]
    split
    · exact hInv.named k path hPath
    · exact List.mem_cons_of_mem _ (hInv.named k path hPath)
  open_ := by
    rw [hState]
    exact hInv.open_
  disturbed := by
    intro k other hOther hDisturbs
    rw [hState]
    rw [hTrace] at hOther
    rcases List.mem_cons.mp hOther with rfl | hOld
    · rcases hDisturbs with ⟨_, _, _, _, _, hEq, _⟩
      exact absurd hEq (hEvent _ _ _ _ _)
    · exact hInv.disturbed k other hOld hDisturbs
  committed := by
    intro k started hBegan
    rw [hState]
    exact
      hInv.committed k started
        ((began_event hTrace hEvent).mp hBegan)
  began := by
    intro k started hBegan
    rcases hInv.began k started
        ((began_event hTrace hEvent).mp hBegan) with
      ⟨messages, hPushes, hContent⟩
    refine ⟨messages, ?_, hContent⟩
    unfold Pushes
    rw [hTrace]
    exact List.mem_cons_of_mem _ hPushes
  sinks := by
    intro k sink hSink
    rw [hState] at hSink
    rcases hInv.sinks k sink hSink with ⟨header, hConsumed⟩
    exact
      ⟨header, (consumed_event hTrace hEvent).mpr hConsumed⟩
  written := by
    intro k messages ends sink hPushes hSink
    rw [hState] at hSink
    unfold Pushes at hPushes
    rw [hTrace] at hPushes
    rcases List.mem_cons.mp hPushes with hNew | hOld
    · rcases hInv.sinks k sink hSink with
        ⟨header, other, hOther, _, _, _, _, rfl⟩
      exact absurd rfl (hFresh k _ hNew.symm _ hOther)
    · exact hInv.written k messages ends sink hOld hSink
  owner := by
    intro k ticketId hTicket
    rw [hState] at hTicket
    rcases hInv.owner k ticketId hTicket with
      ⟨header, hConsumed, hSame⟩
    exact
      ⟨header, (consumed_event hTrace hEvent).mpr hConsumed,
        hSame⟩
  consumed := by
    intro k started hBegan
    rcases hInv.consumed k started
        ((began_event hTrace hEvent).mp hBegan) with
      ⟨header, hConsumed, hSame⟩
    exact
      ⟨header, (consumed_event hTrace hEvent).mpr hConsumed,
        hSame⟩
  activated := by
    intro k header hConsumed
    exact
      (activated_event hTrace hEvent).mpr
        (hInv.activated k header
          ((consumed_event hTrace hEvent).mp hConsumed))
  spent := by
    intro k ticketId hActivated
    rw [hState]
    exact
      hInv.spent k ticketId
        ((activated_event hTrace hEvent).mp hActivated)
  single := by
    intro k j ticketId hFirst hSecond
    exact
      hInv.single k j ticketId
        ((activated_event hTrace hEvent).mp hFirst)
        ((activated_event hTrace hEvent).mp hSecond)
  undisturbed := by
    rw [hTrace]
    refine ⟨?_, hInv.undisturbed⟩
    rintro k started ⟨_, _, hEq⟩
    exact absurd hEq (hEvent _ _ _ _ _)
  created := by
    rw [hTrace]
    refine ⟨?_, hInv.created⟩
    rintro k job ⟨_, _, hEq⟩
    exact absurd hEq (hEvent _ _ _ _ _)
  answered := by
    rw [hTrace]
    exact ⟨hAnswered, hInv.answered⟩
  early := by
    rw [hTrace]
    refine ⟨?_, hInv.early⟩
    rintro k ⟨_, _, _, _, hEq⟩
    exact absurd hEq (hEvent _ _ _ _ _)

/- An event that is no operation keeps the contract. -/
theorem keeps_event
    (hInv : PushInv config w)
    (hState : v.state = w.state)
    (hFresh :
      ∀ k call, event = .started k call → w.Fresh k)
    (hAnswered : Answered config event w.trace) :
    (pushContract config).Keeps i w v := by
  refine
    ⟨pushInv_event hTrace hEvent hInv hState hFresh hAnswered,
      ?_⟩
  intro k _
  refine { winds := ?_, doomed := ?_ }
  · rw [hState]
    exact .refl _
  · rintro path ⟨stream, hPath, hDead⟩
    refine ⟨stream, ?_, ?_, ?_⟩
    · rw [hState]
      exact hPath
    · rw [hState]
      exact hDead.closed
    · intro started hBegan
      exact
        hDead.unfinished started
          ((began_event hTrace hEvent).mp hBegan)

end Events

theorem keeps_start
    {call : TransferCall}
    (hInv : PushInv config w)
    (hFresh : w.Fresh i) :
    (pushContract config).Keeps i w (w.start i call) := by
  have hTrace :
      (w.start i call).trace = .started i call :: w.trace :=
    rfl
  refine keeps_event hTrace (by simp) hInv rfl ?_ ?_
  · intro k other hEq
    cases hEq
    exact hFresh
  · intro k result hReplies
    cases hReplies

/- A stream that replies has begun to finish. -/
theorem keeps_finish
    {outcome : Except TransferError TransferReturn}
    (hInv : PushInv config w)
    (hAnswered :
      Answered config (.finished i outcome) w.trace) :
    (pushContract config).Ends i outcome w := by
  refine keeps_event rfl (by simp) hInv rfl ?_ hAnswered
  intro k call hEq
  cases hEq

end PushIntegrity

end Transfer
