import Deltix.Concurrency.RelyGuarantee
import Deltix.Transfer.Footprint

/-
  A proof outline of the push stream.  What a contract has
  to show of a push is reduced to the few operations that
  matter: the consumption of the ticket, the end of the
  stream, the creation of the job, the removal of a staging
  file, and otherwise light operations.

  Key definitions include:
    * `Moves`
    * `Answers`
    * `SessionStep.removal`
    * `PushOutline`

  Key theorems include:
    * `PushOutline.push_safe`
-/

------------------------------------------------------------
-- Single Operations
------------------------------------------------------------

namespace Transfer

open Auth Concurrency Storage

abbrev TransferContract :=
  Contract TransferOp TransferOp.Answer TransferState
    TransferCall TransferError TransferReturn

abbrev TransferAllowed :=
  Allowed TransferOp TransferOp.Answer TransferState
    TransferCall TransferError TransferReturn

variable (config : TransferConfig) (K : TransferContract)
variable (ok : TransferAllowed) (i : Nat)

/- What an operation of a task does to an assertion. -/
abbrev Moves
    (op : TransferOp)
    (pre : TransferWorld → Prop)
    (post : op.Answer → TransferWorld → Prop) : Prop :=
  ∀ v, pre v → K.inv v → ok.perform i op v →
    ∀ choice answer after,
      op.exec config choice v.state =
          some (answer, after) →
        K.Keeps i v (v.perform i op answer after) ∧
          post answer (v.perform i op answer after)

/- A program of a task is safe, whatever it returns. -/
abbrev SafeProgram
    {α : Type}
    (program : TransferProgram α)
    (post : α → TransferWorld → Prop)
    (raised : TransferWorld → Prop)
    (w : TransferWorld) : Prop :=
  K.Safe (transferSystem config) ok i program post
    (fun _ => raised) w

variable {config K ok i}
variable {J : TransferWorld → Prop} {w : TransferWorld}
variable {op : TransferOp} {raised : TransferWorld → Prop}

/- An operation is safe where its assertion holds. -/
theorem Moves.safe
    {post : op.Answer → TransferWorld → Prop}
    (hMoves : Moves config K ok i op J post)
    (hStable : K.Stable i J)
    (hHere : J w) :
    SafeProgram config K ok i (perform op) post raised w :=
  Contract.Moves.safe hMoves hStable hHere

theorem Moves.with_answer
    {pre : TransferWorld → Prop}
    {post : op.Answer → TransferWorld → Prop}
    {R : op.Answer → Prop}
    (hMoves : Moves config K ok i op pre post)
    (hAnswer :
      ∀ choice s answer t,
        op.exec config choice s = some (answer, t) →
          R answer) :
    Moves config K ok i op pre fun answer v =>
      post answer v ∧ R answer :=
  Contract.Moves.with_answer (S := transferSystem config)
    (K := K) hMoves hAnswer

/- A program whose operations keep a stable assertion. -/
theorem safe_of_only
    {α : Type}
    {program : TransferProgram α}
    {cond : TransferOp → Prop}
    (hOnly : program.Only cond)
    (hMoves :
      ∀ op, cond op → Moves config K ok i op J fun _ => J)
    (hStable : K.Stable i J)
    (hHere : J w) :
    SafeProgram config K ok i program (fun _ => J) J w :=
  Contract.safe_of_moves hOnly hMoves hStable hHere

/- What a call or a statement is answered with decides. -/
def Answers
    {ε α : Type}
    (post : α → TransferWorld → Prop)
    (raised : TransferWorld → Prop) :
    Except ε α → TransferWorld → Prop
  | .ok value, v => post value v
  | .error _, v => raised v

theorem answered_safe
    {ε α : Type}
    {raise : ε → TransferError}
    {program : TransferProgram (Except ε α)}
    {post : α → TransferWorld → Prop}
    (hSafe :
      SafeProgram config K ok i program (Answers post raised)
        raised w) :
    SafeProgram config K ok i (program.bind (answered raise))
      post raised w := by
  refine Contract.safe_bind ?_
  refine Contract.safe_mono ?_ (fun _ _ h => h) hSafe
  intro answer v hAnswers
  cases answer with
  | ok value => exact hAnswers
  | error error => exact hAnswers

theorem files_safe
    {statement : FileStatement}
    {post : statement.Answer → TransferWorld → Prop}
    (hMoves :
      Moves config K ok i (.files statement) J
        (Answers post raised))
    (hStable : K.Stable i J)
    (hHere : J w) :
    SafeProgram config K ok i (files statement) post raised
      w :=
  answered_safe (hMoves.safe hStable hHere)

theorem jobs_safe
    {statement : JobStatement}
    {post : statement.Answer → TransferWorld → Prop}
    (hMoves :
      Moves config K ok i (.jobs statement) J
        (Answers post raised))
    (hStable : K.Stable i J)
    (hHere : J w) :
    SafeProgram config K ok i (jobs statement) post raised
      w :=
  answered_safe (hMoves.safe hStable hHere)

theorem tickets_safe
    {statement : TicketStatement}
    {post : statement.Answer → TransferWorld → Prop}
    (hMoves :
      Moves config K ok i (.tickets statement) J
        (Answers post raised))
    (hStable : K.Stable i J)
    (hHere : J w) :
    SafeProgram config K ok i (tickets statement) post raised
      w :=
  answered_safe (hMoves.safe hStable hHere)

/- The removal of a staging file, if there is one. -/
theorem removal_safe
    {removal : Removal}
    (hRemoves :
      ∀ path, removal = some path →
        Moves config K ok i (.files (.rm path)) J fun _ => J)
    (hStable : K.Stable i J)
    (hHere : J w) :
    SafeProgram config K ok i (removeStaging removal)
      (fun _ => J) J w := by
  cases removal with
  | none => exact hHere
  | some path =>
      refine files_safe ?_ hStable hHere
      intro v hThere hInv hOk choice answer after hExec
      have hMoved :=
        hRemoves path rfl v hThere hInv hOk choice answer
          after hExec
      refine ⟨hMoved.1, ?_⟩
      cases answer <;> exact hMoved.2

/- Whether a push only checks what it would do. -/
def PushFinish.dryRun (started : PushFinish) : Bool :=
  (started.syncOptions.bind
    PushTicketSyncOptions.dryRun).getD false

/- The hook of a push keeps what its operations keep. -/
theorem onBeforePush_safe
    {started : PushFinish}
    {failing : TransferWorld → Prop}
    (hMoves :
      ∀ op, Calm op → Moves config K ok i op J fun _ => J)
    (hStable : K.Stable i J)
    (hFailing : ∀ v, J v → failing v)
    (hHere : J w) :
    SafeProgram config K ok i (onBeforePush config started)
      (fun preparation v =>
        J v ∧ preparation.repo = started.repo ∧
          preparation.stagingPath = started.stagingPath ∧
          preparation.dryRun = started.dryRun)
      failing w := by
  have hPrepares :
      ∀ op, Prepares op → Moves config K ok i op J fun _ => J :=
    fun op hPrepares => hMoves op (calm_of_prepares hPrepares)
  refine Contract.safe_bind ?_
  refine Contract.safe_mono ?_ (fun _ => hFailing)
    (safe_of_only (prepares_autoCreateRepo _ _) hPrepares
      hStable hHere)
  intro _ v hHere
  refine Contract.safe_bind ?_
  refine Contract.safe_mono ?_ (fun _ => hFailing)
    (safe_of_only (prepares_validateSync started _) hPrepares
      hStable hHere)
  intro resolvedTables v hHere
  exact ⟨hHere, rfl, rfl, rfl⟩

def Received.removal : Received → Removal
  | .aborting _ removal => removal
  | _ => none

def Ended.removal : Ended → Removal
  | .aborting _ removal => removal
  | _ => none

def MarkedAborted.removal : MarkedAborted → Removal
  | .aborting removal => removal
  | .already => none

/- The staging file that the answer to a step removes. -/
def SessionStep.removal :
    (step : SessionStep) → step.Answer → Removal
  | .header _, answer => Received.removal answer
  | .chunk _, answer => Received.removal answer
  | .empty, answer => Received.removal answer
  | .markAborted _, answer => MarkedAborted.removal answer
  | .finalize, answer => Ended.removal answer
  | .error, answer => answer
  | .cancelled, answer => answer
  | .ticketConsumed _ _, _ => none
  | .openSink, _ => none
  | .isEnded, _ => none

/- A step that gives the session no identity. -/
def SessionStep.Plain (step : SessionStep) : Prop :=
  ∀ header ticket, step ≠ .ticketConsumed header ticket

theorem mild_of_plain
    {stream : Nat}
    {step : SessionStep}
    (hPlain : step.Plain) :
    Mild (.session stream step) := by
  cases step with
  | ticketConsumed header ticket =>
      exact absurd rfl (hPlain header ticket)
  | _ => trivial

/-
  What a contract shows of push `i`, whose headers meet
  `sent`: the assertions between its messages, with a ticket
  just consumed and while it finishes, and what the
  operations that matter do to them.
-/
structure PushOutline
    (config : TransferConfig)
    (K : TransferContract)
    (ok : TransferAllowed)
    (i : Nat)
    (sent : PushHeader → Prop) where
  idle : TransferWorld → Prop
  consumed : PushHeader → Ticket → TransferWorld → Prop
  finishing : PushFinish → TransferWorld → Prop
  staging : String → Prop
  stable_idle : K.Stable i idle
  stable_consumed :
    ∀ header ticket, K.Stable i (consumed header ticket)
  stable_finishing :
    ∀ started, K.Stable i (finishing started)
  idle_of_finishing :
    ∀ started v, finishing started v → idle v
  light_idle :
    ∀ op, Light op → Moves config K ok i op idle fun _ => idle
  calm_finishing :
    ∀ started op, Calm op →
      Moves config K ok i op (finishing started)
        fun _ => finishing started
  removes :
    ∀ path, staging path →
      Moves config K ok i (.files (.rm path)) idle
        fun _ => idle
  steps :
    ∀ step, step.Plain →
      Moves config K ok i (.session i step) idle
        fun answer v =>
          idle v ∧
            ∀ path, step.removal answer = some path →
              staging path
  consume :
    ∀ header w, sent header → idle w →
      SafeProgram config K ok i
        (consumeTicket header.ticketId header.operation
          header.repo)
        (consumed header) idle w
  give :
    ∀ header ticket,
      Moves config K ok i
        (.session i (.ticketConsumed header ticket))
        (consumed header ticket) fun _ => idle
  ends :
    Moves config K ok i (.session i .finalize) idle
      fun answer v =>
        ∀ started, answer = .finishing started →
          finishing started v
  create :
    ∀ started jobId preparation,
      preparation.repo = started.repo →
        Moves config K ok i
          (.jobs
            (.create
              (stagedJob config jobId started preparation)))
          (finishing started) fun _ => idle

------------------------------------------------------------
-- Safety Of A Push
------------------------------------------------------------

namespace PushOutline

variable {config : TransferConfig} {K : TransferContract}
variable {ok : TransferAllowed} {i : Nat}
variable {sent : PushHeader → Prop} {w : TransferWorld}
variable (outline : PushOutline config K ok i sent)
variable {removal : Removal} {header : PushHeader}
variable {choice : TransferChoice} {message : PushMessage}
variable {started : PushFinish}

/- A program of light operations keeps a push idle. -/
theorem light_safe
    {α : Type}
    {program : TransferProgram α}
    (hOnly : program.Only Light)
    (hIdle : outline.idle w) :
    SafeProgram config K ok i program
      (fun _ => outline.idle) outline.idle w :=
  safe_of_only hOnly outline.light_idle outline.stable_idle
    hIdle

theorem session_safe
    {step : SessionStep}
    {raised : TransferWorld → Prop}
    (hPlain : step.Plain)
    (hIdle : outline.idle w) :
    SafeProgram config K ok i (session i step)
      (fun answer v =>
        outline.idle v ∧
          ∀ path, step.removal answer = some path →
            outline.staging path)
      raised w :=
  (outline.steps step hPlain).safe outline.stable_idle hIdle

theorem removeStaging_safe
    (hStaging :
      ∀ path, removal = some path → outline.staging path)
    (hIdle : outline.idle w) :
    SafeProgram config K ok i (removeStaging removal)
      (fun _ => outline.idle) outline.idle w :=
  removal_safe
    (fun path hPath =>
      outline.removes path (hStaging path hPath))
    outline.stable_idle hIdle

theorem finishAbort_safe
    {status : GrpcStatus}
    (hStaging :
      ∀ path, removal = some path → outline.staging path)
    (hIdle : outline.idle w) :
    SafeProgram config K ok i (finishAbort i status removal)
      (fun _ => outline.idle) outline.idle w := by
  refine Contract.safe_bind ?_
  refine Contract.safe_mono ?_ (fun _ _ h => h)
    (outline.removeStaging_safe hStaging hIdle)
  intro _ v hIdle
  refine Contract.safe_bind ?_
  refine Contract.safe_mono ?_ (fun _ _ h => h)
    (outline.session_safe (by simp [SessionStep.Plain]) hIdle)
  intro ended v hKept
  cases ended with
  | true => exact hKept.1
  | false => exact hKept.1

theorem markAborted_safe
    (status : GrpcStatus)
    (hIdle : outline.idle w) :
    SafeProgram config K ok i (markAborted i status)
      (fun _ => outline.idle) outline.idle w := by
  refine Contract.safe_bind ?_
  refine Contract.safe_mono ?_ (fun _ _ h => h)
    (outline.session_safe (by simp [SessionStep.Plain]) hIdle)
  intro marked v hKept
  cases marked with
  | already => exact hKept.1
  | aborting removal =>
      exact outline.finishAbort_safe hKept.2 hKept.1

theorem onHeader_safe
    (hSent : sent header)
    (hIdle : outline.idle w) :
    SafeProgram config K ok i (onHeader i header)
      (fun _ => outline.idle) outline.idle w := by
  refine Contract.safe_bind (Contract.safe_catchError ?_)
  refine Contract.safe_mono ?_ (fun _ _ h => h)
    (outline.consume header w hSent hIdle)
  intro ticket v hConsumed
  refine Contract.safe_bind ?_
  refine Contract.safe_mono ?_ (fun _ _ h => h)
    ((outline.give header ticket).safe
      (outline.stable_consumed header ticket) hConsumed)
  intro path v hIdle
  refine Contract.safe_bind ?_
  refine Contract.safe_mono ?_ (fun _ _ h => h)
    (outline.light_safe (only_files trivial) hIdle)
  intro _ v hIdle
  exact outline.light_safe (Async.only_call.mpr trivial) hIdle

/- How a push goes on with a message it has received. -/
theorem afterReceived_safe
    {received : Received}
    (hSent :
      ∀ header, received = .consuming header → sent header)
    (hStaging :
      ∀ path, received.removal = some path →
        outline.staging path)
    (hIdle : outline.idle w) :
    SafeProgram config K ok i (afterReceived i received)
      (fun _ => outline.idle) outline.idle w := by
  cases received with
  | ignored => exact hIdle
  | accepted => exact hIdle
  | rejected reason => exact hIdle
  | failed => exact hIdle
  | consuming header =>
      exact outline.onHeader_safe (hSent header rfl) hIdle
  | aborting status removal =>
      refine Contract.safe_bind ?_
      exact Contract.safe_mono (fun _ _ h => h)
        (fun _ _ h => h)
        (outline.finishAbort_safe hStaging hIdle)

/- A header that is consumed is the one that was sent. -/
theorem consuming_eq
    {other : PushHeader}
    {s t : TransferState}
    (hExec :
      (TransferOp.session i (.header header)).exec config
          choice s = some (.consuming other, t)) :
    other = header := by
  have hAnswer := (exec_session hExec).1
  simp only [SessionStep.run] at hAnswer
  unfold PushSession.processHeader at hAnswer
  split at hAnswer
  · cases hAnswer
  · split at hAnswer
    · cases hAnswer
    · dsimp only at hAnswer
      split at hAnswer
      · cases hAnswer
      · cases hAnswer
        rfl

/- No other message is consumed as a header. -/
theorem not_consuming
    {data : Content}
    {s t : TransferState} :
    (TransferOp.session i (.chunk data)).exec config
        choice s ≠ some (.consuming header, t) := by
  intro hExec
  have hAnswer := (exec_session hExec).1
  simp only [SessionStep.run] at hAnswer
  unfold PushSession.processChunk at hAnswer
  split at hAnswer
  · cases hAnswer
  · split at hAnswer
    · cases hAnswer
    · split at hAnswer
      · cases hAnswer
      · split at hAnswer <;> cases hAnswer

theorem dispatchMessage_safe
    (hSent : ∀ header, message = .header header → sent header)
    (hIdle : outline.idle w) :
    SafeProgram config K ok i (dispatchMessage i message)
      (fun _ => outline.idle) outline.idle w := by
  refine Contract.safe_bind ?_
  cases message with
  | header header =>
      have hReceives :=
        (outline.steps (.header header)
          (by simp [SessionStep.Plain])).with_answer
          (R := fun answer =>
            ∀ other, answer = Received.consuming other →
              other = header)
          (fun choice s answer t hExec other hAnswer => by
            subst hAnswer
            exact consuming_eq hExec)
      refine Contract.safe_mono ?_ (fun _ _ h => h)
        (hReceives.safe outline.stable_idle hIdle)
      rintro received v ⟨hKept, hSame⟩
      apply outline.afterReceived_safe ?_ hKept.2 hKept.1
      intro other hReceived
      rw [hSame other hReceived]
      exact hSent header rfl
  | chunk data =>
      have hReceives :=
        (outline.steps (.chunk data)
          (by simp [SessionStep.Plain])).with_answer
          (R := fun answer =>
            ∀ other, answer ≠ Received.consuming other)
          (fun choice s answer t hExec other hAnswer => by
            subst hAnswer
            exact not_consuming hExec)
      refine Contract.safe_mono ?_ (fun _ _ h => h)
        (hReceives.safe outline.stable_idle hIdle)
      rintro received v ⟨hKept, hNone⟩
      apply outline.afterReceived_safe ?_ hKept.2 hKept.1
      intro other hReceived
      exact absurd hReceived (hNone other)
  | empty =>
      have hReceives :=
        (outline.steps .empty
          (by simp [SessionStep.Plain])).with_answer
          (R := fun answer => answer = Received.ignored)
          (fun choice s answer t hExec => by
            have hRun :
                (TransferOp.session i .empty).exec config
                  choice s = some (answer, t) := hExec
            exact (exec_session hRun).1.symm)
      refine Contract.safe_mono ?_ (fun _ _ h => h)
        (hReceives.safe outline.stable_idle hIdle)
      rintro received v ⟨hKept, hIgnored⟩
      subst hIgnored
      exact hKept.1

theorem processMessage_safe
    (hSent : ∀ header, message = .header header → sent header)
    (hIdle : outline.idle w) :
    SafeProgram config K ok i (processMessage i message)
      (fun _ => outline.idle) outline.idle w := by
  refine Contract.safe_catchError ?_
  refine Contract.safe_mono (fun _ _ h => h) ?_
    (outline.dispatchMessage_safe hSent hIdle)
  intro error v hIdle
  refine Contract.safe_bind ?_
  exact Contract.safe_mono (fun _ _ h => h) (fun _ _ h => h)
    (outline.markAborted_safe _ hIdle)

theorem closeQuietly_safe
    {ticketId : String}
    (hIdle : outline.idle w) :
    SafeProgram config K ok i (quietly (closeTicket ticketId))
      (fun _ => outline.idle) outline.idle w :=
  outline.light_safe
    (only_quietly
      (Async.only_mono (fun _ => light_of_tame)
        (tame_closeTicket ticketId))) hIdle

theorem commitPush_safe
    {preparation : PushPreparation}
    (hRepo : preparation.repo = started.repo)
    (hFinishing : outline.finishing started w) :
    SafeProgram config K ok i
      (commitPush config started preparation)
      (fun _ => outline.idle) outline.idle w := by
  unfold commitPush
  split
  · refine Contract.safe_bind ?_
    exact Contract.safe_mono (fun _ _ h => h)
      (fun _ _ h => h)
      (outline.closeQuietly_safe
        (outline.idle_of_finishing started w hFinishing))
  · refine Contract.safe_bind ?_
    refine Contract.safe_mono ?_ (fun _ _ h => h)
      ((outline.calm_finishing started .randomText
        trivial).safe (outline.stable_finishing started)
        hFinishing)
    intro jobId v hFinishing
    refine Contract.safe_bind (Contract.safe_bind ?_)
    refine Contract.safe_mono ?_ (fun _ _ h => h)
      ((outline.create started jobId preparation hRepo).safe
        (outline.stable_finishing started) hFinishing)
    intro answer v hIdle
    cases answer with
    | error error => exact hIdle
    | ok _ =>
        refine Contract.safe_bind ?_
        refine Contract.safe_mono ?_ (fun _ _ h => h)
          (outline.closeQuietly_safe hIdle)
        intro _ v hIdle
        refine Contract.safe_bind ?_
        exact Contract.safe_mono (fun _ _ h => h)
          (fun _ _ h => h)
          (outline.light_safe
            (only_quietly (only_repos trivial)) hIdle)

theorem finishSuccessfully_safe
    (hFinishing : outline.finishing started w) :
    SafeProgram config K ok i
      (finishSuccessfully config i started)
      (fun _ => outline.idle) outline.idle w := by
  refine Contract.safe_catchError ?_
  have hMark :
      ∀ (error : TransferError) v, outline.idle v →
        SafeProgram config K ok i
          (markAborted i ⟨.internal, error.message⟩)
          (fun _ => outline.idle) outline.idle v :=
    fun _ _ => outline.markAborted_safe _
  refine Contract.safe_bind ?_
  refine Contract.safe_mono (fun _ _ h => h) hMark ?_
  refine Contract.safe_bind ?_
  refine Contract.safe_mono ?_ (fun _ _ h => h)
    (onBeforePush_safe (outline.calm_finishing started)
      (outline.stable_finishing started)
      (outline.idle_of_finishing started) hFinishing)
  rintro preparation v ⟨hFinishing, hRepo, _⟩
  exact outline.commitPush_safe hRepo hFinishing

theorem finalizeStream_safe
    (hIdle : outline.idle w) :
    SafeProgram config K ok i (finalizeStream config i)
      (fun _ => outline.idle) outline.idle w := by
  have hEnds :
      Moves config K ok i (.session i .finalize) outline.idle
        fun answer v =>
          (outline.idle v ∧
            ∀ path, Ended.removal answer = some path →
              outline.staging path) ∧
            ∀ started, answer = .finishing started →
              outline.finishing started v := by
    intro v hThere hInv hOk choice answer after hExec
    have hStep :=
      outline.steps .finalize (by simp [SessionStep.Plain]) v
        hThere hInv hOk choice answer after hExec
    have hEnd :=
      outline.ends v hThere hInv hOk choice answer after hExec
    exact ⟨hStep.1, hStep.2, hEnd.2⟩
  refine Contract.safe_bind ?_
  refine Contract.safe_mono ?_ (fun _ _ h => h)
    (hEnds.safe outline.stable_idle hIdle)
  rintro ended v ⟨hKept, hFinishing⟩
  cases ended with
  | answered pending => exact hKept.1
  | rejected reason =>
      exact outline.markAborted_safe _ hKept.1
  | finishing started =>
      exact outline.finishSuccessfully_safe
        (hFinishing started rfl)
  | aborting status removal =>
      exact outline.finishAbort_safe hKept.2 hKept.1

/- A push whose headers meet `sent` keeps the contract. -/
theorem push_safe
    {messages : List PushMessage}
    {ends : Bool}
    (hSent :
      ∀ header, .header header ∈ messages → sent header)
    (hIdle : outline.idle w) :
    SafeProgram config K ok i (push config i messages ends)
      (fun _ => outline.idle) outline.idle w := by
  refine Contract.safe_bind ?_
  refine Contract.safe_mono ?_ (fun _ _ h => h)
    (Contract.safe_forEach outline.idle ?_ hIdle)
  · intro _ v hIdle
    cases ends with
    | false => exact hIdle
    | true => exact outline.finalizeStream_safe hIdle
  · intro message hMessage v hIdle
    apply outline.processMessage_safe ?_ hIdle
    intro header hEq
    rw [hEq] at hMessage
    exact hSent header hMessage

end PushOutline

end Transfer
