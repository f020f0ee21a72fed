import Deltix.Transfer.PushOutline

/-
  A closer proof outline of the push stream.  Its assertions
  know which messages have been processed, and they tell
  apart what an aborted, a failing and a finishing stream
  still does.

  Key definitions include:
    * `StreamOutline`
    * `StreamOutline.After`
    * `StreamOutline.Replied`

  Key theorems include:
    * `StreamOutline.push_safe`
-/

------------------------------------------------------------
-- Outlines
------------------------------------------------------------

namespace Transfer

open Auth Concurrency Storage

/-
  What a contract shows of push `i` with its messages.  The
  assertions are, in the order of the program: between two
  messages; while a header is consumed, with the ticket
  consumed, and before the sink is opened; after an error,
  while the staging file of an aborted stream is removed,
  when it is stopped, and when its removal has failed; while
  it finishes, and when it has created its job.
-/
structure StreamOutline
    (config : TransferConfig)
    (K : TransferContract)
    (ok : TransferAllowed)
    (i : Nat)
    (messages : List PushMessage)
    (ends : Bool) where
  idle : List PushMessage → TransferWorld → Prop
  consuming :
    List PushMessage → PushHeader → TransferWorld → Prop
  consumed :
    List PushMessage → PushHeader → Ticket → TransferWorld →
      Prop
  opening : List PushMessage → TransferWorld → Prop
  troubled : TransferWorld → Prop
  aborting : Removal → TransferWorld → Prop
  stopped : TransferWorld → Prop
  stuck : TransferWorld → Prop
  finishing : PushFinish → TransferWorld → Prop
  created : PushFinish → TransferJob → TransferWorld → Prop
  stable_consumed :
    ∀ done header ticket,
      K.Stable i (consumed done header ticket)
  stable_opening : ∀ done, K.Stable i (opening done)
  stable_troubled : K.Stable i troubled
  stable_aborting :
    ∀ removal, K.Stable i (aborting removal)
  stable_stopped : K.Stable i stopped
  stable_finishing :
    ∀ started, K.Stable i (finishing started)
  stable_created :
    ∀ started job, K.Stable i (created started job)
  stable_idle : ∀ done, K.Stable i (idle done)
  idle_of_stopped : ∀ done v, stopped v → idle done v
  stopped_of_aborting : ∀ v, aborting none v → stopped v
  troubled_of_stuck : ∀ v, stuck v → troubled v
  troubled_of_finishing :
    ∀ started v, finishing started v → troubled v
  receives :
    ∀ done message, done ++ [message] <+: messages →
      ∀ w, idle done w →
        SafeProgram config K ok i (receive i message)
          (fun received v =>
            match received with
            | .ignored => idle (done ++ [message]) v
            | .accepted => idle (done ++ [message]) v
            | .aborting _ removal => aborting removal v
            | .rejected _ => troubled v
            | .failed => troubled v
            | .consuming header =>
                consuming (done ++ [message]) header v)
          troubled w
  consumes :
    ∀ done header w, consuming done header w →
      SafeProgram config K ok i
        (consumeTicket header.ticketId header.operation
          header.repo)
        (consumed done header) troubled w
  gives :
    ∀ done header ticket,
      Moves config K ok i
        (.session i (.ticketConsumed header ticket))
        (consumed done header ticket)
        fun _ => opening done
  makes :
    ∀ done path,
      Moves config K ok i (.files (.mkdir path))
        (opening done)
        (Answers (fun _ => opening done) troubled)
  opens :
    ∀ done,
      Moves config K ok i (.session i .openSink)
        (opening done) fun _ => idle done
  marks :
    ∀ status,
      Moves config K ok i (.session i (.markAborted status))
        troubled
        fun answer v =>
          match answer with
          | .already => stopped v
          | .aborting removal => aborting removal v
  removes :
    ∀ path,
      Moves config K ok i (.files (.rm path))
        (aborting (some path))
        (Answers (fun _ => stopped) stuck)
  looks :
    Moves config K ok i (.session i .isEnded) stopped
      fun _ => stopped
  finalizes :
    ends = true →
      Moves config K ok i (.session i .finalize)
        (idle messages)
        fun answer v =>
          match answer with
          | .answered _ => stopped v
          | .aborting _ removal => aborting removal v
          | .rejected _ => troubled v
          | .finishing started => finishing started v
  calm_finishing :
    ∀ started op, Calm op →
      Moves config K ok i op (finishing started)
        fun _ => finishing started
  creates :
    ∀ started jobId preparation,
      preparation.repo = started.repo →
        preparation.stagingPath = started.stagingPath →
        started.dryRun = false →
          Moves config K ok i
            (.jobs
              (.create
                (stagedJob config jobId started preparation)))
            (finishing started)
            (Answers
              (fun _ =>
                created started
                  (stagedJob config jobId started
                    preparation))
              troubled)
  closes :
    ∀ started, started.dryRun = true →
      Moves config K ok i (.tickets (.close started.ticketId))
        (finishing started) fun _ => finishing started
  closesCreated :
    ∀ started job,
      Moves config K ok i (.tickets (.close started.ticketId))
        (created started job) fun _ => created started job
  records :
    ∀ started job statement,
      Moves config K ok i (.repos statement)
        (created started job) fun _ => created started job

------------------------------------------------------------
-- Safety Of A Push
------------------------------------------------------------

namespace StreamOutline

variable {config : TransferConfig} {K : TransferContract}
variable {ok : TransferAllowed} {i : Nat}
variable {messages : List PushMessage} {ends : Bool}
variable {w : TransferWorld}
variable
  (outline : StreamOutline config K ok i messages ends)
variable {done : List PushMessage} {message : PushMessage}
variable {started : PushFinish} {J : TransferWorld → Prop}

/- What a push is answered with, and what it has then. -/
def Replied
    (reply : Option PushReply)
    (v : TransferWorld) : Prop :=
  match reply with
  | some (.done result) =>
      ∃ started,
        result.checksum = config.sha256 started.hashed ∧
          result.bytesReceived = started.bytesReceived ∧
          ((result.jobId = "dry-run" ∧
              started.dryRun = true ∧
              outline.finishing started v) ∨
            ∃ job,
              result.jobId = job.id ∧
                outline.created started job v)
  | _ =>
      outline.idle messages v ∧
        (ends = true → outline.stopped v)

theorem finishAbort_safe
    {status : GrpcStatus}
    {removal : Removal}
    (hAborting : outline.aborting removal w) :
    SafeProgram config K ok i (finishAbort i status removal)
      (fun reply v =>
        outline.stopped v ∧
          ∀ result, reply ≠ some (.done result))
      outline.stuck w := by
  have hRemoved :
      SafeProgram config K ok i (removeStaging removal)
        (fun _ => outline.stopped) outline.stuck w := by
    cases removal with
    | none => exact outline.stopped_of_aborting w hAborting
    | some path =>
        exact
          files_safe (outline.removes path)
            (outline.stable_aborting (some path)) hAborting
  refine Contract.safe_bind ?_
  refine Contract.safe_mono ?_ (fun _ _ h => h) hRemoved
  intro _ v hStopped
  refine Contract.safe_bind ?_
  refine Contract.safe_mono ?_ (fun _ _ h => h)
    (outline.looks.safe outline.stable_stopped hStopped)
  intro ended u hStopped
  cases ended with
  | true => exact ⟨hStopped, by simp⟩
  | false => exact ⟨hStopped, by simp⟩

theorem markAborted_safe
    (status : GrpcStatus)
    (hTroubled : outline.troubled w) :
    SafeProgram config K ok i (markAborted i status)
      (fun reply v =>
        outline.stopped v ∧
          ∀ result, reply ≠ some (.done result))
      outline.stuck w := by
  refine Contract.safe_bind ?_
  refine Contract.safe_mono ?_ (fun _ _ h => h)
    ((outline.marks status).safe outline.stable_troubled
      hTroubled)
  intro marked v hMarked
  cases marked with
  | already => exact ⟨hMarked, by simp⟩
  | aborting removal => exact outline.finishAbort_safe hMarked

theorem onHeader_safe
    {header : PushHeader}
    (hConsuming : outline.consuming done header w) :
    SafeProgram config K ok i (onHeader i header)
      (fun _ => outline.idle done) outline.troubled w := by
  refine Contract.safe_bind (Contract.safe_catchError ?_)
  refine Contract.safe_mono ?_ (fun _ _ h => h)
    (outline.consumes done header w hConsuming)
  intro ticket v hConsumed
  refine Contract.safe_bind ?_
  refine Contract.safe_mono ?_ (fun _ _ h => h)
    ((outline.gives done header ticket).safe
      (outline.stable_consumed done header ticket) hConsumed)
  intro path v hOpening
  refine Contract.safe_bind ?_
  refine Contract.safe_mono ?_ (fun _ _ h => h)
    (files_safe (outline.makes done _)
      (outline.stable_opening done) hOpening)
  intro _ v hOpening
  exact
    (outline.opens done).safe (outline.stable_opening done)
      hOpening

theorem dispatchMessage_safe
    (hPrefix : done ++ [message] <+: messages)
    (hIdle : outline.idle done w) :
    SafeProgram config K ok i (dispatchMessage i message)
      (fun _ => outline.idle (done ++ [message]))
      outline.troubled w := by
  refine Contract.safe_bind ?_
  refine Contract.safe_mono ?_ (fun _ _ h => h)
    (outline.receives done message hPrefix w hIdle)
  intro received v hReceived
  cases received with
  | ignored => exact hReceived
  | accepted => exact hReceived
  | rejected reason => exact hReceived
  | failed => exact hReceived
  | consuming header => exact outline.onHeader_safe hReceived
  | aborting status removal =>
      refine Contract.safe_bind ?_
      refine Contract.safe_mono ?_
        (fun _ => outline.troubled_of_stuck)
        (outline.finishAbort_safe hReceived)
      intro reply u hStopped
      exact outline.idle_of_stopped _ u hStopped.1

theorem processMessage_safe
    (hPrefix : done ++ [message] <+: messages)
    (hIdle : outline.idle done w) :
    SafeProgram config K ok i (processMessage i message)
      (fun _ => outline.idle (done ++ [message]))
      outline.stuck w := by
  refine Contract.safe_catchError ?_
  refine Contract.safe_mono (fun _ _ h => h) ?_
    (outline.dispatchMessage_safe hPrefix hIdle)
  intro error v hTroubled
  refine Contract.safe_bind ?_
  refine Contract.safe_mono ?_ (fun _ _ h => h)
    (outline.markAborted_safe _ hTroubled)
  intro reply u hStopped
  exact outline.idle_of_stopped _ u hStopped.1

/- A statement whose errors are ignored keeps what it keeps
   in any case. -/
theorem closeQuietly_safe
    {ticketId : String}
    (hMoves :
      Moves config K ok i (.tickets (.close ticketId)) J
        fun _ => J)
    (hStable : K.Stable i J)
    (hHere : J w) :
    SafeProgram config K ok i (quietly (closeTicket ticketId))
      (fun _ => J) outline.troubled w := by
  refine Contract.safe_catchError (Contract.safe_bind ?_)
  refine Contract.safe_bind ?_
  refine Contract.safe_mono ?_ (fun _ _ h => h)
    (hMoves.safe hStable hHere)
  intro answer v hThere
  cases answer with
  | error error => exact hThere
  | ok closed =>
      apply Contract.safe_ensure
      · intro _
        exact hThere
      · intro _
        exact hThere

theorem recordQuietly_safe
    {statement : RepoStatement}
    {program : TransferProgram Unit}
    (hOnly : program.Only fun op => op = .repos statement)
    (hMoves :
      Moves config K ok i (.repos statement) J fun _ => J)
    (hStable : K.Stable i J)
    (hHere : J w) :
    SafeProgram config K ok i (quietly program)
      (fun _ => J) outline.troubled w := by
  refine Contract.safe_catchError ?_
  refine Contract.safe_mono (fun _ _ h => h) ?_
    (safe_of_only hOnly ?_ hStable hHere)
  · intro _ v hThere
    exact hThere
  · rintro op rfl
    exact hMoves

theorem commitPush_safe
    {preparation : PushPreparation}
    (hRepo : preparation.repo = started.repo)
    (hPath : preparation.stagingPath = started.stagingPath)
    (hDry : preparation.dryRun = started.dryRun)
    (hFinishing : outline.finishing started w) :
    SafeProgram config K ok i
      (commitPush config started preparation)
      (fun result => outline.Replied (some (.done result)))
      outline.troubled w := by
  unfold commitPush
  by_cases hRun : preparation.dryRun = true
  · rw [if_pos hRun]
    rw [hDry] at hRun
    refine Contract.safe_bind ?_
    refine Contract.safe_mono ?_ (fun _ _ h => h)
      (outline.closeQuietly_safe (outline.closes started hRun)
        (outline.stable_finishing started) hFinishing)
    intro _ v hFinishing
    exact
      ⟨started, rfl, rfl, Or.inl ⟨rfl, hRun, hFinishing⟩⟩
  · rw [if_neg hRun]
    rw [hDry, Bool.not_eq_true] at hRun
    refine Contract.safe_bind ?_
    refine Contract.safe_mono ?_ (fun _ _ h => h)
      ((outline.calm_finishing started .randomText
        trivial).safe (outline.stable_finishing started)
        hFinishing)
    intro jobId v hFinishing
    refine Contract.safe_bind ?_
    refine Contract.safe_mono ?_ (fun _ _ h => h)
      (jobs_safe
        (outline.creates started jobId preparation hRepo hPath
          hRun)
        (outline.stable_finishing started) hFinishing)
    intro _ v hCreated
    refine Contract.safe_bind ?_
    refine Contract.safe_mono ?_ (fun _ _ h => h)
      (outline.closeQuietly_safe
        (outline.closesCreated started _)
        (outline.stable_created started _) hCreated)
    intro _ v hCreated
    refine Contract.safe_bind ?_
    refine Contract.safe_mono ?_ (fun _ _ h => h)
      (outline.recordQuietly_safe (only_repos rfl)
        (outline.records started _ _)
        (outline.stable_created started _) hCreated)
    intro _ v hCreated
    exact
      ⟨started, rfl, rfl, Or.inr ⟨_, rfl, hCreated⟩⟩

/- A stopped stream is not answered with a result. -/
theorem replied_of_stopped
    {program : TransferProgram (Option PushReply)}
    (hSafe :
      SafeProgram config K ok i program
        (fun reply v =>
          outline.stopped v ∧
            ∀ result, reply ≠ some (.done result))
        outline.stuck w) :
    SafeProgram config K ok i program outline.Replied
      outline.stuck w := by
  refine Contract.safe_mono ?_ (fun _ _ h => h) hSafe
  rintro reply v ⟨hStopped, hNone⟩
  have hLast := outline.idle_of_stopped messages v hStopped
  cases reply with
  | none => exact ⟨hLast, fun _ => hStopped⟩
  | some reply =>
      cases reply with
      | done result => exact absurd rfl (hNone result)
      | refused status => exact ⟨hLast, fun _ => hStopped⟩

theorem finishSuccessfully_safe
    (hFinishing : outline.finishing started w) :
    SafeProgram config K ok i
      (finishSuccessfully config i started)
      outline.Replied outline.stuck w := by
  refine Contract.safe_catchError ?_
  refine Contract.safe_mono (fun _ _ h => h) ?_
    (show SafeProgram config K ok i _ outline.Replied
      outline.troubled w from ?_)
  · intro error v hTroubled
    exact
      outline.replied_of_stopped
        (outline.markAborted_safe _ hTroubled)
  · refine Contract.safe_bind (Contract.safe_bind ?_)
    refine Contract.safe_mono ?_ (fun _ _ h => h)
      (onBeforePush_safe (outline.calm_finishing started)
        (outline.stable_finishing started)
        (outline.troubled_of_finishing started) hFinishing)
    rintro preparation v ⟨hFinishing, hRepo, hPath, hDry⟩
    exact outline.commitPush_safe hRepo hPath hDry hFinishing

theorem finalizeStream_safe
    (hEnds : ends = true)
    (hIdle : outline.idle messages w) :
    SafeProgram config K ok i (finalizeStream config i)
      outline.Replied outline.stuck w := by
  refine Contract.safe_bind ?_
  refine Contract.safe_mono ?_ (fun _ _ h => h)
    ((outline.finalizes hEnds).safe
      (outline.stable_idle messages) hIdle)
  intro ended v hEnded
  cases ended with
  | answered pending =>
      have hLast := outline.idle_of_stopped messages v hEnded
      cases pending with
      | none => exact ⟨hLast, fun _ => hEnded⟩
      | some status => exact ⟨hLast, fun _ => hEnded⟩
  | aborting status removal =>
      exact
        outline.replied_of_stopped
          (outline.finishAbort_safe hEnded)
  | rejected reason =>
      exact
        outline.replied_of_stopped
          (outline.markAborted_safe _ hEnded)
  | finishing started =>
      exact outline.finishSuccessfully_safe hEnded

/- A push keeps the contract up to its answer. -/
theorem push_safe
    (hIdle : outline.idle [] w) :
    SafeProgram config K ok i (push config i messages ends)
      outline.Replied outline.stuck w := by
  refine Contract.safe_bind ?_
  refine Contract.safe_mono ?_ (fun _ _ h => h)
    (Contract.safe_forEach_after outline.idle ?_ rfl hIdle)
  · intro _ v hIdle
    cases ends with
    | false => exact ⟨hIdle, fun hEnds => by cases hEnds⟩
    | true => exact outline.finalizeStream_safe rfl hIdle
  · intro done message hPrefix v hHere
    exact outline.processMessage_safe hPrefix hHere

end StreamOutline

end Transfer
