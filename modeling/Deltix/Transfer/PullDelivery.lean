import Deltix.Concurrency.Footprints
import Deltix.Transfer.JobEvents
import Deltix.Transfer.NasIntegrity
import Deltix.Transfer.PushAuthorization
import Deltix.Transfer.PushIntegrity

/-
  What a pull hands out, over whole runs.  A push to the
  repository came to its end with content of the same
  checksum, and the pull has redeemed a ticket of a reader
  that nobody else redeems.

  Key definitions include:
    * `PushedTo`
    * `Redeemed`
    * `Delivers`

  Key theorems include:
    * `delivers_of_solo`
    * `pull_returns_pushed`
    * `pull_redeems_ticket`
-/

------------------------------------------------------------
-- The Properties
------------------------------------------------------------

namespace Transfer

namespace PullDelivery

open Auth Concurrency Relational Storage PushIntegrity

/- A pull was answered with this content. -/
structure Pulled
    (i : Nat)
    (ticketId repo : String)
    (content : Content)
    (trace : List TransferEvent) : Prop where
  started : .started i (.pull ticketId repo) ∈ trace
  finished :
    .finished i (.ok (.pulled (.ok content))) ∈ trace

/- A push to the repository that came to its end had content
   of this checksum. -/
def PushedTo
    (config : TransferConfig)
    (repo : String)
    (content : Content)
    (trace : List TransferEvent) : Prop :=
  ∃ stream messages job,
    Pushes stream messages true trace ∧
      Created stream job trace ∧
      job.repo = repo ∧
      config.sha256 content =
        config.sha256 (afterHeader messages)

/- A task has performed an operation, with this answer. -/
def Performed
    (i : Nat)
    (trace : List TransferEvent)
    (op : TransferOp)
    (answer : op.Answer) : Prop :=
  ∃ before after,
    .performed i op answer before after ∈ trace

/- The ticket can be redeemed for a pull at this time. -/
structure Redeemable
    (repo : String)
    (now : Nat)
    (ticket : Ticket) : Prop where
  operation : ticket.operation = .pull
  repo : ticket.repo = repo
  status : ticket.status = .issued
  expiresAt : now < ticket.expiresAt

/-
  A pull has redeemed its ticket, after it had read the time
  and found the user of the ticket to be a reader, and before
  it read the content.  The ticket had not expired at the
  time that was read.  No other event of the trace redeems
  it.
-/
def Redeemed
    (config : TransferConfig)
    (i : Nat)
    (ticketId repo : String)
    (content : Content)
    (trace : List TransferEvent) : Prop :=
  ∃ newer now before after older ticket role,
    trace =
        newer ++
          .performed i
            (.tickets (.activate ticketId "pull" repo now))
            (.ok true) before after :: older ∧
      before.tickets.find? ticketId = some ticket ∧
      Performed i older .now now ∧
      Redeemable repo now ticket ∧
      Performed i older
        (.users (.getRepoRole ticket.username repo))
        (.ok role) ∧
      sufficient .pull role = true ∧
      Performed i newer
        (.files (.readFile (pullPath config repo)))
        (.ok content) ∧
      ∀ event ∈ newer ++ older, ∀ j,
        ¬ Activates j ticketId event

/-
  Names of staging files and copies are different, a copy has
  the checksum of its job when it is hashed, and none is
  renamed for a job whose repository has another spelling of
  one of the names.
-/
def copiesPushed
    (config : TransferConfig)
    (repos : Set String) : TransferAllowed where
  start := fun _ _ _ => True
  perform := fun i op w =>
    namesUnique.perform i op w ∧
      (NasIntegrity.copiesVerified config repos).perform i op w

/- No ticket is issued under an id that somebody has asked
   for in vain (ids are 32 random bytes). -/
def idsUnguessed : TransferAllowed where
  start := fun _ _ _ => True
  perform := fun _ op w =>
    ∀ ticket, op = .tickets (.create ticket) →
      ∀ j,
        ¬ Performed j w.trace (.tickets (.get ticket.id))
          (.ok none)

------------------------------------------------------------
-- What A Pull Does
------------------------------------------------------------

abbrev PullStep :=
  DisturbedTaken TransferOp TransferOp.Answer TransferState
    TransferChoice

/- Some step has this operation and answer. -/
def Took
    (steps : List PullStep)
    (op : TransferOp)
    (answer : op.Answer) : Prop :=
  ∃ choice before after,
    ⟨op, choice, before, answer, after⟩ ∈ steps

/- If a look-up found a ticket for the pull, its user was
   found to be a reader. -/
def Checked
    (did : (op : TransferOp) → op.Answer → Prop)
    (ticketId repo : String) : Prop :=
  ∃ found : Option Ticket,
    did (.tickets (.get ticketId)) (.ok found) ∧
      ∀ ticket, found = some ticket →
        ticket.operation = .pull → ticket.repo = repo →
          ∃ role : Option RepoRole,
            did (.users (.getRepoRole ticket.username repo))
                (.ok role) ∧
              sufficient .pull role = true

/- The steps check, redeem and read, in this order. -/
def Delivers
    (config : TransferConfig)
    (ticketId repo : String)
    (content : Content)
    (steps : List PullStep) : Prop :=
  ∃ checks now choice before after more,
    steps =
        checks ++
          ⟨.tickets (.activate ticketId "pull" repo now),
            choice, before, .ok true, after⟩ :: more ∧
      Took checks .now now ∧
      Checked (Took checks) ticketId repo ∧
      Took more (.files (.readFile (pullPath config repo)))
        (.ok content)

variable {config : TransferConfig}
variable {s t : TransferState} {steps more : List PullStep}
variable {op : TransferOp} {answer : op.Answer}
variable {i : Nat} {ticketId repo : String}
variable {content : Content} {α : Type}

theorem Took.mono
    (hMore : ∀ step ∈ steps, step ∈ more)
    (hTook : Took steps op answer) :
    Took more op answer := by
  rcases hTook with ⟨choice, before, after, hMember⟩
  exact ⟨choice, before, after, hMore _ hMember⟩

theorem Checked.mono
    {did does : (op : TransferOp) → op.Answer → Prop}
    (hMore : ∀ op answer, did op answer → does op answer)
    (hChecked : Checked did ticketId repo) :
    Checked does ticketId repo := by
  rcases hChecked with ⟨found, hFound, hReader⟩
  refine ⟨found, hMore _ _ hFound, ?_⟩
  intro ticket hTicket hPull hRepo
  rcases hReader ticket hTicket hPull hRepo with
    ⟨role, hRole, hSufficient⟩
  exact ⟨role, hMore _ _ hRole, hSufficient⟩

/- What is awaited is done. -/
theorem took_self
    (hSolo :
      Solo (disturbed (TransferOp.exec config)) (perform op) s
        steps (.ok answer) t) :
    Took steps op answer := by
  cases hSolo with
  | await _ hEnd =>
      cases hEnd
      exact ⟨_, _, _, List.mem_cons_self⟩

theorem took_of_perform
    {next : op.Answer → TransferProgram α}
    {value : α}
    (hSolo :
      Solo (disturbed (TransferOp.exec config))
        ((perform op).bind next) s steps (.ok value) t) :
    ∃ answer rest u,
      Took steps op answer ∧
        Solo (disturbed (TransferOp.exec config))
          (next answer) u rest (.ok value) t := by
  rcases hSolo.of_bind with
    ⟨first, rest, answer, u, hSteps, hFirst, hRest⟩
  refine ⟨answer, rest, u, (took_self hFirst).mono ?_, hRest⟩
  intro step hStep
  rw [hSteps]
  exact List.mem_append_left _ hStep

/- It has given the only answer that leads to the value. -/
theorem took_of_ok
    {next : op.Answer → TransferProgram α}
    {value : α}
    (hOnly :
      ∀ other rest u,
        Solo (disturbed (TransferOp.exec config)) (next other) u
            rest (.ok value) t →
          other = answer)
    (hSolo :
      Solo (disturbed (TransferOp.exec config))
        ((perform op).bind next) s steps (.ok value) t) :
    Took steps op answer := by
  rcases took_of_perform hSolo with
    ⟨other, rest, u, hTook, hRest⟩
  rw [← hOnly other rest u hRest]
  exact hTook

theorem took_of_tickets
    {statement : TicketStatement}
    {value : statement.Answer}
    (hSolo :
      Solo (disturbed (TransferOp.exec config))
        (Transfer.tickets statement) s steps (.ok value) t) :
    Took steps (.tickets statement) (.ok value) := by
  apply took_of_ok _ hSolo
  intro other rest u hRest
  cases other <;> cases hRest
  rfl

theorem took_of_users
    {statement : UserStatement}
    {value : statement.Answer}
    (hSolo :
      Solo (disturbed (TransferOp.exec config))
        (Transfer.users statement) s steps (.ok value) t) :
    Took steps (.users statement) (.ok value) := by
  apply took_of_ok _ hSolo
  intro other rest u hRest
  cases other <;> cases hRest
  rfl

theorem took_of_files
    {statement : FileStatement}
    {value : statement.Answer}
    (hSolo :
      Solo (disturbed (TransferOp.exec config))
        (Transfer.files statement) s steps (.ok value) t) :
    Took steps (.files statement) (.ok value) := by
  apply took_of_ok _ hSolo
  intro other rest u hRest
  cases other <;> cases hRest
  rfl

theorem checked_of_preCheck
    (hSolo :
      Solo (disturbed (TransferOp.exec config))
        (preCheck ticketId "pull" repo) s steps (.ok ()) t) :
    Checked (Took steps) ticketId repo := by
  rcases hSolo.of_bind with
    ⟨first, rest, found, u, hSteps, hFirst, hRest⟩
  subst hSteps
  refine ⟨found, (took_of_tickets hFirst).mono ?_, ?_⟩
  · intro step hStep
    exact List.mem_append_left _ hStep
  · intro ticket hTicket hPull hRepo
    subst hTicket
    have hMatch :
        ticket.operation.text = "pull" ∧ ticket.repo = repo := by
      rw [hPull]
      exact ⟨rfl, hRepo⟩
    simp only [hMatch, and_self, if_true] at hRest
    rcases Solo.of_bind hRest with
      ⟨asked, left, role, v, hMore, hAsked, hLeft⟩
    subst hMore
    refine ⟨role, (took_of_users hAsked).mono ?_, ?_⟩
    · intro step hStep
      exact
        List.mem_append_right _ (List.mem_append_left _ hStep)
    · rw [hPull] at hLeft
      cases hRole : sufficient .pull role with
      | true => rfl
      | false =>
          rw [hRole] at hLeft
          cases hLeft

/- A consumed ticket has been checked and then redeemed. -/
theorem redeems_of_consume
    {ticket : Ticket}
    (hSolo :
      Solo (disturbed (TransferOp.exec config))
        (consumeTicket ticketId "pull" repo) s steps
        (.ok ticket) t) :
    ∃ checks now choice before after more,
      steps =
          checks ++
            ⟨.tickets (.activate ticketId "pull" repo now),
              choice, before, .ok true, after⟩ :: more ∧
        Took checks .now now ∧
        Checked (Took checks) ticketId repo := by
  rcases hSolo.of_bind with
    ⟨read, rest, current, u, hSteps, hRead, hRest⟩
  rcases Solo.of_bind hRest with
    ⟨checks, left, _, v, hChecks, hCheck, hLeft⟩
  rcases Solo.of_bind hLeft with
    ⟨first, last, activated, z, hFirst, hActivate, hLast⟩
  rcases Solo.of_bind hLast with
    ⟨found, ended, row, y, _, _, hEnded⟩
  have hTrue : activated = true := by
    cases row with
    | none => cases hEnded
    | some row =>
        cases activated with
        | true => rfl
        | false => cases hEnded
  subst hTrue
  rcases took_of_tickets hActivate with
    ⟨choice, before, after, hMember⟩
  rcases List.append_of_mem hMember with
    ⟨front, back, hFront⟩
  refine
    ⟨read ++ checks ++ front, current, choice, before, after,
      back ++ last, ?_, ?_, ?_⟩
  · rw [hSteps, hChecks, hFirst, hFront]
    simp
  · refine (took_self hRead).mono ?_
    intro step hStep
    simp [hStep]
  · refine (checked_of_preCheck hCheck).mono ?_
    intro op answer hTook
    refine hTook.mono ?_
    intro step hStep
    simp [hStep]

/- Content is only ever read from the synced file. -/
theorem read_of_readSynced
    (hSolo :
      Solo (disturbed (TransferOp.exec config))
        (readSynced config ticketId repo) s steps
        (.ok content) t) :
    Took steps (.files (.readFile (pullPath config repo)))
      (.ok content) := by
  rcases hSolo.of_bind with
    ⟨first, rest, _, u, hSteps, _, hRest⟩
  rcases Solo.of_bind hRest with
    ⟨second, left, read, v, hMore, hRead, hLeft⟩
  rcases Solo.of_bind hLeft with
    ⟨_, last, _, z, _, _, hLast⟩
  cases hLast
  rcases hRead.of_catchError with hTried | ⟨_, _, _, hHandler⟩
  · refine (took_of_files hTried).mono ?_
    intro step hStep
    rw [hSteps, hMore]
    simp [hStep]
  · rcases Solo.of_bind hHandler with
      ⟨_, _, _, _, _, _, hThrown⟩
    cases hThrown

/- A pull that is answered with content has done all of it. -/
theorem delivers_of_solo
    (hSolo :
      Solo (disturbed (TransferOp.exec config))
        (serveCall config i (.pull ticketId repo)) s steps
        (.ok (.pulled (.ok content))) t) :
    Delivers config ticketId repo content steps := by
  rcases hSolo.of_bind with
    ⟨first, rest, reply, u, hSteps, hFirst, hRest⟩
  cases hRest
  rcases hFirst.of_catchError with
    hTried | ⟨_, _, _, hHandler⟩
  · rcases hTried.of_bind with
      ⟨second, left, read, v, hSecond, hStream, hLeft⟩
    cases hLeft
    rcases hStream.of_bind with
      ⟨consumed, last, ticket, z, hThird, hConsume, hRead⟩
    rcases hConsume.of_catchError with
      hDone | ⟨_, _, _, hThrown⟩
    · rcases redeems_of_consume hDone with
        ⟨checks, now, choice, before, after, more, hOrder,
          hNow, hChecked⟩
      refine
        ⟨checks, now, choice, before, after, more ++ last, ?_,
          hNow, hChecked, ?_⟩
      · rw [hSteps, hSecond, hThird, hOrder]
        simp
      · refine (read_of_readSynced hRead).mono ?_
        intro step hStep
        exact List.mem_append_right _ hStep
    · cases hThrown
  · cases hHandler

variable {ok : TransferAllowed} {initial : TransferState}
variable {p : TransferPool} {w : TransferWorld}
variable {after : TransferState} {choice : TransferChoice}

theorem performed_of_took
    {trace : List TransferEvent}
    (hTrace : ∀ event ∈ eventsOf i steps, event ∈ trace)
    (hTook : Took steps op answer) :
    Performed i trace op answer := by
  induction steps with
  | nil =>
      rcases hTook with ⟨_, _, _, hMember⟩
      cases hMember
  | cons step rest ih =>
      rcases hTook with ⟨choice, before, after, hMember⟩
      rcases List.mem_cons.mp hMember with hHead | hTail
      · subst hHead
        refine ⟨choice.found, after, hTrace _ ?_⟩
        exact List.mem_append_right _ List.mem_cons_self
      · apply ih
        · intro event hEvent
          exact hTrace event (List.mem_append_left _ hEvent)
        · exact ⟨choice, before, after, hTail⟩

/- In the order of the trace: checked, redeemed, read. -/
theorem events_of_pulled
    (hRun :
      (transferSystem config).Run ok (Pool.initial initial) p)
    (hPulled : Pulled i ticketId repo content p.world.trace) :
    ∃ newer now before after older,
      p.world.trace =
          newer ++
            .performed i
              (.tickets (.activate ticketId "pull" repo now))
              (.ok true) before after :: older ∧
        Performed i older .now now ∧
        Checked (Performed i older) ticketId repo ∧
        Performed i newer
          (.files (.readFile (pullPath config repo)))
          (.ok content) := by
  rcases exists_disturbed hRun hPulled.finished with
    ⟨request, steps, s, t, hOwn, hSolo⟩
  have hStarted : .started i request ∈ p.world.trace := by
    have hMember : .started i request ∈ p.world.own i := by
      rw [hOwn]
      simp
    exact (List.mem_filter.mp hMember).1
  have hSame : request = .pull ticketId repo :=
    startsOnce_run hRun i _ _ hStarted hPulled.started
  subst hSame
  rcases delivers_of_solo (i := i) hSolo with
    ⟨checks, now, choice, before, after, more, hSteps, hNow,
      hChecked, hRead⟩
  have hSplit :
      p.world.own i =
        (.finished i (.ok (.pulled (.ok content))) ::
            eventsOf i more) ++
          .performed i
              (.tickets (.activate ticketId "pull" repo now))
              (.ok true) choice.found after ::
            (eventsOf i checks ++
              [.started i (.pull ticketId repo)]) := by
    rw [hOwn, hSteps, eventsOf_append, eventsOf]
    simp
  unfold World.own at hSplit
  rcases List.filter_eq_append_iff.mp hSplit with
    ⟨newer, rest, hTrace, hNewer, hRest⟩
  rcases List.filter_eq_cons_iff.mp hRest with
    ⟨skipped, older, hSkip, _, _, hOlder⟩
  have hBefore : ∀ event ∈ eventsOf i checks, event ∈ older := by
    intro event hEvent
    have hMember :
        event ∈ older.filter fun event => event.task = i := by
      rw [hOlder]
      exact List.mem_append_left _ hEvent
    exact (List.mem_filter.mp hMember).1
  refine
    ⟨newer ++ skipped, now, choice.found, after, older, ?_,
      performed_of_took hBefore hNow, ?_, ?_⟩
  · rw [hTrace, hSkip, List.append_assoc]
  · exact
      hChecked.mono fun _ _ hTook =>
        performed_of_took hBefore hTook
  · refine performed_of_took ?_ hRead
    intro event hEvent
    have hMember :
        event ∈ newer.filter fun event => event.task = i := by
      rw [hNewer]
      exact List.mem_cons_of_mem _ hEvent
    exact
      List.mem_append_left _ (List.mem_filter.mp hMember).1

------------------------------------------------------------
-- Content
------------------------------------------------------------

/- A row of the job table was created, with the same
   repository and checksum. -/
def RowsCreated (w : TransferWorld) : Prop :=
  ∀ id job, w.state.jobs.find? id = some job →
    ∃ stream row,
      Created stream row w.trace ∧ row.SameRecord job

theorem rowsCreated_perform
    (hRows : RowsCreated w)
    (hExec :
      op.exec config choice w.state = some (answer, after)) :
    RowsCreated (w.perform i op answer after) := by
  intro id job hFind
  have hOld :
      ∀ row, w.state.jobs.find? id = some row →
        row.SameRecord job →
          ∃ stream first,
            Created stream first
                (w.perform i op answer after).trace ∧
              first.SameRecord job := by
    intro row hRow hSame
    rcases hRows id row hRow with
      ⟨stream, first, ⟨event, hEvent, hCreates⟩, hFirst⟩
    exact
      ⟨stream, first,
        ⟨event, List.mem_cons_of_mem _ hEvent, hCreates⟩,
        hFirst.trans hSame⟩
  have hStep := JobEvents.rowStep_exec i hExec id
  rw [World.perform_state] at hFind
  rw [hFind] at hStep
  generalize hBefore : w.state.jobs.find? id = before at hStep
  generalize hNext : some job = next at hStep
  generalize hEvent :
      (.performed i op answer w.state after : TransferEvent) =
        event
    at hStep
  cases hStep with
  | kept =>
      subst hNext
      exact hOld job hBefore (.refl job)
  | @created stream row first second hId =>
      cases hNext
      refine ⟨stream, job, ⟨_, ?_, first, second, rfl⟩, .refl job⟩
      rw [← hEvent]
      exact List.mem_cons_self
  | claimed =>
      cases hNext
      exact hOld _ hBefore ⟨rfl, rfl, rfl, rfl⟩
  | synced =>
      cases hNext
      exact hOld _ hBefore ⟨rfl, rfl, rfl, rfl⟩
  | failed =>
      cases hNext
      exact hOld _ hBefore ⟨rfl, rfl, rfl, rfl⟩
  | requeued =>
      cases hNext
      exact hOld _ hBefore ⟨rfl, rfl, rfl, rfl⟩

theorem file_of_read
    {path : String}
    (hExec :
      (TransferOp.files (.readFile path)).exec config choice s =
        some (.ok content, t)) :
    s.files path = some content := by
  have hRun :=
    congrArg Prod.fst (TransferOp.exec_eq_some_iff.mp hExec).2
  simp only [TransferOp.run, runFiles, FileStatement.run,
    withFile] at hRun
  split at hRun
  · cases hRun
  · cases hFile : s.files path with
    | none =>
        rw [hFile] at hRun
        cases hRun
    | some found =>
        rw [hFile] at hRun
        cases hRun
        rfl

theorem rowsCreated_run
    (hNoJobs : ∀ id, initial.jobs.find? id = none)
    (hRun :
      (transferSystem config).Run ok (Pool.initial initial) p) :
    RowsCreated p.world := by
  refine
    kept_run RowsCreated ?_ (fun _ _ _ _ => only_any _)
      (fun _ _ _ _ _ _ _ _ hRows hExec =>
        rowsCreated_perform hRows hExec)
      .refl hRun ?_
  · rintro w v ⟨hState, hEvents⟩ hRows id job hFind
    rw [hState] at hFind
    rcases hRows id job hFind with
      ⟨stream, row, ⟨event, hEvent, hCreates⟩, hSame⟩
    refine ⟨stream, row, ⟨event, ?_, hCreates⟩, hSame⟩
    rcases hCreates with ⟨before, after, hEq⟩
    subst hEq
    exact (hEvents ..).mpr hEvent
  · intro id job hFind
    rw [show (Pool.initial initial).world.state.jobs.find? id =
      none from hNoJobs id] at hFind
    cases hFind

/- What pulls read was put there for a job. -/
theorem verified_run
    {repos : Set String}
    (hNoPushes : NoPushes initial)
    (hNoFiles :
      ∀ repo ∈ repos,
        initial.files (pullPath config repo) = none)
    (hRun :
      (transferSystem config).Run (copiesPushed config repos)
        (Pool.initial initial) p) :
    NasIntegrity.VisibleVerified config repos
      p.world.state := by
  have hNothing :
      NasIntegrity.VisibleVerified config repos initial := by
    intro repo hRepo content hFile
    rw [hNoFiles repo hRepo] at hFile
    cases hFile
  have hCopies :
      (transferSystem config).Run
        (NasIntegrity.copiesVerified config repos)
        (Pool.initial initial) p :=
    hRun.mono (fun _ _ _ _ => trivial)
      fun i op w
          (hBoth : (copiesPushed config repos).perform i op w) =>
        hBoth.2
  exact
    (NasIntegrity.sound_of_run hNoPushes hNothing
      hCopies).inv.verified

/- A pull is answered with what it has found. -/
theorem found_of_pulled
    (hRun :
      (transferSystem config).Run ok (Pool.initial initial) p)
    (hPulled : Pulled i ticketId repo content p.world.trace) :
    ∃ q : TransferPool,
      (transferSystem config).Run ok (Pool.initial initial) q ∧
        (∀ event ∈ q.world.trace, event ∈ p.world.trace) ∧
        q.world.state.files (pullPath config repo) =
          some content := by
  rcases events_of_pulled hRun hPulled with
    ⟨newer, _, _, _, _, hTrace, _, _, before, after, hRead⟩
  have hMember :
      .performed i (.files (.readFile (pullPath config repo)))
          (.ok content) before after ∈ p.world.trace := by
    rw [hTrace]
    exact List.mem_append_left _ hRead
  rcases List.append_of_mem hMember with
    ⟨later, earlier, hSplit⟩
  rcases reached_before hRun hSplit with
    ⟨q, _, choice, hReached, hWorld, _, _, hExec⟩
  refine ⟨q, hReached, ?_, ?_⟩
  · intro event hEvent
    rw [hWorld] at hEvent
    rw [hSplit]
    exact
      List.mem_append_right _ (List.mem_cons_of_mem _ hEvent)
  · rw [hWorld]
    exact file_of_read hExec

/-
  Whatever interleaves and fails: what a pull of one of the
  repositories is answered with has the checksum of what was
  pushed to that repository, by a push that came to its end.
-/
theorem pull_returns_pushed
    (config : TransferConfig)
    (repos : Set String)
    (initial : TransferState)
    (p : TransferPool)
    (hNoPushes : NoPushes initial)
    (hNoJobs : ∀ id, initial.jobs.find? id = none)
    (hNoFiles :
      ∀ repo ∈ repos,
        initial.files (pullPath config repo) = none)
    (hRun :
      (transferSystem config).Run (copiesPushed config repos)
        (Pool.initial initial) p)
    (i : Nat)
    (ticketId repo : String)
    (content : Content)
    (hRepo : repo ∈ repos)
    (hPulled : Pulled i ticketId repo content p.world.trace) :
    PushedTo config repo content p.world.trace := by
  rcases found_of_pulled hRun hPulled with
    ⟨q, hReached, hThere, hFile⟩
  have hVerified :
      NasIntegrity.VisibleVerified config repos q.world.state :=
    verified_run hNoPushes hNoFiles hReached
  have hRows : RowsCreated q.world :=
    rowsCreated_run hNoJobs hReached
  have hPushed : Integrity config p.world :=
    integrity_of_inv
      (pushInv_run hNoPushes
        (hRun.mono (fun _ _ _ _ => trivial)
          fun i op w
              (hBoth :
                (copiesPushed config repos).perform i op w) =>
            hBoth.1))
  rcases hVerified repo hRepo content hFile with
    ⟨jobId, job, hFind, hOf, hChecksum⟩
  rcases hRows jobId job hFind with
    ⟨stream, row, ⟨event, hEvent, hCreates⟩, hSame⟩
  have hCreated : Created stream row p.world.trace :=
    ⟨event, hThere event hEvent, hCreates⟩
  rcases List.append_of_mem (hThere event hEvent) with
    ⟨ahead, behind, hOrder⟩
  rcases hPushed.ended ahead event behind stream row hOrder
      hCreates with ⟨_, messages, _, hPushes⟩
  have hContent :=
    (hPushed.content stream messages true row hPushes
      hCreated).1
  refine ⟨stream, messages, row, hPushes, hCreated, ?_, ?_⟩
  · rw [← hSame.repo]
    exact hOf
  · rw [← hChecksum, hSame.checksum, hContent]

------------------------------------------------------------
-- Tickets
------------------------------------------------------------

/- A ticket that was found is granted as it was, one that was
   missed is not there, and one that was redeemed is spent. -/
structure TicketsKept (w : TransferWorld) : Prop where
  found :
    ∀ j ticketId ticket,
      Performed j w.trace (.tickets (.get ticketId))
          (.ok (some ticket)) →
        ∃ later,
          w.state.tickets.find? ticketId = some later ∧
            ticket.SameGrant later
  missed :
    ∀ j ticketId,
      Performed j w.trace (.tickets (.get ticketId))
          (.ok none) →
        w.state.tickets.find? ticketId = none
  spent :
    ∀ j ticketId, Activated j ticketId w.trace →
      ∃ ticket,
        w.state.tickets.find? ticketId = some ticket ∧
          ticket.status ≠ .issued

theorem ticketsKept_perform
    (hKept : TicketsKept w)
    (hOk : idsUnguessed.perform i op w)
    (hExec :
      op.exec config choice w.state = some (answer, after)) :
    TicketsKept (w.perform i op answer after) where
  found := by
    rintro j ticketId ticket ⟨first, second, hEvent⟩
    have hThere :
        ∃ row,
          w.state.tickets.find? ticketId = some row ∧
            ticket.SameGrant row := by
      rcases List.mem_cons.mp hEvent with hNew | hOld
      · cases hNew
        exact
          ⟨ticket, (PushAuthorization.exec_get hExec).1.symm,
            .refl ticket⟩
      · exact hKept.found j ticketId ticket ⟨_, _, hOld⟩
    rcases hThere with ⟨row, hFind, hSame⟩
    rcases (TransferOp.exec_frame hExec).tickets with
      hTable | ⟨statement, _, hRun⟩
    · refine ⟨row, ?_, hSame⟩
      rw [World.perform_state, hTable]
      exact hFind
    · rcases statement.grant_run hFind with
        ⟨later, hLater, hGrant⟩
      refine ⟨later, ?_, hSame.trans hGrant⟩
      rw [World.perform_state, hRun]
      exact hLater
  missed := by
    rintro j ticketId ⟨first, second, hEvent⟩
    rw [World.perform_state]
    rcases List.mem_cons.mp hEvent with hNew | hOld
    · cases hNew
      have hGet := PushAuthorization.exec_get hExec
      rw [hGet.2]
      exact hGet.1.symm
    · have hNone := hKept.missed j ticketId ⟨_, _, hOld⟩
      rcases (TransferOp.exec_frame hExec).tickets with
        hTable | ⟨statement, hOp, hRun⟩
      · rw [hTable]
        exact hNone
      · rw [hRun]
        cases hFind :
            (statement.run w.state.tickets).2.find?
              ticketId with
        | none => rfl
        | some ticket =>
            have hNew :=
              TicketStatement.eq_create_of_new hNone hFind
            rw [hNew.1] at hOp
            apply absurd _ (hOk ticket hOp j)
            rw [hNew.2]
            exact ⟨_, _, hOld⟩
  spent := by
    rintro j ticketId ⟨event, hEvent, hActivates⟩
    rw [World.perform_state]
    rcases List.mem_cons.mp hEvent with hNew | hOld
    · subst hNew
      rcases hActivates with
        ⟨operation, repo, now, before, later, hEq⟩
      cases hEq
      have hRun := exec_tickets_ok hExec
      rcases run_activate_true (congrArg Prod.fst hRun) with
        ⟨row, _, _, _, _, _, hAfter⟩
      rw [hRun] at hAfter
      exact ⟨_, hAfter, by simp⟩
    · rcases hKept.spent j ticketId
          ⟨event, hOld, hActivates⟩ with
        ⟨ticket, hFind, hSpent⟩
      rcases moved_exec hExec hFind with
        ⟨later, hLater, hMove⟩
      exact ⟨later, hLater, ne_issued_of_move hMove hSpent⟩

theorem ticketsKept_run
    (hRun :
      (transferSystem config).Run idsUnguessed
        (Pool.initial initial) p) :
    TicketsKept p.world := by
  refine
    kept_run TicketsKept ?_ (fun _ _ _ _ => only_any _)
      (fun _ _ _ _ _ _ _ hOk hKept hExec =>
        ticketsKept_perform hKept hOk hExec)
      .refl hRun ?_
  · rintro w v ⟨hState, hEvents⟩ hKept
    constructor
    · rintro j ticketId ticket ⟨first, second, hEvent⟩
      rw [hState]
      exact
        hKept.found j ticketId ticket
          ⟨first, second, (hEvents ..).mp hEvent⟩
    · rintro j ticketId ⟨first, second, hEvent⟩
      rw [hState]
      exact
        hKept.missed j ticketId
          ⟨first, second, (hEvents ..).mp hEvent⟩
    · rintro j ticketId ⟨event, hEvent, hActivates⟩
      rw [hState]
      rcases hActivates with ⟨_, _, _, _, _, hEq⟩
      subst hEq
      exact
        hKept.spent j ticketId
          ⟨_, (hEvents ..).mp hEvent, _, _, _, _, _, rfl⟩
  · constructor
    · rintro j ticketId ticket ⟨first, second, hEvent⟩
      cases hEvent
    · rintro j ticketId ⟨first, second, hEvent⟩
      cases hEvent
    · rintro j ticketId ⟨event, hEvent, _⟩
      cases hEvent

/- The grant that was checked is the one that is redeemed. -/
theorem reader_of_checked
    {ticket : Ticket}
    (hKept : TicketsKept w)
    (hChecked : Checked (Performed i w.trace) ticketId repo)
    (hFind : w.state.tickets.find? ticketId = some ticket)
    (hPull : ticket.operation = .pull)
    (hRepo : ticket.repo = repo) :
    ∃ role,
      Performed i w.trace
          (.users (.getRepoRole ticket.username repo))
          (.ok role) ∧
        sufficient .pull role = true := by
  rcases hChecked with ⟨looked, hLooked, hRole⟩
  cases looked with
  | none =>
      rw [hKept.missed i ticketId hLooked] at hFind
      cases hFind
  | some earlier =>
      rcases hKept.found i ticketId earlier hLooked with
        ⟨row, hRow, hSame⟩
      rw [hFind, Option.some.injEq] at hRow
      subst hRow
      rw [hSame.username]
      apply hRole earlier rfl
      · rw [← hSame.operation]
        exact hPull
      · rw [← hSame.repo]
        exact hRepo

/- A ticket that is redeemed was not redeemed before. -/
theorem redeemed_first
    {event : TransferEvent}
    {newer older : List TransferEvent}
    (hRun :
      (transferSystem config).Run idsUnguessed
        (Pool.initial initial) p)
    (hTrace : p.world.trace = newer ++ event :: older)
    (hActivates : Activates i ticketId event)
    (j : Nat) :
    ¬ Activated j ticketId older := by
  rcases hActivates with ⟨_, _, _, before, after, hEq⟩
  subst hEq
  rcases reached_before hRun hTrace with
    ⟨q, _, _, hReached, hWorld, _, _, hExec⟩
  have hKept := ticketsKept_run hReached
  rw [hWorld] at hKept
  intro hActivated
  rcases hKept.spent j ticketId hActivated with
    ⟨ticket, hFind, hSpent⟩
  rcases run_activate_true
      (congrArg Prod.fst (exec_tickets_ok hExec)) with
    ⟨row, hRow, _, _, hIssued, _⟩
  rw [hFind, Option.some.injEq] at hRow
  rw [hRow] at hSpent
  exact hSpent hIssued

/-
  Whatever interleaves and fails: a pull that is answered
  with content has redeemed a ticket that was issued for it,
  of a user it had found to be a reader.  The ticket expires
  after the time that the pull had read before, and nobody
  else redeems it, before or after.
-/
theorem pull_redeems_ticket
    (config : TransferConfig)
    (initial : TransferState)
    (p : TransferPool)
    (hRun :
      (transferSystem config).Run idsUnguessed
        (Pool.initial initial) p)
    (i : Nat)
    (ticketId repo : String)
    (content : Content)
    (hPulled : Pulled i ticketId repo content p.world.trace) :
    Redeemed config i ticketId repo content p.world.trace := by
  rcases events_of_pulled hRun hPulled with
    ⟨newer, now, before, after, older, hTrace, hNow, hChecked,
      hRead⟩
  rcases reached_before hRun hTrace with
    ⟨q, _, _, hReached, hWorld, _, _, hExec⟩
  have hKept := ticketsKept_run hReached
  rw [hWorld] at hKept
  rcases run_activate_true
      (congrArg Prod.fst (exec_tickets_ok hExec)) with
    ⟨ticket, hFind, hText, hRepo, hIssued, hTime, _⟩
  have hPull : ticket.operation = .pull := by
    cases hOperation : ticket.operation with
    | pull => rfl
    | push => simp [hOperation, TransferOperation.text] at hText
  rcases reader_of_checked hKept hChecked hFind hPull hRepo with
    ⟨role, hRole, hSufficient⟩
  refine
    ⟨newer, now, before, after, older, ticket, role, hTrace,
      hFind, hNow, ⟨hPull, hRepo, hIssued, hTime⟩, hRole,
      hSufficient, hRead, ?_⟩
  intro event hEvent j hActivates
  have hOwn :
      Activates i ticketId
        (.performed i
          (.tickets (.activate ticketId "pull" repo now))
          (.ok true) before after) :=
    ⟨_, _, _, _, _, rfl⟩
  rcases List.mem_append.mp hEvent with hNewer | hOlder
  · rcases List.append_of_mem hNewer with
      ⟨later, between, hSplit⟩
    rw [hSplit, List.append_assoc, List.cons_append] at hTrace
    apply redeemed_first hRun hTrace hActivates i
    refine ⟨_, ?_, hOwn⟩
    exact List.mem_append_right _ List.mem_cons_self
  · exact
      redeemed_first hRun hTrace hOwn j
        ⟨event, hOlder, hActivates⟩

------------------------------------------------------------
-- A Byte That Is Pushed And Pulled
------------------------------------------------------------

/- A writer with a ticket for pushing and one for pulling. -/
def twoTickets : TransferState :=
  let issued (id : String) (operation : TransferOperation) :
      Ticket :=
    { id := id
      username := "eve"
      operation := operation
      repo := "r"
      status := .issued
      issuedAt := 0
      expiresAt := 60000
      syncOptions := none }
  { withRole .writer with
    tickets :=
      { rows := [issued "t" .push, issued "u" .pull]
        distinct := by simp [issued] } }

/- The byte is pushed, synced and pulled. -/
def pushedThenPulled :
    List (Label TransferChoice TransferCall) :=
  [ .start 1
      (.push [.header ⟨"t", "push", "r"⟩, .chunk [7]] true) ] ++
  List.replicate 18 (.resume 1 (draw "x")) ++
  .start 2 .processNext ::
    List.replicate 11 (.resume 2 (draw "y")) ++
  .start 3 (.pull "u" "r") ::
    List.replicate 8 (.resume 3 (draw "z"))

/- No ticket is issued, no copy is made after another, and
   every file that is hashed has one byte. -/
def oneByteOnly
    (_ : Nat)
    (op : TransferOp)
    (w : TransferWorld) : Bool :=
  drawnOnce w &&
    match op with
    | .tickets (.create _) => false
    | .files (.copyFile _ _) =>
        w.trace.all NasIntegrity.beforeCopy
    | .files (.sha256File path) =>
        w.trace.all NasIntegrity.readsStaged &&
          (w.state.files path).all fun content =>
            content.length == 1
    | .files (.rename _ _) =>
        w.trace.all NasIntegrity.readsStaged
    | _ => true

theorem copiesPushed_of_oneByteOnly
    (i : Nat)
    (op : TransferOp)
    (w : TransferWorld)
    (hOnly : oneByteOnly i op w = true) :
    (copiesPushed smallConfig {"r"}).perform i op w := by
  unfold oneByteOnly at hOnly
  rw [Bool.and_eq_true] at hOnly
  refine
    ⟨namesUnique_of_drawnOnce i op w hOnly.1, ?_, ?_, ?_⟩
  · rintro source target rfl j
    exact NasIntegrity.not_copied hOnly.2
  · rintro path rfl job hClaimed content hContent
    have hBoth := hOnly.2
    rw [Bool.and_eq_true, hContent] at hBoth
    have hLength : content.length = 1 := by
      simpa using hBoth.2
    rw [(NasIntegrity.staged_of_claimed hBoth.1 hClaimed).1]
    show toString content.length = "1"
    rw [hLength]
    rfl
  · rintro source target rfl job hClaimed repo hRepo _
    rw [(NasIntegrity.staged_of_claimed hOnly.2 hClaimed).2]
    exact hRepo.symm

theorem idsUnguessed_of_oneByteOnly
    (i : Nat)
    (op : TransferOp)
    (w : TransferWorld)
    (hOnly : oneByteOnly i op w = true) :
    idsUnguessed.perform i op w := by
  rintro ticket rfl
  unfold oneByteOnly at hOnly
  simp at hOnly

set_option maxRecDepth 4000 in
theorem pulled_of_pushedThenPulled :
    ∃ q : TransferPool,
      (transferSystem smallConfig).replay?
            (Pool.initial twoTickets) pushedThenPulled =
          some q ∧
        System.checks (transferSystem smallConfig) oneByteOnly
            (Pool.initial twoTickets) pushedThenPulled =
          true ∧
        Pulled 3 "u" "r" [7] q.world.trace := by
  refine ⟨_, rfl, by decide +kernel, ?_, ?_⟩
  · exact List.mem_iff_getElem?.mpr ⟨9, rfl⟩
  · exact List.mem_iff_getElem?.mpr ⟨0, rfl⟩

/- The byte that is pulled was pushed. -/
theorem pull_returns_pushed_byte :
    ∃ q : TransferPool,
      (transferSystem smallConfig).replay?
            (Pool.initial twoTickets) pushedThenPulled =
          some q ∧
        PushedTo smallConfig "r" [7] q.world.trace := by
  rcases pulled_of_pushedThenPulled with
    ⟨q, hReplay, hChecks, hPulled⟩
  refine ⟨q, hReplay, ?_⟩
  exact
    pull_returns_pushed smallConfig {"r"} twoTickets q
      (fun _ => rfl) (fun _ => rfl) (fun _ _ => rfl)
      (System.run_of_checks (fun _ _ _ _ => trivial)
        copiesPushed_of_oneByteOnly hChecks hReplay)
      3 "u" "r" [7] rfl hPulled

/- The pull has redeemed its own ticket. -/
theorem pull_redeems_ticket_of_writer :
    ∃ q : TransferPool,
      (transferSystem smallConfig).replay?
            (Pool.initial twoTickets) pushedThenPulled =
          some q ∧
        Redeemed smallConfig 3 "u" "r" [7] q.world.trace := by
  rcases pulled_of_pushedThenPulled with
    ⟨q, hReplay, hChecks, hPulled⟩
  refine ⟨q, hReplay, ?_⟩
  exact
    pull_redeems_ticket smallConfig twoTickets q
      (System.run_of_checks (fun _ _ _ _ => trivial)
        idsUnguessed_of_oneByteOnly hChecks hReplay)
      3 "u" "r" [7] hPulled

end PullDelivery

end Transfer
