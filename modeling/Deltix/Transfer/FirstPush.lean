import Deltix.Concurrency.Solo
import Deltix.Transfer.TransferSystem

/-
  The first push to a repository that nobody has a role on:
  a ticket is asked for, and a stream is sent, with no step
  failing.

  Key definitions include:
    * `firstPush`
    * `mayCreateRepos`
    * `AutoCreates`

  Key theorems include:
    * `ends_consumeTicket`
    * `ends_firstPush`
    * `autoCreates_iff`
-/

namespace Transfer

namespace FirstPush

open Auth Concurrency Storage

/- Run an operation that does not fail. -/
def steady
    (config : TransferConfig)
    (op : TransferOp)
    (choice : TransferChoice) :
    TransferState → Option (op.Answer × TransferState) :=
  op.exec config { choice with fails := false }

/- Without a ticket, the header names some other text. -/
def headerTicket (other : String) : TransferReturn → String
  | .ticket ticket => ticket.id
  | _ => other

/- A client asks for a ticket and pushes with it. -/
def firstPush
    (config : TransferConfig)
    (stream : Nat)
    (username repo : String)
    (sync : Option PushTicketSyncOptions)
    (other : String)
    (chunks : List Content) :
    TransferProgram (TransferReturn × Option PushReply) := do
  let answer ←
    postPushTicket config (some username)
      (some ⟨.push, repo, sync⟩)
  let reply ←
    push config stream
      (.header ⟨headerTicket other answer, "push", repo⟩ ::
        chunks.map .chunk)
      true
  return (answer, reply)

/- `canUserCreateRepos`, on the rows. -/
def mayCreateRepos (db : UserDb) (username : String) : Bool :=
  match db.users.find? username with
  | none => false
  | some user => user.isGlobalAdmin || user.canCreateRepos

/- The ticket is denied, and so is the push. -/
def Refused :
    Except TransferError
      (TransferReturn × Option PushReply) → Prop
  | .ok (.response _ _, some (.refused _)) => True
  | _ => False

/- What a first push is to end with. -/
def AutoCreates
    (username repo : String)
    (s : TransferState)
    (outcome :
      Except TransferError
        (TransferReturn × Option PushReply))
    (t : TransferState) : Prop :=
  if mayCreateRepos s.db username then
    repo ∈ t.repos ∧ roleOn t.db username repo = some .admin
  else
    Refused outcome ∧ repo ∉ t.repos ∧
      ∀ user, roleOn t.db user repo = none

/- Nobody has a role on a repository that does not exist. -/
structure Unowned
    (repo : String)
    (s : TransferState) : Prop where
  noRecord : repo ∉ s.repos
  noRoles : ∀ user, roleOn s.db user repo = none

variable {config : TransferConfig} {s : TransferState}

theorem ends_users
    (statement : UserStatement) :
    Ends (steady config) (Transfer.users statement) s
      fun _ outcome t =>
        outcome =
            (statement.run s.db).1.mapError
              TransferError.store ∧
          t = { s with db := (statement.run s.db).2 } := by
  unfold Transfer.users perform Async.call
  apply ends_await
  intro choice answer next hExec
  cases hExec
  show Ends _ (answered _ (statement.run s.db).1) _ _
  cases hAnswer : (statement.run s.db).1 with
  | ok value => exact ends_returned ⟨rfl, rfl⟩
  | error error => exact ends_threw ⟨rfl, rfl⟩

theorem ends_tickets
    (statement : TicketStatement) :
    Ends (steady config) (Transfer.tickets statement) s
      fun _ outcome t =>
        outcome =
            (statement.run s.tickets).1.mapError
              TransferError.store ∧
          t =
            { s with
              tickets := (statement.run s.tickets).2 } := by
  unfold Transfer.tickets perform Async.call
  apply ends_await
  intro choice answer next hExec
  cases hExec
  show Ends _ (answered _ (statement.run s.tickets).1) _ _
  cases hAnswer : (statement.run s.tickets).1 with
  | ok value => exact ends_returned ⟨rfl, rfl⟩
  | error error => exact ends_threw ⟨rfl, rfl⟩

theorem ends_getRepoRole
    (username repo : String) :
    Ends (steady config)
      (Transfer.users (.getRepoRole username repo)) s
      fun _ outcome t =>
        outcome = .ok (roleOn s.db username repo) ∧ t = s :=
  ends_users (.getRepoRole username repo)

theorem ends_getTicket
    (ticketId : String) :
    Ends (steady config)
      (Transfer.tickets (.get ticketId)) s
      fun _ outcome t =>
        outcome = .ok (s.tickets.find? ticketId) ∧ t = s :=
  ends_tickets (.get ticketId)

theorem ends_now :
    Ends (steady config) Transfer.now s
      fun _ outcome t => outcome = .ok s.clock ∧ t = s := by
  apply ends_call
  intro choice answer next hExec
  cases hExec
  exact ⟨rfl, rfl⟩

------------------------------------------------------------
-- No Ticket Without A Role
------------------------------------------------------------

variable {username repo : String}

theorem sufficient_of_unowned
    (hUnowned : Unowned repo s)
    (operation : TransferOperation)
    (user : String) :
    sufficient operation (roleOn s.db user repo) = false := by
  rw [hUnowned.noRoles user]
  rfl

/- The first gate: no ticket is issued. -/
theorem ends_postPushTicket
    (hUnowned : Unowned repo s)
    (username : String)
    (sync : Option PushTicketSyncOptions) :
    Ends (steady config)
      (postPushTicket config (some username)
        (some ⟨.push, repo, sync⟩)) s
      fun _ outcome t =>
        (∃ status error,
          outcome = .ok (.response status error)) ∧
          t = s := by
  unfold postPushTicket issueForRole
  dsimp only
  rw [Async.bind_eq]
  apply ends_bind_ok (ends_getRepoRole username repo)
  rw [sufficient_of_unowned hUnowned]
  exact ends_returned ⟨⟨_, _, rfl⟩, rfl⟩

/- The second: a ticket of the repository is refused before
   it is looked for among those to activate. -/
theorem ends_preCheck
    (hUnowned : Unowned repo s)
    (ticketId operation : String) :
    Ends (steady config) (preCheck ticketId operation repo) s
      fun _ outcome t =>
        t = s ∧
          ((∃ error, outcome = .error error) ∨
            outcome = .ok () ∧
              ∀ ticket,
                s.tickets.find? ticketId = some ticket →
                  ¬ (ticket.operation.text = operation ∧
                    ticket.repo = repo)) := by
  unfold preCheck
  rw [Async.bind_eq]
  apply ends_bind_ok (ends_getTicket ticketId)
  cases hTicket : s.tickets.find? ticketId with
  | none =>
      apply ends_returned
      refine ⟨rfl, Or.inr ⟨rfl, ?_⟩⟩
      intro ticket hOther
      cases hOther
  | some ticket =>
      dsimp only
      split
      · unfold assertRoleStillSufficient
        rw [Async.bind_eq]
        apply ends_bind_ok
          (ends_getRepoRole ticket.username repo)
        rw [sufficient_of_unowned hUnowned]
        exact ends_threw ⟨rfl, Or.inl ⟨_, rfl⟩⟩
      · rename_i hDiffers
        apply ends_returned
        refine ⟨rfl, Or.inr ⟨rfl, ?_⟩⟩
        intro other hOther
        cases hOther
        exact hDiffers

theorem ends_activate
    {ticketId operation : String}
    {now : Nat}
    (hOther :
      ∀ ticket,
        s.tickets.find? ticketId = some ticket →
          ¬ (ticket.operation.text = operation ∧
            ticket.repo = repo)) :
    Ends (steady config)
      (Transfer.tickets
        (.activate ticketId operation repo now)) s
      fun _ outcome t => outcome = .ok false ∧ t = s := by
  let statement : TicketStatement :=
    .activate ticketId operation repo now
  have hRefused : (statement.run s.tickets).1 ≠ .ok true := by
    intro hActivated
    rcases TicketStatement.activate_eq_true_iff.mp
      hActivated with ⟨ticket, hTicket, hOperation, hRepo, _⟩
    exact hOther ticket hTicket ⟨hOperation, hRepo⟩
  have hSame : (statement.run s.tickets).2 = s.tickets :=
    TicketStatement.updateOne_eq_self hRefused
  have hFalse : (statement.run s.tickets).1 = .ok false := by
    cases hAnswer : (statement.run s.tickets).1 with
    | error error => cases hAnswer
    | ok activated =>
        cases activated with
        | false => rfl
        | true => exact absurd hAnswer hRefused
  refine ends_mono (ends_tickets statement) ?_
  rintro _ outcome t ⟨hOutcome, hAfter⟩
  rw [hFalse] at hOutcome
  rw [hSame] at hAfter
  exact ⟨hOutcome, hAfter⟩

/- The third: no other ticket is activated. -/
theorem ends_consumeTicket
    (hUnowned : Unowned repo s)
    (ticketId operation : String) :
    Ends (steady config)
      (consumeTicket ticketId operation repo) s
      fun _ outcome t =>
        (∃ error, outcome = .error error) ∧ t = s := by
  unfold consumeTicket
  simp only [Async.bind_eq]
  apply ends_bind_ok ends_now
  refine
    ends_bind_of (ends_preCheck hUnowned ticketId operation)
      ?_ ?_
  · rintro _ _ u ⟨hSame, hError | ⟨_, hOther⟩⟩
    · rcases hError with ⟨error, hError⟩
      cases hError
    · subst hSame
      apply ends_bind_ok (ends_activate hOther)
      apply ends_bind_ok (ends_getTicket ticketId)
      cases u.tickets.find? ticketId with
      | none => exact ends_threw ⟨⟨_, rfl⟩, rfl⟩
      | some ticket => exact ends_threw ⟨⟨_, rfl⟩, rfl⟩
  · rintro _ error u ⟨hSame, _⟩
    exact ⟨⟨error, rfl⟩, hSame⟩

------------------------------------------------------------
-- A Stream Without A Ticket
------------------------------------------------------------

variable {stream : Nat}

/- What is left to run after a step of the session. -/
theorem ends_bind_session
    {α : Type}
    {step : SessionStep}
    {next : step.Answer → TransferProgram α}
    {post : Except TransferError α → TransferState → Prop}
    (hNext :
      ∀ uuid answer session u,
        step.run config.stagingRootPath uuid s.clock false
            (s.pushes stream) = (answer, session) →
          u.pushes stream = session →
            u.db = s.db → u.repos = s.repos →
              Ends (steady config) (next answer) u
                fun _ => post) :
    Ends (steady config)
      ((Transfer.session stream step).bind next) s
      fun _ => post := by
  unfold Transfer.session perform Async.call
  rw [Async.bind_await]
  apply ends_await
  intro choice answer u hExec
  have hRun := (TransferOp.exec_eq_some_iff.mp hExec).2
  cases hRun
  exact
    hNext choice.text _ _ _ rfl (Function.update_self _ _ _)
      rfl rfl

/- The stream has been aborted, with nothing created. -/
structure Denied
    (repo : String)
    (stream : Nat)
    (s : TransferState) : Prop where
  unowned : Unowned repo s
  aborted : (s.pushes stream).aborted = true
  pending :
    ∃ status,
      (s.pushes stream).pendingAbort = some status

theorem Unowned.of_eq
    {t : TransferState}
    (hUnowned : Unowned repo s)
    (hDb : t.db = s.db)
    (hRepos : t.repos = s.repos) :
    Unowned repo t where
  noRecord := hRepos ▸ hUnowned.noRecord
  noRoles := hDb ▸ hUnowned.noRoles

/- A session with a header, and what its abort leaves. -/
def headed : PushSession :=
  { PushSession.initial with headerReceived := true }

/- There is no staging file to remove. -/
theorem ends_markAborted
    (status : GrpcStatus)
    (hUnowned : Unowned repo s)
    (hHeaded : s.pushes stream = headed) :
    Ends (steady config) (markAborted stream status) s
      fun _ outcome t =>
        outcome = .ok none ∧ Denied repo stream t := by
  unfold markAborted
  rw [Async.bind_eq]
  apply ends_bind_session
  intro _ _ _ u hRun hMarked hDb hRepos
  rw [hHeaded] at hRun
  cases hRun
  show Ends _ ((Transfer.session stream .isEnded).bind _) _ _
  apply ends_bind_session
  intro _ _ _ v hRun hThere hDb' hRepos'
  rw [hMarked] at hRun
  cases hRun
  apply ends_returned
  refine ⟨rfl, ?_, ?_, ?_⟩
  · exact (hUnowned.of_eq hDb hRepos).of_eq hDb' hRepos'
  · rw [hThere]
    rfl
  · exact ⟨status, by rw [hThere]; rfl⟩

theorem ends_onHeader
    (ticketId operation : String)
    (hUnowned : Unowned repo s) :
    Ends (steady config)
      (onHeader stream ⟨ticketId, operation, repo⟩) s
      fun _ outcome t =>
        (∃ error, outcome = .error error) ∧ t = s := by
  have hTicket :
      Ends (steady config)
        (tryCatch (consumeTicket ticketId operation repo)
          fun error =>
            (throw
              (.pushSessionAborted
                ("ticket rejected: " ++ error.message)) :
              TransferProgram Ticket)) s
        fun _ outcome t =>
          (∃ error, outcome = .error error) ∧ t = s := by
    refine
      ends_catchError_of
        (ends_consumeTicket hUnowned ticketId operation) ?_ ?_
    · rintro _ _ _ ⟨⟨_, hError⟩, _⟩
      cases hError
    · rintro _ error u ⟨_, hSame⟩
      exact ends_threw ⟨⟨_, rfl⟩, hSame⟩
  unfold onHeader
  rw [Async.bind_eq]
  refine ends_bind_of hTicket ?_ ?_
  · rintro _ _ _ ⟨⟨_, hError⟩, _⟩
    cases hError
  · rintro _ error u ⟨_, hSame⟩
    exact ⟨⟨error, rfl⟩, hSame⟩

/- The header is not admitted. -/
theorem ends_header
    (ticketId operation : String)
    (hUnowned : Unowned repo s)
    (hFresh : s.pushes stream = PushSession.initial) :
    Ends (steady config)
      (processMessage stream
        (.header ⟨ticketId, operation, repo⟩)) s
      fun _ outcome t =>
        outcome = .ok () ∧ Denied repo stream t := by
  have hDispatched :
      Ends (steady config)
        (dispatchMessage stream
          (.header ⟨ticketId, operation, repo⟩)) s
        fun _ outcome t =>
          (∃ error, outcome = .error error) ∧
            Unowned repo t ∧ t.pushes stream = headed := by
    unfold dispatchMessage receive
    rw [Async.bind_eq]
    apply ends_bind_session
    intro _ _ _ u hRun hSession hDb hRepos
    rw [hFresh] at hRun
    cases hRun
    have hThere := hUnowned.of_eq hDb hRepos
    refine ends_mono (ends_onHeader _ _ hThere) ?_
    rintro _ outcome t ⟨hError, hSame⟩
    subst hSame
    exact ⟨hError, hThere, hSession⟩
  unfold processMessage
  refine ends_catchError_of hDispatched ?_ ?_
  · rintro _ _ _ ⟨⟨_, hError⟩, _⟩
    cases hError
  · rintro _ error u ⟨_, hThere, hSession⟩
    simp only [Async.bind_eq]
    refine
      ends_bind_of (ends_markAborted _ hThere hSession) ?_ ?_
    · rintro _ _ v ⟨_, hDenied⟩
      exact ends_returned ⟨rfl, hDenied⟩
    · rintro _ _ _ ⟨hError, _⟩
      cases hError

/- No chunk gets through after that. -/
theorem ends_chunk
    (data : Content)
    (hDenied : Denied repo stream s) :
    Ends (steady config)
      (processMessage stream (.chunk data)) s
      fun _ outcome t =>
        outcome = .ok () ∧ Denied repo stream t := by
  have hIgnored :
      (s.pushes stream).processChunk false data =
        (.ignored, s.pushes stream) := by
    unfold PushSession.processChunk
    rw [hDenied.aborted]
    rfl
  have hDispatched :
      Ends (steady config)
        (dispatchMessage stream (.chunk data)) s
        fun _ outcome t =>
          outcome = .ok () ∧ Denied repo stream t := by
    unfold dispatchMessage receive
    rw [Async.bind_eq]
    apply ends_bind_session
    intro _ _ _ u hRun hSession hDb hRepos
    cases hIgnored.symm.trans hRun
    apply ends_returned
    refine ⟨rfl, hDenied.unowned.of_eq hDb hRepos, ?_, ?_⟩
    · rw [hSession]
      exact hDenied.aborted
    · rw [hSession]
      exact hDenied.pending
  unfold processMessage
  refine ends_catchError_of hDispatched ?_ ?_
  · rintro _ _ u hEnd
    exact hEnd
  · rintro _ _ _ ⟨hError, _⟩
    cases hError

theorem ends_chunks
    (chunks : List Content)
    (hDenied : Denied repo stream s) :
    Ends (steady config)
      (Async.forEach (processMessage stream)
        (chunks.map .chunk)) s
      fun _ outcome t =>
        outcome = .ok () ∧ Denied repo stream t := by
  induction chunks generalizing s with
  | nil => exact ends_returned ⟨rfl, hDenied⟩
  | cons data rest ih =>
      refine ends_bind_of (ends_chunk data hDenied) ?_ ?_
      · rintro _ _ u ⟨_, hThere⟩
        exact ih hThere
      · rintro _ _ _ ⟨hError, _⟩
        cases hError

/- The end is answered with the status of the abort. -/
theorem ends_finalize
    (hDenied : Denied repo stream s) :
    Ends (steady config) (finalizeStream config stream) s
      fun _ outcome t =>
        (∃ status, outcome = .ok (some (.refused status))) ∧
          Unowned repo t := by
  rcases hDenied.pending with ⟨status, hPending⟩
  have hAnswered :
      ((s.pushes stream).finalizeStream s.clock false).1 =
        .answered (some status) := by
    unfold PushSession.finalizeStream
    dsimp only
    rw [if_pos hDenied.aborted, hPending]
  unfold finalizeStream
  rw [Async.bind_eq]
  apply ends_bind_session
  intro _ ended _ u hRun _ hDb hRepos
  have hEnded : ended = .answered (some status) :=
    (congrArg Prod.fst hRun).symm.trans hAnswered
  subst hEnded
  apply ends_returned
  exact
    ⟨⟨status, rfl⟩, hDenied.unowned.of_eq hDb hRepos⟩

theorem ends_messages
    (ticketId operation : String)
    (chunks : List Content)
    (hUnowned : Unowned repo s)
    (hFresh : s.pushes stream = PushSession.initial) :
    Ends (steady config)
      (Async.forEach (processMessage stream)
        (.header ⟨ticketId, operation, repo⟩ ::
          chunks.map .chunk)) s
      fun _ outcome t =>
        outcome = .ok () ∧ Denied repo stream t := by
  refine
    ends_bind_of
      (ends_header ticketId operation hUnowned hFresh) ?_ ?_
  · rintro _ _ u ⟨_, hDenied⟩
    exact ends_chunks chunks hDenied
  · rintro _ _ _ ⟨hError, _⟩
    cases hError

theorem ends_push
    (ticketId operation : String)
    (chunks : List Content)
    (hUnowned : Unowned repo s)
    (hFresh : s.pushes stream = PushSession.initial) :
    Ends (steady config)
      (push config stream
        (.header ⟨ticketId, operation, repo⟩ ::
          chunks.map .chunk) true) s
      fun _ outcome t =>
        (∃ status, outcome = .ok (some (.refused status))) ∧
          Unowned repo t := by
  unfold push
  rw [Async.bind_eq]
  refine
    ends_bind_of
      (ends_messages ticketId operation chunks hUnowned
        hFresh) ?_ ?_
  · rintro _ _ u ⟨_, hDenied⟩
    exact ends_finalize hDenied
  · rintro _ _ _ ⟨hError, _⟩
    cases hError

/- Whoever asks, every gate is shut. -/
theorem ends_firstPush
    (username : String)
    (sync : Option PushTicketSyncOptions)
    (other : String)
    (chunks : List Content)
    (hUnowned : Unowned repo s)
    (hFresh : s.pushes stream = PushSession.initial) :
    Ends (steady config)
      (firstPush config stream username repo sync other
        chunks) s
      fun _ outcome t => Refused outcome ∧ Unowned repo t := by
  unfold firstPush
  simp only [Async.bind_eq]
  refine
    ends_bind_of
      (ends_postPushTicket hUnowned username sync) ?_ ?_
  · rintro _ answer u ⟨⟨status, error, hAnswer⟩, hSame⟩
    cases hAnswer
    subst hSame
    refine
      ends_bind_of
        (ends_push other "push" chunks hUnowned hFresh) ?_ ?_
    · rintro _ reply v ⟨⟨pending, hReply⟩, hThere⟩
      cases hReply
      exact ends_returned ⟨trivial, hThere⟩
    · rintro _ _ _ ⟨⟨_, hError⟩, _⟩
      cases hError
  · rintro _ _ _ ⟨⟨_, _, hError⟩, _⟩
    cases hError

------------------------------------------------------------
-- Who Gets A Repository
------------------------------------------------------------

/- There is such a run from every state. -/
theorem exists_firstPush
    (config : TransferConfig)
    (stream : Nat)
    (username repo : String)
    (sync : Option PushTicketSyncOptions)
    (other : String)
    (chunks : List Content)
    (s : TransferState) :
    ∃ steps outcome t,
      Solo (steady config)
        (firstPush config stream username repo sync other
          chunks) s steps outcome t := by
  have hEnabled :
      ∀ op u, (steady config op (draw "") u).isSome := by
    intro op u
    simp [steady, TransferOp.exec, draw, isRandomText]
  rcases exists_solo_of_choice hEnabled
    (firstPush config stream username repo sync other chunks)
    s with ⟨steps, outcome, t, hRun, _⟩
  exact ⟨steps, outcome, t, hRun⟩

/-
  A first push ends as it is to end exactly if the user may
  not create repositories: then it is refused.
-/
theorem autoCreates_iff
    (config : TransferConfig)
    (stream : Nat)
    (username repo : String)
    (sync : Option PushTicketSyncOptions)
    (other : String)
    (chunks : List Content)
    (s t : TransferState)
    (steps :
      List
        (Taken TransferOp TransferOp.Answer TransferState
          TransferChoice))
    (outcome :
      Except TransferError
        (TransferReturn × Option PushReply))
    (hUnowned : Unowned repo s)
    (hFresh : s.pushes stream = PushSession.initial)
    (hRun :
      Solo (steady config)
        (firstPush config stream username repo sync other
          chunks) s steps outcome t) :
    AutoCreates username repo s outcome t ↔
      mayCreateRepos s.db username = false := by
  have hEnd :=
    ends_firstPush username sync other chunks hUnowned hFresh
      steps outcome t hRun
  unfold AutoCreates
  cases hMay : mayCreateRepos s.db username with
  | false =>
      simp only [Bool.false_eq_true, if_false, iff_true]
      exact ⟨hEnd.1, hEnd.2.noRecord, hEnd.2.noRoles⟩
  | true =>
      simp only [if_true, Bool.true_eq_false, iff_false]
      rintro ⟨hRecord, _⟩
      exact hEnd.2.noRecord hRecord

theorem unowned_new (role : RepoRole) :
    Unowned "new" (withRole role) where
  noRecord := by simp [withRole]
  noRoles := by
    intro user
    simp [roleOn, Relational.KeyedTable.find?, withRole,
      oneRole]

/- Without the flags: the first push of `eve` is refused. -/
theorem autoCreates_iff_refused :
    ∃ steps outcome t,
      Solo (steady smallConfig)
          (firstPush smallConfig 0 "eve" "new" none "t" [[1]])
          (withRole .reader) steps outcome t ∧
        AutoCreates "eve" "new" (withRole .reader) outcome
          t := by
  rcases exists_firstPush smallConfig 0 "eve" "new" none "t"
    [[1]] (withRole .reader) with ⟨steps, outcome, t, hRun⟩
  refine ⟨steps, outcome, t, hRun, ?_⟩
  exact
    (autoCreates_iff smallConfig 0 "eve" "new" none "t" [[1]]
      (withRole .reader) t steps outcome
      (unowned_new .reader) rfl hRun).mpr rfl

/- A user with both flags. -/
def withCreator : TransferState :=
  { withRole .reader with
    db :=
      { users :=
          { rows :=
              [ { username := "ada"
                  passwordHash := ""
                  createdAt := 0
                  createdBy := "root"
                  active := true
                  lastLoginAt := none
                  isGlobalAdmin := true
                  canCreateRepos := true } ]
            distinct := by simp }
        roles := oneRole .reader
        foreignKeys := false } }

/- With them: it is refused as well. -/
theorem creator_refused :
    isProvisionable "new" = true ∧
      mayCreateRepos withCreator.db "ada" = true ∧
      Unowned "new" withCreator ∧
      ∃ steps outcome t,
        Solo (steady smallConfig)
            (firstPush smallConfig 0 "ada" "new" none "t"
              [[1]])
            withCreator steps outcome t ∧
          Refused outcome ∧
          "new" ∉ t.repos ∧
          roleOn t.db "ada" "new" = none ∧
          ¬ AutoCreates "ada" "new" withCreator outcome t := by
  have hMay : mayCreateRepos withCreator.db "ada" = true := by
    decide
  have hUnowned : Unowned "new" withCreator :=
    ⟨(unowned_new .reader).noRecord,
      (unowned_new .reader).noRoles⟩
  refine ⟨by decide, hMay, hUnowned, ?_⟩
  rcases exists_firstPush smallConfig 0 "ada" "new" none "t"
    [[1]] withCreator with ⟨steps, outcome, t, hRun⟩
  have hEnd :=
    ends_firstPush "ada" none "t" [[1]] hUnowned rfl
      steps outcome t hRun
  have hNoRecord := hEnd.2.noRecord
  refine
    ⟨steps, outcome, t, hRun, hEnd.1, hNoRecord,
      hEnd.2.noRoles "ada", ?_⟩
  unfold AutoCreates
  rw [hMay, if_pos rfl]
  rintro ⟨hRecord, _⟩
  exact hNoRecord hRecord

end FirstPush

end Transfer
