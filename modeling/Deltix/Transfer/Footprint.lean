import Deltix.Transfer.TransferSystem

/-
  Which operations the programs of the transfer system
  perform.  The quiet ones create no job, settle no sync,
  touch no file by name and give no session an identity; the
  mild ones create no job and give no session an identity;
  the tame ones touch no job, no session and no file but to
  read it; the light ones also requeue and list jobs, make
  directories and open sinks; the calm ones only ask the
  user and versioning contexts.  The modest ones leave the
  jobs to the worker: they claim and mark none, and create
  staged ones.

  Key definitions include:
    * `Quiet`
    * `Mild`
    * `Tame`
    * `Light`
    * `Calm`
    * `Prepares`
    * `Modest`

  Key theorems include:
    * `tame_consumeTicket`
    * `prepares_onBeforePush`
    * `claiming_claimNextEligible`
    * `filing_copyToNas`
    * `mild_processNext`
    * `mild_serveCall`
    * `modest_push`
    * `modest_serveCall`
-/

------------------------------------------------------------
-- Kinds Of Operations
------------------------------------------------------------

namespace Transfer

open Auth Concurrency Storage

variable {op : TransferOp} {config : TransferConfig}

def Quiet : TransferOp → Prop
  | .jobs (.create _) => False
  | .jobs (.markFailed _ _ _) => False
  | .files (.rm _) => False
  | .files (.copyFile _ _) => False
  | .files (.rename _ _) => False
  | .files (.unlink _) => False
  | .session _ (.ticketConsumed _ _) => False
  | _ => True

def Mild : TransferOp → Prop
  | .jobs (.create _) => False
  | .session _ (.ticketConsumed _ _) => False
  | _ => True

/- What the worker does besides statements on the jobs. -/
def Filing : TransferOp → Prop
  | .now => True
  | .randomText => True
  | .files _ => True
  | _ => False

/- The statements by which the worker claims a job. -/
def Claiming : TransferOp → Prop
  | .jobs (.create _) => False
  | .jobs (.markFailed _ _ _) => False
  | .jobs _ => True
  | _ => False

def Calm : TransferOp → Prop
  | .now => True
  | .randomText => True
  | .users _ => True
  | .repos _ => True
  | _ => False

/- What a push does before it commits. -/
def Prepares : TransferOp → Prop
  | .repos (.recordPush _ _ _ _ _) => False
  | op => Calm op

def Tame : TransferOp → Prop
  | .jobs _ => False
  | .session _ _ => False
  | .files (.stat _) => True
  | .files (.readFile _) => True
  | .files _ => False
  | _ => True

def Light : TransferOp → Prop
  | .jobs (.requeueDeadLetter _) => True
  | .jobs .listDeadLetter => True
  | .files (.mkdir _) => True
  | .session _ .openSink => True
  | op => Tame op

def Modest (config : TransferConfig) : TransferOp → Prop
  | .jobs (.create job) =>
      ∃ jobId started preparation,
        job = stagedJob config jobId started preparation
  | .jobs (.claim _ _) => False
  | .jobs (.markSynced _) => False
  | .jobs (.markFailed _ _ _) => False
  | _ => True

theorem tame_of_calm
    (hCalm : Calm op) :
    Tame op := by
  unfold Calm at hCalm
  split at hCalm
  all_goals trivial

theorem calm_of_prepares
    (hPrepares : Prepares op) :
    Calm op := by
  unfold Prepares at hPrepares
  split at hPrepares
  · exact hPrepares.elim
  · exact hPrepares

theorem quiet_of_tame
    (hTame : Tame op) :
    Quiet op := by
  unfold Tame at hTame
  split at hTame
  all_goals first
    | exact hTame.elim
    | trivial
    | skip
  unfold Quiet
  split <;> simp_all

theorem light_of_tame
    (hTame : Tame op) :
    Light op := by
  unfold Light
  split
  all_goals trivial

theorem quiet_of_light
    (hLight : Light op) :
    Quiet op := by
  unfold Light at hLight
  split at hLight
  all_goals first
    | exact quiet_of_tame hLight
    | trivial

theorem modest_of_light
    (hLight : Light op) :
    Modest config op := by
  unfold Light at hLight
  split at hLight
  all_goals first
    | trivial
    | skip
  unfold Tame at hLight
  split at hLight
  all_goals first
    | exact hLight.elim
    | trivial
    | skip
  unfold Modest
  split <;> simp_all

theorem modest_of_tame
    (hTame : Tame op) :
    Modest config op :=
  modest_of_light (light_of_tame hTame)

theorem quiet_of_calm
    (hCalm : Calm op) :
    Quiet op :=
  quiet_of_tame (tame_of_calm hCalm)

theorem mild_of_filing
    (hFiling : Filing op) :
    Mild op := by
  cases op with
  | files statement => trivial
  | now => trivial
  | randomText => trivial
  | _ => exact hFiling.elim

theorem mild_of_claiming
    (hClaiming : Claiming op) :
    Mild op := by
  cases op with
  | jobs statement =>
      cases statement with
      | create job => exact hClaiming.elim
      | _ => trivial
  | _ => exact hClaiming.elim

theorem mild_of_quiet
    (hQuiet : Quiet op) :
    Mild op := by
  unfold Quiet at hQuiet
  unfold Mild
  split at hQuiet
  all_goals first
    | exact hQuiet.elim
    | trivial
    | skip
  split <;> simp_all

variable {cond : TransferOp → Prop}

theorem only_answered
    {ε α : Type}
    {toError : ε → TransferError}
    (result : Except ε α) :
    (answered toError result : TransferProgram α).Only
      cond := by
  cases result
  · exact Async.only_threw _
  · exact Async.only_returned _

theorem only_users
    {statement : UserStatement}
    (hCond : cond (.users statement)) :
    (users statement).Only cond :=
  Async.only_bind (Async.only_call.mpr hCond) only_answered

theorem only_tickets
    {statement : TicketStatement}
    (hCond : cond (.tickets statement)) :
    (tickets statement).Only cond :=
  Async.only_bind (Async.only_call.mpr hCond) only_answered

theorem only_jobs
    {statement : JobStatement}
    (hCond : cond (.jobs statement)) :
    (jobs statement).Only cond :=
  Async.only_bind (Async.only_call.mpr hCond) only_answered

theorem only_files
    {statement : FileStatement}
    (hCond : cond (.files statement)) :
    (files statement).Only cond :=
  Async.only_bind (Async.only_call.mpr hCond) only_answered

theorem only_repos
    {statement : RepoStatement}
    (hCond : cond (.repos statement)) :
    (repos statement).Only cond :=
  Async.only_bind (Async.only_call.mpr hCond) only_answered

theorem only_quietly
    {program : TransferProgram Unit}
    (hOnly : program.Only cond) :
    (quietly program).Only cond :=
  Async.only_catchError hOnly fun _ => Async.only_returned ()

theorem tame_users (statement : UserStatement) :
    (users statement).Only Tame :=
  only_users trivial

theorem tame_tickets (statement : TicketStatement) :
    (tickets statement).Only Tame :=
  only_tickets trivial

theorem tame_now : now.Only Tame :=
  Async.only_call.mpr trivial

variable {config : TransferConfig}
variable {call : TransferCall}

theorem tame_issueTicket
    (username : String)
    (operation : TransferOperation)
    (repo : String)
    (syncOptions : Option PushTicketSyncOptions) :
    (issueTicket config username operation repo
      syncOptions).Only Tame := by
  apply Async.only_bind (Async.only_call.mpr trivial)
  intro id
  apply Async.only_bind tame_now
  intro issuedAt
  apply Async.only_bind tame_now
  intro current
  exact Async.only_bind (tame_tickets _) fun _ => trivial

theorem tame_assertRole
    (username : String)
    (operation : TransferOperation)
    (repo : String) :
    (assertRoleStillSufficient username operation repo).Only
      Tame :=
  Async.only_bind (tame_users _) fun _ => Async.only_ensure

theorem tame_preCheck (ticketId operation repo : String) :
    (preCheck ticketId operation repo).Only Tame := by
  apply Async.only_bind (tame_tickets _)
  intro found
  cases found with
  | none => trivial
  | some ticket =>
      dsimp only
      split
      · exact tame_assertRole _ _ _
      · trivial

theorem tame_consumeTicket
    (ticketId operation repo : String) :
    (consumeTicket ticketId operation repo).Only Tame := by
  apply Async.only_bind tame_now
  intro current
  apply Async.only_bind (tame_preCheck _ _ _)
  intro _
  apply Async.only_bind (tame_tickets _)
  intro activated
  apply Async.only_bind (tame_tickets _)
  intro found
  cases found with
  | none => trivial
  | some ticket => cases activated <;> trivial

theorem tame_renewTicket (ticketId : String) :
    (renewTicket config ticketId).Only Tame := by
  apply Async.only_bind tame_now
  intro current
  have hPreRenew : (preRenew ticketId).Only Tame := by
    apply Async.only_bind (tame_tickets _)
    intro found
    cases found with
    | none => trivial
    | some ticket => exact tame_assertRole _ _ _
  apply Async.only_bind hPreRenew
  intro _
  apply Async.only_bind (tame_tickets _)
  intro renewed
  cases renewed with
  | true => trivial
  | false =>
      apply Async.only_bind (tame_tickets _)
      intro found
      cases found with
      | none => trivial
      | some ticket =>
          dsimp only
          split <;> trivial

theorem tame_closeTicket (ticketId : String) :
    (closeTicket ticketId).Only Tame :=
  Async.only_bind (tame_tickets _)
    fun _ => Async.only_ensure

/- A grant asks the clock and the user store. -/
theorem only_grantRepoRole
    (hNow : cond .now)
    (hUsers : ∀ statement, cond (.users statement))
    (username repoId : String)
    (role : RepoRole)
    (grantedBy : String) :
    (grantRepoRole config username repoId role
      grantedBy).Only cond := by
  have hUser :
      (assertUserExists config username).Only cond := by
    apply Async.only_bind (only_users (hUsers _))
    intro user
    cases user with
    | none => exact Async.only_ensure
    | some user => trivial
  apply Async.only_bind hUser
  intro _
  apply Async.only_bind (Async.only_call.mpr hNow)
  intro grantedAt
  exact only_users (hUsers _)

theorem only_canUserCreateRepos
    (hUsers : ∀ statement, cond (.users statement))
    (username : String) :
    (canUserCreateRepos username).Only cond := by
  apply Async.only_bind (only_users (hUsers _))
  intro user
  cases user <;> trivial

theorem tame_revokeRepoRole (username repoId : String) :
    (revokeRepoRole username repoId).Only Tame :=
  Async.only_bind (tame_users _)
    fun _ => Async.only_ensure

theorem prepares_autoCreateRepo (repo username : String) :
    (autoCreateRepo config repo username).Only Prepares := by
  apply Async.only_bind (only_repos trivial)
  intro existing
  split
  · apply
      Async.only_bind
        (only_canUserCreateRepos (fun _ => trivial) _)
    intro allowed
    apply Async.only_bind Async.only_ensure
    intro _
    apply Async.only_bind (only_repos trivial)
    intro _
    exact
      only_grantRepoRole trivial (fun _ => trivial) _ _ _ _
  · trivial

theorem prepares_validateSync
    (started : PushFinish)
    (dryRun : Bool) :
    (validateSync started dryRun).Only Prepares := by
  apply Async.only_bind (only_repos trivial)
  intro shouldValidateSync
  cases shouldValidateSync with
  | false => trivial
  | true => exact only_repos trivial

theorem prepares_onBeforePush (started : PushFinish) :
    (onBeforePush config started).Only Prepares := by
  apply Async.only_bind (prepares_autoCreateRepo _ _)
  intro _
  apply Async.only_bind (prepares_validateSync _ _)
  intro resolvedTables
  trivial

theorem tame_pull (ticketId repo : String) :
    (pull config ticketId repo).Only Tame := by
  have hClose := only_quietly (tame_closeTicket ticketId)
  have hStat :
      (tryCatch (files (.stat (pullPath config repo)))
        fun _ => do
          quietly (closeTicket ticketId)
          throw (.pullNotFound repo)).Only Tame :=
    Async.only_catchError (only_files trivial) fun _ =>
      Async.only_bind hClose fun _ => trivial
  have hRead :
      (tryCatch (files (.readFile (pullPath config repo)))
        fun error => do
          quietly (closeTicket ticketId)
          throw error).Only Tame :=
    Async.only_catchError (only_files trivial) fun _ =>
      Async.only_bind hClose fun _ => trivial
  have hSynced :
      (readSynced config ticketId repo).Only Tame := by
    apply Async.only_bind hStat
    intro _
    apply Async.only_bind hRead
    intro content
    exact Async.only_bind hClose fun _ => trivial
  have hStream :
      (stream config ticketId repo).Only Tame := by
    apply Async.only_bind
    · exact Async.only_catchError
        (tame_consumeTicket _ _ _) fun _ => trivial
    · intro _
      exact hSynced
  exact Async.only_catchError
    (Async.only_bind hStream fun _ => trivial)
    fun _ => trivial

theorem tame_heartbeat (ticketId : String) :
    (heartbeat config ticketId).Only Tame :=
  Async.only_catchError
    (Async.only_bind (tame_renewTicket _) fun _ => trivial)
    fun _ => trivial

theorem tame_postPushTicket
    (caller : Option String)
    (body : Option IssueTicketBody) :
    (postPushTicket config caller body).Only Tame := by
  cases caller with
  | none => trivial
  | some username =>
      cases body with
      | none => trivial
      | some body =>
          apply Async.only_bind (tame_users _)
          intro role
          split
          · exact Async.only_bind
              (tame_issueTicket _ _ _ _) fun _ => trivial
          · trivial

theorem tame_postSessionClose
    (caller ticketId : Option String) :
    (postSessionClose caller ticketId).Only Tame := by
  cases caller with
  | none => trivial
  | some username =>
      cases ticketId with
      | none => trivial
      | some ticketId =>
          apply Async.only_catchError
          · exact Async.only_bind (tame_closeTicket _)
              fun _ => trivial
          · intro error
            cases error <;> trivial

------------------------------------------------------------
-- The Worker
------------------------------------------------------------

theorem claiming_claimFirst
    (current : Nat)
    (candidates : List String) :
    (claimFirst current candidates).Only Claiming := by
  induction candidates with
  | nil => trivial
  | cons jobId rest ih =>
      apply Async.only_bind (only_jobs trivial)
      intro claimed
      cases claimed with
      | true =>
          exact Async.only_bind (only_jobs trivial)
            fun _ => trivial
      | false => exact ih

theorem claiming_claimNextEligible
    (current attempts : Nat) :
    (claimNextEligible current attempts).Only Claiming := by
  induction attempts with
  | zero => trivial
  | succ attempts ih =>
      apply Async.only_bind (only_jobs trivial)
      intro candidates
      split
      · trivial
      · apply Async.only_bind (claiming_claimFirst _ _)
        intro claimed
        cases claimed with
        | none => exact ih
        | some job => trivial

theorem filing_copyToNas (stagingPath repo : String) :
    (copyToNas config stagingPath repo).Only Filing := by
  apply Async.only_bind (only_files trivial)
  intro _
  apply Async.only_bind (Async.only_call.mpr trivial)
  intro uuid
  apply Async.only_catchError
  · apply Async.only_bind (only_files trivial)
    intro _
    apply Async.only_bind (only_files trivial)
    intro checksum
    apply Async.only_bind (only_files trivial)
    intro _
    exact Async.only_bind (only_files trivial)
      fun _ => trivial
  · intro error
    apply Async.only_bind
    · exact Async.only_catchError (only_files trivial)
        fun _ => trivial
    · intro _
      trivial

theorem mild_processNext :
    (processNext config).Only Mild := by
  apply Async.only_bind (Async.only_call.mpr trivial)
  intro current
  apply Async.only_bind
  · exact Async.only_mono (fun _ => mild_of_claiming)
      (claiming_claimNextEligible _ _)
  · intro job
    cases job with
    | none => trivial
    | some job =>
        apply Async.only_bind
        · apply Async.only_catchError
          · apply Async.only_bind
            · exact Async.only_mono (fun _ => mild_of_filing)
                (filing_copyToNas _ _)
            intro checksum
            apply Async.only_bind Async.only_ensure
            intro _
            exact Async.only_bind (only_jobs trivial)
              fun _ => trivial
          · intro error
            apply Async.only_bind (Async.only_call.mpr trivial)
            intro current
            exact Async.only_bind (only_jobs trivial)
              fun _ => trivial
        · intro _
          trivial

theorem mild_removeStaging (removal : Removal) :
    (removeStaging removal).Only Mild := by
  cases removal with
  | none => trivial
  | some path => exact only_files trivial

theorem mild_pushError (stream : Nat) :
    (pushError stream).Only Mild :=
  Async.only_bind (Async.only_call.mpr trivial)
    mild_removeStaging

theorem mild_pushCancelled (stream : Nat) :
    (pushCancelled stream).Only Mild :=
  Async.only_bind (Async.only_call.mpr trivial)
    mild_removeStaging

/- The calls that neither push nor deal with jobs. -/
def TameCall : TransferCall → Prop
  | .push _ _ => False
  | .pushError _ => False
  | .pushCancelled _ => False
  | .processNext => False
  | .retryDeadLetter _ => False
  | .listDeadLetter => False
  | _ => True

/- The calls that no staging or synced file depends on. -/
def QuietCall : TransferCall → Prop
  | .push _ _ => False
  | .pushError _ => False
  | .pushCancelled _ => False
  | .processNext => False
  | _ => True

theorem tame_serveCall
    (hCall : TameCall call)
    (i : Nat) :
    (serveCall config i call).Only Tame := by
  cases call with
  | push messages ends => exact hCall.elim
  | pushError stream => exact hCall.elim
  | pushCancelled stream => exact hCall.elim
  | processNext => exact hCall.elim
  | retryDeadLetter jobId => exact hCall.elim
  | listDeadLetter => exact hCall.elim
  | postPushTicket caller body =>
      exact tame_postPushTicket caller body
  | postSessionClose caller ticketId =>
      exact tame_postSessionClose caller ticketId
  | pull ticketId repo =>
      exact Async.only_bind (tame_pull ticketId repo)
        fun _ => trivial
  | heartbeat ticketId =>
      exact Async.only_bind (tame_heartbeat ticketId)
        fun _ => trivial
  | grantRepoRole username repoId role grantedBy =>
      exact Async.only_bind
        (only_grantRepoRole trivial (fun _ => trivial)
          username repoId role grantedBy)
        fun _ => trivial
  | revokeRepoRole username repoId =>
      exact Async.only_bind
        (tame_revokeRepoRole username repoId)
        fun _ => trivial
  | users statement =>
      exact Async.only_bind (tame_users statement)
        fun _ => trivial
  | elapse ms =>
      exact Async.only_bind (Async.only_call.mpr trivial)
        fun _ => trivial

theorem light_serveCall
    (hCall : QuietCall call)
    (i : Nat) :
    (serveCall config i call).Only Light := by
  by_cases hTame : TameCall call
  · exact Async.only_mono (fun _ => light_of_tame)
      (tame_serveCall hTame i)
  · cases call with
    | push messages ends => exact hCall.elim
    | pushError stream => exact hCall.elim
    | pushCancelled stream => exact hCall.elim
    | processNext => exact hCall.elim
    | retryDeadLetter jobId =>
        exact Async.only_bind (only_jobs trivial)
          fun _ => trivial
    | listDeadLetter =>
        exact Async.only_bind (only_jobs trivial)
          fun _ => trivial
    | _ => exact absurd trivial hTame

theorem quiet_serveCall
    (hCall : QuietCall call)
    (i : Nat) :
    (serveCall config i call).Only Quiet :=
  Async.only_mono (fun _ => quiet_of_light)
    (light_serveCall hCall i)

/- Every call but a push performs mild operations only. -/
theorem mild_serveCall
    (hCall : ∀ messages ends, call ≠ .push messages ends)
    (i : Nat) :
    (serveCall config i call).Only Mild := by
  by_cases hQuiet : QuietCall call
  · exact Async.only_mono (fun _ => mild_of_quiet)
      (quiet_serveCall hQuiet i)
  · cases call with
    | push messages ends =>
        exact absurd rfl (hCall messages ends)
    | pushError stream =>
        exact Async.only_bind (mild_pushError stream)
          fun _ => trivial
    | pushCancelled stream =>
        exact Async.only_bind (mild_pushCancelled stream)
          fun _ => trivial
    | processNext =>
        exact Async.only_bind mild_processNext fun _ => trivial
    | _ => exact absurd trivial hQuiet

------------------------------------------------------------
-- Pushes And Jobs
------------------------------------------------------------

theorem modest_session
    (stream : Nat)
    (step : SessionStep) :
    (session stream step).Only (Modest config) :=
  Async.only_call.mpr trivial

theorem modest_removeStaging (removal : Removal) :
    (removeStaging removal).Only (Modest config) := by
  cases removal with
  | none => trivial
  | some path => exact only_files trivial

theorem modest_finishAbort
    (stream : Nat)
    (status : GrpcStatus)
    (removal : Removal) :
    (finishAbort stream status removal).Only
      (Modest config) := by
  apply Async.only_bind (modest_removeStaging removal)
  intro _
  apply Async.only_bind (modest_session stream _)
  intro ended
  split <;> trivial

theorem modest_markAborted
    (stream : Nat)
    (status : GrpcStatus) :
    (markAborted stream status).Only (Modest config) := by
  apply Async.only_bind (modest_session stream _)
  intro marked
  cases marked with
  | already => trivial
  | aborting removal => exact modest_finishAbort _ _ _

theorem modest_onHeader
    (stream : Nat)
    (header : PushHeader) :
    (onHeader stream header).Only (Modest config) := by
  apply Async.only_bind
  · exact Async.only_catchError
      (Async.only_mono (fun _ => modest_of_tame)
        (tame_consumeTicket _ _ _)) fun _ => trivial
  · intro ticket
    apply Async.only_bind (modest_session stream _)
    intro path
    apply Async.only_bind (only_files trivial)
    intro _
    exact modest_session stream _

theorem modest_processMessage
    (stream : Nat)
    (message : PushMessage) :
    (processMessage stream message).Only (Modest config) := by
  apply Async.only_catchError
  · apply Async.only_bind
    · cases message <;> exact modest_session stream _
    · intro received
      cases received with
      | ignored => trivial
      | accepted => trivial
      | aborting status removal =>
          exact Async.only_bind (modest_finishAbort _ _ _)
            fun _ => trivial
      | rejected reason => trivial
      | failed => trivial
      | consuming header => exact modest_onHeader _ _
  · intro error
    exact Async.only_bind (modest_markAborted _ _)
      fun _ => trivial

theorem modest_closeQuietly (ticketId : String) :
    (quietly (closeTicket ticketId)).Only (Modest config) :=
  only_quietly
    (Async.only_mono (fun _ => modest_of_tame)
      (tame_closeTicket ticketId))

/- The only job a push creates is a staged one. -/
theorem modest_finish (started : PushFinish) :
    (finish config started).Only (Modest config) := by
  apply Async.only_bind
  · exact
      Async.only_mono
        (fun _ hPrepares =>
          modest_of_tame
            (tame_of_calm (calm_of_prepares hPrepares)))
        (prepares_onBeforePush started)
  · intro preparation
    unfold commitPush
    dsimp only
    split
    · exact Async.only_bind (modest_closeQuietly _)
        fun _ => trivial
    · apply Async.only_bind (Async.only_call.mpr trivial)
      intro jobId
      apply Async.only_bind
        (only_jobs ⟨jobId, started, preparation, rfl⟩)
      intro _
      apply Async.only_bind (modest_closeQuietly _)
      intro _
      exact Async.only_bind
        (only_quietly (only_repos trivial)) fun _ => trivial

theorem modest_finalizeStream (stream : Nat) :
    (finalizeStream config stream).Only (Modest config) := by
  apply Async.only_bind (modest_session stream _)
  intro ended
  cases ended with
  | answered pending => trivial
  | aborting status removal =>
      exact modest_finishAbort _ _ _
  | rejected reason => exact modest_markAborted _ _
  | finishing started =>
      exact Async.only_catchError
        (Async.only_bind (modest_finish started)
          fun _ => trivial)
        fun _ => modest_markAborted _ _

theorem modest_push
    (stream : Nat)
    (messages : List PushMessage)
    (ends : Bool) :
    (push config stream messages ends).Only
      (Modest config) := by
  apply Async.only_bind
  · exact Async.only_forEach fun message _ =>
      modest_processMessage stream message
  · intro _
    cases ends with
    | true => exact modest_finalizeStream stream
    | false => trivial

/- Only the worker claims and marks jobs. -/
theorem modest_serveCall
    (hCall : call ≠ .processNext)
    (i : Nat) :
    (serveCall config i call).Only (Modest config) := by
  by_cases hQuiet : QuietCall call
  · exact Async.only_mono (fun _ => modest_of_light)
      (light_serveCall hQuiet i)
  · cases call with
    | processNext => exact absurd rfl hCall
    | push messages ends =>
        exact Async.only_bind (modest_push _ _ _)
          fun _ => trivial
    | pushError stream =>
        apply Async.only_bind
        · exact Async.only_bind (modest_session _ _)
            modest_removeStaging
        · intro _
          trivial
    | pushCancelled stream =>
        apply Async.only_bind
        · exact Async.only_bind (modest_session _ _)
            modest_removeStaging
        · intro _
          trivial
    | _ => exact absurd trivial hQuiet

end Transfer
