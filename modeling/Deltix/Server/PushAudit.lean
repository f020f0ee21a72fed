import Deltix.Server.PushHooks
import Deltix.Transfer.Footprint

/-
  The audit row of a push and the commit that holds it.

  A recording stages the tables that the push resolved, and
  the log of the pushes is one of them only if the push asked
  for it.

  Key definitions include:
    * `PushLog`
    * `Audited`
    * `Takes`

  Key theorems include:
    * `audited_iff`
    * `row_left_behind`
-/

namespace Server

open Concurrency Relational Transfer Versioning

/-
  What a table that logs pushes says, and which of them takes
  the rows of an author: the binary adds a row that is not
  there yet, or refuses it for the columns of the table.
-/
structure PushLog (config : DoltConfig) where
  logs : (data jobId : String) → Prop
  accepts : (table : Table) → (author : String) → Prop
  logs_inserted :
    ∀ schema data params pushedAt next,
      config.inserted schema data (pushRow params pushedAt) =
          .ok next →
        logs next params.jobId
  accepts_inserted :
    ∀ schema data params pushedAt next,
      config.inserted schema data (pushRow params pushedAt) =
          .ok next →
        accepts ⟨schema, data⟩ params.username
  inserted :
    ∀ schema data params pushedAt,
      uuidRe params.jobId = true →
        hexRe params.checksum = true →
        accepts ⟨schema, data⟩ params.username →
        ¬ logs data params.jobId →
        ∃ next,
          config.inserted schema data
              (pushRow params pushedAt) =
            .ok next
  emptied :
    ∀ jobId, uuidRe jobId = true →
      ¬ logs (config.emptied pushLogSchema) jobId

variable {config : DoltConfig}

/- The log of some tables has a row for the job. -/
def Logged
    (log : PushLog config)
    (tables : Tables)
    (jobId : String) : Prop :=
  ∃ table,
    tables.find pushLogTable = some table ∧
      log.logs table.data jobId

/- No table of the repository has seen the job. -/
structure Unlogged
    (log : PushLog config)
    (repo : DoltRepo)
    (jobId : String) : Prop where
  working : ¬ Logged log repo.working jobId
  staged : ¬ Logged log repo.staged jobId
  head : ¬ Logged log repo.headTables jobId

/- There is one new commit, and it has the row of the job. -/
def Audited
    (log : PushLog config)
    (jobId : String)
    (before after : DoltRepo) : Prop :=
  ∃ commit,
    before.commits.insert? commit = some after.commits ∧
      after.heads after.checkedOut = some commit ∧
      Logged log commit.tables jobId

/- A push that covers these tables finds a repository that
   takes its row, and the row is among what is added. -/
structure Takes
    (log : PushLog config)
    (repo : DoltRepo)
    (author : String)
    (tables : Option (List String)) : Prop where
  idle : repo.merging = none
  accepted : log.accepts (pushLogOf config repo) author
  listed : addsLog tables = true
  known : knowsTables repo tables = true

------------------------------------------------------------
-- The Row In The Commit
------------------------------------------------------------

variable {log : PushLog config} {params : PushCommitParams}
variable {before after : DoltRepo}
variable {jobId : String} {steps : List VersioningTaken}

theorem not_audited_of_commits
    (hCommits : after.commits = before.commits) :
    ¬ Audited log jobId before after := by
  rintro ⟨commit, hInsert, _, _⟩
  rw [hCommits] at hInsert
  rcases KeyedTable.insert?_eq_some_iff.mp hInsert with
    ⟨_, hRows⟩
  have hLength := congrArg List.length hRows
  simp at hLength

/- The log as it was staged decides. -/
theorem audited_iff_of_recorded
    (hRecorded : Recorded config params before after) :
    Audited log params.jobId before after ↔
      addsLog params.resolvedTables = true ∨
        Logged log before.staged params.jobId := by
  rcases hRecorded with
    ⟨pushedAt, data, commit, hRow, _, _, hTable, hInsert,
      hHead⟩
  have hLogged :
      Logged log commit.tables params.jobId ↔
        addsLog params.resolvedTables = true ∨
          Logged log before.staged params.jobId := by
    unfold Logged
    rw [hTable]
    unfold stagedLog
    by_cases hAdds : addsLog params.resolvedTables = true
    · rw [if_pos hAdds]
      constructor
      · intro _
        exact Or.inl hAdds
      · intro _
        exact ⟨_, rfl, log.logs_inserted _ _ _ _ _ hRow⟩
    · rw [if_neg hAdds]
      constructor
      · exact Or.inr
      · intro hEither
        exact hEither.resolve_left hAdds
  rw [← hLogged]
  constructor
  · rintro ⟨other, _, hOther, hOtherLogged⟩
    rw [hHead] at hOther
    cases hOther
    exact hOtherLogged
  · intro hCommitLogged
    exact ⟨commit, hInsert, hHead, hCommitLogged⟩

/- The log that a row goes to has not seen the job. -/
theorem not_logs_pushLogOf
    (hUuid : uuidRe jobId = true)
    (hFresh : Unlogged log before jobId) :
    ¬ log.logs (pushLogOf config before).data jobId := by
  unfold pushLogOf
  cases hTable : before.working.find pushLogTable with
  | none => exact log.emptied jobId hUuid
  | some table =>
      intro hLogs
      exact hFresh.working ⟨table, hTable, hLogs⟩

theorem takes_of_audited
    (hFresh : Unlogged log before params.jobId)
    (hRecorded : Recorded config params before after)
    (hAudited : Audited log params.jobId before after) :
    Takes log before params.username params.resolvedTables := by
  have hListed :=
    ((audited_iff_of_recorded hRecorded).mp
      hAudited).resolve_right hFresh.staged
  rcases hRecorded with
    ⟨pushedAt, data, commit, hRow, hKnown, hIdle, _⟩
  constructor
  · exact hIdle
  · exact log.accepts_inserted _ _ _ _ _ hRow
  · exact hListed
  · exact hKnown

/- A repository that takes the row gives no reason not to. -/
theorem not_refused_of_takes
    (hUuid : uuidRe params.jobId = true)
    (hHex : hexRe params.checksum = true)
    (hFresh : Unlogged log before params.jobId)
    (hNone : ∀ step ∈ steps, ¬ FailedInvocation step)
    (hTakes :
      Takes log before params.username params.resolvedTables) :
    ¬ Refused config params before steps := by
  intro hRefused
  cases hRefused with
  | failed hFailing =>
      rcases hFailing with ⟨step, hMember, hFails⟩
      exact hNone step hMember hFails
  | shape hShape =>
      rw [hUuid, hHex] at hShape
      cases hShape
  | row hRejected =>
      rcases hRejected with ⟨pushedAt, error, hError⟩
      rcases
        log.inserted (pushLogOf config before).schema
          (pushLogOf config before).data params pushedAt hUuid
          hHex hTakes.accepted
          (not_logs_pushLogOf hUuid hFresh) with
        ⟨next, hNext⟩
      unfold rowInserted at hError
      rw [hNext] at hError
      cases hError
  | tables hUnknown =>
      rw [hTakes.known] at hUnknown
      cases hUnknown
  | merging hStuck =>
      rw [hTakes.idle] at hStuck
      cases hStuck
  | nothing hSame =>
      rcases hSame with ⟨pushedAt, data, hRow, hHead⟩
      unfold stagedLog at hHead
      rw [if_pos hTakes.listed] at hHead
      apply hFresh.head
      exact
        ⟨_, hHead.symm, log.logs_inserted _ _ _ _ _ hRow⟩

/- A recording that is asked for, without failures. -/
theorem audited_iff_takes
    {config : VersioningConfig}
    {log : PushLog config.dolt}
    {s t : VersioningState}
    {lookup : VersioningChoice}
    {invocations : List VersioningChoice}
    {outcome : Except VersioningError (Option String)}
    (hRepo : params.repo = config.repoId)
    (hUuid : uuidRe params.jobId = true)
    (hHex : hexRe params.checksum = true)
    (hFresh : Unlogged log s.repo params.jobId)
    (hNone : ∀ choice ∈ invocations, choice.fails = false)
    (hRun :
      solo? (VersioningOp.exec config) (recordPush params) s
          (lookup :: invocations) =
        some (steps, outcome, t)) :
    Audited log params.jobId s.repo t.repo ↔
      lookup.fails = false ∧
        Takes log s.repo params.username
          params.resolvedTables := by
  have hChoices := choices_of_solo? hRun
  rcases
    ends_recordPush hRepo steps outcome t
      (solo_of_solo? hRun) with
    ⟨asked, rest, hSteps, _, hEnds⟩
  rw [hSteps, List.map_cons, List.cons_prefix_cons]
    at hChoices
  rcases hChoices with ⟨hAsked, hRest⟩
  have hNoneFails :
      ∀ step ∈ rest, ¬ FailedInvocation step := by
    intro step hMember hFailed
    have hTaken :=
      hNone step.choice
        (hRest.subset (List.mem_map_of_mem hMember))
    rw [hFailed.2] at hTaken
    cases hTaken
  rw [hAsked] at hEnds
  rcases hEnds with
    ⟨hFails, _, hSame⟩ | ⟨hAnswers, hRecorded | hRefused⟩
  · constructor
    · intro hAudited
      have hCommits : t.repo.commits = s.repo.commits := by
        rw [hSame]
      exact absurd hAudited (not_audited_of_commits hCommits)
    · rintro ⟨hAnswers, _⟩
      rw [hFails] at hAnswers
      cases hAnswers
  · constructor
    · intro hAudited
      exact
        ⟨hAnswers, takes_of_audited hFresh hRecorded hAudited⟩
    · rintro ⟨_, hTakes⟩
      exact
        (audited_iff_of_recorded hRecorded).mpr
          (Or.inl hTakes.listed)
  · constructor
    · intro hAudited
      exact
        absurd hAudited (not_audited_of_commits hRefused.1)
    · rintro ⟨_, hTakes⟩
      exact
        absurd hRefused.2.2
          (not_refused_of_takes hUuid hHex hFresh hNoneFails
            hTakes)

------------------------------------------------------------
-- What A Push Prepares
------------------------------------------------------------

variable {config : ServerConfig} {s : ServerState}

/- What the repository is when a push is recorded. -/
def startOf
    (config : ServerConfig)
    (s : ServerState) : DoltRepo :=
  if Provisioned config s then s.versioning.repo
  else config.created

/- What a push has done before it commits. -/
def Early : TransferOp → Prop
  | .jobs _ => False
  | .repos (.recordPush _ _ _ _ _) => False
  | _ => True

theorem early_of_apart
    {op : TransferOp}
    (hApart : Apart op) :
    Early op := by
  unfold Apart at hApart
  split at hApart
  · exact hApart.elim
  · exact hApart.elim
  · unfold Early
    split <;> simp_all

theorem apart_closeTicket (ticketId : String) :
    (closeTicket ticketId).Only Apart :=
  Async.only_bind (only_tickets trivial)
    fun _ => Async.only_ensure

theorem early_of_prepares
    {op : TransferOp}
    (hPrepares : Prepares op) :
    Early op := by
  cases op with
  | jobs statement => exact hPrepares.elim
  | repos statement =>
      cases statement with
      | recordPush _ _ _ _ _ => exact hPrepares.elim
      | _ => trivial
  | _ => trivial

/- A program apart from the hooks leaves them alone. -/
theorem untouched_of_apart
    {α : Type}
    {program : TransferProgram α}
    {steps : List ServerTaken}
    {outcome : Except TransferError α}
    {t : ServerState}
    (hOnly : program.Only Apart)
    (hSolo :
      Solo (ServerOp.exec config) program s steps outcome t) :
    Untouched s t := by
  apply
    hSolo.relates Untouched (fun _ => ⟨rfl, rfl, rfl⟩)
      (fun _ _ _ => Untouched.trans)
  intro step hMember
  exact
    exec_apart (hSolo.only hOnly step hMember)
      (hSolo.performed step hMember)

theorem returns_of_apart
    {α : Type}
    {program : TransferProgram α}
    (hOnly : program.Only Apart) :
    Returns (ServerOp.exec config) program s
      fun _ t => Untouched s t := by
  intro steps value t hSolo
  exact untouched_of_apart hOnly hSolo

/- The repository is there, as it was or as it was made. -/
structure Begun
    (config : ServerConfig)
    (repoId : String)
    (s t : ServerState) : Prop where
  preference : t.preference = s.preference
  repo :
    repoId = config.versioning.repoId →
      Provisioned config t →
        t.versioning.repo = startOf config s

theorem Begun.untouched
    {repoId : String}
    {t u : ServerState}
    (hBegun : Begun config repoId s t)
    (hSame : Untouched t u) :
    Begun config repoId s u := by
  constructor
  · rw [hSame.preference, hBegun.preference]
  · intro hRepo hProvisioned
    rw [hSame.versioning]
    exact hBegun.repo hRepo (hSame.provisioned.mp hProvisioned)

theorem begun_refl (repoId : String) :
    Begun config repoId s s := by
  constructor
  · rfl
  · intro _ hProvisioned
    unfold startOf
    rw [if_pos hProvisioned]

theorem returns_autoCreateRepo
    (repoId username : String) :
    Returns (ServerOp.exec config)
      (autoCreateRepo config.transfer repoId username) s
      fun _ t => Begun config repoId s t := by
  apply returns_bind
  apply returns_bind
  apply returns_call
  intro choice answer next hExec
  rcases exec_get hExec with ⟨hSame, hFound⟩
  cases answer with
  | error reason => exact returns_threw _ _ _
  | ok existing =>
      apply returns_returned
      have hExisting := hFound existing rfl
      split
      · rename_i hCreates
        rw [Bool.and_eq_true, Bool.not_eq_true'] at hCreates
        apply returns_bind
        refine
          returns_mono
            (returns_of_apart
              (only_canUserCreateRepos (fun _ => trivial)
                username)) ?_
        intro allowed u hAllowed
        apply returns_bind
        apply returns_ensure
        intro _
        apply returns_bind
        apply returns_bind
        apply returns_call
        intro choice answer made hExec
        cases answer with
        | error reason => exact returns_threw _ _ _
        | ok _ =>
            apply returns_returned
            refine
              returns_mono
                (returns_of_apart
                  (only_grantRepoRole trivial
                    (fun _ => trivial) _ _ _ _)) ?_
            intro _ t hGranted
            apply Begun.untouched _ hGranted
            have hMade := exec_provision hExec rfl
            constructor
            · rw [hMade.1, hAllowed.preference,
                hSame.preference]
            · intro hRepo _
              have hMissing : ¬ Provisioned config s := by
                unfold Provisioned
                rw [← hRepo, ← hExisting, hCreates.1]
                exact Bool.false_ne_true
              unfold startOf
              rw [if_neg hMissing]
              exact hMade.2 hRepo
      · apply returns_returned
        exact (begun_refl repoId).untouched hSame

/- The tables that a push asks for, or the stored ones. -/
def requestOf
    (s : ServerState)
    (started : PushFinish) : Option (List String) :=
  requestedOf (s.preference started.repo)
    (started.syncOptions.bind PushTicketSyncOptions.tables)

/- The tables of a push are resolved from its request. -/
structure Prepared
    (config : ServerConfig)
    (started : PushFinish)
    (s : ServerState)
    (preparation : PushPreparation)
    (t : ServerState) : Prop where
  repo : preparation.repo = started.repo
  username : preparation.username = started.username
  begun : Begun config started.repo s t
  resolved :
    started.repo = config.versioning.repoId →
      Provisioned config t →
        ∃ requested,
          normalizeTables (requestOf s started) =
              .ok requested ∧
            SameTables requested preparation.resolvedTables

theorem returns_validateSync
    {started : PushFinish}
    {dryRun : Bool}
    {t : ServerState}
    (hBegun : Begun config started.repo s t) :
    Returns (ServerOp.exec config)
      (validateSync started dryRun) t
      fun resolved u =>
        Untouched t u ∧
          (started.repo = config.versioning.repoId →
            Provisioned config u →
              ∃ requested,
                normalizeTables (requestOf s started) =
                    .ok requested ∧
                  SameTables requested resolved) := by
  apply returns_bind
  apply returns_bind
  apply returns_call
  intro choice answer next hExec
  rcases exec_get hExec with ⟨hSame, hFound⟩
  cases answer with
  | error reason => exact returns_threw _ _ _
  | ok found =>
      apply returns_returned
      have hContains := hFound found rfl
      cases found with
      | false =>
          apply returns_returned
          refine ⟨hSame, ?_⟩
          intro hRepo hProvisioned
          have hThere := hSame.provisioned.mp hProvisioned
          unfold Provisioned at hThere
          rw [← hRepo, ← hContains] at hThere
          cases hThere
      | true =>
          apply returns_bind
          apply returns_call
          intro choice answer last hExec
          rcases exec_validate hExec with ⟨hLast, hResolved⟩
          subst hLast
          cases answer with
          | error reason => exact returns_threw _ _ _
          | ok resolved =>
              apply returns_returned
              refine ⟨hSame, ?_⟩
              intro _ _
              have hRequested := hResolved resolved rfl
              rw [hSame.preference, hBegun.preference]
                at hRequested
              exact hRequested

theorem returns_onBeforePush (started : PushFinish) :
    Returns (ServerOp.exec config)
      (onBeforePush config.transfer started) s
      fun preparation t =>
        Prepared config started s preparation t := by
  apply returns_bind
  refine
    returns_mono
      (returns_autoCreateRepo started.repo started.username) ?_
  intro _ t hBegun
  apply returns_bind
  refine returns_mono (returns_validateSync hBegun) ?_
  rintro resolvedTables u ⟨hSame, hResolved⟩
  apply returns_returned
  constructor
  · rfl
  · rfl
  · exact hBegun.untouched hSame
  · exact hResolved

------------------------------------------------------------
-- What A Push Records
------------------------------------------------------------

variable {log : PushLog config.versioning.dolt}
variable {steps : List ServerTaken}
variable {step : ServerTaken}
variable {requested resolved : Option (List String)}
variable {repo : DoltRepo} {started : PushFinish}
variable {t : ServerState} {preparation : PushPreparation}

def isRecord : TransferOp → Bool
  | .repos (.recordPush _ _ _ _ _) => true
  | _ => false

theorem isRecord_of_early
    {op : TransferOp}
    (hEarly : Early op) :
    isRecord op = false := by
  unfold isRecord
  split
  · exact hEarly.elim
  · rfl

def createdJob : ServerTaken → Option Storage.TransferJob
  | ⟨.jobs (.create job), _, _, .ok _, _⟩ => some job
  | _ => none

theorem createdJob_of_early
    (hEarly : Early step.op) :
    createdJob step = none := by
  unfold createdJob
  split
  · exact hEarly.elim
  · rfl

theorem createdJob_of_record
    {statement : RepoStatement}
    (hOp : step.op = .repos statement) :
    createdJob step = none := by
  unfold createdJob
  split
  · cases hOp
  · rfl

/- The push has created this job. -/
def CreatesJob
    (job : Storage.TransferJob)
    (steps : List ServerTaken) : Prop :=
  ∃ step ∈ steps, createdJob step = some job

/- No invocation of the recording fails by itself. -/
def NoneFails (steps : List ServerTaken) : Prop :=
  ∀ step ∈ steps,
    isRecord step.op = true →
      ∀ choice ∈ step.choice.invocations, choice.fails = false

/- The recording finds the row of the repository. -/
def LookedUp (steps : List ServerTaken) : Prop :=
  ∀ step ∈ steps,
    isRecord step.op = true →
      step.choice.lookup.fails = false

/- When the commit of a push has its row. -/
def PushAudited
    (log : PushLog config.versioning.dolt)
    (started : PushFinish)
    (s : ServerState)
    (steps : List ServerTaken)
    (t : ServerState) : Prop :=
  ∀ job,
    CreatesJob job steps →
      started.repo = config.versioning.repoId →
      Provisioned config t →
      uuidRe job.id = true →
      Unlogged log (startOf config s) job.id →
      NoneFails steps →
        (Audited log job.id (startOf config s)
            t.versioning.repo ↔
          LookedUp steps ∧
            ∃ requested,
              normalizeTables (requestOf s started) =
                  .ok requested ∧
                Takes log (startOf config s)
                  started.username requested)

theorem addsLog_congr
    (hSame : SameTables requested resolved) :
    addsLog resolved = addsLog requested := by
  cases requested with
  | none =>
      cases resolved with
      | none => rfl
      | some tables => exact hSame.elim
  | some requested =>
      cases resolved with
      | none => exact hSame.elim
      | some resolved =>
          have hEmpty : resolved = [] ↔ requested = [] := by
            rw [List.eq_nil_iff_forall_not_mem,
              List.eq_nil_iff_forall_not_mem]
            exact forall_congr' fun table =>
              not_congr (hSame table)
          have hLog := hSame pushLogTable
          rw [Bool.eq_iff_iff]
          simp only [addsLog, Bool.or_eq_true,
            decide_eq_true_eq, List.contains_iff_mem, hEmpty,
            hLog]

theorem knowsTables_congr
    (hSame : SameTables requested resolved) :
    knowsTables repo resolved = knowsTables repo requested := by
  cases requested with
  | none =>
      cases resolved with
      | none => rfl
      | some tables => exact hSame.elim
  | some requested =>
      cases resolved with
      | none => exact hSame.elim
      | some resolved =>
          rw [Bool.eq_iff_iff]
          unfold knowsTables
          rw [List.all_eq_true, List.all_eq_true]
          exact forall_congr' fun table =>
            imp_congr (hSame table) Iff.rfl

theorem takes_congr
    {author : String}
    (hSame : SameTables requested resolved) :
    Takes log repo author resolved ↔
      Takes log repo author requested := by
  have hAdds := addsLog_congr hSame
  have hKnows :
      knowsTables repo resolved = knowsTables repo requested :=
    knowsTables_congr hSame
  constructor
  · intro hTakes
    exact ⟨hTakes.idle, hTakes.accepted,
      hAdds ▸ hTakes.listed, hKnows ▸ hTakes.known⟩
  · intro hTakes
    exact ⟨hTakes.idle, hTakes.accepted,
      hAdds.symm ▸ hTakes.listed, hKnows.symm ▸ hTakes.known⟩

/- Steps before the first job do not matter. -/
theorem PushAudited.early
    {earlier : List ServerTaken}
    (hEarly : ∀ step ∈ earlier, Early step.op)
    (hPush : PushAudited log started s steps t) :
    PushAudited log started s (earlier ++ steps) t := by
  intro job hCreates hRepo hProvisioned hUuid hFresh hNone
  have hLater : CreatesJob job steps := by
    rcases hCreates with ⟨step, hMember, hStep⟩
    rcases List.mem_append.mp hMember with hBefore | hAfter
    · rw [createdJob_of_early (hEarly step hBefore)] at hStep
      cases hStep
    · exact ⟨step, hAfter, hStep⟩
  have hNoneLater : NoneFails steps := by
    intro step hMember
    exact hNone step (List.mem_append_right _ hMember)
  have hLooked : LookedUp (earlier ++ steps) ↔ LookedUp steps := by
    constructor
    · intro hAll step hMember
      exact hAll step (List.mem_append_right _ hMember)
    · intro hAll step hMember hRecord
      rcases List.mem_append.mp hMember with hBefore | hAfter
      · rw [isRecord_of_early (hEarly step hBefore)]
          at hRecord
        cases hRecord
      · exact hAll step hAfter hRecord
  rw [hLooked]
  exact
    hPush job hLater hRepo hProvisioned hUuid hFresh hNoneLater

/- Without a new job there is nothing to record. -/
theorem pushAudited_of_early
    (hEarly : ∀ step ∈ steps, Early step.op) :
    PushAudited log started s steps t := by
  intro job hCreates
  rcases hCreates with ⟨step, hMember, hStep⟩
  rw [createdJob_of_early (hEarly step hMember)] at hStep
  cases hStep

theorem ok_of_quietly
    {program : TransferProgram Unit}
    {outcome : Except TransferError Unit}
    (hSolo :
      Solo (ServerOp.exec config) (quietly program) s steps
        outcome t) :
    outcome = .ok () := by
  have hEnds :
      Ends (ServerOp.exec config) (quietly program) s
        fun _ outcome _ => outcome = .ok () := by
    apply ends_catchError
    intro steps outcome u _
    cases outcome with
    | ok _ => rfl
    | error error => exact ends_returned rfl
  exact hEnds steps outcome t hSolo

/- The recording is one step, and never throws. -/
theorem ends_record
    (log : PushLog config.versioning.dolt)
    (params : PushCommitParams) :
    Ends (ServerOp.exec config)
      (quietly
        (repos
          (.recordPush params.repo params.username params.jobId
            params.checksum params.resolvedTables)))
      s fun steps outcome t =>
        ∃ step,
          steps = [step] ∧ outcome = .ok () ∧
            step.op =
              .repos
                (.recordPush params.repo params.username
                  params.jobId params.checksum
                  params.resolvedTables) ∧
            t.transfer.repos = s.transfer.repos ∧
            (params.repo = config.versioning.repoId →
              Provisioned config s →
              uuidRe params.jobId = true →
              hexRe params.checksum = true →
              Unlogged log s.versioning.repo params.jobId →
              (∀ choice ∈ step.choice.invocations,
                choice.fails = false) →
                (Audited log params.jobId s.versioning.repo
                    t.versioning.repo ↔
                  step.choice.lookup.fails = false ∧
                    Takes log s.versioning.repo
                      params.username
                      params.resolvedTables)) := by
  apply ends_catchError
  apply ends_bind
  apply ends_call
  intro choice answer next hExec
  have hRepos := repos_of_recordPush hExec
  have hIff :
      params.repo = config.versioning.repoId →
        Provisioned config s →
        uuidRe params.jobId = true →
        hexRe params.checksum = true →
        Unlogged log s.versioning.repo params.jobId →
        (∀ invocation ∈ choice.invocations,
          invocation.fails = false) →
          (Audited log params.jobId s.versioning.repo
              next.versioning.repo ↔
            choice.lookup.fails = false ∧
              Takes log s.versioning.repo params.username
                params.resolvedTables) := by
    intro hRepo hProvisioned hUuid hHex hFresh hNone
    rcases exec_recordPush hRepo hProvisioned hExec with
      ⟨steps, outcome, hRun⟩
    exact
      audited_iff_takes hRepo hUuid hHex hFresh hNone hRun
  cases answer with
  | ok value =>
      apply ends_returned
      exact ⟨_, rfl, rfl, rfl, hRepos, hIff⟩
  | error reason =>
      apply ends_threw
      apply ends_returned
      exact ⟨_, rfl, rfl, rfl, hRepos, hIff⟩

/- What a push takes is decided by what it asks for. -/
theorem takes_of_prepared
    (log : PushLog config.versioning.dolt)
    (repo : DoltRepo)
    (hPrepared : Prepared config started s preparation t)
    (hRepo : started.repo = config.versioning.repoId)
    (hProvisioned : Provisioned config t) :
    Takes log repo preparation.username
        preparation.resolvedTables ↔
      ∃ requested,
        normalizeTables (requestOf s started) =
            .ok requested ∧
          Takes log repo started.username requested := by
  rcases hPrepared.resolved hRepo hProvisioned with
    ⟨requested, hNormal, hSame⟩
  rw [hPrepared.username, takes_congr hSame]
  constructor
  · intro hTakes
    exact ⟨requested, hNormal, hTakes⟩
  · rintro ⟨other, hOther, hTakes⟩
    rw [hNormal] at hOther
    cases hOther
    exact hTakes

/- Only the last of these steps is a recording. -/
theorem lookedUp_iff
    {closing : List ServerTaken}
    {drawn created : ServerTaken}
    (hDrawn : isRecord drawn.op = false)
    (hCreated : isRecord created.op = false)
    (hClosing : ∀ step ∈ closing, Apart step.op)
    (hStep : isRecord step.op = true) :
    LookedUp
        ([drawn] ++
          ([created] ++ [] ++ (closing ++ ([step] ++ [])))) ↔
      step.choice.lookup.fails = false := by
  constructor
  · intro hAll
    apply hAll step _ hStep
    simp
  · intro hAnswers other hMember hRecord
    simp only [List.append_nil, List.cons_append,
      List.nil_append, List.mem_cons, List.mem_append,
      List.not_mem_nil, or_false] at hMember
    rcases hMember with hFirst | hSecond | hThird | hLast
    · rw [hFirst, hDrawn] at hRecord
      cases hRecord
    · rw [hSecond, hCreated] at hRecord
      cases hRecord
    · have hEarly := early_of_apart (hClosing other hThird)
      rw [isRecord_of_early hEarly] at hRecord
      cases hRecord
    · rw [hLast]
      exact hAnswers

theorem ends_commitPush
    {u : ServerState}
    (log : PushLog config.versioning.dolt)
    (hChecksum :
      ∀ content, hexRe (config.transfer.sha256 content) = true)
    (hPrepared : Prepared config started s preparation u) :
    Ends (ServerOp.exec config)
      (commitPush config.transfer started preparation) u
      fun steps _ t => PushAudited log started s steps t := by
  unfold commitPush
  have hClose :
      (quietly (closeTicket started.ticketId)).Only Apart :=
    only_quietly (apart_closeTicket started.ticketId)
  have hDry :
      ∀ result : PushSessionResult,
        ((quietly (closeTicket started.ticketId)).bind
          fun _ => .returned result).Only Early := by
    intro result
    apply
      Async.only_bind
        (Async.only_mono (fun _ => early_of_apart) hClose)
    intro _
    trivial
  split
  · intro steps outcome t hSolo
    apply pushAudited_of_early
    exact hSolo.only (hDry _)
  · apply ends_bind
    apply ends_call
    intro draw jobId first hDraw
    have hApart : Apart .randomText := trivial
    have hFirst : Untouched u first := exec_apart hApart hDraw
    apply ends_bind
    apply ends_bind
    apply ends_call
    intro store answer second hCreate
    have hSecond : Untouched first second := exec_jobs hCreate
    cases answer with
    | error reason =>
        apply ends_threw
        intro job hCreates
        rcases hCreates with ⟨step, hMember, hStep⟩
        simp only [List.append_nil, List.cons_append,
          List.nil_append, List.mem_cons, List.not_mem_nil,
          or_false] at hMember
        rcases hMember with hDrawn | hRefused
        · rw [hDrawn] at hStep
          cases hStep
        · rw [hRefused] at hStep
          cases hStep
    | ok value =>
        apply ends_returned
        apply ends_bind
        intro closing closed third hSolo
        have hThird : Untouched second third :=
          untouched_of_apart hClose hSolo
        have hClosing := hSolo.only hClose
        have hClosed := ok_of_quietly hSolo
        subst hClosed
        apply ends_bind
        refine
          ends_mono
            (ends_record log
              { repo := preparation.repo
                username := preparation.username
                jobId := jobId
                checksum :=
                  config.transfer.sha256 started.hashed
                resolvedTables :=
                  preparation.resolvedTables }) ?_
        rintro recording outcome t
          ⟨step, hSteps, hOutcome, hOp, hRepos, hIff⟩
        subst hSteps hOutcome
        apply ends_returned
        have hBegun :=
          ((hPrepared.begun.untouched hFirst).untouched
            hSecond).untouched hThird
        intro job hCreates hRepo hProvisioned hUuid hFresh
          hNone
        have hJob :
            job =
              stagedJob config.transfer jobId started
                preparation := by
          rcases hCreates with ⟨made, hMember, hMade⟩
          simp only [List.append_nil, List.cons_append,
            List.nil_append, List.mem_cons, List.mem_append,
            List.not_mem_nil, or_false] at hMember
          rcases hMember with
            hDrawn | hCreated | hClosed | hRecorded
          · rw [hDrawn] at hMade
            cases hMade
          · rw [hCreated] at hMade
            exact (Option.some.inj hMade).symm
          · have hEarly := early_of_apart (hClosing _ hClosed)
            rw [createdJob_of_early hEarly] at hMade
            cases hMade
          · rw [hRecorded] at hMade
            rw [createdJob_of_record hOp] at hMade
            cases hMade
        have hThere : Provisioned config third := by
          unfold Provisioned at hProvisioned ⊢
          rw [← hRepos]
          exact hProvisioned
        have hStart := hBegun.repo hRepo hThere
        have hSame :=
          (hFirst.trans hSecond).trans hThird
        have hRecord : isRecord step.op = true := by
          rw [hOp]
          rfl
        have hNoneStep := hNone step (by simp) hRecord
        subst hJob
        rw [← hStart] at hFresh ⊢
        have hStep :=
          hIff (hPrepared.repo.trans hRepo) hThere hUuid
            (hChecksum started.hashed) hFresh hNoneStep
        have hTakes :=
          takes_of_prepared log third.versioning.repo hPrepared
            hRepo (hSame.provisioned.mp hThere)
        rw [hTakes] at hStep
        rw [lookedUp_iff ?drawn ?created hClosing hRecord]
        case drawn => rfl
        case created => rfl
        exact hStep

theorem ends_finish
    (log : PushLog config.versioning.dolt)
    (hChecksum :
      ∀ content, hexRe (config.transfer.sha256 content) = true)
    (started : PushFinish) :
    Ends (ServerOp.exec config)
      (finish config.transfer started) s
      fun steps _ t => PushAudited log started s steps t := by
  apply ends_bind
  intro steps outcome u hSolo
  have hEarly :=
    hSolo.only
      (Async.only_mono (fun _ => early_of_prepares)
        (prepares_onBeforePush started))
  cases outcome with
  | error error => exact pushAudited_of_early hEarly
  | ok preparation =>
      have hPrepared :=
        returns_onBeforePush started _ _ _ hSolo
      refine
        ends_mono (ends_commitPush log hChecksum hPrepared) ?_
      intro more ended t hPush
      exact hPush.early hEarly

/- A recording that succeeds made one commit. -/
theorem returns_recordPush
    {config : VersioningConfig}
    {params : PushCommitParams}
    {s : VersioningState}
    (hRepo : params.repo = config.repoId) :
    Returns (VersioningOp.exec config) (recordPush params) s
      fun _ t => Recorded config.dolt params s.repo t.repo := by
  intro steps hash t hSolo
  rcases ends_recordPush hRepo steps (.ok hash) t hSolo with
    ⟨asked, rest, _, _, hEnds⟩
  rcases hEnds with
    ⟨_, ⟨_, hError⟩, _⟩ | ⟨_, hRecorded | ⟨_, ⟨_, hError⟩, _⟩⟩
  · cases hError
  · exact hRecorded
  · cases hError

/-
  A recording that succeeds puts the row in its commit
  exactly if the log is added with the tables, or was staged
  with a row of the job before.  A push without failures
  does exactly if its request names no tables, or names the
  log and tables that are there only.
-/
theorem audited_iff
    (config : ServerConfig)
    (log : PushLog config.versioning.dolt)
    (hChecksum :
      ∀ content,
        hexRe (config.transfer.sha256 content) = true) :
    (∀ (params : PushCommitParams)
        (s t : VersioningState)
        (steps : List VersioningTaken)
        (hash : Option String),
      params.repo = config.versioning.repoId →
        Solo (VersioningOp.exec config.versioning)
            (recordPush params) s steps (.ok hash) t →
          (Audited log params.jobId s.repo t.repo ↔
            addsLog params.resolvedTables = true ∨
              Logged log s.repo.staged params.jobId)) ∧
      ∀ (started : PushFinish)
        (s t : ServerState)
        (steps : List ServerTaken)
        (outcome : Except TransferError PushSessionResult),
        Solo (ServerOp.exec config)
            (finish config.transfer started) s steps outcome
            t →
          PushAudited log started s steps t := by
  constructor
  · intro params s t steps hash hRepo hSolo
    apply audited_iff_of_recorded
    exact returns_recordPush hRepo steps hash t hSolo
  · intro started s t steps outcome hSolo
    exact ends_finish log hChecksum started _ _ _ hSolo

------------------------------------------------------------
-- A Small Repository
------------------------------------------------------------

open Auth Relational Storage

/- Rows are lines, and a new log takes them all. -/
def lineConfig : DoltConfig where
  sql _ repo :=
    { answer := .ok ()
      made := []
      heads := repo.heads
      working := repo.working
      staged := repo.staged
      merging := repo.merging }
  emptied _ := ""
  loaded _ csv := .ok csv
  inserted schema data row :=
    if schema = pushLogSchema then .ok (data ++ row ++ "\n")
    else .error "unknown column"
  merged ours _ := .merged ours.tables

theorem length_of_uuidRe
    {jobId : String}
    (hUuid : uuidRe jobId = true) :
    jobId.toList.length = 36 := by
  unfold uuidRe at hUuid
  rw [Bool.and_eq_true, decide_eq_true_eq] at hUuid
  exact hUuid.1

theorem infix_pushRow
    (params : PushCommitParams)
    (pushedAt : Nat)
    (data : String) :
    params.jobId.toList <:+:
      (data ++ pushRow params pushedAt ++ "\n").toList := by
  refine
    ⟨(data ++ "'").toList,
      ("', '" ++ sanitizeAuthorName params.username ++ "', '" ++
        params.checksum ++ "', " ++ toString pushedAt ++
        "\n").toList, ?_⟩
  simp [pushRow, String.toList_append]

/- A line that has the id of a job is a row of the job. -/
def lineLog : PushLog lineConfig where
  logs data jobId := jobId.toList <:+: data.toList
  accepts table _ := table.schema = pushLogSchema
  logs_inserted := by
    intro schema data params pushedAt next hInserted
    simp only [lineConfig] at hInserted
    split at hInserted
    · cases hInserted
      exact infix_pushRow params pushedAt data
    · cases hInserted
  accepts_inserted := by
    intro schema data params pushedAt next hInserted
    simp only [lineConfig] at hInserted
    split at hInserted
    · assumption
    · cases hInserted
  inserted := by
    intro schema data params pushedAt _ _ hAccepts _
    refine ⟨data ++ pushRow params pushedAt ++ "\n", ?_⟩
    simp only [lineConfig]
    exact if_pos hAccepts
  emptied := by
    intro jobId hUuid hLogs
    have hLength := length_of_uuidRe hUuid
    have hEmpty := List.infix_nil.mp hLogs
    rw [hEmpty] at hLength
    cases hLength

def oneCommit (tables : Tables) : Commit where
  hash := "c0"
  parents := []
  author := "a"
  message := "m"
  tables := tables

/- One commit, and tables that have changed since. -/
def changedRepo (tables working : Tables) : DoltRepo where
  commits :=
    { rows := [oneCommit tables]
      distinct := by simp }
  heads branch :=
    if branch = "main" then some (oneCommit tables) else none
  checkedOut := "main"
  working := working
  staged := tables
  merging := none

def lineServer : ServerConfig where
  transfer :=
    { ttlSeconds := 60
      maxRetries := 3
      backoffBaseMs := 1000
      backoffMaxMs := 60000
      stagingRootPath := "/staging"
      nasRootPath := "/nas"
      legacyUsers := []
      sha256 := fun _ =>
        "00000000000000000000000000000000" ++
          "00000000000000000000000000000000" }
  versioning := ⟨"r", lineConfig⟩
  created := changedRepo FiniteMap.empty FiniteMap.empty

def someJobId : String :=
  "00000000-0000-0000-0000-000000000000"

def someParams (tables : Option (List String)) :
    PushCommitParams where
  repo := "r"
  username := "eve"
  jobId := someJobId
  checksum := lineServer.transfer.sha256 []
  resolvedTables := tables

def goesWell : VersioningChoice :=
  ⟨⟨false, "c1", "c1"⟩, 0⟩

/- A table with one row, or with two. -/
def rowsOf (rows : String) : Tables :=
  FiniteMap.ofList [("a", ⟨"CREATE TABLE a (c INT)", rows⟩)]

/- A push to `r` that names tables, or none. -/
def someFinish (tables : Option (List String)) :
    PushFinish where
  ticketId := "t"
  repo := "r"
  stagingPath := "/staging/r/upload.staging"
  username := "eve"
  syncOptions := some ⟨none, some tables, none⟩
  hashed := []
  bytesReceived := 0
  now := 0

def someServer (working : Tables) : ServerState where
  transfer := withRole .writer
  preference _ := none
  versioning := ⟨changedRepo (rowsOf "1") working, none⟩

def serverChoice : ServerChoice where
  transfer := draw someJobId
  sync := List.replicate 4 ⟨false, "", 0⟩
  lookup := goesWell
  invocations := List.replicate 6 goesWell

def someJob : TransferJob :=
  stagedJob lineServer.transfer someJobId (someFinish none)
    { repo := "r"
      username := "eve"
      stagingPath := "/staging/r/upload.staging"
      dryRun := false
      resolvedTables := none }

theorem not_logged_rowsOf (rows jobId : String) :
    ¬ Logged lineLog (rowsOf rows) jobId := by
  rintro ⟨table, hTable, _⟩
  have hNone : (rowsOf rows).find pushLogTable = none := by
    have hOther : pushLogTable ≠ "a" := by decide
    exact FiniteMap.find_set_of_ne hOther
  rw [hNone] at hTable
  cases hTable

theorem unlogged_someServer :
    Unlogged lineLog
      (startOf lineServer (someServer (rowsOf "1")))
      someJobId := by
  constructor
  · exact not_logged_rowsOf "1" someJobId
  · exact not_logged_rowsOf "1" someJobId
  · exact not_logged_rowsOf "1" someJobId

/- A recording of all tables, and a push that names none. -/
theorem audited_iff_of_lines :
    (∃ steps hash t,
        Solo (VersioningOp.exec lineServer.versioning)
            (recordPush (someParams none))
            (someServer (rowsOf "1")).versioning steps
            (.ok hash) t ∧
          (Audited lineLog someJobId
              (someServer (rowsOf "1")).versioning.repo
              t.repo ↔
            addsLog none = true ∨
              Logged lineLog
                (someServer
                  (rowsOf "1")).versioning.repo.staged
                someJobId)) ∧
      ∃ steps outcome t,
        Solo (ServerOp.exec lineServer)
            (finish lineServer.transfer (someFinish none))
            (someServer (rowsOf "1")) steps outcome t ∧
          (Audited lineLog someJobId
              (startOf lineServer (someServer (rowsOf "1")))
              t.versioning.repo ↔
            LookedUp steps ∧
              ∃ requested,
                normalizeTables
                    (requestOf (someServer (rowsOf "1"))
                      (someFinish none)) =
                    .ok requested ∧
                  Takes lineLog
                    (startOf lineServer
                      (someServer (rowsOf "1")))
                    "eve" requested) := by
  have hZeros :
      hexRe (lineServer.transfer.sha256 []) = true := by
    decide +kernel
  have hChecksum :
      ∀ content,
        hexRe (lineServer.transfer.sha256 content) = true :=
    fun _ => hZeros
  have hBoth := audited_iff lineServer lineLog hChecksum
  constructor
  · have hReplay :
        Option.any
            (fun q => decide (q.2.1 = .ok (some "c1")))
            (solo? (VersioningOp.exec lineServer.versioning)
              (recordPush (someParams none))
              (someServer (rowsOf "1")).versioning
              (List.replicate 7 goesWell)) =
          true := by
      decide +kernel
    rw [Option.any_eq_true] at hReplay
    rcases hReplay with ⟨⟨steps, outcome, t⟩, hRun, hOk⟩
    have hOutcome := of_decide_eq_true hOk
    dsimp only at hOutcome
    subst hOutcome
    have hSolo := solo_of_solo? hRun
    exact
      ⟨steps, some "c1", t, hSolo,
        hBoth.1 (someParams none) _ t steps _ rfl hSolo⟩
  · have hReplay :
        Option.any
            (fun q =>
              decide
                ((∃ step ∈ q.1,
                    createdJob step = some someJob) ∧
                  (∀ step ∈ q.1,
                    isRecord step.op = true →
                      ∀ choice ∈ step.choice.invocations,
                        choice.fails = false) ∧
                  q.2.2.transfer.repos.contains "r" = true))
            (solo? (ServerOp.exec lineServer)
              (finish lineServer.transfer (someFinish none))
              (someServer (rowsOf "1"))
              (List.replicate 7 serverChoice)) =
          true := by
      decide +kernel
    rw [Option.any_eq_true] at hReplay
    rcases hReplay with ⟨⟨steps, outcome, t⟩, hRun, hAll⟩
    rcases of_decide_eq_true hAll with
      ⟨hCreates, hNone, hProvisioned⟩
    have hSolo := solo_of_solo? hRun
    have hUuid : uuidRe someJob.id = true := by
      decide +kernel
    exact
      ⟨steps, outcome, t, hSolo,
        hBoth.2 (someFinish none) _ t steps outcome hSolo
          someJob hCreates rfl hProvisioned hUuid
          unlogged_someServer hNone⟩

/- A push of a table without the log: the row stays behind
   in the working set, and the commit does not have it. -/
theorem row_left_behind :
    ∃ steps hash t,
      Solo (VersioningOp.exec lineServer.versioning)
          (recordPush (someParams (some ["a"])))
          (someServer (rowsOf "2")).versioning steps
          (.ok hash) t ∧
        ¬ Audited lineLog someJobId
          (someServer (rowsOf "2")).versioning.repo t.repo ∧
        Logged lineLog t.repo.working someJobId := by
  have hReplay :
      Option.any
          (fun q =>
            decide
              (q.2.1 = .ok (some "c1") ∧
                (q.2.2.repo.working.find pushLogTable).any
                    (fun table =>
                      decide
                        (someJobId.toList <:+:
                          table.data.toList)) =
                  true))
          (solo? (VersioningOp.exec lineServer.versioning)
            (recordPush (someParams (some ["a"])))
            (someServer (rowsOf "2")).versioning
            (List.replicate 7 goesWell)) =
        true := by
    decide +kernel
  rw [Option.any_eq_true] at hReplay
  rcases hReplay with ⟨⟨steps, outcome, t⟩, hRun, hAll⟩
  rcases of_decide_eq_true hAll with ⟨hOutcome, hWorking⟩
  dsimp only at hOutcome
  subst hOutcome
  have hSolo := solo_of_solo? hRun
  refine ⟨steps, some "c1", t, hSolo, ?_, ?_⟩
  · intro hAudited
    have hRecorded := returns_recordPush rfl _ _ _ hSolo
    have hEither :=
      (audited_iff_of_recorded hRecorded).mp hAudited
    rcases hEither with hAdds | hStaged
    · revert hAdds
      decide
    · exact not_logged_rowsOf "1" someJobId hStaged
  · rw [Option.any_eq_true] at hWorking
    rcases hWorking with ⟨table, hTable, hData⟩
    have hLogs : someJobId.toList <:+: table.data.toList :=
      of_decide_eq_true hData
    exact ⟨table, hTable, hLogs⟩

end Server
