import Deltix.Server.Provisioning

/-
  An attempt to create a repository that nothing is there
  of, alone, whatever fails: it is undone or done just when
  nothing fails after the directory has been made.

  Key definitions include:
    * `afterMkdir`
    * `FailsLate`
    * `Ended`

  Key theorems include:
    * `ends_attempt`
    * `retriable_of_vacant`
    * `undone_iff`
-/

------------------------------------------------------------
-- Where An Attempt Fails
------------------------------------------------------------

namespace Server

namespace Provisioning

open Auth Concurrency Transfer Versioning

abbrev ProvisionTaken : Type :=
  Taken ProvisionOp ProvisionOp.Answer ProvisionState
    ProvisionChoice

def isMkdir (step : ProvisionTaken) : Bool :=
  match step.op with
  | .mkdir _ => true
  | _ => false

/- The clock does not fail. -/
def stepFails (step : ProvisionTaken) : Bool :=
  match step.op with
  | .now => false
  | _ => step.choice.fails

/- What an attempt does once it has made its directory. -/
def afterMkdir (steps : List ProvisionTaken) :
    List ProvisionTaken :=
  (steps.dropWhile fun step => !isMkdir step).tail

/- Something fails after the directory has been made. -/
def FailsLate (steps : List ProvisionTaken) : Prop :=
  ∃ step ∈ afterMkdir steps, stepFails step = true

def lateSteps (made : Bool) (steps : List ProvisionTaken) :
    List ProvisionTaken :=
  if made then steps else afterMkdir steps

/- How an attempt ends that starts before its directory has
   been made, or just after. -/
inductive Ended
    (config : ProvisionConfig)
    (a : Attempt)
    (s : ProvisionState) :
    Bool → List ProvisionTaken →
      Except ProvisionError Attempted → ProvisionState →
      Prop where
  | late
      {made : Bool}
      {steps : List ProvisionTaken}
      {outcome : Except ProvisionError Attempted}
      {t : ProvisionState}
      (fails :
        ∃ step ∈ lateSteps made steps, stepFails step = true)
      (error : ¬ Succeeds outcome)
      (leaves :
        t.directories (config.doltPath a.repoId) ≠ .absent) :
      Ended config a s made steps outcome t
  | done
      {made : Bool}
      {steps : List ProvisionTaken}
      {outcome : Except ProvisionError Attempted}
      {t : ProvisionState}
      (works :
        ∀ step ∈ lateSteps made steps, stepFails step = false)
      (success : Succeeds outcome)
      (admin : roleOn t.db a.username a.repoId = some .admin) :
      Ended config a s made steps outcome t
  | early
      {steps : List ProvisionTaken}
      {outcome : Except ProvisionError Attempted}
      (unmade : afterMkdir steps = [])
      (error : ¬ Succeeds outcome)
      (excuse :
        (∃ step ∈ steps, stepFails step = true) ∨
          FirstPush.mayCreateRepos s.db a.username = false) :
      Ended config a s false steps outcome s

variable {config : ProvisionConfig} {a : Attempt}
variable {s t : ProvisionState} {made : Bool}
variable {step : ProvisionTaken} {steps : List ProvisionTaken}
variable {outcome : Except ProvisionError Attempted}
variable {error : ProvisionError}

theorem not_succeeds_error :
    ¬ Succeeds (.error error) := by
  intro hSucceeds
  rcases hSucceeds with ⟨record, hOutcome⟩
  cases hOutcome

theorem not_succeeds_refusal :
    ¬ Succeeds (.ok (refusal error)) := by
  intro hSucceeds
  rcases hSucceeds with ⟨record, hOutcome⟩
  unfold refusal at hOutcome
  split at hOutcome
  · cases hOutcome
  · cases hOutcome
  · cases hOutcome

theorem afterMkdir_cons_of_not
    (hMkdir : isMkdir step = false) :
    afterMkdir (step :: steps) = afterMkdir steps := by
  unfold afterMkdir
  rw [List.dropWhile_cons, hMkdir]
  rfl

theorem afterMkdir_cons_of_mkdir
    (hMkdir : isMkdir step = true) :
    afterMkdir (step :: steps) = steps := by
  unfold afterMkdir
  rw [List.dropWhile_cons, hMkdir]
  rfl

/- A step before the directory is made. -/
theorem Ended.early_step
    (hMkdir : isMkdir step = false)
    (hEnded : Ended config a s false steps outcome t) :
    Ended config a s false (step :: steps) outcome t := by
  have hSame :
      lateSteps false (step :: steps) = lateSteps false steps :=
    afterMkdir_cons_of_not hMkdir
  cases hEnded with
  | late hFails hError hLeaves =>
      exact .late (by rw [hSame]; exact hFails) hError hLeaves
  | done hWorks hSuccess hAdmin =>
      exact .done (by rw [hSame]; exact hWorks) hSuccess hAdmin
  | early hUnmade hError hExcuse =>
      refine .early ?_ hError ?_
      · rw [afterMkdir_cons_of_not hMkdir]
        exact hUnmade
      · rcases hExcuse with ⟨other, hMember, hFails⟩ | hMay
        · exact
            Or.inl
              ⟨other, List.mem_cons_of_mem _ hMember, hFails⟩
        · exact Or.inr hMay

/- The step that makes it. -/
theorem Ended.mkdir_step
    (hMkdir : isMkdir step = true)
    (hEnded : Ended config a s true steps outcome t) :
    Ended config a s false (step :: steps) outcome t := by
  have hSame :
      lateSteps false (step :: steps) = lateSteps true steps :=
    afterMkdir_cons_of_mkdir hMkdir
  cases hEnded with
  | late hFails hError hLeaves =>
      exact .late (by rw [hSame]; exact hFails) hError hLeaves
  | done hWorks hSuccess hAdmin =>
      exact .done (by rw [hSame]; exact hWorks) hSuccess hAdmin

/- A step after it that does not fail. -/
theorem Ended.late_step
    (hWorks : stepFails step = false)
    (hEnded : Ended config a s true steps outcome t) :
    Ended config a s true (step :: steps) outcome t := by
  cases hEnded with
  | late hFails hError hLeaves =>
      rcases hFails with ⟨other, hMember, hFails⟩
      exact
        .late ⟨other, List.mem_cons_of_mem _ hMember, hFails⟩
          hError hLeaves
  | done hRest hSuccess hAdmin =>
      refine .done ?_ hSuccess hAdmin
      intro other hMember
      rcases List.mem_cons.mp hMember with hHere | hLater
      · rw [hHere]
        exact hWorks
      · exact hRest other hLater

/- One that fails is the last. -/
theorem Ended.late_failure
    (hFails : stepFails step = true)
    (hError : ¬ Succeeds outcome)
    (hLeaves :
      t.directories (config.doltPath a.repoId) ≠ .absent) :
    Ended config a s true [step] outcome t :=
  .late ⟨step, List.mem_singleton_self step, hFails⟩ hError
    hLeaves

/- So is one that fails before. -/
theorem Ended.early_failure
    (hFails : stepFails step = true)
    (hError : ¬ Succeeds outcome) :
    Ended config a s false [step] outcome s := by
  refine .early ?_ hError ?_
  · cases hMkdir : isMkdir step with
    | true => exact afterMkdir_cons_of_mkdir hMkdir
    | false => exact afterMkdir_cons_of_not hMkdir
  · exact Or.inl ⟨step, List.mem_singleton_self step, hFails⟩

/- An error that is answered is no success either. -/
theorem Ended.answered
    (hEnded : Ended config a s made steps (.error error) t) :
    Ended config a s made steps (.ok (refusal error)) t := by
  cases hEnded with
  | late hFails _ hLeaves =>
      exact .late hFails not_succeeds_refusal hLeaves
  | done _ hSuccess _ =>
      exact absurd hSuccess not_succeeds_error
  | early hUnmade _ hExcuse =>
      exact .early hUnmade not_succeeds_refusal hExcuse

------------------------------------------------------------
-- Operations That May Fail
------------------------------------------------------------

variable {α : Type}
variable
  {post :
    List ProvisionTaken → Except ProvisionError α →
      ProvisionState → Prop}
variable {path : String}

/- An operation fails and changes nothing, or it works. -/
theorem ends_await_or
    {op : ProvisionOp}
    {resume : op.Answer → ProvisionProgram α}
    {failed worked : op.Answer}
    {after : ProvisionState}
    (hExec :
      ∀ choice : ProvisionChoice,
        op.exec choice s =
          if choice.fails then some (failed, s)
          else some (worked, after))
    (hFails :
      ∀ choice : ProvisionChoice, choice.fails = true →
        Ends ProvisionOp.exec (resume failed) s
          fun steps => post (⟨op, choice, s, failed, s⟩ :: steps))
    (hWorks :
      ∀ choice : ProvisionChoice, choice.fails = false →
        Ends ProvisionOp.exec (resume worked) after
          fun steps =>
            post (⟨op, choice, s, worked, after⟩ :: steps)) :
    Ends ProvisionOp.exec (.await op resume) s post := by
  apply ends_await
  intro choice answer t hRan
  rw [hExec] at hRan
  cases hChoice : choice.fails with
  | true =>
      rw [hChoice] at hRan
      cases hRan
      exact hFails choice hChoice
  | false =>
      rw [hChoice] at hRan
      cases hRan
      exact hWorks choice hChoice

theorem ends_users_bind
    {statement : UserStatement}
    {next : statement.Answer → ProvisionProgram α}
    (hFails :
      ∀ choice : ProvisionChoice, choice.fails = true →
        post
          [⟨.users statement, choice, s, .error .unavailable,
            s⟩]
          (.error (.store .unavailable)) s)
    (hWorks :
      ∀ choice : ProvisionChoice, choice.fails = false →
        Ends ProvisionOp.exec
          (Async.bind
            (Provisioning.answered (statement.run s.db).1)
            next)
          { s with db := (statement.run s.db).2 }
          fun steps =>
            post
              (⟨.users statement, choice, s,
                (statement.run s.db).1,
                { s with db := (statement.run s.db).2 }⟩ ::
                steps)) :
    Ends ProvisionOp.exec ((users statement).bind next) s
      post := by
  unfold users perform Async.call
  simp only [Async.bind_eq, Async.bind_await,
    Async.bind_returned]
  refine ends_await_or (fun _ => rfl) ?_ hWorks
  intro choice hChoice
  exact ends_threw (hFails choice hChoice)

theorem ends_getRepo_bind
    {repoId : String}
    {next : Option RepoRecord → ProvisionProgram α}
    (hFails :
      ∀ choice : ProvisionChoice, choice.fails = true →
        post
          [⟨.getRepo repoId, choice, s, .error .unavailable, s⟩]
          (.error (.store .unavailable)) s)
    (hWorks :
      ∀ choice : ProvisionChoice, choice.fails = false →
        Ends ProvisionOp.exec (next (s.repos.find? repoId)) s
          fun steps =>
            post
              (⟨.getRepo repoId, choice, s,
                .ok (s.repos.find? repoId), s⟩ :: steps)) :
    Ends ProvisionOp.exec ((getRepo repoId).bind next) s
      post := by
  unfold getRepo perform Async.call
  simp only [Async.bind_eq, Async.bind_await,
    Async.bind_returned]
  refine ends_await_or (fun _ => rfl) ?_ hWorks
  intro choice hChoice
  exact ends_threw (hFails choice hChoice)

theorem ends_createRepo_bind
    {record : RepoRecord}
    {next : Unit → ProvisionProgram α}
    (hFails :
      ∀ choice : ProvisionChoice, choice.fails = true →
        post
          [⟨.createRepo record, choice, s, .error .unavailable,
            s⟩]
          (.error (.store .unavailable)) s)
    (hWorks :
      ∀ choice : ProvisionChoice, choice.fails = false →
        Ends ProvisionOp.exec
          (Async.bind
            (Provisioning.answered (insertRepo record s.repos).1)
            next)
          { s with repos := (insertRepo record s.repos).2 }
          fun steps =>
            post
              (⟨.createRepo record, choice, s,
                (insertRepo record s.repos).1,
                { s with
                  repos := (insertRepo record s.repos).2 }⟩ ::
                steps)) :
    Ends ProvisionOp.exec ((createRepo record).bind next) s
      post := by
  unfold createRepo perform Async.call
  simp only [Async.bind_eq, Async.bind_await,
    Async.bind_returned]
  refine ends_await_or (fun _ => rfl) ?_ hWorks
  intro choice hChoice
  exact ends_threw (hFails choice hChoice)

theorem ends_now_bind
    {next : Nat → ProvisionProgram α}
    (hNext :
      ∀ choice : ProvisionChoice,
        Ends ProvisionOp.exec (next s.clock) s
          fun steps =>
            post (⟨.now, choice, s, s.clock, s⟩ :: steps)) :
    Ends ProvisionOp.exec
      (Async.bind (Provisioning.perform .now) next) s post := by
  unfold Provisioning.perform Async.call
  apply ends_await
  intro choice answer t hExec
  cases hExec
  exact hNext choice

/- How `runDoltInit` ends where there is no directory. -/
inductive Initializes
    (path : String)
    (s : ProvisionState) :
    List ProvisionTaken → Except ProvisionError Unit →
      ProvisionState → Prop where
  | unmade
      {making : ProvisionTaken}
      (mkdir : isMkdir making = true)
      (fails : stepFails making = true)
      (error : ProvisionError) :
      Initializes path s [making] (.error error) s
  | unrun
      {making run : ProvisionTaken}
      {t : ProvisionState}
      (mkdir : isMkdir making = true)
      (fails : stepFails run = true)
      (leaves : t.directories path ≠ .absent)
      (error : ProvisionError) :
      Initializes path s [making, run] (.error error) t
  | ran
      {making run : ProvisionTaken}
      (mkdir : isMkdir making = true)
      (works : stepFails run = false) :
      Initializes path s [making, run] (.ok ())
        (s.setDirectory path .initialized)

theorem ends_runDoltInit
    (hAbsent : s.directories path = .absent) :
    Ends ProvisionOp.exec (runDoltInit path) s
      (Initializes path s) := by
  have hMade :
      makeDirectory path s = s.setDirectory path .empty := by
    unfold makeDirectory
    rw [hAbsent]
  have hEmpty :
      (makeDirectory path s).directories path = .empty := by
    rw [hMade]
    exact Function.update_self ..
  unfold runDoltInit mkdir Provisioning.perform Async.call
  simp only [Async.bind_eq]
  apply ends_await
  intro choice answer t hExec
  simp only [ProvisionOp.exec] at hExec
  cases hChoice : choice.fails with
  | true =>
      rw [hChoice] at hExec
      cases hExec
      refine ends_threw (.unmade rfl ?_ _)
      exact hChoice
  | false =>
      rw [hChoice] at hExec
      cases hExec
      apply ends_await
      intro again result u hRun
      simp only [ProvisionOp.exec, initDirectory] at hRun
      cases hAgain : again.fails with
      | true =>
          rw [hAgain] at hRun
          cases hRun
          refine ends_ensure ?_ ?_
          · intro hZero
            simp at hZero
          · intro _
            refine .unrun rfl ?_ ?_ _
            · exact hAgain
            · cases again.leaves with
              | true => simp [ProvisionState.setDirectory]
              | false =>
                  simp only [Bool.false_eq_true, if_false]
                  rw [hEmpty]
                  intro hSame
                  cases hSame
      | false =>
          rw [hAgain] at hRun
          simp only [hEmpty, Bool.false_eq_true, if_false]
            at hRun
          cases hRun
          have hAfter :
              (makeDirectory path s).setDirectory path
                  .initialized =
                s.setDirectory path .initialized := by
            rw [hMade]
            unfold ProvisionState.setDirectory
            simp only [Function.update_idem]
          refine ends_ensure ?_ ?_
          · intro _
            rw [hAfter]
            refine .ran rfl ?_
            exact hAgain
          · intro hNonzero
            simp at hNonzero

/- The service tells its caller of an error by another. -/
theorem ends_initialized
    (report : ProvisionError → ProvisionError)
    (hAbsent : s.directories path = .absent) :
    Ends ProvisionOp.exec
      (tryCatch (runDoltInit path) fun error =>
        throw (report error))
      s (Initializes path s) := by
  refine ends_catchError_of (ends_runDoltInit hAbsent) ?_ ?_
  · intro steps value t hEnds
    exact hEnds
  · intro steps error t hEnds
    apply ends_threw
    rw [List.append_nil]
    cases hEnds with
    | unmade hMkdir hFails =>
        exact .unmade hMkdir hFails (report error)
    | unrun hMkdir hFails hLeaves =>
        exact .unrun hMkdir hFails hLeaves (report error)

------------------------------------------------------------
-- The Attempt
------------------------------------------------------------

variable {record : RepoRecord} {user : UserRecord}

/- The grant to a user who is there. -/
theorem ends_grant
    (hUser : t.db.users.find? a.username = some user)
    (hLeft :
      t.directories (config.doltPath a.repoId) ≠ .absent) :
    Ends ProvisionOp.exec
      ((grantRepoAdminToCreator config a.repoId
          a.username).bind
        fun _ => .returned (.created record))
      t (Ended config a s true) := by
  unfold grantRepoAdminToCreator grantRepoRole assertUserExists
  simp only [Async.bind_eq, Async.bind_assoc]
  apply ends_users_bind
  · intro choice hFails
    exact Ended.late_failure hFails not_succeeds_error hLeft
  · intro choice hWorks
    simp only [UserStatement.run, hUser,
      Provisioning.answered, Async.bind_returned,
      Async.pure_eq_returned]
    apply ends_now_bind
    intro reading
    apply ends_users_bind
    · intro again hFails
      refine Ended.late_step ?_ ?_
      · exact hWorks
      apply Ended.late_step rfl
      exact Ended.late_failure hFails not_succeeds_error hLeft
    · intro again hAgain
      let assignment : RepoRoleAssignment :=
        { username := a.username
          repoId := a.repoId
          role := .admin
          grantedAt := t.clock
          grantedBy := "repo-bootstrap" }
      have hThere :
          t.db.users.find? assignment.username ≠ none := by
        rw [hUser]
        intro hNone
        cases hNone
      rcases upsertRole_grants hThere with
        ⟨after, hGranted, hRole⟩
      have hRun :
          (UserStatement.upsertRepoRole assignment).run t.db =
            (.ok (), after) := hGranted
      rw [hRun]
      simp only [Provisioning.answered, Async.bind_returned]
      apply ends_returned
      refine Ended.late_step ?_ ?_
      · exact hWorks
      apply Ended.late_step rfl
      refine Ended.late_step ?_ ?_
      · exact hAgain
      refine .done ?_ ⟨record, rfl⟩ hRole
      intro step hMember
      cases hMember

/- What is left to do once the directory is initialized. -/
theorem ends_record
    (hUser : t.db.users.find? a.username = some user)
    (hFree : t.repos.find? a.repoId = none)
    (hLeft :
      t.directories (config.doltPath a.repoId) ≠ .absent) :
    Ends ProvisionOp.exec
      (Async.bind (Provisioning.perform .now) fun createdAt =>
        (createRepo
            { repoId := a.repoId
              doltPath := config.doltPath a.repoId
              createdAt := createdAt
              createdBy := a.username }).bind
          fun _ =>
            (grantRepoAdminToCreator config a.repoId
                a.username).bind
              fun _ =>
                .returned
                  (.created
                    { repoId := a.repoId
                      doltPath := config.doltPath a.repoId
                      createdAt := createdAt
                      createdBy := a.username }))
      t (Ended config a s true) := by
  apply ends_now_bind
  intro reading
  apply ends_createRepo_bind
  · intro choice hFails
    apply Ended.late_step rfl
    exact Ended.late_failure hFails not_succeeds_error hLeft
  · intro choice hWorks
    let record : RepoRecord :=
      { repoId := a.repoId
        doltPath := config.doltPath a.repoId
        createdAt := t.clock
        createdBy := a.username }
    have hInsert :
        ∃ after,
          insertRepo record t.repos = (.ok (), after) := by
      unfold insertRepo Relational.KeyedTable.insert?
      rw [dif_pos hFree]
      exact ⟨_, rfl⟩
    rcases hInsert with ⟨after, hInsert⟩
    rw [hInsert]
    simp only [Provisioning.answered, Async.bind_returned]
    refine ends_mono (ends_grant (s := s) hUser hLeft) ?_
    intro steps outcome u hEnded
    apply Ended.late_step rfl
    refine Ended.late_step ?_ ?_
    · exact hWorks
    exact hEnded

theorem ends_provisionFor
    (hVacant : Vacant config a.repoId s)
    (hValid : validRepoId a.repoId = true)
    (hUser : s.db.users.find? a.username = some user) :
    Ends ProvisionOp.exec
      (provisionFor config a.repoId a.username) s
      (Ended config a s false) := by
  unfold provisionFor provision
  simp only [Async.bind_eq, Async.bind_assoc,
    Async.pure_eq_returned]
  rw [hValid]
  simp only [Async.ensure, if_true, Async.bind_returned]
  apply ends_getRepo_bind
  · intro choice hFails
    exact Ended.early_failure hFails not_succeeds_error
  · intro choice hWorks
    rw [hVacant.noRecord]
    simp only [Option.isNone_none, if_true, Async.bind_returned]
    refine ends_mono ?_ fun steps outcome t hEnded =>
      Ended.early_step rfl hEnded
    refine
      ends_bind_of
        (ends_initialized _ hVacant.noDirectory) ?_ ?_
    · intro steps value t hEnds
      cases hEnds with
      | ran hMkdir hRun =>
          have hLeft :
              (s.setDirectory (config.doltPath a.repoId)
                    .initialized).directories
                  (config.doltPath a.repoId) ≠
                .absent := by
            simp [ProvisionState.setDirectory]
          have hRest :=
            ends_record (s := s)
              (t :=
                s.setDirectory (config.doltPath a.repoId)
                  .initialized)
              hUser hVacant.noRecord hLeft
          refine ends_mono hRest ?_
          intro steps outcome u hEnded
          exact (hEnded.late_step hRun).mkdir_step hMkdir
    · intro steps error t hEnds
      cases hEnds with
      | unmade hMkdir hFails =>
          exact Ended.early_failure hFails not_succeeds_error
      | unrun hMkdir hFails hLeaves =>
          refine Ended.mkdir_step hMkdir ?_
          exact
            Ended.late_failure hFails not_succeeds_error hLeaves

open Text

variable {repoId : String}

theorem length_unitsOf
    {c : Char}
    (hSmall : c.toNat < 0x10000) :
    (unitsOf c).length = 1 := by
  unfold unitsOf
  rw [if_pos hSmall]
  rfl

theorem length_units
    {chars : List Char}
    (hSmall : ∀ c ∈ chars, c.toNat < 0x10000) :
    (units chars).length = chars.length := by
  unfold units
  induction chars with
  | nil => rfl
  | cons c rest ih =>
      have hRest :
          (rest.flatMap unitsOf).length = rest.length := by
        apply ih
        intro d hMember
        exact hSmall d (List.mem_cons_of_mem c hMember)
      rw [List.flatMap_cons, List.length_append, hRest,
        length_unitsOf (hSmall c List.mem_cons_self),
        List.length_cons]
      omega

/- What the service accepts, the schema accepts. -/
theorem parseRequest_of_valid
    (hValid : validRepoId repoId = true) :
    parseRequest (some repoId) = some repoId := by
  simp only [validRepoId, Bool.and_eq_true, decide_eq_true_eq,
    List.all_eq_true, Bool.or_eq_true] at hValid
  rcases hValid with ⟨⟨hSome, hMost⟩, hChars⟩
  have hLength : (js repoId).length = repoId.toList.length := by
    apply length_units
    intro c hMember
    rcases hChars c hMember with (hAlphanum | hLine) | hDash
    · have hCode := code_of_isAlphanum hAlphanum
      omega
    · rw [hLine]
      decide
    · rw [hDash]
      decide
  unfold parseRequest
  rw [Option.filter_some, hLength]
  simp only [Bool.and_eq_true, decide_eq_true_eq]
  rw [if_pos ⟨hSome, hMost⟩]

------------------------------------------------------------
-- Every Attempt
------------------------------------------------------------

/- Who may not create repositories is turned away. -/
theorem ends_permitted
    {next : Bool → ProvisionProgram Attempted}
    (hAllowed :
      ∀ user,
        s.db.users.find? a.username = some user →
          FirstPush.mayCreateRepos s.db a.username = true →
            Ends ProvisionOp.exec (next true) s
              (Ended config a s false))
    (hDenied :
      FirstPush.mayCreateRepos s.db a.username = false →
        Ends ProvisionOp.exec (next false) s
          (Ended config a s false)) :
    Ends ProvisionOp.exec
      ((canUserCreateRepos a.username).bind next) s
      (Ended config a s false) := by
  unfold canUserCreateRepos
  simp only [Async.bind_eq, Async.bind_assoc]
  apply ends_users_bind
  · intro choice hFails
    exact Ended.early_failure hFails not_succeeds_error
  · intro choice hWorks
    simp only [UserStatement.run, Provisioning.answered,
      Async.bind_returned]
    refine ends_mono ?_ fun steps outcome t hEnded =>
      Ended.early_step rfl hEnded
    cases hUser : s.db.users.find? a.username with
    | none =>
        apply hDenied
        unfold FirstPush.mayCreateRepos
        rw [hUser]
    | some user =>
        have hMay :
            FirstPush.mayCreateRepos s.db a.username =
              (user.isGlobalAdmin || user.canCreateRepos) := by
          unfold FirstPush.mayCreateRepos
          rw [hUser]
        simp only [Async.pure_eq_returned, Async.bind_returned]
        rw [← hMay]
        cases hAnswer :
            FirstPush.mayCreateRepos s.db a.username with
        | true => exact hAllowed user hUser hAnswer
        | false => exact hDenied hAnswer

/- An attempt that is not allowed does nothing. -/
theorem ended_denied
    (hDenied :
      FirstPush.mayCreateRepos s.db a.username = false)
    (hError : ¬ Succeeds outcome) :
    Ended config a s false [] outcome s :=
  .early rfl hError (Or.inr hDenied)

/- How an attempt ends. -/
theorem ends_attempt
    (hVacant : Vacant config a.repoId s)
    (hValid : validRepoId a.repoId = true) :
    Ends ProvisionOp.exec (attempt config a) s
      (Ended config a s false) := by
  unfold attempt
  cases a.caller with
  | request =>
      dsimp only
      unfold postRepos
      simp only [Async.bind_eq]
      apply ends_permitted
      · intro user hUser _
        simp only [if_true, parseRequest_of_valid hValid]
        refine
          ends_catchError_of
            (ends_provisionFor hVacant hValid hUser) ?_ ?_
        · intro steps value t hEnded
          exact hEnded
        · intro steps error t hEnded
          apply ends_returned
          rw [List.append_nil]
          exact hEnded.answered
      · intro hDenied
        apply ends_returned
        apply ended_denied hDenied
        intro hSucceeds
        rcases hSucceeds with ⟨record, hOutcome⟩
        cases hOutcome
  | push =>
      dsimp only
      unfold autoCreate
      simp only [Async.bind_eq]
      apply ends_getRepo_bind
      · intro choice hFails
        exact Ended.early_failure hFails not_succeeds_error
      · intro choice hWorks
        rw [hVacant.noRecord, hValid]
        simp only [Option.isNone_none, Bool.and_self, if_true]
        refine ends_mono ?_ fun steps outcome t hEnded =>
          Ended.early_step rfl hEnded
        apply ends_permitted
        · intro user hUser _
          exact ends_provisionFor hVacant hValid hUser
        · intro hDenied
          apply ends_threw
          exact ended_denied hDenied not_succeeds_error

theorem mem_afterMkdir
    (hMember : step ∈ afterMkdir steps) :
    step ∈ steps :=
  (List.dropWhile_sublist _).subset (List.mem_of_mem_tail hMember)

/- A run in which nothing fails is one of those in which
   anything may. -/
theorem exists_solo_of_steady
    {α : Type}
    {body : ProvisionProgram α}
    {ended : Except ProvisionError α}
    (hSolo : Solo ProvisionOp.steady body s steps ended t) :
    ∃ more,
      Solo ProvisionOp.exec body s more ended t ∧
        ∀ step ∈ more, step.choice.fails = false := by
  induction hSolo with
  | returned value s =>
      refine ⟨[], .returned value s, ?_⟩
      intro step hMember
      cases hMember
  | threw error s =>
      refine ⟨[], .threw error s, ?_⟩
      intro step hMember
      cases hMember
  | @await op resume choice answer s next t steps outcome hExec
      _ ih =>
      rcases ih with ⟨more, hMore, hNone⟩
      refine
        ⟨⟨op, { choice with fails := false }, s, answer, next⟩ ::
            more,
          .await hExec hMore, ?_⟩
      intro step hMember
      rcases List.mem_cons.mp hMember with hFirst | hRest
      · rw [hFirst]
      · exact hNone step hRest

theorem stepFails_of_choice
    (hWorks : step.choice.fails = false) :
    stepFails step = false := by
  unfold stepFails
  split
  · rfl
  · exact hWorks

/- With nothing there, nobody who is allowed to fails. -/
theorem retriable_of_vacant
    (hVacant : Vacant config repoId s)
    (hValid : validRepoId repoId = true) :
    Retriable config repoId s := by
  intro caller username hMay steps outcome t hSteady
  rcases exists_solo_of_steady hSteady with
    ⟨more, hSolo, hNone⟩
  have hWorks : ∀ step ∈ more, stepFails step ≠ true := by
    intro step hMember
    rw [stepFails_of_choice (hNone step hMember)]
    decide
  have hEnds :
      Ends ProvisionOp.exec
        (attempt config ⟨caller, username, repoId⟩) s
        (Ended config ⟨caller, username, repoId⟩ s false) :=
    ends_attempt hVacant hValid
  have hEnded := hEnds more outcome t hSolo
  cases hEnded with
  | late hFails _ _ =>
      rcases hFails with ⟨step, hMember, hFails⟩
      exact
        absurd hFails (hWorks step (mem_afterMkdir hMember))
  | done _ hSuccess hAdmin => exact ⟨hSuccess, hAdmin⟩
  | early _ _ hExcuse =>
      rcases hExcuse with ⟨step, hMember, hFails⟩ | hDenied
      · exact absurd hFails (hWorks step hMember)
      · rw [hMay] at hDenied
        cases hDenied

/- An attempt is done or undone just when nothing fails after
   its directory has been made. -/
theorem undone_iff
    (hVacant : Vacant config a.repoId s)
    (hValid : validRepoId a.repoId = true)
    (hSolo :
      Solo ProvisionOp.exec (attempt config a) s steps outcome
        t) :
    Undone config a.repoId outcome t ↔ ¬ FailsLate steps := by
  have hEnded := ends_attempt hVacant hValid steps outcome t hSolo
  cases hEnded with
  | late hFails hError hLeaves =>
      constructor
      · intro hUndone
        exact absurd (hUndone hError).1.noDirectory hLeaves
      · intro hLate
        exact absurd hFails hLate
  | done hWorks hSuccess _ =>
      constructor
      · intro _ hLate
        rcases hLate with ⟨step, hMember, hFails⟩
        rw [hWorks step hMember] at hFails
        cases hFails
      · intro _ hError
        exact absurd hSuccess hError
  | early hUnmade _ _ =>
      constructor
      · intro _ hLate
        rcases hLate with ⟨step, hMember, _⟩
        rw [hUnmade] at hMember
        cases hMember
      · intro _ _
        exact ⟨hVacant, retriable_of_vacant hVacant hValid⟩

end Provisioning

end Server
