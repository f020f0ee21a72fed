import Deltix.Storage.PathNames
import Deltix.Transfer.PushOutline

/-
  The files that the transfer system writes: the synced file
  of a repository, the temporary files of the sync worker
  beside it, and the staging files of the pushes.

  Key definitions include:
    * `IsTmp`
    * `OnNas`
    * `Staged`
    * `Background`

  Key theorems include:
    * `isTmp_tmpPath`
    * `not_onNas_staging`
    * `files_exec`
    * `step_removal`
    * `background_safe`
-/

------------------------------------------------------------
-- Kinds Of Paths
------------------------------------------------------------

namespace Transfer

namespace NasPaths

open Auth Concurrency Relational Storage

variable (config : TransferConfig) {path : String}
variable {uuid : String}

def visibleName : String := "repo.dolt"

def tmpPrefix : List Char := ['.', 't', 'm', 'p', '-']

/- A temporary file of the sync worker. -/
def IsTmp (path : String) : Prop :=
  tmpPrefix <+: baseName path

/- A file of the sync worker. -/
def OnNas (path : String) : Prop :=
  baseName path = visibleName.toList ∨ IsTmp path

theorem plain_visibleName : PlainName visibleName.toList where
  nonempty := by decide
  noSlash := by decide
  notDot := by decide
  notDotDot := by decide

theorem baseName_pullPath (repo : String) :
    baseName (pullPath config repo) = visibleName.toList :=
  baseName_join [config.nasRootPath, repo] plain_visibleName

/- The worker renames onto the file that a pull reads. -/
theorem finalPath_eq (repo : String) :
    finalPath (join [config.nasRootPath, repo]) =
      pullPath config repo :=
  join_join [config.nasRootPath, repo] plain_visibleName

theorem onNas_pullPath (repo : String) :
    OnNas (pullPath config repo) :=
  Or.inl (baseName_pullPath config repo)

theorem not_tmp_pullPath (repo : String) :
    ¬ IsTmp (pullPath config repo) := by
  unfold IsTmp
  rw [baseName_pullPath]
  decide

theorem ne_pullPath_of_tmp
    (hTmp : IsTmp path)
    (repo : String) :
    pullPath config repo ≠ path := by
  rintro rfl
  exact not_tmp_pullPath config repo hTmp

/- A random text has no separator and no dot. -/
theorem notMem_randomText
    {text : String}
    {c : Char}
    (hText : isRandomText text = true)
    (hOther : (c.isAlphanum || c = '-' || c = '_') = false) :
    c ∉ text.toList := by
  intro hMember
  have hAllowed := List.all_eq_true.mp hText c hMember
  rw [hOther] at hAllowed
  cases hAllowed

theorem isTmp_tmpPath
    (destDir : String)
    (hUuid : isRandomText uuid = true) :
    IsTmp (tmpPath destDir uuid) := by
  have hName : (".tmp-" ++ uuid).toList =
      tmpPrefix ++ uuid.toList := by
    rw [String.toList_append]
    rfl
  have hPlain : PlainName (".tmp-" ++ uuid).toList := by
    rw [hName]
    refine ⟨by simp [tmpPrefix], ?_, ?_, ?_⟩
    · intro hSlash
      rcases List.mem_append.mp hSlash with hIn | hIn
      · exact absurd hIn (by decide)
      · exact notMem_randomText hUuid (by decide) hIn
    · simp [tmpPrefix]
    · simp [tmpPrefix]
  unfold IsTmp tmpPath
  rw [show [destDir, ".tmp-" ++ uuid] =
    [destDir] ++ [".tmp-" ++ uuid] from rfl,
    baseName_join [destDir] hPlain, hName]
  exact List.prefix_append _ _

/- The name of a staging file. -/
theorem plain_stagingName
    (hUuid : isRandomText uuid = true) :
    PlainName (uuid ++ ".staging").toList := by
  have hName : (uuid ++ ".staging").toList =
      uuid.toList ++ ".staging".toList :=
    String.toList_append
  have hLong :
      (".staging".toList).length ≤
        (uuid ++ ".staging").toList.length := by
    rw [hName, List.length_append]
    omega
  constructor
  · intro hEmpty
    rw [hEmpty] at hLong
    exact absurd hLong (by decide)
  · rw [hName]
    intro hSlash
    rcases List.mem_append.mp hSlash with hIn | hIn
    · exact notMem_randomText hUuid (by decide) hIn
    · exact absurd hIn (by decide)
  · intro hEq
    rw [hEq] at hLong
    exact absurd hLong (by decide)
  · intro hEq
    rw [hEq] at hLong
    exact absurd hLong (by decide)

theorem not_onNas_staging
    (root repo : String)
    (hUuid : isRandomText uuid = true) :
    ¬ OnNas (join [root, repo, uuid ++ ".staging"]) := by
  have hName : (uuid ++ ".staging").toList =
      uuid.toList ++ ".staging".toList :=
    String.toList_append
  have hDot : '.' ∉ uuid.toList :=
    notMem_randomText hUuid (by decide)
  have hPlain := plain_stagingName hUuid
  unfold OnNas IsTmp
  rw [show [root, repo, uuid ++ ".staging"] =
    [root, repo] ++ [uuid ++ ".staging"] from rfl,
    baseName_join [root, repo] hPlain, hName]
  rintro (hVisible | hTmp)
  · have hEnd := congrArg List.getLast? hVisible
    rw [List.getLast?_append_of_ne_nil _ (by decide)] at hEnd
    exact absurd hEnd (by decide)
  · cases hText : uuid.toList with
    | nil =>
        rw [hText] at hTmp
        exact absurd hTmp (by decide)
    | cons c rest =>
        rw [hText] at hTmp hDot
        rcases hTmp with ⟨_, hEq⟩
        have hHead : '.' = c := (List.cons.inj hEq).1
        exact hDot (by rw [hHead]; exact List.mem_cons_self)

------------------------------------------------------------
-- What Operations Do To Files
------------------------------------------------------------

variable {config : TransferConfig} {op : TransferOp}
variable {choice : TransferChoice} {answer : op.Answer}
variable {s t : TransferState} {path : String}
variable {files : Files} {source target : String}
variable {status : GrpcStatus} {fails : Bool} {now : Nat}

/- No staging file of a push is a file of the worker. -/
def Staged (s : TransferState) : Prop :=
  ∀ stream path,
    (s.pushes stream).stagingFilePath = some path →
      ¬ OnNas path

theorem staged_exec
    (hStaged : Staged s)
    (hExec : op.exec config choice s = some (answer, t)) :
    Staged t := by
  intro stream path hPath
  rcases TransferOp.exec_pushes hExec with
    hSame | ⟨other, step, hOp, hPushes⟩
  · rw [hSame] at hPath
    exact hStaged stream path hPath
  · subst hOp
    rw [hPushes] at hPath
    by_cases hStream : stream = other
    · subst hStream
      rw [Function.update_self] at hPath
      by_cases hPlain : step.Plain
      · rw [(SessionStep.identity_run hPlain).stagingFilePath]
          at hPath
        exact hStaged stream path hPath
      · cases step with
        | ticketConsumed header ticket =>
            have hText :=
              (TransferOp.exec_eq_some_iff.mp hExec).1 rfl
            have hEq :
                join [config.stagingRootPath, header.repo,
                  choice.text ++ ".staging"] = path := by
              simpa [SessionStep.run,
                PushSession.ticketConsumed] using hPath
            rw [← hEq]
            exact not_onNas_staging _ _ hText
        | _ => exact absurd (by simp [SessionStep.Plain]) hPlain
    · rw [Function.update_of_ne hStream] at hPath
      exact hStaged stream path hPath

theorem runFiles_of_ne
    {statement : FileStatement}
    (hPath : path ∉ statement.writes) :
    (runFiles config choice statement files).2 path =
      files path := by
  unfold runFiles
  split
  · cases statement with
    | copyFile source target =>
        have hNe : path ≠ target := by
          simpa [FileStatement.writes] using hPath
        dsimp only [FileStatement.leftover]
        cases choice.copied with
        | none => rfl
        | some content => simp [hNe]
    | _ => rfl
  · exact FileStatement.run_of_ne hPath

theorem flush_of_ne
    {before after : PushSession}
    (hPath : after.stagingFilePath ≠ some path) :
    flush before after files path = files path := by
  unfold flush
  cases before.fileSink with
  | none => rfl
  | some sink =>
      cases after.fileSink with
      | none => rfl
      | some next =>
          cases hStaging : after.stagingFilePath with
          | none => rfl
          | some written =>
              dsimp only
              split
              · have hNe : path ≠ written := by
                  rintro rfl
                  exact hPath hStaging
                simp [hNe]
              · rfl

/- A file changes only by a statement on its path, or when
   it is the staging file of a push. -/
theorem files_exec
    (hExec : op.exec config choice s = some (answer, t))
    (hStaging :
      ∀ stream,
        (t.pushes stream).stagingFilePath ≠ some path)
    (hWrites :
      ∀ statement, op = .files statement →
        path ∉ statement.writes) :
    t.files path = s.files path := by
  have hRun := (TransferOp.exec_eq_some_iff.mp hExec).2
  cases op with
  | files statement =>
      cases hRun
      exact runFiles_of_ne (hWrites statement rfl)
  | session stream step =>
      have hAfter := hStaging stream
      rw [(exec_session hExec).2] at hAfter
      cases hRun
      exact flush_of_ne hAfter
  | _ =>
      cases hRun
      rfl

/- A rename that succeeds moves a file. -/
theorem exec_rename_ok
    (hExec :
      (TransferOp.files (.rename source target)).exec config
        choice s = some (.ok (), t)) :
    ∃ content,
      s.files source = some content ∧
        t.files target = some content := by
  have hRun := (TransferOp.exec_eq_some_iff.mp hExec).2
  simp only [TransferOp.run, runFiles] at hRun
  split at hRun
  · cases hRun
  · rw [Prod.mk.injEq] at hRun
    cases hSource : s.files source with
    | none =>
        have hAnswer := hRun.1
        simp only [FileStatement.run, moveContent,
          hSource] at hAnswer
        cases hAnswer
    | some content =>
        refine ⟨content, rfl, ?_⟩
        rw [← hRun.2]
        exact moveContent_target hSource

/- A rename that fails moves none. -/
theorem exec_rename_error
    {reason : String}
    (hExec :
      (TransferOp.files (.rename source target)).exec config
        choice s = some (.error reason, t)) :
    t.files = s.files := by
  have hRun := (TransferOp.exec_eq_some_iff.mp hExec).2
  simp only [TransferOp.run, runFiles] at hRun
  split at hRun
  · cases hRun
    rfl
  · rw [Prod.mk.injEq] at hRun
    cases hSource : s.files source with
    | none =>
        rw [← hRun.2]
        simp only [FileStatement.run, moveContent, hSource]
    | some content =>
        have hAnswer := hRun.1
        simp only [FileStatement.run, moveContent,
          hSource] at hAnswer
        cases hAnswer

/- What drawing a random text answers. -/
theorem randomText_of_exec
    {text : String}
    (hExec :
      TransferOp.randomText.exec config choice s =
        some (text, t)) :
    isRandomText text = true := by
  rcases TransferOp.exec_eq_some_iff.mp hExec with
    ⟨hText, hRun⟩
  cases hRun
  exact hText rfl

/- What hashing a file answers. -/
theorem exec_sha256_ok
    {checksum : String}
    (hExec :
      (TransferOp.files (.sha256File path)).exec config
        choice s = some (.ok checksum, t)) :
    ∃ content,
      s.files path = some content ∧
        t.files path = some content ∧
        checksum = config.sha256 content := by
  have hRun := (TransferOp.exec_eq_some_iff.mp hExec).2
  simp only [TransferOp.run, runFiles] at hRun
  split at hRun
  · cases hRun
  · rw [Prod.mk.injEq] at hRun
    have hAnswer := hRun.1
    simp only [FileStatement.run, withFile] at hAnswer
    cases hFile : s.files path with
    | none =>
        rw [hFile] at hAnswer
        cases hAnswer
    | some content =>
        rw [hFile] at hAnswer
        refine ⟨content, rfl, ?_, ?_⟩
        · rw [← hRun.2]
          exact hFile
        · cases hAnswer
          rfl

/- An abort removes the staging file of its session. -/
theorem abort_removal
    (session : PushSession)
    (hRemoval : session.abort.1 = some path) :
    session.stagingFilePath = some path := by
  unfold PushSession.abort at hRemoval
  split at hRemoval
  · cases hRemoval
  · exact hRemoval

theorem markAborted_removal
    (session : PushSession)
    (hRemoval :
      (session.markAborted status).1.removal = some path) :
    session.stagingFilePath = some path := by
  unfold PushSession.markAborted at hRemoval
  split at hRemoval
  · cases hRemoval
  · exact
      abort_removal
        { session with
          aborted := true
          pendingAbort := some status } hRemoval

theorem fail_removal
    (session : PushSession)
    (hRemoval : (session.fail status).1 = some path) :
    session.stagingFilePath = some path := by
  have hMarked :
      (session.markAborted status).1.removal = some path := by
    unfold PushSession.fail at hRemoval
    split at hRemoval
    · cases hRemoval
    · rename_i hEq
      rw [hEq]
      exact hRemoval
  exact markAborted_removal session hMarked

theorem processHeader_removal
    (session : PushSession)
    {header : PushHeader}
    (hRemoval :
      (session.processHeader header).1.removal = some path) :
    session.stagingFilePath = some path := by
  unfold PushSession.processHeader at hRemoval
  split at hRemoval
  · cases hRemoval
  · split at hRemoval
    · exact fail_removal session hRemoval
    · dsimp only at hRemoval
      split at hRemoval <;> cases hRemoval

theorem processChunk_removal
    (session : PushSession)
    {data : Content}
    (hRemoval :
      (session.processChunk fails data).1.removal =
        some path) :
    session.stagingFilePath = some path := by
  unfold PushSession.processChunk at hRemoval
  split at hRemoval
  · cases hRemoval
  · split at hRemoval
    · exact fail_removal session hRemoval
    · split at hRemoval
      · cases hRemoval
      · split at hRemoval <;> cases hRemoval

theorem finalizeStream_removal
    (session : PushSession)
    (hRemoval :
      (session.finalizeStream now fails).1.removal =
        some path) :
    session.stagingFilePath = some path := by
  unfold PushSession.finalizeStream at hRemoval
  dsimp only at hRemoval
  split at hRemoval
  · cases hRemoval
  · split at hRemoval
    · exact
        fail_removal { session with streamEnded := true }
          hRemoval
    · unfold PushSession.beginFinish at hRemoval
      split at hRemoval
      · cases hRemoval
      · split at hRemoval
        · split at hRemoval <;> cases hRemoval
        · cases hRemoval

/- So does every step of a session. -/
theorem step_removal
    {stagingRootPath uuid : String}
    (step : SessionStep)
    (session : PushSession)
    (hRemoval :
      step.removal
          (step.run stagingRootPath uuid now fails
            session).1 =
        some path) :
    session.stagingFilePath = some path := by
  cases step with
  | header sent => exact processHeader_removal session hRemoval
  | chunk data => exact processChunk_removal session hRemoval
  | empty => cases hRemoval
  | ticketConsumed sent ticket => cases hRemoval
  | openSink => cases hRemoval
  | markAborted status =>
      exact markAborted_removal session hRemoval
  | isEnded => cases hRemoval
  | finalize => exact finalizeStream_removal session hRemoval
  | error => exact abort_removal session hRemoval
  | cancelled =>
      exact
        abort_removal { session with aborted := true } hRemoval

------------------------------------------------------------
-- Calls In The Background
------------------------------------------------------------

variable {K : TransferContract} {ok : TransferAllowed}
variable {i : Nat} {J : TransferWorld → Prop}
variable {w : TransferWorld}

/- The operations that create no job, step no session and
   write no file but on the NAS. -/
def Background : TransferOp → Prop
  | .jobs (.create _) => False
  | .session _ _ => False
  | .files statement => ∀ path ∈ statement.writes, OnNas path
  | _ => True

theorem background_of_tame
    (hTame : Tame op) :
    Background op := by
  cases op with
  | files statement =>
      cases statement with
      | stat path => simp [Background, FileStatement.writes]
      | readFile path =>
          simp [Background, FileStatement.writes]
      | _ => exact hTame.elim
  | jobs statement => exact hTame.elim
  | session stream step => exact hTame.elim
  | _ => trivial

theorem background_of_claiming
    (hClaiming : Claiming op) :
    Background op := by
  cases op with
  | jobs statement =>
      cases statement with
      | create job => exact hClaiming.elim
      | _ => trivial
  | _ => exact hClaiming.elim

/- The copy itself is made on the NAS. -/
theorem background_copy
    {tmp : String}
    (stagingPath destDir : String)
    (hTmp : IsTmp tmp) :
    (tryCatch
      (copyThenRename stagingPath tmp (finalPath destDir))
      (cleanUp tmp)).Only Background := by
  have hFinal : OnNas (finalPath destDir) :=
    Or.inl (baseName_join [destDir] plain_visibleName)
  apply Async.only_catchError
  · apply Async.only_bind
    · apply only_files
      intro path hPath
      rw [FileStatement.writes, List.mem_singleton] at hPath
      subst hPath
      exact Or.inr hTmp
    intro _
    apply Async.only_bind
    · exact only_files (by simp [Background,
        FileStatement.writes])
    intro checksum
    apply Async.only_bind
    · exact only_files (by simp [Background,
        FileStatement.writes])
    intro _
    apply Async.only_bind
    · apply only_files
      intro path hPath
      rcases List.mem_cons.mp hPath with hSource | hTarget
      · subst hSource
        exact Or.inr hTmp
      · rw [List.mem_singleton] at hTarget
        subst hTarget
        exact hFinal
    intro _
    trivial
  · intro error
    apply Async.only_bind
    · apply Async.only_catchError
      · apply only_files
        intro path hPath
        rw [FileStatement.writes, List.mem_singleton] at hPath
        subst hPath
        exact Or.inr hTmp
      · intro _
        trivial
    · intro _
      trivial

section Calls

variable
  (hMoves :
    ∀ op, Background op → Moves config K ok i op J fun _ => J)
variable (hStable : K.Stable i J)

include hMoves hStable

theorem copyToNas_safe
    (stagingPath repo : String)
    (hHere : J w) :
    SafeProgram config K ok i
      (copyToNas config stagingPath repo) (fun _ => J) J w := by
  refine Contract.safe_bind ?_
  refine Contract.safe_mono ?_ (fun _ _ h => h)
    (safe_of_only
      (only_files (by simp [Background, FileStatement.writes]))
      hMoves hStable hHere)
  intro _ v hHere
  have hDraw :
      Moves config K ok i .randomText J
        fun text v => J v ∧ isRandomText text = true := by
    apply (hMoves .randomText trivial).with_answer
    intro choice s answer t hExec
    exact randomText_of_exec hExec
  refine Contract.safe_bind ?_
  refine Contract.safe_mono ?_ (fun _ _ h => h)
    (hDraw.safe hStable hHere)
  rintro uuid u ⟨hHere, hUuid⟩
  exact
    safe_of_only
      (background_copy stagingPath _ (isTmp_tmpPath _ hUuid))
      hMoves hStable hHere

theorem processNext_safe
    (hHere : J w) :
    SafeProgram config K ok i (processNext config)
      (fun _ => J) J w := by
  have hKeeps :
      ∀ {α : Type} {program : TransferProgram α}
        {v : TransferWorld}, program.Only Background → J v →
          SafeProgram config K ok i program (fun _ => J) J v :=
    fun hOnly hThere =>
      safe_of_only hOnly hMoves hStable hThere
  refine Contract.safe_bind ?_
  refine Contract.safe_mono ?_ (fun _ _ h => h)
    (hKeeps (Async.only_call.mpr trivial) hHere)
  intro current v hHere
  refine Contract.safe_bind ?_
  refine Contract.safe_mono ?_ (fun _ _ h => h)
    (hKeeps
      (Async.only_mono (fun _ => background_of_claiming)
        (claiming_claimNextEligible _ _))
      hHere)
  intro found v hHere
  cases found with
  | none => exact hHere
  | some job =>
      have hSync :
          SafeProgram config K ok i (syncJob config job)
            (fun _ => J) J v := by
        refine Contract.safe_bind ?_
        refine Contract.safe_mono ?_ (fun _ _ h => h)
          (copyToNas_safe hMoves hStable job.stagingPath
            job.repo hHere)
        intro checksum u hHere
        refine hKeeps ?_ hHere
        apply Async.only_bind Async.only_ensure
        intro _
        exact Async.only_bind (only_jobs trivial)
          fun _ => trivial
      refine Contract.safe_bind (Contract.safe_catchError ?_)
      refine Contract.safe_mono (fun _ _ h => h) ?_ hSync
      intro error u hHere
      refine hKeeps ?_ hHere
      apply Async.only_bind (Async.only_call.mpr trivial)
      intro current
      exact Async.only_bind (only_jobs trivial)
        fun _ => trivial

/- Every call but the pushes and their aborts stays in the
   background. -/
theorem background_safe
    {call : TransferCall}
    (hPush : ∀ messages ends, call ≠ .push messages ends)
    (hError : ∀ stream, call ≠ .pushError stream)
    (hCancelled : ∀ stream, call ≠ .pushCancelled stream)
    (hHere : J w) :
    SafeProgram config K ok i (serveCall config i call)
      (fun _ => J) J w := by
  by_cases hTame : TameCall call
  · exact
      safe_of_only
        (Async.only_mono (fun _ => background_of_tame)
          (tame_serveCall hTame i))
        hMoves hStable hHere
  · cases call with
    | push messages ends =>
        exact absurd rfl (hPush messages ends)
    | pushError stream => exact absurd rfl (hError stream)
    | pushCancelled stream =>
        exact absurd rfl (hCancelled stream)
    | processNext =>
        refine Contract.safe_bind ?_
        exact Contract.safe_mono (fun _ _ h => h)
          (fun _ _ h => h)
          (processNext_safe hMoves hStable hHere)
    | retryDeadLetter jobId =>
        exact
          safe_of_only
            (Async.only_bind (only_jobs trivial)
              fun _ => trivial)
            hMoves hStable hHere
    | listDeadLetter =>
        exact
          safe_of_only
            (Async.only_bind (only_jobs trivial)
              fun _ => trivial)
            hMoves hStable hHere
    | _ => exact absurd trivial hTame

end Calls

end NasPaths

end Transfer
