import Deltix.Server.ProvisioningRace

/-
  What attempts to create the same repository come to once
  they have all ended.

  Key definitions include:
    * `NothingLeft`
    * `CreatedBy`
    * `Settled`

  Key theorems include:
    * `fate_of_finished`
    * `settled_run`
    * `provisioning_iff`
-/

------------------------------------------------------------
-- Fates That Stay
------------------------------------------------------------

namespace Server

namespace Provisioning

open Auth Concurrency Relational Transfer Versioning

variable {config : ProvisionConfig} {repoId : String}
variable {start : ProvisionState} {p : ProvisionPool}
variable {i j : Nat} {a : Attempt} {m : Mark}
variable {outcome : Except ProvisionError Attempted}
variable {trace newer older : List ProvisionEvent}

theorem lateFree_of_append
    (hFree : LateFree (newer ++ older)) :
    LateFree older := by
  induction newer with
  | nil => exact hFree
  | cons event rest ih => exact ih hFree.2

/- What has been found of an attempt when it ended stays. -/
theorem Fate.later
    (hQuiet : Quiet trace)
    (hTrace : trace = newer ++ .finished i outcome :: older)
    (hFate : Fate start i a older outcome) :
    Fate start i a trace outcome := by
  have hMore : ∀ event ∈ older, event ∈ trace := by
    intro event hMember
    rw [hTrace]
    exact
      List.mem_append_right _ (List.mem_cons_of_mem _ hMember)
  have hOwn :
      ∀ m, Recorded markOf (i, m) trace ↔
        Recorded markOf (i, m) older := by
    intro m
    exact
      recorded_older_iff task_of_markOf (fun _ _ => rfl) hQuiet
        hTrace
  have hWinner :
      (∃ k, Recorded markOf (k, .won) older) →
        ∃ k, Recorded markOf (k, .won) trace := by
    intro hWon
    rcases hWon with ⟨k, hWon⟩
    exact ⟨k, hWon.mono hMore⟩
  cases hFate with
  | succeeds hRecorded hGranted hCreator =>
      exact
        .succeeds (hRecorded.mono hMore) (hGranted.mono hMore)
          hCreator
  | loses hError hLost =>
      refine .loses hError ?_
      constructor
      · rw [hOwn]
        exact hLost.behind
      · rw [hOwn]
        intro hMade
        exact hWinner (hLost.beaten hMade)
      · intro hMay hNone
        apply hWinner
        apply hLost.turned hMay
        intro event hMember
        exact hNone event (hMore event hMember)

/- Every attempt that has ended has met its fate. -/
theorem fate_of_finished
    (hVacant : Vacant config repoId start)
    (hValid : validRepoId repoId = true)
    (hRun :
      (provisionSystem config).Run (attemptsOn repoId)
        (Pool.initial start) p)
    (hFree : LateFree p.world.trace)
    (hEnd : .finished i outcome ∈ p.world.trace) :
    ∃ a, .started i a ∈ p.world.trace ∧
      Fate start i a p.world.trace outcome := by
  have hInv := raceInv_run hVacant hValid hRun
  rcases List.append_of_mem hEnd with ⟨newer, older, hTrace⟩
  have hMet :=
    throughout_iff.mp hInv.ends newer (.finished i outcome) older
      hTrace
  rcases hMet i outcome rfl with ⟨a, hStarted, hFate⟩
  have hBefore : LateFree (.finished i outcome :: older) := by
    rw [hTrace] at hFree
    exact lateFree_of_append hFree
  refine ⟨a, ?_, ?_⟩
  · rw [hTrace]
    exact
      List.mem_append_right _ (List.mem_cons_of_mem _ hStarted)
  · exact
      (hFate hBefore.2).later (quiet_run hRun) hTrace

------------------------------------------------------------
-- What Attempts Come To
------------------------------------------------------------

/- Whatever there is of the repository is by another
   attempt. -/
structure NothingLeft
    (config : ProvisionConfig)
    (repoId : String)
    (i : Nat)
    (trace : List ProvisionEvent)
    (s : ProvisionState) : Prop where
  record :
    ∀ record, s.repos.find? repoId = some record →
      ∃ j, j ≠ i ∧
        Recorded markOf (j, .recorded record) trace
  directory :
    s.directories (config.doltPath repoId) ≠ .absent →
      ∃ j, j ≠ i ∧
        (Recorded markOf (j, .won) trace ∨
          Recorded markOf (j, .made) trace)
  role :
    ∀ user role, roleOn s.db user repoId = some role →
      ∃ j, j ≠ i ∧ Recorded markOf (j, .granted user) trace

/- The attempt, and no other, has created the repository, and
   its user is the only one with a role on it. -/
structure CreatedBy
    (config : ProvisionConfig)
    (repoId : String)
    (trace : List ProvisionEvent)
    (s : ProvisionState)
    (j : Nat)
    (a : Attempt) : Prop where
  started : .started j a ∈ trace
  succeeds :
    ∃ outcome, .finished j outcome ∈ trace ∧ Succeeds outcome
  only :
    ∀ i outcome, .finished i outcome ∈ trace →
      Succeeds outcome → i = j
  record :
    ∃ record,
      s.repos.find? repoId = some record ∧
        record.createdBy = a.username
  directory :
    s.directories (config.doltPath repoId) = .initialized
  roles :
    ∀ user,
      roleOn s.db user repoId =
        if user = a.username then some .admin else none

def NoneSucceeds (trace : List ProvisionEvent) : Prop :=
  ∀ i outcome, .finished i outcome ∈ trace → ¬ Succeeds outcome

def AllEnded (trace : List ProvisionEvent) : Prop :=
  ∀ i a, .started i a ∈ trace →
    ∃ outcome, .finished i outcome ∈ trace

/- One attempt has created the repository, or none has and
   anybody who is allowed to can.  With no failure it is one
   if any of them is allowed to. -/
structure Settled
    (config : ProvisionConfig)
    (repoId : String)
    (start : ProvisionState)
    (trace : List ProvisionEvent)
    (s : ProvisionState) : Prop where
  atomic :
    (NoneSucceeds trace ∧ Vacant config repoId s ∧
        Retriable config repoId s) ∨
      ∃ j a, CreatedBy config repoId trace s j a
  one :
    NoFailure trace →
      (∃ i a, .started i a ∈ trace ∧
        FirstPush.mayCreateRepos start.db a.username = true) →
        ∃ j a, CreatedBy config repoId trace s j a

variable {s : ProvisionState}

/- An attempt that has lost has left nothing. -/
theorem nothingLeft_of_lost
    {username : String}
    (hOrderly : Orderly config repoId start s trace)
    (hLost : Lost start username i trace) :
    NothingLeft config repoId i trace s := by
  have hRecorded :
      ∀ j record, Recorded markOf (j, .recorded record) trace →
        j ≠ i := by
    intro j record hRecord hSelf
    subst hSelf
    exact
      hLost.behind (hOrderly.recorded j record hRecord).1
  constructor
  · intro record hFind
    rcases hOrderly.record record hFind with ⟨j, hRecord⟩
    exact ⟨j, hRecorded j record hRecord, hRecord⟩
  · intro hThere
    rcases hOrderly.made hThere with ⟨j, hMade⟩
    by_cases hSelf : j = i
    · subst hSelf
      rcases hLost.beaten hMade with ⟨k, hWon⟩
      refine ⟨k, ?_, Or.inl hWon⟩
      intro hSame
      subst hSame
      exact hLost.behind hWon
    · exact ⟨j, hSelf, Or.inr hMade⟩
  · intro user role hRole
    rcases hOrderly.role user role hRole with ⟨j, hGranted⟩
    rcases (hOrderly.granted j user hGranted).2 with
      ⟨record, hRecord, _⟩
    exact ⟨j, hRecorded j record hRecord, hGranted⟩

theorem succeeds_of_fate
    (hFate : Fate start i a trace outcome)
    (hSuccess : Succeeds outcome) :
    ∃ record,
      Recorded markOf (i, .recorded record) trace ∧
        Recorded markOf (i, .granted a.username) trace ∧
        record.createdBy = a.username := by
  cases hFate with
  | succeeds hRecorded hGranted hCreator =>
      exact ⟨_, hRecorded, hGranted, hCreator⟩
  | loses hError _ => exact absurd hSuccess hError

/- Whoever has won has created the repository. -/
theorem createdBy_of_won
    (hOrderly : Orderly config repoId start s trace)
    (hFates :
      ∀ i outcome, .finished i outcome ∈ trace →
        ∃ a, .started i a ∈ trace ∧
          Fate start i a trace outcome)
    (hEnd : .finished j outcome ∈ trace)
    (hWon : Recorded markOf (j, .won) trace) :
    ∃ a, CreatedBy config repoId trace s j a := by
  rcases hFates j outcome hEnd with ⟨a, hStarted, hFate⟩
  have hSuccess : Succeeds outcome := by
    cases hFate with
    | succeeds _ _ _ => exact ⟨_, rfl⟩
    | loses _ hLost => exact absurd hWon hLost.behind
  rcases succeeds_of_fate hFate hSuccess with
    ⟨record, hRecorded, hGranted, hCreator⟩
  have hFind := (hOrderly.recorded j record hRecorded).2
  have hAdmin := (hOrderly.granted j a.username hGranted).1
  refine
    ⟨a, hStarted, ⟨outcome, hEnd, hSuccess⟩, ?_,
      ⟨record, hFind, hCreator⟩, hOrderly.stays j hWon, ?_⟩
  · intro k other hOther hAlso
    rcases hFates k other hOther with ⟨b, _, hMet⟩
    rcases succeeds_of_fate hMet hAlso with
      ⟨second, hSecond, _, _⟩
    exact
      hOrderly.one k j (hOrderly.recorded k second hSecond).1
        hWon
  · intro user
    by_cases hUser : user = a.username
    · rw [if_pos hUser, hUser]
      exact hAdmin
    · rw [if_neg hUser]
      cases hRole : roleOn s.db user repoId with
      | none => rfl
      | some role =>
          exfalso
          rcases hOrderly.role user role hRole with
            ⟨k, hOther⟩
          rcases (hOrderly.granted k user hOther).2 with
            ⟨second, hSecond, hBy⟩
          have hSame := (hOrderly.recorded k second hSecond).2
          rw [hFind] at hSame
          cases hSame
          exact hUser (hBy.symm.trans hCreator)

/- With no winner nothing is there. -/
theorem vacant_of_none
    (hOrderly : Orderly config repoId start s trace)
    (hUnmade : ∀ j, ¬ Recorded markOf (j, .made) trace)
    (hNone : ∀ j, ¬ Recorded markOf (j, .won) trace) :
    Vacant config repoId s := by
  constructor
  · cases hFind : s.repos.find? repoId with
    | none => rfl
    | some record =>
        rcases hOrderly.record record hFind with ⟨j, hRecord⟩
        exact
          absurd (hOrderly.recorded j record hRecord).1 (hNone j)
  · by_contra hThere
    rcases hOrderly.made hThere with ⟨j, hMade⟩
    exact hUnmade j hMade
  · intro user
    cases hRole : roleOn s.db user repoId with
    | none => rfl
    | some role =>
        rcases hOrderly.role user role hRole with ⟨j, hGranted⟩
        rcases (hOrderly.granted j user hGranted).2 with
          ⟨record, hRecord, _⟩
        exact
          absurd (hOrderly.recorded j record hRecord).1 (hNone j)

/- At any time, an attempt that has failed has left
   nothing. -/
theorem nothingLeft_run
    (hVacant : Vacant config repoId start)
    (hValid : validRepoId repoId = true)
    (hRun :
      (provisionSystem config).Run (attemptsOn repoId)
        (Pool.initial start) p)
    (hFree : LateFree p.world.trace)
    (hEnd : .finished i outcome ∈ p.world.trace)
    (hError : ¬ Succeeds outcome) :
    NothingLeft config repoId i p.world.trace
      p.world.state := by
  have hInv := raceInv_run hVacant hValid hRun
  rcases fate_of_finished hVacant hValid hRun hFree hEnd with
    ⟨a, _, hFate⟩
  cases hFate with
  | succeeds _ _ _ => exact absurd ⟨_, rfl⟩ hError
  | loses _ hLost =>
      exact nothingLeft_of_lost (hInv.orderly hFree) hLost

/- In the end one has created the repository, or nothing is
   there. -/
theorem settled_run
    (hVacant : Vacant config repoId start)
    (hValid : validRepoId repoId = true)
    (hRun :
      (provisionSystem config).Run (attemptsOn repoId)
        (Pool.initial start) p)
    (hFree : LateFree p.world.trace)
    (hEnded : AllEnded p.world.trace) :
    Settled config repoId start p.world.trace
      p.world.state := by
  have hOrderly :=
    (raceInv_run hVacant hValid hRun).orderly hFree
  have hFates :
      ∀ i outcome, .finished i outcome ∈ p.world.trace →
        ∃ a, .started i a ∈ p.world.trace ∧
          Fate start i a p.world.trace outcome := by
    intro i outcome hEnd
    exact fate_of_finished hVacant hValid hRun hFree hEnd
  have hDone :
      ∀ j m, Recorded markOf (j, m) p.world.trace →
        ∃ outcome, .finished j outcome ∈ p.world.trace := by
    intro j m hRecorded
    rcases hRecorded with ⟨event, hMember, hMark⟩
    have hTask := task_of_markOf event j m hMark
    rcases (begun_run hRun).event event hMember with
      ⟨request, hStarted⟩
    rw [hTask] at hStarted
    exact hEnded j request hStarted
  by_cases hWon :
      ∃ j, Recorded markOf (j, .won) p.world.trace
  · rcases hWon with ⟨j, hWon⟩
    rcases hDone j .won hWon with ⟨outcome, hEnd⟩
    rcases createdBy_of_won hOrderly hFates hEnd hWon with
      ⟨a, hCreated⟩
    exact ⟨Or.inr ⟨j, a, hCreated⟩, fun _ _ => ⟨j, a, hCreated⟩⟩
  · have hNone :
        ∀ j, ¬ Recorded markOf (j, .won) p.world.trace := by
      intro j hHas
      exact hWon ⟨j, hHas⟩
    have hFails : NoneSucceeds p.world.trace := by
      intro i outcome hEnd hSuccess
      rcases hFates i outcome hEnd with ⟨a, _, hFate⟩
      rcases succeeds_of_fate hFate hSuccess with
        ⟨record, hRecorded, _, _⟩
      exact hNone i (hOrderly.recorded i record hRecorded).1
    have hLosers :
        ∀ i outcome, .finished i outcome ∈ p.world.trace →
          ∃ a, .started i a ∈ p.world.trace ∧
            Lost start a.username i p.world.trace := by
      intro i outcome hEnd
      rcases hFates i outcome hEnd with ⟨a, hStarted, hFate⟩
      cases hFate with
      | succeeds _ _ _ => exact absurd ⟨_, rfl⟩ (hFails i _ hEnd)
      | loses _ hLost => exact ⟨a, hStarted, hLost⟩
    have hEmpty : Vacant config repoId p.world.state := by
      apply vacant_of_none hOrderly _ hNone
      intro j hMade
      rcases hDone j .made hMade with ⟨outcome, hEnd⟩
      rcases hLosers j outcome hEnd with ⟨a, _, hLost⟩
      exact hWon (hLost.beaten hMade)
    refine
      ⟨Or.inl
        ⟨hFails, hEmpty, retriable_of_vacant hEmpty hValid⟩, ?_⟩
    intro hWorks hAllowed
    rcases hAllowed with ⟨i, a, hStarted, hMay⟩
    rcases hEnded i a hStarted with ⟨outcome, hEnd⟩
    rcases hLosers i outcome hEnd with ⟨b, hSame, hLost⟩
    have hRequest :=
      (raceInv_run hVacant hValid hRun).once i a b hStarted hSame
    subst hRequest
    exact absurd (hLost.turned hMay hWorks) hWon

------------------------------------------------------------
-- Atomic Provisioning
------------------------------------------------------------

/- Alone, an attempt is undone or done just when nothing fails
   late.  Among others, with nothing failing late, one that
   fails leaves nothing, and in the end one has created the
   repository or nothing is there. -/
theorem provisioning_iff
    {config : ProvisionConfig}
    {repoId : String}
    {start : ProvisionState}
    (hVacant : Vacant config repoId start)
    (hValid : validRepoId repoId = true) :
    (∀ (a : Attempt) steps outcome t,
        a.repoId = repoId →
          Solo ProvisionOp.exec (attempt config a) start steps
            outcome t →
            (Undone config repoId outcome t ↔
              ¬ FailsLate steps)) ∧
      ∀ p,
        (provisionSystem config).Run (attemptsOn repoId)
          (Pool.initial start) p →
          LateFree p.world.trace →
            (∀ i outcome,
                .finished i outcome ∈ p.world.trace →
                  ¬ Succeeds outcome →
                    NothingLeft config repoId i p.world.trace
                      p.world.state) ∧
              (AllEnded p.world.trace →
                Settled config repoId start p.world.trace
                  p.world.state) := by
  constructor
  · intro a steps outcome t hRepo hSolo
    subst hRepo
    exact undone_iff hVacant hValid hSolo
  · intro p hRun hFree
    constructor
    · intro i outcome hEnd hError
      exact
        nothingLeft_run hVacant hValid hRun hFree hEnd hError
    · intro hEnded
      exact settled_run hVacant hValid hRun hFree hEnded

theorem lateFree_of_noFailure
    (hNone : NoFailure trace) :
    LateFree trace := by
  induction trace with
  | nil => trivial
  | cons event older ih =>
      constructor
      · intro hFails
        rw [hNone event List.mem_cons_self] at hFails
        cases hFails
      · apply ih
        intro other hMember
        exact hNone other (List.mem_cons_of_mem _ hMember)

/- A small server, and a user who may create repositories. -/
def reposAt : ProvisionConfig where
  doltReposRootPath := "/repos"
  legacyUsers := []

def unprovisioned : ProvisionState where
  clock := 5
  db :=
    { users :=
        { rows :=
            [ { username := "ada"
                passwordHash := ""
                createdAt := 0
                createdBy := "root"
                active := true
                lastLoginAt := none
                isGlobalAdmin := false
                canCreateRepos := true } ]
          distinct := by simp }
      roles := KeyedTable.empty
      foreignKeys := true }
  repos := KeyedTable.empty
  directories := fun _ => .absent

theorem unprovisioned_vacant :
    Vacant reposAt "demo" unprovisioned := by
  constructor
  · rfl
  · rfl
  · intro user
    rfl

def choiceOf (fails : Bool) : ProvisionChoice where
  fails := fails
  text := ""
  code := 0
  leaves := false

def adaPosts : Attempt where
  caller := .request
  username := "ada"
  repoId := "demo"

def adaPushes : Attempt where
  caller := .push
  username := "ada"
  repoId := "demo"

/- A request whose insert fails leaves the directory, in which
   the binary does not start again; one whose grant fails
   leaves a record that nobody has a role on. -/
theorem half_created :
    Vacant reposAt "demo" unprovisioned ∧
      validRepoId "demo" = true ∧
      (∃ steps outcome t more u,
        Solo ProvisionOp.exec (attempt reposAt adaPosts)
            unprovisioned steps outcome t ∧
          ¬ Succeeds outcome ∧
          t.directories "/repos/demo" = .initialized ∧
          Solo ProvisionOp.steady (attempt reposAt adaPosts) t
            more
            (.ok
              (.response 500
                ("Failed to provision Dolt repo for \"demo\": " ++
                  "dolt init exited with code 1: " ++
                  "This directory has already been " ++
                  "initialized.")))
            u ∧
          ¬ Undone reposAt "demo" outcome t) ∧
      ∃ steps outcome t more u,
        Solo ProvisionOp.exec (attempt reposAt adaPosts)
            unprovisioned steps outcome t ∧
          ¬ Succeeds outcome ∧
          roleOn t.db "ada" "demo" = none ∧
          Solo ProvisionOp.steady (attempt reposAt adaPosts) t
            more
            (.ok
              (.response 409
                "repoId \"demo\" is already provisioned"))
            u ∧
          ¬ Undone reposAt "demo" outcome t := by
  have hFailed :
      ∀ status error,
        ¬ Succeeds (.ok (.response status error)) := by
    intro status error hSucceeds
    rcases hSucceeds with ⟨record, hOutcome⟩
    cases hOutcome
  have hRemains :
      ∀ status error t,
        t.directories "/repos/demo" = .initialized →
          ¬ Undone reposAt "demo"
            (.ok (.response status error)) t := by
    intro status error t hThere hUndone
    have hGone := (hUndone (hFailed status error)).1.noDirectory
    have hSame :
        t.directories "/repos/demo" = .absent := hGone
    rw [hThere] at hSame
    cases hSame
  refine ⟨unprovisioned_vacant, by decide, ?_, ?_⟩
  · have hRuns :
        ∃ steps t more u,
          solo? ProvisionOp.exec (attempt reposAt adaPosts)
              unprovisioned
              ([false, false, false, false, false, true].map
                choiceOf) =
            some
              (steps,
                .ok (.response 500 "database unavailable"),
                t) ∧
            solo? ProvisionOp.steady (attempt reposAt adaPosts)
                t (List.replicate 4 (choiceOf false)) =
              some
                (more,
                  .ok
                    (.response 500
                      ("Failed to provision Dolt repo for " ++
                        "\"demo\": dolt init exited with " ++
                        "code 1: This directory has already " ++
                        "been initialized.")),
                  u) ∧
            t.directories "/repos/demo" = .initialized :=
      ⟨_, _, _, _, rfl, rfl, rfl⟩
    rcases hRuns with
      ⟨steps, t, more, u, hFirst, hSecond, hThere⟩
    exact
      ⟨steps, _, t, more, u, solo_of_solo? hFirst, hFailed _ _,
        hThere, solo_of_solo? hSecond, hRemains _ _ t hThere⟩
  · have hRuns :
        ∃ steps t more u,
          solo? ProvisionOp.exec (attempt reposAt adaPosts)
              unprovisioned
              ((List.replicate 8 false ++ [true]).map choiceOf) =
            some
              (steps,
                .ok (.response 500 "database unavailable"),
                t) ∧
            solo? ProvisionOp.steady (attempt reposAt adaPosts)
                t (List.replicate 2 (choiceOf false)) =
              some
                (more,
                  .ok
                    (.response 409
                      "repoId \"demo\" is already provisioned"),
                  u) ∧
            t.directories "/repos/demo" = .initialized ∧
            roleOn t.db "ada" "demo" = none :=
      ⟨_, _, _, _, rfl, rfl, rfl, rfl⟩
    rcases hRuns with
      ⟨steps, t, more, u, hFirst, hSecond, hThere, hRole⟩
    exact
      ⟨steps, _, t, more, u, solo_of_solo? hFirst, hFailed _ _,
        hRole, solo_of_solo? hSecond, hRemains _ _ t hThere⟩

/- Both have found no record when the first of them makes the
   directory. -/
def interleaved : List (Label ProvisionChoice Attempt) :=
  [.start 1 adaPosts, .start 2 adaPushes] ++
    [1, 1, 2, 2, 2, 1, 2, 1, 2, 1, 1, 1, 1, 1].map fun i =>
      .resume i (choiceOf false)

def startOf : ProvisionEvent → Option (Nat × Attempt)
  | .started i a => some (i, a)
  | _ => none

def endOf :
    ProvisionEvent →
      Option (Nat × Except ProvisionError Attempted)
  | .finished i outcome => some (i, outcome)
  | _ => none

theorem mem_of_endOf
    (hMember : (i, outcome) ∈ trace.filterMap endOf) :
    .finished i outcome ∈ trace := by
  rcases List.mem_filterMap.mp hMember with
    ⟨event, hEvent, hEnd⟩
  cases event with
  | finished j other =>
      cases hEnd
      exact hEvent
  | started j a => cases hEnd
  | performed j op answer s t => cases hEnd

/- A request whose first query fails, and a request and a
   first push at once. -/
theorem provisioning_iff_demo :
    (∃ steps outcome t,
        Solo ProvisionOp.exec (attempt reposAt adaPosts)
            unprovisioned steps outcome t ∧
          ¬ Succeeds outcome ∧
          Vacant reposAt "demo" t ∧
          Retriable reposAt "demo" t) ∧
      ∃ p,
        (provisionSystem reposAt).Run (attemptsOn "demo")
            (Pool.initial unprovisioned) p ∧
          ∃ j a,
            CreatedBy reposAt "demo" p.world.trace
              p.world.state j a := by
  have hValid : validRepoId "demo" = true := by decide
  have hBoth :=
    provisioning_iff unprovisioned_vacant hValid
  constructor
  · have hRun :
        ∃ steps t,
          solo? ProvisionOp.exec (attempt reposAt adaPosts)
              unprovisioned [choiceOf false, choiceOf true] =
            some
              (steps,
                .ok (.response 500 "database unavailable"),
                t) ∧
            afterMkdir steps = [] :=
      ⟨_, _, rfl, rfl⟩
    rcases hRun with ⟨steps, t, hSolo, hUnmade⟩
    have hEarly : ¬ FailsLate steps := by
      intro hLate
      rcases hLate with ⟨step, hMember, _⟩
      rw [hUnmade] at hMember
      cases hMember
    have hFailed :
        ¬ Succeeds
          (.ok (.response 500 "database unavailable")) := by
      intro hSucceeds
      rcases hSucceeds with ⟨record, hOutcome⟩
      cases hOutcome
    have hUndone :=
      (hBoth.1 adaPosts steps _ t rfl
        (solo_of_solo? hSolo)).mpr hEarly
    exact
      ⟨steps, _, t, solo_of_solo? hSolo, hFailed,
        (hUndone hFailed).1, (hUndone hFailed).2⟩
  · have hReplay :
        ∃ p first second,
          (provisionSystem reposAt).replay?
              (Pool.initial unprovisioned) interleaved =
            some p ∧
            p.world.trace.filterMap startOf =
              [(2, adaPushes), (1, adaPosts)] ∧
            p.world.trace.filterMap endOf =
              [(1, first), (2, second)] ∧
            (p.world.trace.all fun event =>
                !eventFails event) =
              true :=
      ⟨_, _, _, rfl, rfl, rfl, rfl⟩
    rcases hReplay with
      ⟨p, first, second, hReplay, hStarts, hEnds, hWorks⟩
    have hChecks :
        (provisionSystem reposAt).checks (fun _ _ _ => true)
            (Pool.initial unprovisioned) interleaved =
          true := by
      decide +kernel
    have hRun :
        (provisionSystem reposAt).Run (attemptsOn "demo")
          (Pool.initial unprovisioned) p := by
      refine
        System.run_of_checks ?_ (fun _ _ _ _ => trivial) hChecks
          hReplay
      intro i a hMember w
      unfold interleaved at hMember
      rcases List.mem_append.mp hMember with hStart | hResume
      · rcases List.mem_cons.mp hStart with hFirst | hRest
        · cases hFirst
          rfl
        · rw [List.mem_singleton] at hRest
          cases hRest
          rfl
      · rcases List.mem_map.mp hResume with ⟨k, _, hLabel⟩
        cases hLabel
    have hNone : NoFailure p.world.trace := by
      intro event hMember
      have hEvent := List.all_eq_true.mp hWorks event hMember
      rwa [Bool.not_eq_true'] at hEvent
    have hStarted :
        ∀ i a, .started i a ∈ p.world.trace →
          (i, a) ∈ [(2, adaPushes), (1, adaPosts)] := by
      intro i a hMember
      rw [← hStarts]
      exact List.mem_filterMap.mpr ⟨_, hMember, rfl⟩
    have hEnded : AllEnded p.world.trace := by
      intro i a hMember
      have hTask := hStarted i a hMember
      simp only [List.mem_cons, List.not_mem_nil, or_false,
        Prod.mk.injEq] at hTask
      rcases hTask with ⟨hTwo, _⟩ | ⟨hOne, _⟩
      · refine ⟨second, mem_of_endOf ?_⟩
        rw [hEnds, hTwo]
        simp
      · refine ⟨first, mem_of_endOf ?_⟩
        rw [hEnds, hOne]
        simp
    have hSettled :=
      (hBoth.2 p hRun (lateFree_of_noFailure hNone)).2 hEnded
    refine ⟨p, hRun, hSettled.one hNone ⟨1, adaPosts, ?_, rfl⟩⟩
    have hFirst :
        (1, adaPosts) ∈ p.world.trace.filterMap startOf := by
      rw [hStarts]
      simp
    rcases List.mem_filterMap.mp hFirst with
      ⟨event, hMember, hStart⟩
    cases event with
    | started j a =>
        cases hStart
        exact hMember
    | performed j op answer s t => cases hStart
    | finished j outcome => cases hStart

end Provisioning

end Server
