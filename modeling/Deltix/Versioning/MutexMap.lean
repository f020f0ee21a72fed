import Deltix.Versioning.KeyedLock

/-
  The map of a mutex, whose entries are there to stay.

  The `finally` of a call compares the entry of its
  repository with the promise that the call itself made.
  The entry is the promise derived from that one, so the
  comparison fails in every run.

  Key definitions include:
    * `Mutex.AllSettled`
    * `Cleared`
    * `RemovedLate`

  Key theorems include:
    * `tails_eq_none_iff`
    * `called_of_step`
    * `map_tidy_iff`
-/

------------------------------------------------------------
-- Entries
------------------------------------------------------------

namespace Versioning

namespace RepoBranchMutex

variable {Repo Error Value : Type}

/- A call has been made for the repository. -/
def Mutex.Called
    (s : Mutex Repo Error Value)
    (repoId : Repo) : Prop :=
  ∃ call ∈ s.calls, call.repoId = repoId

/- All the calls made for the repository have settled. -/
def Mutex.AllSettled
    (s : Mutex Repo Error Value)
    (repoId : Repo) : Prop :=
  ∀ (i : Nat) (call : Call Repo),
    s.calls[i]? = some call → call.repoId = repoId →
      ∃ outcome, s.phase i = .done outcome

/- No entry outlives the calls that it was made for. -/
def Cleared (s : Mutex Repo Error Value) : Prop :=
  ∀ repoId, s.AllSettled repoId → s.tails repoId = none

/- An entry goes only if no call needs it any more. -/
def RemovedLate (s t : Mutex Repo Error Value) : Prop :=
  ∀ repoId,
    s.tails repoId ≠ none → t.tails repoId = none →
      t.AllSettled repoId

variable [DecidableEq Repo]
variable {s t : Mutex Repo Error Value}
variable {repoId : Repo}

/- The entries are those of the calls made so far. -/
theorem tails_eq_none_iff (hReached : Reached s) :
    s.tails repoId = none ↔ ¬ s.Called repoId := by
  have hLast := (inv_reached hReached).shape.last repoId
  constructor
  · intro hNone
    rintro ⟨call, hCall, hRepo⟩
    rcases hLast with ⟨_, hNever⟩ | ⟨i, other, _, _, hTail, _⟩
    · exact hNever call hCall hRepo
    · rw [hNone] at hTail
      cases hTail
  · intro hNever
    rcases hLast with ⟨hNone, _⟩ | ⟨i, call, hCall, hRepo, _⟩
    · exact hNone
    · exfalso
      apply hNever
      exact ⟨call, List.mem_of_getElem? hCall, hRepo⟩

/- A step takes no call back. -/
theorem called_of_step
    (hReached : Reached s)
    (hMoved : Step s t)
    (hCalled : s.Called repoId) :
    t.Called repoId := by
  rcases hCalled with ⟨call, hCall, hRepo⟩
  refine ⟨call, ?_, hRepo⟩
  cases hMoved with
  | call other =>
      exact List.mem_append_left _ hCall
  | settle i outcome hRunning =>
      exact hCall
  | tick _ throws hRan =>
      have hCalls :=
        (over_tick (i := 0) (inv_reached hReached) hRan).1
      rw [hCalls]
      exact hCall

/- No step removes an entry. -/
theorem tails_of_step
    (hReached : Reached s)
    (hMoved : Step s t)
    (hEntry : s.tails repoId ≠ none) :
    t.tails repoId ≠ none := by
  rw [Ne, tails_eq_none_iff hReached, not_not] at hEntry
  rw [Ne, tails_eq_none_iff (.step hReached hMoved), not_not]
  exact called_of_step hReached hMoved hEntry

/- The map is tidy where no called repository is at rest. -/
theorem cleared_iff (hReached : Reached s) :
    Cleared s ↔
      ∀ repoId, s.Called repoId → ¬ s.AllSettled repoId := by
  unfold Cleared
  constructor
  · intro hCleared repoId hCalled hSettled
    have hNone := hCleared repoId hSettled
    rw [tails_eq_none_iff hReached] at hNone
    exact hNone hCalled
  · intro hAtWork repoId hSettled
    rw [tails_eq_none_iff hReached]
    intro hCalled
    exact hAtWork repoId hCalled hSettled

/- A run from a reached state stays among such states, and
   removes no entry. -/
theorem run_of_reached
    (states : List (Mutex Repo Error Value))
    (hReached : Reached s)
    (hRun : (s :: states).IsChain Step) :
    (∀ t ∈ s :: states, Reached t) ∧
      (s :: states).IsChain RemovedLate := by
  induction states generalizing s with
  | nil =>
      constructor
      · intro t hMem
        rw [List.mem_singleton.mp hMem]
        exact hReached
      · exact List.IsChain.singleton s
  | cons next states ih =>
      rw [List.isChain_cons_cons] at hRun
      rcases hRun with ⟨hMoved, hRest⟩
      rcases ih (.step hReached hMoved) hRest with
        ⟨hAll, hLate⟩
      constructor
      · intro t hMem
        rcases List.mem_cons.mp hMem with hHere | hLater
        · rw [hHere]
          exact hReached
        · exact hAll t hLater
      · rw [List.isChain_cons_cons]
        refine ⟨?_, hLate⟩
        intro repoId hEntry hNone
        exact
          absurd hNone (tails_of_step hReached hMoved hEntry)

/-
  In a run of calls, ends of actions and jobs, in any order,
  the map is tidy throughout just if no repository that was
  called is ever at rest.
-/
theorem map_tidy_iff
    (states : List (Mutex Repo Error Value))
    (hRun : (Mutex.empty :: states).IsChain Step) :
    ((∀ s ∈ Mutex.empty :: states, Cleared s) ∧
        (Mutex.empty :: states).IsChain RemovedLate) ↔
      ∀ s ∈ Mutex.empty :: states, ∀ repoId,
        s.Called repoId → ¬ s.AllSettled repoId := by
  rcases run_of_reached states .start hRun with
    ⟨hReached, hLate⟩
  constructor
  · rintro ⟨hCleared, _⟩ s hMem
    exact (cleared_iff (hReached s hMem)).mp (hCleared s hMem)
  · intro hAtWork
    refine ⟨?_, hLate⟩
    intro s hMem
    exact (cleared_iff (hReached s hMem)).mpr (hAtWork s hMem)

/- One call on `r`. -/
def oneCall : Mutex String String Nat :=
  Mutex.empty.runExclusive "r"

/- The run of the first job, if there is one. -/
def ticked
    (s : Mutex String String Nat) : Mutex String String Nat :=
  (s.tick none).getD s

/- Until its action ends, the call keeps the map tidy. -/
theorem map_tidy_while_waiting :
    (∀ s ∈ [Mutex.empty, oneCall], Cleared s) ∧
      [Mutex.empty, oneCall].IsChain RemovedLate := by
  have hRun : [Mutex.empty, oneCall].IsChain Step :=
    .cons_cons (.call _ _) (.singleton _)
  apply (map_tidy_iff [oneCall] hRun).mpr
  intro s hMem repoId hCalled hSettled
  rcases List.mem_cons.mp hMem with hEmpty | hLater
  · rw [hEmpty] at hCalled
    rcases hCalled with ⟨call, hCall, _⟩
    cases hCall
  · rw [List.mem_singleton.mp hLater] at hCalled hSettled
    rcases hCalled with ⟨call, hCall, hRepo⟩
    rw [List.mem_singleton.mp hCall] at hRepo
    rcases hSettled 0 _ rfl hRepo with ⟨outcome, hDone⟩
    cases hDone

/- The call is let in. -/
def letIn : Mutex String String Nat :=
  ticked (ticked oneCall)

/- Its action ends, and so does the call. -/
def ended : Mutex String String Nat :=
  ticked (ticked (letIn.settleAction 0 (.ok 7)))

/- The only call has returned, and its entry is still there. -/
theorem entry_of_ended :
    ended.AllSettled "r" ∧ ended.tails "r" ≠ none := by
  constructor
  · intro i call hCall _
    have hLess : i < 1 :=
      (List.getElem?_eq_some_iff.mp hCall).1
    have hFirst : i = 0 := by omega
    rw [hFirst]
    exact ⟨.ok 7, rfl⟩
  · intro hNone
    cases hNone

theorem map_leaks :
    ¬ ∀ states : List (Mutex String String Nat),
        (Mutex.empty :: states).IsChain Step →
          (∀ s ∈ Mutex.empty :: states, Cleared s) ∧
            (Mutex.empty :: states).IsChain RemovedLate := by
  intro hAll
  have hRun :
      [Mutex.empty, oneCall, ticked oneCall, letIn,
        letIn.settleAction 0 (.ok 7),
        ticked (letIn.settleAction 0 (.ok 7)),
        ended].IsChain Step :=
    .cons_cons (.call _ _)
      (.cons_cons (.tick _ _ none rfl)
        (.cons_cons (.tick _ _ none rfl)
          (.cons_cons (.settle _ _ _ rfl)
            (.cons_cons (.tick _ _ none rfl)
              (.cons_cons (.tick _ _ none rfl)
                (.singleton _))))))
  rcases entry_of_ended with ⟨hSettled, hEntry⟩
  have hCleared := (hAll _ hRun).1 ended (by simp)
  exact hEntry (hCleared "r" hSettled)

end RepoBranchMutex

end Versioning
