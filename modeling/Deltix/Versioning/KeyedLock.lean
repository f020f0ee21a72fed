import Deltix.Versioning.MutexChain

/-
  The mutex is a keyed lock: exclusive, in the order of the
  calls, and with nothing but jobs between the end of an
  action and the start of the next.

  Key theorems include:
    * `blocked_of_quiet`
    * `done_of_entered`
    * `drain_ends`
    * `keyed_lock`
-/

------------------------------------------------------------
-- The Next Call Is Let In
------------------------------------------------------------

namespace Versioning

namespace RepoBranchMutex

open Concurrency PromiseHeap

variable {Repo Error Value : Type}
variable {s t : Mutex Repo Error Value}
variable {call : Call Repo} {i j n : Nat}

/- How many jobs a reaction still makes, itself included. -/
def hops : Reaction → Nat
  | .follow _ _ => 3
  | .adopt _ _ => 2
  | _ => 1

/- The action of a call has ended. -/
def Mutex.Over
    (s : Mutex Repo Error Value)
    (i : Nat) : Prop :=
  ∃ outcome,
    s.phase i = .returning outcome ∨ s.phase i = .done outcome

/-
  With no job left, a call waits for one that waits itself,
  or whose action is in progress.
-/
theorem blocked_of_quiet
    (hInv : Inv s)
    (hQuiet : s.heap.jobs = [])
    (hCall : s.calls[i]? = some call)
    (hWaiting : s.phase i = .waiting) :
    ∃ (k : Nat) (first : Call Repo),
      k < i ∧ s.calls[k]? = some first ∧
        first.repoId = call.repoId ∧ ¬ s.Over k := by
  have hSomewhere (w : Reaction → Nat)
      (hPos : 0 < s.heap.weight w) :
      ∃ place reaction,
        s.heap.Waits place reaction ∧
          ReactsTo s.calls reaction place ∧ 0 < w reaction := by
    rcases exists_of_weight_pos hPos with
      ⟨job, hJob, _⟩ | ⟨place, reaction, hWaits, hWeight⟩
    · rw [hQuiet] at hJob
      cases hJob
    · exact
        ⟨place, reaction, hWaits,
          hInv.flow.waits place reaction hWaits, hWeight⟩
  have hEntries := (hInv.stages i call hCall).entries
  rw [hWaiting, Phase.entries] at hEntries
  rcases hSomewhere _ (by rw [hEntries]; omega) with
    ⟨place, reaction, hWaits, hReacts, hWeight⟩
  have hPrevious : s.heap.Pending call.previous := by
    cases reaction with
    | resume k =>
        have hIndex : k = i := by
          by_contra hOther
          simp [resumes, hOther] at hWeight
        subst hIndex
        rcases hReacts with ⟨same, hSame, hPlace⟩
        rw [hCall, Option.some.injEq] at hSame
        rw [hSame, ← hPlace]
        exact pending_of_waits hWaits
    | _ => cases hWeight
  rcases hInv.shape.chained i call hCall with
    ⟨k, first, hLt, hFirst, hRepo, hLink, _⟩ | ⟨hSettled, _⟩
  · refine ⟨k, first, hLt, hFirst, hRepo, ?_⟩
    have hStage := hInv.stages k first hFirst
    rw [hLink] at hPrevious
    rcases hSomewhere _ (hStage.fed hPrevious) with
      ⟨place, reaction, hWaits, hReacts, hWeight⟩
    have hPending := pending_of_waits hWaits
    have hSame {other : Call Repo}
        (hOther : other ∈ s.calls)
        (hDerived : other.derived = first.derived) :
        other = first := by
      rcases List.getElem?_of_mem hOther with ⟨m, hOther⟩
      have hIndex :=
        index_of_current hInv.shape hOther hFirst
          (current_of_derived hDerived)
      rw [hIndex, hFirst, Option.some.injEq] at hOther
      exact hOther.symm
    rintro ⟨outcome, hOver⟩
    cases reaction with
    | follow derived current =>
        have hEq : derived = first.derived := by
          by_contra hOther
          simp [feeds, hOther] at hWeight
        rcases hReacts with
          ⟨other, hOther, hDerived, _, hPlace⟩
        rw [hSame hOther (hDerived.symm.trans hEq)] at hPlace
        rw [hPlace] at hPending
        refine not_settled_of_pending hPending (hStage.entered ?_)
        rintro hWaits
        rw [hWaits] at hOver
        rcases hOver with hOver | hOver
        · cases hOver
        · cases hOver
    | fulfil derived =>
        have hEq : derived = first.derived := by
          by_contra hOther
          simp [feeds, hOther] at hWeight
        rcases hReacts with ⟨other, hOther, hDerived, hPlace⟩
        rw [hSame hOther (hDerived.symm.trans hEq)] at hPlace
        rw [hPlace] at hPending
        rcases hOver with hReturning | hDone
        · have hExits := hStage.exits
          rw [hReturning, Phase.exits] at hExits
          rcases hSomewhere _ (by rw [hExits]; omega) with
            ⟨_, reaction, _, hNever, hWeight⟩
          cases reaction with
          | finish m => exact hNever
          | _ => cases hWeight
        · exact
            not_settled_of_pending hPending
              (hStage.left.mpr ⟨outcome, hDone⟩)
    | adopt derived current => exact hReacts
    | resume m => cases hWeight
    | finish m => cases hWeight
  · exact absurd hSettled (not_settled_of_pending hPrevious)

/- Who is let in finds all calls before it over. -/
theorem done_of_entered
    (hInv : Inv s)
    (hSecond : s.calls[j]? = some call)
    (hEntered : s.phase j ≠ .waiting) :
    ∀ (i : Nat) (first : Call Repo),
      i < j → s.calls[i]? = some first →
        first.repoId = call.repoId →
        ∃ outcome, s.phase i = .done outcome := by
  induction j using Nat.strong_induction_on generalizing call with
  | _ j ih =>
      intro i first hLt hFirst hRepo
      have hSettled := (hInv.stages j call hSecond).entered hEntered
      rcases hInv.shape.chained j call hSecond with
        ⟨k, before, hBefore, hFound, hSame, hLink, hBetween⟩ |
        ⟨_, hNone⟩
      · rw [hLink] at hSettled
        have hStage := hInv.stages k before hFound
        have hDone :=
          hStage.left.mp (hStage.linked hSettled)
        rcases Nat.lt_trichotomy i k with hLess | hEq | hMore
        · have hPhase : s.phase k ≠ .waiting := by
            rcases hDone with ⟨outcome, hDone⟩
            rw [hDone]
            intro hWaiting
            cases hWaiting
          exact
            ih k hBefore hFound hPhase i first hLess hFirst
              (hRepo.trans hSame.symm)
        · rw [hEq]
          exact hDone
        · exact absurd hRepo (hBetween i first hMore hLt hFirst)
      · exact absurd hRepo (hNone i first hLt hFirst)

variable [DecidableEq Repo]
variable {throws : Option Error}

/- A job leaves less to run. -/
theorem hops_tick
    (hRan : s.tick throws = some t) :
    t.heap.weight hops < s.heap.weight hops := by
  unfold Mutex.tick at hRan
  split at hRan
  · cases hRan
  · rename_i job rest hJobs
    rw [Option.some.injEq] at hRan
    subst hRan
    rw [weight_of_jobs hJobs]
    rcases job with ⟨reaction, result⟩
    cases reaction with
    | resume i =>
        have hHop : hops (.resume i) = 1 := rfl
        simp only [Mutex.runJob]
        split
        · unfold Mutex.resume
          split
          · simp only
            omega
          · split
            · simp only
              omega
            · simp only [Mutex.leave, weight_settle]
              omega
        · simp only
          omega
    | follow derived current =>
        have hHop : hops (.follow derived current) = 3 := rfl
        have hNext : hops (.adopt derived current) = 2 := rfl
        cases result with
        | ok value =>
            simp only [Mutex.runJob, weight_enqueue]
            omega
        | error error =>
            simp only [Mutex.runJob, weight_settle]
            omega
    | adopt derived current =>
        have hHop : hops (.adopt derived current) = 2 := rfl
        have hNext : hops (.fulfil derived) = 1 := rfl
        have hLe :
            ((s.heap.withJobs rest).react current
                (.fulfil derived)).weight hops ≤
              (s.heap.withJobs rest).weight hops +
                hops (.fulfil derived) :=
          weight_react_le
        simp only [Mutex.runJob]
        omega
    | fulfil derived =>
        have hHop : hops (.fulfil derived) = 1 := rfl
        simp only [Mutex.runJob, weight_settle]
        omega
    | finish i =>
        have hHop : hops (.finish i) = 1 := rfl
        simp only [Mutex.runJob]
        split
        · simp only [Mutex.leave, weight_settle]
          omega
        · simp only
          omega

/- The jobs come to an end, whatever they start. -/
theorem drain_ends
    (s : Mutex Repo Error Value)
    (throws : Nat → Option Error) :
    ∃ n, ∃ t : Mutex Repo Error Value,
      drain throws n s = some t ∧ t.heap.jobs = [] := by
  generalize hMeasure : s.heap.weight hops = measure
  induction measure using Nat.strong_induction_on
    generalizing s throws with
  | _ measure ih =>
      cases hRan : s.tick (throws 0) with
      | none =>
          refine ⟨0, s, rfl, ?_⟩
          unfold Mutex.tick at hRan
          split at hRan
          · assumption
          · cases hRan
      | some next =>
          have hLess := hops_tick hRan
          rw [hMeasure] at hLess
          rcases
              ih _ hLess next (fun k => throws (k + 1)) rfl with
            ⟨n, t, hDrain, hQuiet⟩
          refine ⟨n + 1, t, ?_, hQuiet⟩
          simp only [drain, hRan]
          exact hDrain

------------------------------------------------------------
-- The Mutex Is A Keyed Lock
------------------------------------------------------------

/- A job makes no call, and brings no action back. -/
theorem over_tick
    (hInv : Inv s)
    (hRan : s.tick throws = some t) :
    t.calls = s.calls ∧ (s.Over i → t.Over i) := by
  unfold Mutex.tick at hRan
  split at hRan
  · cases hRan
  · rename_i job rest hJobs
    rw [Option.some.injEq] at hRan
    subst hRan
    rcases job with ⟨reaction, result⟩
    cases reaction with
    | resume j =>
        rcases waiting_of_resume hInv hJobs with
          ⟨call, hCall, hOk, hWaiting, _⟩
        have hNe : s.Over i → i ≠ j := by
          rintro ⟨outcome, hOver⟩ hSame
          rw [hSame, hWaiting] at hOver
          rcases hOver with hOver | hOver
          · cases hOver
          · cases hOver
        subst hOk
        simp only [Mutex.runJob, hCall]
        cases throws with
        | none =>
            refine ⟨rfl, ?_⟩
            intro hOver
            simp only [Mutex.resume, Mutex.Over,
              Function.update_of_ne (hNe hOver)]
            exact hOver
        | some error =>
            refine ⟨rfl, ?_⟩
            intro hOver
            simp only [Mutex.resume, Mutex.leave, Mutex.Over,
              Function.update_of_ne (hNe hOver)]
            exact hOver
    | follow derived current =>
        cases result with
        | ok value => exact ⟨rfl, id⟩
        | error error => exact ⟨rfl, id⟩
    | adopt derived current => exact ⟨rfl, id⟩
    | fulfil derived => exact ⟨rfl, id⟩
    | finish j =>
        simp only [Mutex.runJob]
        split
        · rename_i call outcome _ _
          refine ⟨rfl, ?_⟩
          intro hOver
          unfold Mutex.Over Mutex.leave
          by_cases hSame : i = j
          · subst hSame
            simp only [Function.update_self]
            exact ⟨outcome, Or.inr rfl⟩
          · simp only [Function.update_of_ne hSame]
            exact hOver
        · exact ⟨rfl, id⟩

theorem over_drain
    {throws : Nat → Option Error}
    (hInv : Inv s)
    (hDrain : drain throws n s = some t) :
    Inv t ∧ t.calls = s.calls ∧
      ∀ i, s.Over i → t.Over i := by
  induction n generalizing s throws with
  | zero =>
      cases hDrain
      exact ⟨hInv, rfl, fun _ hOver => hOver⟩
  | succ n ih =>
      unfold drain at hDrain
      split at hDrain
      · cases hDrain
      · rename_i next hRan
        rcases ih (inv_tick hInv hRan) hDrain with
          ⟨hLast, hCalls, hOver⟩
        refine ⟨hLast, ?_, ?_⟩
        · rw [hCalls]
          exact (over_tick (i := 0) hInv hRan).1
        · intro i hBefore
          exact hOver i ((over_tick hInv hRan).2 hBefore)

/- Only jobs are needed to let in whoever is next. -/
theorem enabled_of_next
    (hInv : Inv s)
    (hNext :
      ∀ j, s.SameRepo i j →
        s.phase j ≠ .running ∧
          (s.phase j = .waiting → i ≤ j))
    (hMade : s.SameRepo i i) :
    s.Enabled i := by
  intro throws
  rcases drain_ends s throws with ⟨n, t, hDrain, hQuiet⟩
  refine ⟨n, t, hDrain, ?_⟩
  intro hStill
  rcases over_drain hInv hDrain with ⟨hLast, hCalls, hOver⟩
  rcases hMade with ⟨call, _, hCall, _, _⟩
  rw [← hCalls] at hCall
  rcases blocked_of_quiet hLast hQuiet hCall hStill with
    ⟨k, first, hLt, hFirst, hRepo, hNot⟩
  rw [hCalls] at hCall hFirst
  apply hNot
  apply hOver
  have hBefore := hNext k ⟨call, first, hCall, hFirst, hRepo.symm⟩
  cases hPhase : s.phase k with
  | waiting =>
      have hLe := hBefore.2 hPhase
      omega
  | running => exact absurd hPhase hBefore.1
  | returning outcome => exact ⟨outcome, Or.inl hPhase⟩
  | done outcome => exact ⟨outcome, Or.inr hPhase⟩

theorem reached_drain
    {throws : Nat → Option Error}
    (hReached : Reached s)
    (hDrain : drain throws n s = some t) :
    Reached t := by
  induction n generalizing s throws with
  | zero =>
      cases hDrain
      exact hReached
  | succ n ih =>
      unfold drain at hDrain
      split at hDrain
      · cases hDrain
      · rename_i next hRan
        exact ih (.step hReached (.tick _ _ _ hRan)) hDrain

/-
  For any calls on any repositories, with actions that end
  in any way at any time, and with any jobs run in between,
  the mutex is a keyed lock.
-/
theorem keyed_lock
    (s : Mutex Repo Error Value)
    (hReached : Reached s) :
    KeyedLock s := by
  have hInv := inv_reached hReached
  have hOrder (i j : Nat)
      (hSame : s.SameRepo i j)
      (hLt : i < j)
      (hEntered : s.phase j ≠ .waiting) :
      ∃ outcome, s.phase i = .done outcome := by
    rcases hSame with ⟨first, second, hFirst, hSecond, hRepo⟩
    exact
      done_of_entered hInv hSecond hEntered i first hLt hFirst
        hRepo
  have hAlone (i j : Nat)
      (hSame : s.SameRepo i j)
      (hFirst : s.phase i = .running)
      (hSecond : s.phase j = .running) :
      ¬ i < j := by
    intro hLt
    rcases hOrder i j hSame hLt (by simp [hSecond]) with
      ⟨outcome, hDone⟩
    rw [hFirst] at hDone
    cases hDone
  constructor
  · intro i j hSame hFirst hSecond
    have hSwap : s.SameRepo j i := by
      rcases hSame with
        ⟨first, second, hFirst, hSecond, hRepo⟩
      exact ⟨second, first, hSecond, hFirst, hRepo.symm⟩
    have hNotLess := hAlone i j hSame hFirst hSecond
    have hNotMore := hAlone j i hSwap hSecond hFirst
    omega
  · exact hOrder
  · intro i outcome
    have hRecorded := hInv.recorded i outcome
    constructor
    · intro hDone
      exact hRecorded.mpr (Or.inr hDone)
    · exact hRecorded.mp
  · intro i hMade _ hNext
    exact enabled_of_next hInv hNext hMade

/- Two calls on `r`, and one on `q`. -/
def threeCalls : Mutex String String Nat :=
  ((Mutex.empty.runExclusive "r").runExclusive "r").runExclusive
    "q"

/- The first call on `r` and the one on `q` are let in, while
   the second one on `r` waits. -/
theorem keyed_lock_of_three :
    ∃ t : Mutex String String Nat,
      drain (fun _ => none) 6 threeCalls = some t ∧
        KeyedLock t ∧
        t.phase 0 = .running ∧ t.phase 1 = .waiting ∧
        t.phase 2 = .running ∧ t.heap.jobs.length = 0 := by
  have hDrain :
      ∃ t : Mutex String String Nat,
        drain (fun _ => none) 6 threeCalls = some t ∧
          t.phase 0 = .running ∧ t.phase 1 = .waiting ∧
          t.phase 2 = .running ∧ t.heap.jobs.length = 0 :=
    ⟨_, rfl, rfl, rfl, rfl, rfl⟩
  rcases hDrain with ⟨t, hDrain, hPhases⟩
  have hThree : Reached threeCalls :=
    .step (.step (.step .start (.call _ _)) (.call _ _))
      (.call _ _)
  have hReached := reached_drain hThree hDrain
  exact ⟨t, hDrain, keyed_lock t hReached, hPhases⟩

end RepoBranchMutex

end Versioning
