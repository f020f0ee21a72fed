import Mathlib.Algebra.GroupWithZero.Nat
import Mathlib.Algebra.Order.BigOperators.Group.List
import Mathlib.Algebra.Order.Group.Nat
import Mathlib.Data.List.Basic

/-
  Promises of the language, and the jobs that settling them
  queues.

  A promise that is pending holds the reactions registered
  on it.  Settling it queues each of them with the result,
  and a reaction registered later is queued at once.  Jobs
  run one at a time, in the order in which they are queued.

  Key definitions include:
    * `Promise`
    * `Job`
    * `PromiseHeap`
    * `PromiseHeap.react`
    * `PromiseHeap.settle`
    * `PromiseHeap.weight`

  Key theorems include:
    * `PromiseHeap.waits_react_iff`
    * `PromiseHeap.waits_settle_iff`
    * `PromiseHeap.weight_react`
    * `PromiseHeap.weight_settle`
    * `PromiseHeap.exists_of_weight_pos`
-/

------------------------------------------------------------
-- The Heap Of Promises
------------------------------------------------------------

namespace Concurrency

/- A promise of nothing but an end. -/
inductive Promise (Reaction Error : Type) where
  | pending (reactions : List Reaction)
  | settled (result : Except Error Unit)

/- A reaction and the result that it is called with. -/
structure Job (Reaction Error : Type) where
  reaction : Reaction
  result : Except Error Unit

/- A promise is known by its place in the heap. -/
structure PromiseHeap (Reaction Error : Type) where
  promises : List (Promise Reaction Error)
  jobs : List (Job Reaction Error)

namespace PromiseHeap

variable {Reaction Error : Type}

def empty : PromiseHeap Reaction Error where
  promises := []
  jobs := []

/- The place of the next promise. -/
def size (h : PromiseHeap Reaction Error) : Nat :=
  h.promises.length

/- Make a promise, whose place is the size. -/
def alloc
    (h : PromiseHeap Reaction Error)
    (promise : Promise Reaction Error) :
    PromiseHeap Reaction Error :=
  { h with promises := h.promises ++ [promise] }

def enqueue
    (h : PromiseHeap Reaction Error)
    (job : Job Reaction Error) :
    PromiseHeap Reaction Error :=
  { h with jobs := h.jobs ++ [job] }

/- The same promises, with other jobs queued. -/
def withJobs
    (h : PromiseHeap Reaction Error)
    (jobs : List (Job Reaction Error)) :
    PromiseHeap Reaction Error :=
  { h with jobs := jobs }

/- Register a reaction on a promise. -/
def react
    (h : PromiseHeap Reaction Error)
    (place : Nat)
    (reaction : Reaction) :
    PromiseHeap Reaction Error :=
  match h.promises[place]? with
  | some (.pending reactions) =>
      { h with
        promises :=
          h.promises.set place
            (.pending (reactions ++ [reaction])) }
  | some (.settled result) => h.enqueue ⟨reaction, result⟩
  | none => h

/- Settle a promise, unless it is settled. -/
def settle
    (h : PromiseHeap Reaction Error)
    (place : Nat)
    (result : Except Error Unit) :
    PromiseHeap Reaction Error :=
  match h.promises[place]? with
  | some (.pending reactions) =>
      { promises := h.promises.set place (.settled result)
        jobs :=
          h.jobs ++
            reactions.map fun reaction =>
              ⟨reaction, result⟩ }
  | _ => h

/- The promise is settled with a result. -/
def Settled
    (h : PromiseHeap Reaction Error)
    (place : Nat)
    (result : Except Error Unit) : Prop :=
  h.promises[place]? = some (.settled result)

def Pending
    (h : PromiseHeap Reaction Error)
    (place : Nat) : Prop :=
  ∃ reactions, h.promises[place]? = some (.pending reactions)

/- A reaction waits for the promise. -/
def Waits
    (h : PromiseHeap Reaction Error)
    (place : Nat)
    (reaction : Reaction) : Prop :=
  ∃ reactions,
    h.promises[place]? = some (.pending reactions) ∧
      reaction ∈ reactions

------------------------------------------------------------
-- What The Operations Do
------------------------------------------------------------

variable {Reaction Error : Type}
variable {h : PromiseHeap Reaction Error}
variable {place other : Nat} {reaction new : Reaction}
variable {result : Except Error Unit}
variable {job added : Job Reaction Error}

theorem pending_or_settled (hPlace : place < h.size) :
    h.Pending place ∨ ∃ result, h.Settled place result := by
  have hGet := List.getElem?_eq_getElem hPlace
  cases hPromise : h.promises[place] with
  | pending reactions =>
      left
      exact ⟨reactions, hGet.trans (congrArg some hPromise)⟩
  | settled result =>
      right
      exact ⟨result, hGet.trans (congrArg some hPromise)⟩

theorem not_settled_of_pending
    (hPending : h.Pending place) :
    ¬ h.Settled place result := by
  rcases hPending with ⟨reactions, hPending⟩
  intro hSettled
  rw [Settled, hPending] at hSettled
  cases hSettled

theorem pending_of_waits
    (hWaits : h.Waits place reaction) :
    h.Pending place := by
  rcases hWaits with ⟨reactions, hPending, _⟩
  exact ⟨reactions, hPending⟩

theorem lt_size_of_pending
    (hPending : h.Pending place) :
    place < h.size := by
  rcases hPending with ⟨reactions, hGet⟩
  exact (List.getElem?_eq_some_iff.mp hGet).1

/- The queue says nothing of the promises. -/

@[simp] theorem settled_jobs_iff
    {jobs : List (Job Reaction Error)} :
    (h.withJobs jobs).Settled place result ↔
      h.Settled place result :=
  Iff.rfl

@[simp] theorem pending_jobs_iff
    {jobs : List (Job Reaction Error)} :
    (h.withJobs jobs).Pending place ↔
      h.Pending place :=
  Iff.rfl

@[simp] theorem waits_jobs_iff
    {jobs : List (Job Reaction Error)} :
    (h.withJobs jobs).Waits place reaction ↔
      h.Waits place reaction :=
  Iff.rfl

@[simp] theorem settled_enqueue_iff :
    (h.enqueue added).Settled place result ↔
      h.Settled place result :=
  Iff.rfl

@[simp] theorem pending_enqueue_iff :
    (h.enqueue added).Pending place ↔ h.Pending place :=
  Iff.rfl

@[simp] theorem waits_enqueue_iff :
    (h.enqueue added).Waits place reaction ↔
      h.Waits place reaction :=
  Iff.rfl

@[simp] theorem mem_jobs_enqueue_iff :
    job ∈ (h.enqueue added).jobs ↔
      job ∈ h.jobs ∨ job = added := by
  simp [enqueue]

@[simp] theorem size_jobs
    {jobs : List (Job Reaction Error)} :
    (h.withJobs jobs).size = h.size := rfl

/- Allocation. -/

@[simp] theorem size_alloc
    (promise : Promise Reaction Error) :
    (h.alloc promise).size = h.size + 1 := by
  simp [alloc, size]

@[simp] theorem jobs_alloc
    (promise : Promise Reaction Error) :
    (h.alloc promise).jobs = h.jobs := rfl

theorem get_alloc
    (promise : Promise Reaction Error) :
    (h.alloc promise).promises[place]? =
      if place = h.size then some promise
      else h.promises[place]? := by
  unfold alloc size
  by_cases hPlace : place = h.promises.length
  · simp [hPlace]
  · rw [if_neg hPlace]
    by_cases hOld : place < h.promises.length
    · rw [List.getElem?_append_left hOld]
    · rw [List.getElem?_eq_none (by simp; omega),
        List.getElem?_eq_none (by omega)]

theorem get_alloc_iff
    {promise found : Promise Reaction Error} :
    (h.alloc promise).promises[place]? = some found ↔
      h.promises[place]? = some found ∨
        place = h.size ∧ promise = found := by
  rw [get_alloc]
  by_cases hPlace : place = h.size
  · have hNone : h.promises[place]? = none :=
      List.getElem?_eq_none (by unfold size at hPlace; omega)
    subst hPlace
    simp [hNone]
  · simp [hPlace]

theorem settled_alloc_iff
    {promise : Promise Reaction Error} :
    (h.alloc promise).Settled place result ↔
      h.Settled place result ∨
        place = h.size ∧ promise = .settled result :=
  get_alloc_iff

theorem pending_alloc_iff
    {promise : Promise Reaction Error} :
    (h.alloc promise).Pending place ↔
      h.Pending place ∨
        place = h.size ∧
          ∃ reactions, promise = .pending reactions := by
  unfold Pending
  simp only [get_alloc_iff, exists_or, exists_and_left]

theorem waits_alloc_iff :
    (h.alloc (.pending [])).Waits place reaction ↔
      h.Waits place reaction := by
  unfold Waits
  simp [get_alloc_iff, or_and_right, exists_or]

theorem waits_alloc_settled_iff :
    (h.alloc (.settled result)).Waits place reaction ↔
      h.Waits place reaction := by
  unfold Waits
  simp [get_alloc_iff]

/- Registration. -/

@[simp] theorem size_enqueue :
    (h.enqueue added).size = h.size := rfl

@[simp] theorem promises_enqueue :
    (h.enqueue added).promises = h.promises := rfl

@[simp] theorem size_react :
    (h.react place new).size = h.size := by
  unfold react
  split
  · simp [size]
  · exact size_enqueue
  · rfl

theorem settled_react_iff :
    (h.react place new).Settled other result ↔
      h.Settled other result := by
  unfold react
  split
  · rename_i reactions hGet
    unfold Settled
    rw [List.getElem?_set]
    by_cases hSame : place = other
    · subst hSame
      rw [hGet]
      simp
    · simp [hSame]
  · rfl
  · rfl

theorem pending_react_iff :
    (h.react place new).Pending other ↔ h.Pending other := by
  unfold react
  split
  · rename_i reactions hGet
    have hPending : h.Pending place := ⟨reactions, hGet⟩
    have hPlace := lt_size_of_pending hPending
    by_cases hSame : place = other
    · subst hSame
      unfold Pending
      rw [List.getElem?_set_self hPlace]
      simp [hGet]
    · unfold Pending
      rw [List.getElem?_set_ne hSame]
  · rfl
  · rfl

theorem waits_react_iff :
    (h.react place new).Waits other reaction ↔
      h.Waits other reaction ∨
        h.Pending place ∧ other = place ∧ reaction = new := by
  unfold react
  split
  · rename_i reactions hGet
    have hPending : h.Pending place := ⟨reactions, hGet⟩
    have hPlace := lt_size_of_pending hPending
    unfold Waits
    by_cases hSame : place = other
    · subst hSame
      rw [List.getElem?_set_self hPlace]
      simp [hGet, hPending]
    · rw [List.getElem?_set_ne hSame]
      have hOther : ¬ other = place :=
        fun hEq => hSame hEq.symm
      simp [hOther]
  · rename_i settled hGet
    have hNot : ¬ h.Pending place := by
      rintro ⟨reactions, hPending⟩
      rw [hGet] at hPending
      cases hPending
    simp [hNot, Waits]
  · rename_i hGet
    have hNot : ¬ h.Pending place := by
      rintro ⟨reactions, hPending⟩
      rw [hGet] at hPending
      cases hPending
    simp [hNot]

theorem mem_jobs_react_iff :
    job ∈ (h.react place new).jobs ↔
      job ∈ h.jobs ∨
        h.Settled place job.result ∧ job.reaction = new := by
  unfold react
  split
  · rename_i reactions hGet
    simp [Settled, hGet]
  · rename_i settled hGet
    unfold enqueue Settled
    rw [hGet]
    constructor
    · intro hMember
      rcases List.mem_append.mp hMember with hOld | hNew
      · exact Or.inl hOld
      · right
        rw [List.mem_singleton.mp hNew]
        exact ⟨rfl, rfl⟩
    · rintro (hOld | ⟨hResult, hReaction⟩)
      · exact List.mem_append_left _ hOld
      · apply List.mem_append_right
        rcases job with ⟨reaction, result⟩
        cases hResult
        cases hReaction
        exact List.mem_singleton.mpr rfl
  · rename_i hGet
    simp [Settled, hGet]

/- Settlement. -/

@[simp] theorem size_settle :
    (h.settle place result).size = h.size := by
  unfold settle
  split
  · simp [size]
  · rfl

theorem settled_settle_iff
    {ended : Except Error Unit} :
    (h.settle place result).Settled other ended ↔
      h.Settled other ended ∨
        h.Pending place ∧ other = place ∧ ended = result := by
  unfold settle
  split
  · rename_i reactions hGet
    have hPending : h.Pending place := ⟨reactions, hGet⟩
    have hPlace := lt_size_of_pending hPending
    unfold Settled
    by_cases hSame : place = other
    · subst hSame
      rw [List.getElem?_set_self hPlace, hGet]
      simp [hPending, eq_comm]
    · rw [List.getElem?_set_ne hSame]
      have hOther : ¬ other = place :=
        fun hEq => hSame hEq.symm
      simp [hOther]
  · rename_i hNone
    have hNot : ¬ h.Pending place := by
      rintro ⟨reactions, hPending⟩
      exact hNone reactions hPending
    simp [hNot]

theorem get_settle_iff
    {waiting : List Reaction} :
    (h.settle place result).promises[other]? =
        some (.pending waiting) ↔
      h.promises[other]? = some (.pending waiting) ∧
        other ≠ place := by
  unfold settle
  split
  · rename_i reactions hGet
    have hPlace : place < h.size :=
      lt_size_of_pending ⟨reactions, hGet⟩
    by_cases hSame : place = other
    · subst hSame
      rw [List.getElem?_set_self hPlace]
      simp
    · rw [List.getElem?_set_ne hSame]
      have hOther : other ≠ place :=
        fun hEq => hSame hEq.symm
      simp [hOther]
  · rename_i hNone
    constructor
    · intro hPending
      refine ⟨hPending, ?_⟩
      intro hSame
      rw [hSame] at hPending
      exact hNone waiting hPending
    · exact And.left

theorem pending_settle_iff :
    (h.settle place result).Pending other ↔
      h.Pending other ∧ other ≠ place := by
  unfold Pending
  simp only [get_settle_iff, exists_and_right]

theorem waits_settle_iff :
    (h.settle place result).Waits other reaction ↔
      h.Waits other reaction ∧ other ≠ place := by
  unfold Waits
  simp only [get_settle_iff, ← exists_and_right]
  exact exists_congr fun _ => and_right_comm

theorem mem_jobs_settle_iff :
    job ∈ (h.settle place result).jobs ↔
      job ∈ h.jobs ∨
        h.Waits place job.reaction ∧ job.result = result := by
  unfold settle
  split
  · rename_i reactions hGet
    unfold Waits
    rw [hGet]
    constructor
    · intro hMember
      rcases List.mem_append.mp hMember with hOld | hNew
      · exact Or.inl hOld
      · right
        rcases List.mem_map.mp hNew with
          ⟨reaction, hReaction, hJob⟩
        rw [← hJob]
        exact ⟨⟨reactions, rfl, hReaction⟩, rfl⟩
    · rintro (hOld | ⟨⟨others, hSame, hReaction⟩, hResult⟩)
      · exact List.mem_append_left _ hOld
      · apply List.mem_append_right
        cases hSame
        rw [List.mem_map]
        refine ⟨job.reaction, hReaction, ?_⟩
        rw [← hResult]
  · rename_i hNone
    constructor
    · exact Or.inl
    · rintro (hOld | ⟨⟨reactions, hPending, _⟩, _⟩)
      · exact hOld
      · exact absurd hPending (hNone reactions)

end PromiseHeap

end Concurrency

------------------------------------------------------------
-- How Much Is Left To Run
------------------------------------------------------------

namespace Concurrency

variable {Reaction Error : Type}

/- The weight of the reactions of a promise. -/
def Promise.weight
    (w : Reaction → Nat) :
    Promise Reaction Error → Nat
  | .pending reactions => (reactions.map w).sum
  | .settled _ => 0

namespace PromiseHeap

/- The weight of all that is registered or queued. -/
def weight
    (w : Reaction → Nat)
    (h : PromiseHeap Reaction Error) : Nat :=
  (h.promises.map (Promise.weight w)).sum +
    (h.jobs.map fun job => w job.reaction).sum

variable {w : Reaction → Nat}
variable {h : PromiseHeap Reaction Error}
variable {place : Nat} {reaction : Reaction}
variable {result : Except Error Unit}
variable {job : Job Reaction Error}

theorem sum_map_set
    {Element : Type}
    {elements : List Element}
    {f : Element → Nat}
    {old new : Element}
    (hGet : elements[place]? = some old) :
    ((elements.set place new).map f).sum + f old =
      (elements.map f).sum + f new := by
  induction elements generalizing place with
  | nil => cases hGet
  | cons element rest ih =>
      cases place with
      | zero =>
          cases hGet
          simp only [List.set_cons_zero, List.map_cons,
            List.sum_cons]
          omega
      | succ place =>
          have hRest := ih hGet
          simp only [List.set_cons_succ, List.map_cons,
            List.sum_cons]
          omega

@[simp] theorem weight_enqueue :
    (h.enqueue job).weight w =
      h.weight w + w job.reaction := by
  simp only [weight, enqueue, List.map_append,
    List.sum_append, List.map_cons, List.map_nil,
    List.sum_cons, List.sum_nil]
  omega

@[simp] theorem weight_alloc
    (promise : Promise Reaction Error) :
    (h.alloc promise).weight w =
      h.weight w + promise.weight w := by
  simp only [weight, alloc, List.map_append,
    List.sum_append, List.map_cons, List.map_nil,
    List.sum_cons, List.sum_nil]
  omega

theorem weight_react (hPlace : place < h.size) :
    (h.react place reaction).weight w =
      h.weight w + w reaction := by
  unfold react
  split
  · rename_i reactions hGet
    have hSum :
        ((h.promises.set place
              (.pending (reactions ++ [reaction]))).map
            (Promise.weight w)).sum +
            Promise.weight w (.pending reactions : Promise
              Reaction Error) =
          (h.promises.map (Promise.weight w)).sum +
            Promise.weight w
              (.pending (reactions ++ [reaction]) : Promise
                Reaction Error) :=
      sum_map_set hGet
    simp only [Promise.weight, List.map_append,
      List.sum_append, List.map_cons, List.map_nil,
      List.sum_cons, List.sum_nil] at hSum
    simp only [weight]
    omega
  · exact weight_enqueue
  · rename_i hGet
    have hNone := List.getElem?_eq_none_iff.mp hGet
    unfold size at hPlace
    omega

theorem weight_react_le :
    (h.react place reaction).weight w ≤
      h.weight w + w reaction := by
  by_cases hPlace : place < h.size
  · rw [weight_react hPlace]
  · have hNone : h.promises[place]? = none :=
      List.getElem?_eq_none (by unfold size at hPlace; omega)
    have hSame : h.react place reaction = h := by
      simp [react, hNone]
    rw [hSame]
    omega

/- Settling moves reactions and adds none. -/
@[simp] theorem weight_settle :
    (h.settle place result).weight w = h.weight w := by
  unfold settle
  split
  · rename_i reactions hGet
    have hSum :
        ((h.promises.set place (.settled result)).map
            (Promise.weight w)).sum +
            Promise.weight w (.pending reactions : Promise
              Reaction Error) =
          (h.promises.map (Promise.weight w)).sum +
            Promise.weight w (.settled result : Promise
              Reaction Error) :=
      sum_map_set hGet
    simp only [Promise.weight] at hSum
    simp only [weight, List.map_append, List.sum_append,
      List.map_map]
    have hJobs :
        (reactions.map
            ((fun job : Job Reaction Error =>
                w job.reaction) ∘
              fun reaction => ⟨reaction, result⟩)).sum =
          (reactions.map w).sum := rfl
    omega
  · rfl

theorem weight_of_jobs
    {rest : List (Job Reaction Error)}
    (hJobs : h.jobs = job :: rest) :
    h.weight w =
      w job.reaction + (h.withJobs rest).weight w := by
  simp only [weight, withJobs, hJobs, List.map_cons, List.sum_cons]
  omega

/- What weighs something is queued, or waits. -/
theorem exists_of_weight_pos (hPos : 0 < h.weight w) :
    (∃ job ∈ h.jobs, 0 < w job.reaction) ∨
      ∃ place reaction,
        h.Waits place reaction ∧ 0 < w reaction := by
  by_contra hNone
  push Not at hNone
  have hJobs :
      (h.jobs.map fun job => w job.reaction).sum = 0 := by
    rw [List.sum_eq_zero_iff]
    intro n hMember
    rcases List.mem_map.mp hMember with ⟨job, hJob, hWeight⟩
    have hZero := hNone.1 job hJob
    omega
  have hPromises :
      (h.promises.map (Promise.weight w)).sum = 0 := by
    rw [List.sum_eq_zero_iff]
    intro n hMember
    rcases List.mem_map.mp hMember with
      ⟨promise, hPromise, hWeight⟩
    rcases List.getElem?_of_mem hPromise with ⟨place, hGet⟩
    rw [← hWeight]
    cases promise with
    | settled result => rfl
    | pending reactions =>
        simp only [Promise.weight]
        rw [List.sum_eq_zero_iff]
        intro m hReaction
        rcases List.mem_map.mp hReaction with
          ⟨reaction, hIn, hWeight⟩
        have hZero :=
          hNone.2 place reaction ⟨reactions, hGet, hIn⟩
        omega
  unfold weight at hPos
  omega

end PromiseHeap

end Concurrency
