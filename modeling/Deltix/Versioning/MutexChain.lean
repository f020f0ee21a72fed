import Deltix.Versioning.RepoBranchMutex

/-
  The invariant of the chain of promises: where each call's
  reactions stand, and how far its promises have come.

  Key definitions include:
    * `ReactsTo`
    * `Ready`
    * `Shape`
    * `Flow`
    * `Stage`
    * `Inv`

  Key theorems include:
    * `inv_leave`
    * `inv_tick`
    * `inv_runExclusive`
    * `inv_reached`
-/

------------------------------------------------------------
-- The Invariant
------------------------------------------------------------

namespace Versioning

namespace RepoBranchMutex

open Concurrency

variable {Repo Error Value : Type}

/- The promise that a reaction is registered on. -/
def ReactsTo
    (calls : List (Call Repo)) : Reaction → Nat → Prop
  | .resume i, place =>
      ∃ call, calls[i]? = some call ∧ place = call.previous
  | .follow derived current, place =>
      ∃ call ∈ calls,
        derived = call.derived ∧ current = call.current ∧
          place = call.previous
  | .fulfil derived, place =>
      ∃ call ∈ calls,
        derived = call.derived ∧ place = call.current
  | .adopt _ _, _ => False
  | .finish _, _ => False

/- What is known of a reaction whose turn comes. -/
def Ready
    (calls : List (Call Repo))
    (h : PromiseHeap Reaction Error) : Reaction → Prop
  | .adopt derived current =>
      ∃ call ∈ calls,
        derived = call.derived ∧ current = call.current
  | .finish i => ∃ call, calls[i]? = some call
  | reaction =>
      ∃ place,
        ReactsTo calls reaction place ∧
          h.Settled place (.ok ())

/- The reactions that let a call in. -/
def resumes (i : Nat) : Reaction → Nat
  | .resume j => if j = i then 1 else 0
  | _ => 0

/- The reactions that let a call go. -/
def finishes (i : Nat) : Reaction → Nat
  | .finish j => if j = i then 1 else 0
  | _ => 0

/- The reactions that go to settle a derived promise. -/
def feeds (derived : Nat) : Reaction → Nat
  | .follow other _ => if other = derived then 1 else 0
  | .adopt other _ => if other = derived then 1 else 0
  | .fulfil other => if other = derived then 1 else 0
  | _ => 0

/- How many reactions are to let a call in. -/
def Phase.entries : Phase Error Value → Nat
  | .waiting => 1
  | _ => 0

/- How many reactions are to let a call go. -/
def Phase.exits : Phase Error Value → Nat
  | .returning _ => 1
  | _ => 0

/- Each call awaits the call before it on its repository. -/
structure Shape
    (h : PromiseHeap Reaction Error)
    (tails : Repo → Option Nat)
    (calls : List (Call Repo)) : Prop where
  ordered :
    ∀ (i j : Nat) (first second : Call Repo),
      calls[i]? = some first → calls[j]? = some second →
        i < j → first.derived < second.current
  bounded : ∀ call ∈ calls, call.derived < h.size
  known : ∀ call ∈ calls, call.previous < call.current
  chained :
    ∀ (j : Nat) (second : Call Repo),
      calls[j]? = some second →
        (∃ i : Nat, ∃ first : Call Repo,
          i < j ∧ calls[i]? = some first ∧
            first.repoId = second.repoId ∧
            second.previous = first.derived ∧
            ∀ (k : Nat) (other : Call Repo),
              i < k → k < j → calls[k]? = some other →
                other.repoId ≠ second.repoId) ∨
          (h.Settled second.previous (.ok ()) ∧
            ∀ (k : Nat) (other : Call Repo),
              k < j → calls[k]? = some other →
                other.repoId ≠ second.repoId)
  last :
    ∀ repoId,
      (tails repoId = none ∧
          ∀ call ∈ calls, call.repoId ≠ repoId) ∨
        ∃ i : Nat, ∃ call : Call Repo,
          calls[i]? = some call ∧ call.repoId = repoId ∧
            tails repoId = some call.derived ∧
            ∀ (k : Nat) (other : Call Repo),
              i < k → calls[k]? = some other →
                other.repoId ≠ repoId

/- Reactions stand where they belong, and nothing fails. -/
structure Flow
    (h : PromiseHeap Reaction Error)
    (calls : List (Call Repo)) : Prop where
  waits :
    ∀ place reaction,
      h.Waits place reaction → ReactsTo calls reaction place
  jobs :
    ∀ job ∈ h.jobs,
      job.result = .ok () ∧ Ready calls h job.reaction
  settled :
    ∀ place result,
      h.Settled place result → result = .ok ()

/- How far a call has come, and its promises with it. -/
structure Stage
    (h : PromiseHeap Reaction Error)
    (i : Nat)
    (call : Call Repo)
    (phase : Phase Error Value) : Prop where
  entries : h.weight (resumes i) = phase.entries
  exits : h.weight (finishes i) = phase.exits
  fed :
    h.Pending call.derived →
      0 < h.weight (feeds call.derived)
  entered :
    phase ≠ .waiting → h.Settled call.previous (.ok ())
  left :
    h.Settled call.current (.ok ()) ↔
      ∃ outcome, phase = .done outcome
  linked :
    h.Settled call.derived (.ok ()) →
      h.Settled call.current (.ok ())

/- What is recorded of an action is what its call returns. -/
def Recorded
    (phase : Phase Error Value)
    (acted : Option (Except Error Value)) : Prop :=
  ∀ outcome,
    acted = some outcome ↔
      phase = .returning outcome ∨ phase = .done outcome

structure Inv (s : Mutex Repo Error Value) : Prop where
  shape : Shape s.heap s.tails s.calls
  flow : Flow s.heap s.calls
  stages :
    ∀ i call,
      s.calls[i]? = some call →
        Stage s.heap i call (s.phase i)
  fresh : ∀ i, s.calls.length ≤ i → s.phase i = .waiting
  recorded : ∀ i, Recorded (s.phase i) (s.acted i)

variable {h k : PromiseHeap Reaction Error}
variable {tails : Repo → Option Nat}
variable {calls : List (Call Repo)} {i j : Nat}
variable {first second call other : Call Repo}
variable {reaction : Reaction}

theorem current_ne_derived
    (hShape : Shape h tails calls)
    (hCall : call ∈ calls)
    (hOther : other ∈ calls) :
    call.current ≠ other.derived := by
  rcases List.getElem?_of_mem hCall with ⟨i, hCall⟩
  rcases List.getElem?_of_mem hOther with ⟨j, hOther⟩
  intro hSame
  rcases Nat.lt_trichotomy i j with hLt | hEq | hGt
  · have hOrdered :=
      hShape.ordered i j call other hCall hOther hLt
    unfold Call.derived at hSame hOrdered
    omega
  · rw [hEq, hOther, Option.some.injEq] at hCall
    rw [hCall] at hSame
    unfold Call.derived at hSame
    omega
  · have hOrdered :=
      hShape.ordered j i other call hOther hCall hGt
    omega

theorem index_of_current
    (hShape : Shape h tails calls)
    (hFirst : calls[i]? = some first)
    (hSecond : calls[j]? = some second)
    (hSame : first.current = second.current) :
    i = j := by
  rcases Nat.lt_trichotomy i j with hLt | hEq | hGt
  · have hOrdered :=
      hShape.ordered i j first second hFirst hSecond hLt
    unfold Call.derived at hOrdered
    omega
  · exact hEq
  · have hOrdered :=
      hShape.ordered j i second first hSecond hFirst hGt
    unfold Call.derived at hOrdered
    omega

theorem current_of_derived
    (hSame : call.derived = other.derived) :
    call.current = other.current := by
  unfold Call.derived at hSame
  omega

/- Nothing of the shape depends on what is settled later. -/
theorem shape_mono
    (hShape : Shape h tails calls)
    (hSize : k.size = h.size)
    (hSettled :
      ∀ place, h.Settled place (.ok ()) →
        k.Settled place (.ok ())) :
    Shape k tails calls where
  ordered := hShape.ordered
  bounded := by
    intro call hCall
    rw [hSize]
    exact hShape.bounded call hCall
  known := hShape.known
  chained := by
    intro j second hSecond
    rcases hShape.chained j second hSecond with
      hLinked | ⟨hFirst, hNone⟩
    · exact Or.inl hLinked
    · exact Or.inr ⟨hSettled _ hFirst, hNone⟩
  last := hShape.last

theorem ready_mono
    (hReady : Ready calls h reaction)
    (hSettled :
      ∀ place, h.Settled place (.ok ()) →
        k.Settled place (.ok ())) :
    Ready calls k reaction := by
  cases reaction with
  | adopt derived current => exact hReady
  | finish i => exact hReady
  | _ =>
      rcases hReady with ⟨place, hReacts, hOk⟩
      exact ⟨place, hReacts, hSettled place hOk⟩

theorem ready_of_reacts
    {place : Nat}
    (hReacts : ReactsTo calls reaction place)
    (hSettled : h.Settled place (.ok ())) :
    Ready calls h reaction := by
  cases reaction with
  | adopt derived current => exact absurd hReacts id
  | finish i => exact absurd hReacts id
  | _ => exact ⟨place, hReacts, hSettled⟩

------------------------------------------------------------
-- Jobs Of The Chain
------------------------------------------------------------

open PromiseHeap

variable {s : Mutex Repo Error Value}
variable {rest : List (Job Reaction Error)}
variable {job : Job Reaction Error} {derived current : Nat}

/- What a job has to keep that lets nobody in or go. -/
theorem inv_of_heap
    (hInv : Inv s)
    (hSize : h.size = s.heap.size)
    (hMono :
      ∀ place, s.heap.Settled place (.ok ()) →
        h.Settled place (.ok ()))
    (hFlow : Flow h s.calls)
    (hEntries :
      ∀ i, h.weight (resumes i) = s.heap.weight (resumes i))
    (hExits :
      ∀ i, h.weight (finishes i) = s.heap.weight (finishes i))
    (hFed :
      ∀ call ∈ s.calls, h.Pending call.derived →
        s.heap.Pending call.derived ∧
          s.heap.weight (feeds call.derived) ≤
            h.weight (feeds call.derived))
    (hLeft :
      ∀ call ∈ s.calls, h.Settled call.current (.ok ()) →
        s.heap.Settled call.current (.ok ()))
    (hLinked :
      ∀ call ∈ s.calls, h.Settled call.derived (.ok ()) →
        s.heap.Settled call.current (.ok ())) :
    Inv { s with heap := h } where
  shape := shape_mono hInv.shape hSize hMono
  flow := hFlow
  stages := by
    intro i call hCall
    have hMember : call ∈ s.calls := List.mem_of_getElem? hCall
    have hStage := hInv.stages i call hCall
    constructor
    · exact (hEntries i).trans hStage.entries
    · exact (hExits i).trans hStage.exits
    · intro hPending
      rcases hFed call hMember hPending with ⟨hOld, hLe⟩
      have hPos := hStage.fed hOld
      change 0 < h.weight _
      omega
    · intro hPhase
      exact hMono _ (hStage.entered hPhase)
    · constructor
      · intro hSettled
        exact hStage.left.mp (hLeft call hMember hSettled)
      · intro hDone
        exact hMono _ (hStage.left.mpr hDone)
    · intro hSettled
      exact hMono _ (hLinked call hMember hSettled)
  fresh := hInv.fresh
  recorded := hInv.recorded

theorem inv_follow
    (hInv : Inv s)
    (hJobs :
      s.heap.jobs =
        ⟨.follow derived current, .ok ()⟩ :: rest) :
    Inv
      { s with
        heap :=
          enqueue (s.heap.withJobs rest)
            ⟨.adopt derived current, .ok ()⟩ } := by
  have hHead :=
    (hInv.flow.jobs _ (hJobs ▸ List.mem_cons_self)).2
  have hWeight (w : Reaction → Nat) :
      s.heap.weight w =
        w (.follow derived current) +
          weight w (s.heap.withJobs rest) :=
    weight_of_jobs hJobs
  refine inv_of_heap hInv rfl (fun _ hOk => hOk) ?_ ?_ ?_ ?_
    (fun _ _ hOk => hOk) ?_
  · constructor
    · exact hInv.flow.waits
    · intro job hJob
      rcases mem_jobs_enqueue_iff.mp hJob with hOld | hNew
      · have hMember : job ∈ s.heap.jobs := by
          rw [hJobs]
          exact List.mem_cons_of_mem _ hOld
        exact hInv.flow.jobs job hMember
      · rw [hNew]
        rcases hHead with
          ⟨_, ⟨call, hCall, hDerived, hCurrent, _⟩, _⟩
        exact ⟨rfl, call, hCall, hDerived, hCurrent⟩
    · exact hInv.flow.settled
  · intro i
    rw [weight_enqueue, hWeight]
    simp [resumes]
  · intro i
    rw [weight_enqueue, hWeight]
    simp [finishes]
  · intro call _ hPending
    refine ⟨hPending, ?_⟩
    rw [weight_enqueue, hWeight]
    simp only [feeds]
    omega
  · intro call hCall hSettled
    rcases List.getElem?_of_mem hCall with ⟨i, hCall⟩
    exact (hInv.stages i call hCall).linked hSettled

theorem inv_adopt
    {result : Except Error Unit}
    (hInv : Inv s)
    (hJobs :
      s.heap.jobs = ⟨.adopt derived current, result⟩ :: rest) :
    Inv
      { s with
        heap :=
          react (s.heap.withJobs rest) current
            (.fulfil derived) } := by
  rcases
      (hInv.flow.jobs _ (hJobs ▸ List.mem_cons_self)).2 with
    ⟨call, hCall, hDerived, hCurrent⟩
  have hWeight (w : Reaction → Nat) :
      s.heap.weight w =
        w (.adopt derived current) +
          weight w (s.heap.withJobs rest) :=
    weight_of_jobs hJobs
  have hPlace :
      current < size (s.heap.withJobs rest) := by
    have hBound := hInv.shape.bounded call hCall
    unfold Call.derived at hBound
    rw [size_jobs]
    omega
  have hReacts :
      ReactsTo s.calls (.fulfil derived) current :=
    ⟨call, hCall, hDerived, hCurrent⟩
  refine inv_of_heap hInv size_react ?_ ?_ ?_ ?_ ?_ ?_ ?_
  · intro place hOk
    exact settled_react_iff.mpr hOk
  · constructor
    · intro place reaction hWaits
      rcases waits_react_iff.mp hWaits with
        hOld | ⟨_, hSame, hNew⟩
      · exact hInv.flow.waits place reaction hOld
      · rw [hSame, hNew]
        exact hReacts
    · intro job hJob
      have hMono :
          ∀ place, s.heap.Settled place (.ok ()) →
            (react (s.heap.withJobs rest) current
              (.fulfil derived)).Settled place (.ok ()) := by
        intro place hOk
        exact settled_react_iff.mpr hOk
      rcases mem_jobs_react_iff.mp hJob with
        hOld | ⟨hSettled, hNew⟩
      · have hMember : job ∈ s.heap.jobs := by
          rw [hJobs]
          exact List.mem_cons_of_mem _ hOld
        rcases hInv.flow.jobs job hMember with ⟨hOk, hReady⟩
        exact ⟨hOk, ready_mono hReady hMono⟩
      · have hOk := hInv.flow.settled current _ hSettled
        rw [settled_jobs_iff, hOk] at hSettled
        refine ⟨hOk, ?_⟩
        rw [hNew]
        exact ready_of_reacts hReacts (hMono current hSettled)
    · intro place result hSettled
      have hOld := settled_react_iff.mp hSettled
      exact hInv.flow.settled place result hOld
  · intro i
    rw [weight_react hPlace, hWeight]
    simp [resumes]
  · intro i
    rw [weight_react hPlace, hWeight]
    simp [finishes]
  · intro other _ hPending
    have hOld := pending_react_iff.mp hPending
    refine ⟨hOld, ?_⟩
    rw [weight_react hPlace, hWeight]
    simp only [feeds]
    omega
  · intro other _ hSettled
    have hOld := settled_react_iff.mp hSettled
    exact hOld
  · intro other hOther hSettled
    have hOld := settled_react_iff.mp hSettled
    rcases List.getElem?_of_mem hOther with ⟨i, hOther⟩
    exact (hInv.stages i other hOther).linked hOld

/- Reactions on a promise are ready once it is settled. -/
theorem flow_settle
    {place : Nat}
    (hFlow : Flow h s.calls) :
    Flow (h.settle place (.ok ())) s.calls := by
  have hMono :
      ∀ other, h.Settled other (.ok ()) →
        (h.settle place (.ok ())).Settled other (.ok ()) := by
    intro other hOk
    exact settled_settle_iff.mpr (Or.inl hOk)
  constructor
  · intro other reaction hWaits
    exact hFlow.waits _ _ (waits_settle_iff.mp hWaits).1
  · intro job hJob
    rcases mem_jobs_settle_iff.mp hJob with
      hOld | ⟨hWaits, hOk⟩
    · rcases hFlow.jobs job hOld with ⟨hOk, hReady⟩
      exact ⟨hOk, ready_mono hReady hMono⟩
    · refine ⟨hOk, ?_⟩
      apply ready_of_reacts (hFlow.waits _ _ hWaits)
      rw [settled_settle_iff]
      exact Or.inr ⟨pending_of_waits hWaits, rfl, rfl⟩
  · intro other result hSettled
    rcases settled_settle_iff.mp hSettled with
      hOld | ⟨_, _, hOk⟩
    · exact hFlow.settled other result hOld
    · exact hOk

theorem flow_rest
    (hFlow : Flow s.heap s.calls)
    (hJobs : s.heap.jobs = job :: rest) :
    Flow (s.heap.withJobs rest) s.calls where
  waits := hFlow.waits
  jobs := by
    intro other hOther
    have hMember : other ∈ s.heap.jobs := by
      rw [hJobs]
      exact List.mem_cons_of_mem _ hOther
    exact hFlow.jobs other hMember
  settled := hFlow.settled

theorem inv_fulfil
    (hInv : Inv s)
    (hJobs : s.heap.jobs = ⟨.fulfil derived, .ok ()⟩ :: rest) :
    Inv
      { s with
        heap :=
          settle (s.heap.withJobs rest) derived
            (.ok ()) } := by
  rcases
      (hInv.flow.jobs _ (hJobs ▸ List.mem_cons_self)).2 with
    ⟨place, ⟨call, hCall, hDerived, hPlace⟩, hSettled⟩
  rw [hPlace] at hSettled
  have hWeight (w : Reaction → Nat) :
      s.heap.weight w =
        w (.fulfil derived) +
          weight w (s.heap.withJobs rest) :=
    weight_of_jobs hJobs
  refine inv_of_heap hInv size_settle ?_
    (flow_settle (flow_rest hInv.flow hJobs)) ?_ ?_ ?_ ?_ ?_
  · intro place hOk
    exact settled_settle_iff.mpr (Or.inl hOk)
  · intro i
    rw [weight_settle, hWeight]
    simp [resumes]
  · intro i
    rw [weight_settle, hWeight]
    simp [finishes]
  · intro other _ hPending
    rcases pending_settle_iff.mp hPending with ⟨hOld, hNe⟩
    refine ⟨hOld, ?_⟩
    rw [weight_settle, hWeight]
    have hOther : ¬ derived = other.derived :=
      fun hSame => hNe hSame.symm
    simp [feeds, hOther]
  · intro other hOther hOk
    rcases settled_settle_iff.mp hOk with hOld | ⟨_, hSame, _⟩
    · exact hOld
    · rw [hDerived] at hSame
      exact
        absurd hSame
          (current_ne_derived hInv.shape hOther hCall)
  · intro other hOther hOk
    rcases settled_settle_iff.mp hOk with hOld | ⟨_, hSame, _⟩
    · rcases List.getElem?_of_mem hOther with ⟨i, hOther⟩
      exact (hInv.stages i other hOther).linked hOld
    · rw [hDerived] at hSame
      rw [current_of_derived hSame]
      exact hSettled

------------------------------------------------------------
-- Calls That Are Let In And Go
------------------------------------------------------------

variable {result : Except Error Unit}
variable {outcome : Except Error Value}
variable {phase : Phase Error Value}

theorem entries_eq_one
    (hPos : 0 < phase.entries) :
    phase = .waiting := by
  cases phase with
  | waiting => rfl
  | _ => cases hPos

/- Nobody but `i` is let in by a reaction of `i`. -/
theorem resumes_of_ne
    (hOther : j ≠ i) :
    resumes j (.resume i) = 0 := by
  have hSame : ¬ i = j := fun hSame => hOther hSame.symm
  simp [resumes, hSame]

theorem finishes_of_ne
    (hOther : j ≠ i) :
    finishes j (.finish i) = 0 := by
  have hSame : ¬ i = j := fun hSame => hOther hSame.symm
  simp [finishes, hSame]

theorem waiting_of_resume
    (hInv : Inv s)
    (hJobs : s.heap.jobs = ⟨.resume i, result⟩ :: rest) :
    ∃ call : Call Repo,
      s.calls[i]? = some call ∧ result = .ok () ∧
        s.phase i = .waiting ∧
        s.heap.Settled call.previous (.ok ()) := by
  rcases hInv.flow.jobs _ (hJobs ▸ List.mem_cons_self) with
    ⟨hOk, place, ⟨call, hCall, hPlace⟩, hSettled⟩
  refine ⟨call, hCall, hOk, ?_, hPlace ▸ hSettled⟩
  have hStage := hInv.stages i call hCall
  apply entries_eq_one
  rw [← hStage.entries, weight_of_jobs hJobs]
  simp [resumes]

/- A call that was made is none of those to come. -/
theorem fresh_update
    (hInv : Inv s)
    (hBound : i < s.calls.length)
    (next : Phase Error Value)
    (j : Nat)
    (hBeyond : s.calls.length ≤ j) :
    Function.update s.phase i next j = .waiting := by
  have hSame : j ≠ i := by omega
  rw [Function.update_of_ne hSame]
  exact hInv.fresh j hBeyond

theorem inv_enter
    (hInv : Inv s)
    (hJobs : s.heap.jobs = ⟨.resume i, .ok ()⟩ :: rest) :
    Inv
      { s with
        heap := s.heap.withJobs rest
        phase := Function.update s.phase i .running } := by
  rcases waiting_of_resume hInv hJobs with
    ⟨call, hCall, _, hWaiting, hSettled⟩
  have hWeight (w : Reaction → Nat) :
      s.heap.weight w =
        w (.resume i) + weight w (s.heap.withJobs rest) :=
    weight_of_jobs hJobs
  constructor
  · exact shape_mono hInv.shape rfl (fun _ hOk => hOk)
  · exact flow_rest hInv.flow hJobs
  · intro j other hOther
    have hStage := hInv.stages j other hOther
    have hEntries := hStage.entries
    have hExits := hStage.exits
    rw [hWeight] at hEntries hExits
    have hFed := hStage.fed
    rw [hWeight] at hFed
    by_cases hSame : j = i
    · subst hSame
      rw [hCall, Option.some.injEq] at hOther
      subst hOther
      rw [hWaiting] at hEntries hExits
      constructor
      · simp only [Function.update_self, Phase.entries]
        simp only [resumes, if_true, Phase.entries] at hEntries
        omega
      · simp only [Function.update_self, Phase.exits]
        simp only [finishes, Phase.exits] at hExits
        omega
      · intro hPending
        simpa [feeds] using hFed hPending
      · intro _
        exact hSettled
      · constructor
        · intro hDone
          rcases hStage.left.mp hDone with ⟨outcome, hPhase⟩
          rw [hWaiting] at hPhase
          cases hPhase
        · rintro ⟨outcome, hPhase⟩
          simp only [Function.update_self] at hPhase
          cases hPhase
      · exact hStage.linked
    · rw [resumes_of_ne hSame] at hEntries
      simp only [Function.update_of_ne hSame]
      constructor
      · rw [Nat.zero_add] at hEntries
        exact hEntries
      · simp only [finishes, Nat.zero_add] at hExits
        exact hExits
      · intro hPending
        simpa [feeds] using hFed hPending
      · exact hStage.entered
      · exact hStage.left
      · exact hStage.linked
  · have hBound := (List.getElem?_eq_some_iff.mp hCall).1
    exact fresh_update hInv hBound _
  · intro j
    have hRecorded := hInv.recorded j
    by_cases hSame : j = i
    · subst hSame
      intro outcome
      have hBefore := hRecorded outcome
      rw [hWaiting] at hBefore
      simp only [Function.update_self, reduceCtorEq, or_self]
      simpa using hBefore
    · simp only [Function.update_of_ne hSame]
      exact hRecorded

/- The action of a call ends, with a job for the call. -/
theorem inv_settleAction
    (hInv : Inv s)
    (hRunning : s.phase i = .running) :
    Inv (s.settleAction i outcome) := by
  have hBound : i < s.calls.length := by
    by_contra hBeyond
    rw [hInv.fresh i (Nat.not_lt.mp hBeyond)] at hRunning
    cases hRunning
  have hCall := List.getElem?_eq_getElem hBound
  unfold Mutex.settleAction
  constructor
  · exact shape_mono hInv.shape rfl (fun _ hOk => hOk)
  · constructor
    · exact hInv.flow.waits
    · intro job hJob
      rcases mem_jobs_enqueue_iff.mp hJob with hOld | hNew
      · exact hInv.flow.jobs job hOld
      · rw [hNew]
        exact ⟨rfl, _, hCall⟩
    · exact hInv.flow.settled
  · intro j other hOther
    have hStage := hInv.stages j other hOther
    by_cases hSame : j = i
    · subst hSame
      have hEntries := hStage.entries
      have hExits := hStage.exits
      rw [hRunning] at hEntries hExits
      constructor
      · simp only [weight_enqueue, Function.update_self,
          hEntries, resumes]
        rfl
      · simp only [weight_enqueue, Function.update_self,
          hExits, finishes]
        rfl
      · intro hPending
        have hPos := hStage.fed hPending
        simp only [weight_enqueue]
        omega
      · intro _
        apply hStage.entered
        rw [hRunning]
        intro hPhase
        cases hPhase
      · constructor
        · intro hDone
          rcases hStage.left.mp hDone with ⟨outcome, hPhase⟩
          rw [hRunning] at hPhase
          cases hPhase
        · rintro ⟨outcome, hPhase⟩
          simp only [Function.update_self] at hPhase
          cases hPhase
      · exact hStage.linked
    · simp only [Function.update_of_ne hSame]
      constructor
      · simp only [weight_enqueue, hStage.entries, resumes]
        rfl
      · simp only [weight_enqueue, hStage.exits,
          finishes_of_ne hSame]
        rfl
      · intro hPending
        have hPos := hStage.fed hPending
        simp only [weight_enqueue]
        omega
      · exact hStage.entered
      · exact hStage.left
      · exact hStage.linked
  · exact fresh_update hInv hBound _
  · intro j
    by_cases hSame : j = i
    · subst hSame
      intro ended
      simp only [Function.update_self, Option.some.injEq,
        Phase.returning.injEq, reduceCtorEq, or_false]
    · simp only [Function.update_of_ne hSame]
      exact hInv.recorded j

/- A call has one reaction at a time to let it in or go. -/
theorem weights_of_leaving
    (hStage : Stage s.heap i call phase)
    (hJobs : s.heap.jobs = job :: rest)
    (hJob :
      job.reaction = .resume i ∨ job.reaction = .finish i) :
    weight (resumes i) (s.heap.withJobs rest) = 0 ∧
      weight (finishes i) (s.heap.withJobs rest) = 0 := by
  have hEntries := hStage.entries
  have hExits := hStage.exits
  rw [weight_of_jobs hJobs] at hEntries hExits
  rcases hJob with hResume | hFinish
  · rw [hResume] at hEntries hExits
    simp only [resumes, finishes, if_true] at hEntries hExits
    cases phase with
    | waiting =>
        simp only [Phase.entries, Phase.exits]
          at hEntries hExits
        constructor
        · omega
        · omega
    | _ =>
        simp only [Phase.entries] at hEntries
        omega
  · rw [hFinish] at hEntries hExits
    simp only [resumes, finishes, if_true] at hEntries hExits
    cases phase with
    | returning ended =>
        simp only [Phase.entries, Phase.exits]
          at hEntries hExits
        constructor
        · omega
        · omega
    | _ =>
        simp only [Phase.exits] at hExits
        omega

variable [DecidableEq Repo]

/- A call that leaves lets the next one follow. -/
theorem inv_leave
    (hInv : Inv s)
    (hCall : s.calls[i]? = some call)
    (hJobs : s.heap.jobs = job :: rest)
    (hJob :
      job.reaction = .resume i ∨ job.reaction = .finish i)
    (hSettled : s.heap.Settled call.previous (.ok ()))
    (hOpen : ∀ ended, s.phase i ≠ .done ended) :
    Inv
      (Mutex.leave
        { s with
          heap := s.heap.withJobs rest
          acted := Function.update s.acted i (some outcome) }
        i call outcome) := by
  have hWeight (w : Reaction → Nat) :
      s.heap.weight w =
        w job.reaction +
          weight w (s.heap.withJobs rest) :=
    weight_of_jobs hJobs
  have hMember : call ∈ s.calls := List.mem_of_getElem? hCall
  have hMono :
      ∀ place, s.heap.Settled place (.ok ()) →
        (settle (s.heap.withJobs rest) call.current
          (.ok ())).Settled place (.ok ()) := by
    intro place hOk
    exact settled_settle_iff.mpr (Or.inl hOk)
  have hTails : s.tails call.repoId ≠ some call.current := by
    intro hTail
    rcases hInv.shape.last call.repoId with
      ⟨hNone, _⟩ | ⟨k, other, hOther, _, hLast, _⟩
    · rw [hNone] at hTail
      cases hTail
    · rw [hLast, Option.some.injEq] at hTail
      exact
        current_ne_derived hInv.shape hMember
          (List.mem_of_getElem? hOther) hTail.symm
  have hCurrent :
      (settle (s.heap.withJobs rest) call.current
        (.ok ())).Settled call.current (.ok ()) := by
    rw [settled_settle_iff]
    have hBound := hInv.shape.bounded call hMember
    have hPlace : call.current < s.heap.size := by
      unfold Call.derived at hBound
      omega
    rcases pending_or_settled hPlace with
      hPending | ⟨result, hOld⟩
    · exact Or.inr ⟨hPending, rfl, rfl⟩
    · left
      rw [← hInv.flow.settled _ _ hOld]
      exact hOld
  unfold Mutex.leave
  simp only [if_neg hTails]
  constructor
  · exact shape_mono hInv.shape size_settle hMono
  · exact flow_settle (flow_rest hInv.flow hJobs)
  · intro j other hOther
    have hStage := hInv.stages j other hOther
    have hEntries := hStage.entries
    have hExits := hStage.exits
    rw [hWeight] at hEntries hExits
    have hFed :
        (settle (s.heap.withJobs rest) call.current
            (.ok ())).Pending other.derived →
          0 < weight (feeds other.derived)
            (settle (s.heap.withJobs rest) call.current
              (.ok ())) := by
      intro hPending
      have hPos :=
        hStage.fed (pending_settle_iff.mp hPending).1
      rw [hWeight] at hPos
      rw [weight_settle]
      rcases hJob with hResume | hFinish
      · simpa [hResume, feeds] using hPos
      · simpa [hFinish, feeds] using hPos
    have hLinked :
        (settle (s.heap.withJobs rest) call.current
            (.ok ())).Settled other.derived (.ok ()) →
          (settle (s.heap.withJobs rest) call.current
            (.ok ())).Settled other.current (.ok ()) := by
      intro hDerived
      rcases settled_settle_iff.mp hDerived with
        hOld | ⟨_, hSame, _⟩
      · exact hMono _ (hStage.linked hOld)
      · exact
          absurd hSame.symm
            (current_ne_derived hInv.shape hMember
              (List.mem_of_getElem? hOther))
    by_cases hSame : j = i
    · subst hSame
      rw [hCall, Option.some.injEq] at hOther
      subst hOther
      simp only [Function.update_self]
      constructor
      · rw [weight_settle]
        exact (weights_of_leaving hStage hJobs hJob).1
      · rw [weight_settle]
        exact (weights_of_leaving hStage hJobs hJob).2
      · exact hFed
      · intro _
        exact hMono _ hSettled
      · exact ⟨fun _ => ⟨outcome, rfl⟩, fun _ => hCurrent⟩
      · exact hLinked
    · simp only [Function.update_of_ne hSame]
      constructor
      · rw [weight_settle]
        rcases hJob with hResume | hFinish
        · rw [hResume, resumes_of_ne hSame, Nat.zero_add]
            at hEntries
          exact hEntries
        · rw [hFinish] at hEntries
          simp only [resumes, Nat.zero_add] at hEntries
          exact hEntries
      · rw [weight_settle]
        rcases hJob with hResume | hFinish
        · rw [hResume] at hExits
          simp only [finishes, Nat.zero_add] at hExits
          exact hExits
        · rw [hFinish, finishes_of_ne hSame, Nat.zero_add]
            at hExits
          exact hExits
      · exact hFed
      · intro hPhase
        exact hMono _ (hStage.entered hPhase)
      · constructor
        · intro hDone
          rcases settled_settle_iff.mp hDone with
            hOld | ⟨_, hEq, _⟩
          · exact hStage.left.mp hOld
          · exact
              absurd
                (index_of_current hInv.shape hOther hCall hEq)
                hSame
        · intro hDone
          exact hMono _ (hStage.left.mpr hDone)
      · exact hLinked
  · have hBound := (List.getElem?_eq_some_iff.mp hCall).1
    exact fresh_update hInv hBound _
  · intro j
    by_cases hSame : j = i
    · subst hSame
      intro ended
      simp only [Function.update_self, Option.some.injEq,
        Phase.done.injEq, reduceCtorEq, false_or]
    · simp only [Function.update_of_ne hSame]
      exact hInv.recorded j

variable {t : Mutex Repo Error Value} {throws : Option Error}

omit [DecidableEq Repo] in
theorem returning_of_finish
    (hInv : Inv s)
    (hJobs : s.heap.jobs = ⟨.finish i, result⟩ :: rest)
    (hCall : s.calls[i]? = some call) :
    ∃ outcome, s.phase i = .returning outcome := by
  have hExits := (hInv.stages i call hCall).exits
  rw [weight_of_jobs hJobs] at hExits
  simp only [finishes, if_true] at hExits
  cases hPhase : s.phase i with
  | returning outcome => exact ⟨outcome, rfl⟩
  | _ =>
      rw [hPhase] at hExits
      simp only [Phase.exits] at hExits
      omega

theorem inv_tick
    (hInv : Inv s)
    (hRan : s.tick throws = some t) :
    Inv t := by
  unfold Mutex.tick at hRan
  split at hRan
  · cases hRan
  · rename_i job rest hJobs
    rw [Option.some.injEq] at hRan
    subst hRan
    have hHead : job ∈ s.heap.jobs :=
      hJobs ▸ List.mem_cons_self
    rcases job with ⟨reaction, result⟩
    have hOk : result = .ok () := (hInv.flow.jobs _ hHead).1
    subst hOk
    cases reaction with
    | follow derived current => exact inv_follow hInv hJobs
    | adopt derived current => exact inv_adopt hInv hJobs
    | fulfil derived => exact inv_fulfil hInv hJobs
    | resume i =>
        rcases waiting_of_resume hInv hJobs with
          ⟨call, hCall, _, hWaiting, hSettled⟩
        simp only [Mutex.runJob, hCall]
        cases throws with
        | none => exact inv_enter hInv hJobs
        | some error =>
            refine
              inv_leave hInv hCall hJobs (Or.inl rfl)
                hSettled ?_
            intro ended hDone
            rw [hWaiting] at hDone
            cases hDone
    | finish i =>
        rcases (hInv.flow.jobs _ hHead).2 with ⟨call, hCall⟩
        rcases returning_of_finish hInv hJobs hCall with
          ⟨outcome, hPhase⟩
        have hActed : s.acted i = some outcome :=
          (hInv.recorded i outcome).mpr (Or.inl hPhase)
        have hSame :
            Function.update s.acted i (some outcome) =
              s.acted := by
          rw [← hActed, Function.update_eq_self]
        simp only [Mutex.runJob, hCall, hPhase]
        have hEntered :
            s.heap.Settled call.previous (.ok ()) := by
          apply (hInv.stages i call hCall).entered
          rw [hPhase]
          intro hWaiting
          cases hWaiting
        have hOpen : ∀ ended, s.phase i ≠ .done ended := by
          intro ended hDone
          rw [hPhase] at hDone
          cases hDone
        have hLeave :
            Inv
              (Mutex.leave
                { s with
                  heap := s.heap.withJobs rest
                  acted :=
                    Function.update s.acted i (some outcome) }
                i call outcome) :=
          inv_leave hInv hCall hJobs (Or.inr rfl) hEntered
            hOpen
        rw [hSame] at hLeave
        exact hLeave

------------------------------------------------------------
-- A Call Is Made
------------------------------------------------------------

variable {place previous n : Nat} {reaction : Reaction}

/- The two promises of a call and its two reactions. -/
def enlist
    (h : PromiseHeap Reaction Error)
    (previous n : Nat) : PromiseHeap Reaction Error :=
  (((h.alloc (.pending [])).alloc (.pending [])).react
    previous (.follow (h.size + 1) h.size)).react
    previous (.resume n)

@[simp] theorem size_enlist :
    (enlist h previous n).size = h.size + 2 := by
  simp [enlist]

theorem settled_enlist_iff :
    (enlist h previous n).Settled place result ↔
      h.Settled place result := by
  simp [enlist, settled_react_iff, settled_alloc_iff]

theorem pending_enlist_iff :
    (enlist h previous n).Pending place ↔
      h.Pending place ∨ place = h.size ∨
        place = h.size + 1 := by
  simp [enlist, pending_react_iff, pending_alloc_iff, or_assoc]

theorem waits_enlist_iff (hPrevious : previous < h.size) :
    (enlist h previous n).Waits place reaction ↔
      h.Waits place reaction ∨
        h.Pending previous ∧ place = previous ∧
          (reaction = .follow (h.size + 1) h.size ∨
            reaction = .resume n) := by
  have hNotFirst : ¬ previous = h.size := by omega
  have hNotSecond : ¬ previous = h.size + 1 := by omega
  simp only [enlist, waits_react_iff, waits_alloc_iff,
    pending_react_iff, pending_alloc_iff, size_alloc,
    hNotFirst, hNotSecond, false_and, or_false]
  constructor
  · rintro ((hOld | ⟨hPending, hPlace, hNew⟩) |
      ⟨hPending, hPlace, hNew⟩)
    · exact Or.inl hOld
    · exact Or.inr ⟨hPending, hPlace, Or.inl hNew⟩
    · exact Or.inr ⟨hPending, hPlace, Or.inr hNew⟩
  · rintro (hOld | ⟨hPending, hPlace, hNew | hNew⟩)
    · exact Or.inl (Or.inl hOld)
    · exact Or.inl (Or.inr ⟨hPending, hPlace, hNew⟩)
    · exact Or.inr ⟨hPending, hPlace, hNew⟩

theorem mem_jobs_enlist_iff :
    job ∈ (enlist h previous n).jobs ↔
      job ∈ h.jobs ∨
        h.Settled previous job.result ∧
          (job.reaction = .follow (h.size + 1) h.size ∨
            job.reaction = .resume n) := by
  simp only [enlist, mem_jobs_react_iff, settled_react_iff,
    settled_alloc_iff, jobs_alloc, size_alloc, reduceCtorEq,
    and_false, or_false]
  constructor
  · rintro ((hOld | ⟨hSettled, hNew⟩) | ⟨hSettled, hNew⟩)
    · exact Or.inl hOld
    · exact Or.inr ⟨hSettled, Or.inl hNew⟩
    · exact Or.inr ⟨hSettled, Or.inr hNew⟩
  · rintro (hOld | ⟨hSettled, hNew | hNew⟩)
    · exact Or.inl (Or.inl hOld)
    · exact Or.inl (Or.inr ⟨hSettled, hNew⟩)
    · exact Or.inr ⟨hSettled, hNew⟩

theorem weight_enlist
    (w : Reaction → Nat)
    (hPrevious : previous < h.size) :
    (enlist h previous n).weight w =
      h.weight w + w (.follow (h.size + 1) h.size) +
        w (.resume n) := by
  unfold enlist
  rw [weight_react (by simp; omega),
    weight_react (by simp; omega)]
  simp [Promise.weight]

variable {Repo Error Value : Type}
variable {s : Mutex Repo Error Value}
variable {calls : List (Call Repo)}
variable {h b : PromiseHeap Reaction Error}
variable {call new : Call Repo} {repoId : Repo}
variable {previous i : Nat}
variable {reaction : Reaction}

/- What a call knows of the promise that it awaits. -/
structure Follows
    (h b : PromiseHeap Reaction Error)
    (calls : List (Call Repo))
    (repoId : Repo)
    (previous : Nat) : Prop where
  size : h.size ≤ b.size
  place : previous < b.size
  jobs : b.jobs = h.jobs
  weight : ∀ w : Reaction → Nat, b.weight w = h.weight w
  kept :
    ∀ place result, h.Settled place result →
      b.Settled place result
  settled :
    ∀ place result, b.Settled place result →
      h.Settled place result ∨
        place = h.size ∧ result = .ok ()
  pending : ∀ place, b.Pending place ↔ h.Pending place
  waits :
    ∀ place reaction, b.Waits place reaction ↔
      h.Waits place reaction
  linked :
    (∃ i : Nat, ∃ first : Call Repo,
      calls[i]? = some first ∧ first.repoId = repoId ∧
        previous = first.derived ∧
        ∀ (k : Nat) (other : Call Repo),
          i < k → calls[k]? = some other →
            other.repoId ≠ repoId) ∨
      (b.Settled previous (.ok ()) ∧
        ∀ call ∈ calls, call.repoId ≠ repoId)

theorem follows_previousOf
    (hInv : Inv s)
    (repoId : Repo) :
    Follows s.heap (s.previousOf repoId).2 s.calls repoId
      (s.previousOf repoId).1 := by
  unfold Mutex.previousOf
  rcases hInv.shape.last repoId with
    ⟨hNone, hFirst⟩ | ⟨i, first, hCall, hRepo, hTail, hLast⟩
  · simp only [hNone]
    constructor
    · simp
    · simp
    · simp
    · intro w
      simp [Promise.weight]
    · intro place result hSettled
      rw [settled_alloc_iff]
      exact Or.inl hSettled
    · intro place result hSettled
      rcases settled_alloc_iff.mp hSettled with
        hOld | ⟨hPlace, hNew⟩
      · exact Or.inl hOld
      · right
        refine ⟨hPlace, ?_⟩
        injection hNew with hNew
        exact hNew.symm
    · intro place
      simp [pending_alloc_iff]
    · intro place reaction
      exact waits_alloc_settled_iff
    · right
      refine ⟨?_, hFirst⟩
      rw [settled_alloc_iff]
      exact Or.inr ⟨rfl, rfl⟩
  · simp only [hTail]
    constructor
    · exact le_refl _
    · exact
        hInv.shape.bounded first (List.mem_of_getElem? hCall)
    · rfl
    · intro w
      rfl
    · intro place result hSettled
      exact hSettled
    · intro place result hSettled
      exact Or.inl hSettled
    · intro place
      rfl
    · intro place reaction
      rfl
    · exact Or.inl ⟨i, first, hCall, hRepo, rfl, hLast⟩

theorem get_snoc_iff :
    (calls ++ [new])[i]? = some call ↔
      calls[i]? = some call ∨ i = calls.length ∧ call = new := by
  rcases Nat.lt_trichotomy i calls.length with hLt | hEq | hGt
  · rw [List.getElem?_append_left hLt]
    constructor
    · exact Or.inl
    · rintro (hOld | ⟨hEq, _⟩)
      · exact hOld
      · omega
  · subst hEq
    simp [eq_comm]
  · rw [List.getElem?_eq_none (by simp; omega),
      List.getElem?_eq_none (by omega)]
    constructor
    · intro hNone
      cases hNone
    · rintro (hNone | ⟨hEq, _⟩)
      · cases hNone
      · omega

theorem reactsTo_snoc
    {place : Nat}
    (hReacts : ReactsTo calls reaction place) :
    ReactsTo (calls ++ [new]) reaction place := by
  cases reaction with
  | resume i =>
      rcases hReacts with ⟨call, hCall, hPlace⟩
      exact ⟨call, get_snoc_iff.mpr (Or.inl hCall), hPlace⟩
  | follow derived current =>
      rcases hReacts with ⟨call, hCall, hRest⟩
      exact ⟨call, List.mem_append_left _ hCall, hRest⟩
  | fulfil derived =>
      rcases hReacts with ⟨call, hCall, hRest⟩
      exact ⟨call, List.mem_append_left _ hCall, hRest⟩
  | adopt derived current => exact hReacts
  | finish i => exact hReacts

theorem ready_snoc
    (hReady : Ready calls h reaction) :
    Ready (calls ++ [new]) h reaction := by
  cases reaction with
  | adopt derived current =>
      rcases hReady with ⟨call, hCall, hRest⟩
      exact ⟨call, List.mem_append_left _ hCall, hRest⟩
  | finish i =>
      rcases hReady with ⟨call, hCall⟩
      exact ⟨call, get_snoc_iff.mpr (Or.inl hCall)⟩
  | _ =>
      rcases hReady with ⟨place, hReacts, hSettled⟩
      exact ⟨place, reactsTo_snoc hReacts, hSettled⟩

/- No reaction is to let in or let go a call not made. -/
theorem unmade_weight
    (hInv : Inv s) :
    s.heap.weight (resumes s.calls.length) = 0 ∧
      s.heap.weight (finishes s.calls.length) = 0 := by
  have hNobody (reaction : Reaction) :
      Ready s.calls s.heap reaction ∨
        (∃ place, ReactsTo s.calls reaction place) →
        resumes s.calls.length reaction = 0 ∧
          finishes s.calls.length reaction = 0 := by
    intro hKnown
    have hBound {i : Nat} {call : Call Repo}
        (hCall : s.calls[i]? = some call) :
        ¬ i = s.calls.length := by
      have hLt := (List.getElem?_eq_some_iff.mp hCall).1
      omega
    cases reaction with
    | resume i =>
        rcases hKnown with
          ⟨_, ⟨call, hCall, _⟩, _⟩ | ⟨_, call, hCall, _⟩
        · simp [resumes, finishes, hBound hCall]
        · simp [resumes, finishes, hBound hCall]
    | finish i =>
        rcases hKnown with ⟨call, hCall⟩ | ⟨_, hNever⟩
        · simp [resumes, finishes, hBound hCall]
        · exact absurd hNever id
    | _ => exact ⟨rfl, rfl⟩
  have hZero (w : Reaction → Nat)
      (hNone :
        ∀ reaction,
          Ready s.calls s.heap reaction ∨
            (∃ place, ReactsTo s.calls reaction place) →
            w reaction = 0) :
      s.heap.weight w = 0 := by
    by_contra hPos
    rcases
        exists_of_weight_pos (Nat.pos_of_ne_zero hPos) with
      ⟨job, hJob, hWeight⟩ | ⟨place, reaction, hWaits, hWeight⟩
    · have hReady := (hInv.flow.jobs job hJob).2
      rw [hNone _ (Or.inl hReady)] at hWeight
      cases hWeight
    · have hReacts := hInv.flow.waits place reaction hWaits
      rw [hNone _ (Or.inr ⟨place, hReacts⟩)] at hWeight
      cases hWeight
  constructor
  · exact hZero _ fun reaction hKnown =>
      (hNobody reaction hKnown).1
  · exact hZero _ fun reaction hKnown =>
      (hNobody reaction hKnown).2

variable {Repo Error Value : Type} [DecidableEq Repo]
variable {s : Mutex Repo Error Value}
variable {calls : List (Call Repo)}
variable {tails : Repo → Option Nat}
variable {h b : PromiseHeap Reaction Error}
variable {repoId : Repo} {previous : Nat}

theorem shape_enlist
    (hShape : Shape h tails calls)
    (hFollows : Follows h b calls repoId previous) :
    Shape (enlist b previous calls.length)
      (Function.update tails repoId (some (b.size + 1)))
      (calls ++ [⟨repoId, previous, b.size⟩]) := by
  have hSize := hFollows.size
  constructor
  · intro i j first second hFirst hSecond hLt
    rcases get_snoc_iff.mp hSecond with
      hSecond | ⟨hIndex, hNew⟩
    · rcases get_snoc_iff.mp hFirst with
        hFirst | ⟨hEq, _⟩
      · exact
          hShape.ordered i j first second hFirst hSecond hLt
      · have hBound := (List.getElem?_eq_some_iff.mp hSecond).1
        omega
    · rcases get_snoc_iff.mp hFirst with
        hFirst | ⟨hEq, _⟩
      · have hOld :=
          hShape.bounded first (List.mem_of_getElem? hFirst)
        rw [hNew]
        simp only
        omega
      · omega
  · intro call hCall
    rw [size_enlist]
    rcases List.mem_append.mp hCall with hOld | hNew
    · have hBound := hShape.bounded call hOld
      omega
    · rw [List.mem_singleton.mp hNew]
      simp only [Call.derived]
      omega
  · intro call hCall
    rcases List.mem_append.mp hCall with hOld | hNew
    · exact hShape.known call hOld
    · rw [List.mem_singleton.mp hNew]
      exact hFollows.place
  · intro j second hSecond
    have hOld {k : Nat} {other : Call Repo}
        (hLt : k < calls.length)
        (hOther :
          (calls ++ [⟨repoId, previous, b.size⟩])[k]? =
            some other) :
        calls[k]? = some other := by
      rcases get_snoc_iff.mp hOther with hOther | ⟨hEq, _⟩
      · exact hOther
      · omega
    rcases get_snoc_iff.mp hSecond with
      hSecond | ⟨hIndex, hNew⟩
    · have hBound := (List.getElem?_eq_some_iff.mp hSecond).1
      rcases hShape.chained j second hSecond with
        ⟨i, first, hLt, hFirst, hRepo, hLink, hBetween⟩ |
        ⟨hSettled, hNone⟩
      · left
        refine
          ⟨i, first, hLt, get_snoc_iff.mpr (Or.inl hFirst),
            hRepo, hLink, ?_⟩
        intro k other hAfter hBefore hOther
        exact
          hBetween k other hAfter hBefore
            (hOld (by omega) hOther)
      · right
        refine ⟨?_, ?_⟩
        · rw [settled_enlist_iff]
          exact hFollows.kept _ _ hSettled
        · intro k other hBefore hOther
          exact hNone k other hBefore (hOld (by omega) hOther)
    · subst hNew
      subst hIndex
      rcases hFollows.linked with
        ⟨i, first, hFirst, hRepo, hLink, hLast⟩ |
        ⟨hSettled, hNone⟩
      · left
        have hBound := (List.getElem?_eq_some_iff.mp hFirst).1
        refine
          ⟨i, first, hBound, get_snoc_iff.mpr (Or.inl hFirst),
            hRepo, hLink, ?_⟩
        intro k other hAfter hBefore hOther
        exact hLast k other hAfter (hOld hBefore hOther)
      · right
        refine ⟨settled_enlist_iff.mpr hSettled, ?_⟩
        intro k other hBefore hOther
        exact
          hNone other
            (List.mem_of_getElem? (hOld hBefore hOther))
  · intro other
    by_cases hSame : other = repoId
    · subst hSame
      right
      refine
        ⟨calls.length, _, get_snoc_iff.mpr (Or.inr ⟨rfl, rfl⟩),
          rfl, ?_, ?_⟩
      · rw [Function.update_self]
        rfl
      · intro k call hAfter hCall
        rcases get_snoc_iff.mp hCall with hOld | ⟨hEq, _⟩
        · have hBound := (List.getElem?_eq_some_iff.mp hOld).1
          omega
        · omega
    · rw [Function.update_of_ne hSame]
      have hNew : ¬ repoId = other :=
        fun hEq => hSame hEq.symm
      rcases hShape.last other with
        ⟨hNone, hNobody⟩ | ⟨i, call, hCall, hRepo, hTail, hLast⟩
      · left
        refine ⟨hNone, ?_⟩
        intro call hCall
        rcases List.mem_append.mp hCall with hOld | hIn
        · exact hNobody call hOld
        · rw [List.mem_singleton.mp hIn]
          exact hNew
      · right
        refine
          ⟨i, call, get_snoc_iff.mpr (Or.inl hCall), hRepo,
            hTail, ?_⟩
        intro k later hAfter hLater
        rcases get_snoc_iff.mp hLater with hOld | ⟨_, hEq⟩
        · exact hLast k later hAfter hOld
        · rw [hEq]
          exact hNew

omit [DecidableEq Repo] in
theorem flow_enlist
    (hFlow : Flow h calls)
    (hFollows : Follows h b calls repoId previous) :
    Flow (enlist b previous calls.length)
      (calls ++ [⟨repoId, previous, b.size⟩]) := by
  have hMember :
      (⟨repoId, previous, b.size⟩ : Call Repo) ∈
        calls ++ [⟨repoId, previous, b.size⟩] := by
    simp
  have hNew {reaction : Reaction}
      (hReaction :
        reaction = .follow (b.size + 1) b.size ∨
          reaction = .resume calls.length) :
      ReactsTo (calls ++ [⟨repoId, previous, b.size⟩]) reaction
        previous := by
    rcases hReaction with hReaction | hReaction
    · rw [hReaction]
      exact ⟨_, hMember, rfl, rfl, rfl⟩
    · rw [hReaction]
      exact ⟨_, get_snoc_iff.mpr (Or.inr ⟨rfl, rfl⟩), rfl⟩
  have hOk :
      ∀ place result, b.Settled place result →
        result = .ok () := by
    intro place result hSettled
    rcases hFollows.settled place result hSettled with
      hOld | ⟨_, hOk⟩
    · exact hFlow.settled place result hOld
    · exact hOk
  constructor
  · intro place reaction hWaits
    rcases (waits_enlist_iff hFollows.place).mp hWaits with
      hOld | ⟨_, hPlace, hReaction⟩
    · rw [hFollows.waits] at hOld
      exact reactsTo_snoc (hFlow.waits place reaction hOld)
    · rw [hPlace]
      exact hNew hReaction
  · intro job hJob
    rcases mem_jobs_enlist_iff.mp hJob with
      hOld | ⟨hSettled, hReaction⟩
    · rw [hFollows.jobs] at hOld
      rcases hFlow.jobs job hOld with ⟨hResult, hReady⟩
      refine ⟨hResult, ?_⟩
      apply ready_mono (ready_snoc hReady)
      intro place hSettled
      rw [settled_enlist_iff]
      exact hFollows.kept place _ hSettled
    · have hResult := hOk previous job.result hSettled
      refine ⟨hResult, ?_⟩
      apply ready_of_reacts (hNew hReaction)
      rw [settled_enlist_iff, ← hResult]
      exact hSettled
  · intro place result hSettled
    exact hOk place result (settled_enlist_iff.mp hSettled)

theorem inv_runExclusive
    (hInv : Inv s)
    (repoId : Repo) :
    Inv (s.runExclusive repoId) := by
  have hFollows := follows_previousOf hInv repoId
  unfold Mutex.runExclusive
  generalize (s.previousOf repoId).1 = previous at hFollows ⊢
  generalize (s.previousOf repoId).2 = b at hFollows ⊢
  change
    Inv
      { s with
        heap := enlist b previous s.calls.length
        tails :=
          Function.update s.tails repoId (some (b.size + 1))
        calls := s.calls ++ [⟨repoId, previous, b.size⟩] }
  have hSize := hFollows.size
  constructor
  · exact shape_enlist hInv.shape hFollows
  · exact flow_enlist hInv.flow hFollows
  · intro i call hCall
    rcases get_snoc_iff.mp hCall with hOld | ⟨hIndex, hNew⟩
    · have hStage := hInv.stages i call hOld
      have hBound :=
        hInv.shape.bounded call (List.mem_of_getElem? hOld)
      have hIndex := (List.getElem?_eq_some_iff.mp hOld).1
      have hNotNew : ¬ s.calls.length = i := by omega
      have hBelow (place : Nat)
          (hPlace : place < s.heap.size) :
          (enlist b previous s.calls.length).Settled place
              (.ok ()) ↔
            s.heap.Settled place (.ok ()) := by
        rw [settled_enlist_iff]
        constructor
        · intro hSettled
          rcases hFollows.settled place _ hSettled with
            hBefore | ⟨hEq, _⟩
          · exact hBefore
          · omega
        · exact hFollows.kept place _
      have hKnown :=
        hInv.shape.known call (List.mem_of_getElem? hOld)
      unfold Call.derived at hBound
      constructor
      · rw [weight_enlist _ hFollows.place, hFollows.weight,
          hStage.entries]
        simp [resumes, hNotNew]
      · rw [weight_enlist _ hFollows.place, hFollows.weight,
          hStage.exits]
        simp [finishes]
      · intro hPending
        rw [weight_enlist _ hFollows.place, hFollows.weight]
        rcases pending_enlist_iff.mp hPending with
          hBefore | hEq | hEq
        · rw [hFollows.pending] at hBefore
          have hPos := hStage.fed hBefore
          omega
        · unfold Call.derived at hEq
          omega
        · unfold Call.derived at hEq
          omega
      · intro hPhase
        rw [hBelow _ (by omega)]
        exact hStage.entered hPhase
      · rw [hBelow _ (by omega)]
        exact hStage.left
      · rw [hBelow _ (by unfold Call.derived; omega),
          hBelow _ (by omega)]
        exact hStage.linked
    · subst hNew
      subst hIndex
      have hPhase := hInv.fresh s.calls.length (le_refl _)
      have hUnmade := unmade_weight hInv
      have hCurrent :
          (enlist b previous s.calls.length).Pending
            b.size := by
        rw [pending_enlist_iff]
        exact Or.inr (Or.inl rfl)
      have hDerived :
          (enlist b previous s.calls.length).Pending
            (b.size + 1) := by
        rw [pending_enlist_iff]
        exact Or.inr (Or.inr rfl)
      constructor
      · rw [weight_enlist _ hFollows.place, hFollows.weight,
          hUnmade.1, hPhase]
        simp [resumes, Phase.entries]
      · rw [weight_enlist _ hFollows.place, hFollows.weight,
          hUnmade.2, hPhase]
        simp [finishes, Phase.exits]
      · intro _
        rw [weight_enlist _ hFollows.place]
        simp only [feeds, Call.derived, if_true]
        omega
      · intro hNot
        exact absurd hPhase hNot
      · constructor
        · intro hSettled
          exact
            absurd hSettled (not_settled_of_pending hCurrent)
        · rintro ⟨outcome, hDone⟩
          rw [hPhase] at hDone
          cases hDone
      · intro hSettled
        exact
          absurd hSettled (not_settled_of_pending hDerived)
  · intro i hBeyond
    apply hInv.fresh i
    simp only [List.length_append, List.length_cons,
      List.length_nil] at hBeyond
    omega
  · exact hInv.recorded

theorem inv_reached
    (hReached : Reached s) :
    Inv s := by
  induction hReached with
  | start =>
      constructor
      · constructor
        · intro i j first second hFirst
          cases hFirst
        · intro call hCall
          cases hCall
        · intro call hCall
          cases hCall
        · intro j second hSecond
          cases hSecond
        · intro repoId
          left
          refine ⟨rfl, ?_⟩
          intro call hCall
          cases hCall
      · constructor
        · rintro place reaction ⟨reactions, hNone, _⟩
          cases hNone
        · intro job hJob
          cases hJob
        · intro place result hSettled
          cases hSettled
      · intro i call hCall
        cases hCall
      · intro i _
        rfl
      · intro i outcome
        simp [Mutex.empty]
  | step _ hMoved ih =>
      cases hMoved with
      | call repoId => exact inv_runExclusive ih repoId
      | settle i outcome hRunning =>
          exact inv_settleAction ih hRunning
      | tick _ throws hRan => exact inv_tick ih hRan

end RepoBranchMutex

end Versioning
