import Deltix.Concurrency.RelyGuarantee

/-
  Sliding windows: something expires unless calls on it move
  its expiry, which each of them computes from its own
  reading of the clock.

  The law is that the expiry never moves back, and that once
  a call has been rejected because the window was over, it
  stays over and no call that starts later succeeds.

  Key definitions include:
    * `Somewhere`
    * `lastReading`
    * `SlidingWindow`
    * `Slides`

  Key theorems include:
    * `slides_of_order`
-/

------------------------------------------------------------
-- Positions In A Trace
------------------------------------------------------------

namespace Concurrency

variable {E : Type} {P Q : E → List E → Prop}
variable {older newer trace : List E} {event : E}

/- Some event of a trace, with the events before it. -/
def Somewhere (P : E → List E → Prop) : List E → Prop
  | [] => False
  | event :: older => P event older ∨ Somewhere P older

theorem somewhere_iff :
    Somewhere P trace ↔
      ∃ newer event older,
        trace = newer ++ event :: older ∧ P event older := by
  induction trace with
  | nil => simp [Somewhere]
  | cons first rest ih =>
      constructor
      · rintro (hHere | hLater)
        · exact ⟨[], first, rest, rfl, hHere⟩
        · rcases ih.mp hLater with
            ⟨newer, event, older, hRest, hEvent⟩
          exact
            ⟨first :: newer, event, older, by rw [hRest]; rfl,
              hEvent⟩
      · rintro ⟨newer, event, older, hTrace, hEvent⟩
        cases newer with
        | nil =>
            cases hTrace
            exact Or.inl hEvent
        | cons _ newer =>
            cases hTrace
            exact Or.inr
              (ih.mpr ⟨newer, event, older, rfl, hEvent⟩)

theorem Somewhere.mono
    (hSomewhere : Somewhere P trace)
    (hImplies : ∀ event older, P event older → Q event older) :
    Somewhere Q trace := by
  rcases somewhere_iff.mp hSomewhere with
    ⟨newer, event, older, hTrace, hEvent⟩
  exact somewhere_iff.mpr
    ⟨newer, event, older, hTrace, hImplies _ _ hEvent⟩

/- What is in the older part of a trace is in all of it. -/
theorem Somewhere.of_suffix
    (hSomewhere : Somewhere P older)
    (hSuffix : older <:+ trace) :
    Somewhere P trace := by
  rcases hSuffix with ⟨newer, rfl⟩
  induction newer with
  | nil => exact hSomewhere
  | cons _ newer ih => exact Or.inr ih

theorem Throughout.mono
    (hAll : Throughout P trace)
    (hImplies : ∀ event older, P event older → Q event older) :
    Throughout Q trace := by
  induction trace with
  | nil => trivial
  | cons event older ih =>
      exact ⟨hImplies event older hAll.1, ih hAll.2⟩

/- A part of a trace without an event is before it. -/
theorem suffix_of_not_mem
    {first second before : List E}
    (hSplit : first ++ second = newer ++ event :: before)
    (hNot : event ∉ second) :
    second <:+ before := by
  rcases List.append_eq_append_iff.mp hSplit with
    ⟨between, _, hSecond⟩ | ⟨between, _, hRest⟩
  · exfalso
    apply hNot
    rw [hSecond]
    exact List.mem_append_right _ List.mem_cons_self
  · cases between with
    | nil =>
        exfalso
        apply hNot
        rw [List.nil_append] at hRest
        rw [← hRest]
        exact List.mem_cons_self
    | cons _ between =>
        cases hRest
        exact ⟨between, rfl⟩

------------------------------------------------------------
-- Readings Of The Clock
------------------------------------------------------------

variable {Op : Type} {Ret : Op → Type}
variable {State Request Error Value : Type}

/- What a task read last from the clock. -/
def lastReading
    (reads :
      Event Op Ret State Request Error Value → Option Nat)
    (i : Nat) :
    List (Event Op Ret State Request Error Value) →
      Option Nat
  | [] => none
  | event :: older =>
      if event.task = i then
        (reads event).or (lastReading reads i older)
      else lastReading reads i older

variable
  {reads :
    Event Op Ret State Request Error Value → Option Nat}
variable {w v : World Op Ret State Request Error Value}
variable {i : Nat}
variable {writes : Event Op Ret State Request Error Value → Prop}

theorem lastReading_cons_of_ne
    {event : Event Op Ret State Request Error Value}
    {older : List (Event Op Ret State Request Error Value)}
    (hTask : event.task ≠ i) :
    lastReading reads i (event :: older) =
      lastReading reads i older :=
  if_neg hTask

/- An event that reads nothing leaves the reading. -/
theorem lastReading_cons_of_none
    {event : Event Op Ret State Request Error Value}
    {older : List (Event Op Ret State Request Error Value)}
    (hNone : reads event = none) :
    lastReading reads i (event :: older) =
      lastReading reads i older := by
  by_cases hTask : event.task = i
  · rw [lastReading, if_pos hTask, hNone, Option.none_or]
  · exact lastReading_cons_of_ne hTask

theorem lastReading_perform_own
    {op : Op} {answer : Ret op} {after : State} :
    lastReading reads i (w.perform i op answer after).trace =
      (reads (.performed i op answer w.state after)).or
        (lastReading reads i w.trace) :=
  if_pos rfl

theorem lastReading_perform_of_ne
    {k : Nat} {op : Op} {answer : Ret op} {after : State}
    (hTask : i ≠ k) :
    lastReading reads k (w.perform i op answer after).trace =
      lastReading reads k w.trace :=
  if_neg hTask

/- The others do not read for a task. -/
theorem lastReading_of_grows
    (hGrows : World.Grows i w v) :
    lastReading reads i v.trace =
      lastReading reads i w.trace := by
  rcases hGrows with ⟨events, hTrace, hOthers⟩
  rw [hTrace]
  clear hTrace
  induction events with
  | nil => rfl
  | cons event rest ih =>
      have hTask := hOthers event List.mem_cons_self
      rw [List.cons_append, lastReading_cons_of_ne hTask]
      apply ih
      intro other hOther
      exact hOthers other (List.mem_cons_of_mem _ hOther)

/-
  A task follows the clock in a trace: whoever has written
  there had not read a later time than the task has.
-/
def FollowsClock
    (reads :
      Event Op Ret State Request Error Value → Option Nat)
    (writes : Event Op Ret State Request Error Value → Prop)
    (i : Nat)
    (trace :
      List (Event Op Ret State Request Error Value)) :
    Prop :=
  ∀ newer event older,
    trace = newer ++ event :: older → writes event →
      ∀ earlier current,
        lastReading reads event.task older = some earlier →
          lastReading reads i trace = some current →
            earlier ≤ current

/- An event writes for a task that had read a time. -/
def WritesAt
    (reads :
      Event Op Ret State Request Error Value → Option Nat)
    (writes : Event Op Ret State Request Error Value → Prop)
    (current : Nat)
    (event : Event Op Ret State Request Error Value)
    (older :
      List (Event Op Ret State Request Error Value)) :
    Prop :=
  writes event ∧
    lastReading reads event.task older = some current

theorem FollowsClock.le
    {trace : List (Event Op Ret State Request Error Value)}
    {earlier current : Nat}
    (hFollows : FollowsClock reads writes i trace)
    (hRead : lastReading reads i trace = some current)
    (hBefore :
      Somewhere (WritesAt reads writes earlier) trace) :
    earlier ≤ current := by
  rcases somewhere_iff.mp hBefore with
    ⟨newer, event, older, hTrace, hWrites, hEarlier⟩
  exact
    hFollows newer event older hTrace hWrites earlier current
      hEarlier hRead

/- A check of every event that may write. -/
def followsClock
    (reads :
      Event Op Ret State Request Error Value → Option Nat)
    (writes : Event Op Ret State Request Error Value → Bool)
    (current : Option Nat) :
    List (Event Op Ret State Request Error Value) → Bool
  | [] => true
  | event :: older =>
      (!writes event ||
          match lastReading reads event.task older, current with
          | some earlier, some current => earlier ≤ current
          | _, _ => true) &&
        followsClock reads writes current older

theorem followsClock_of_check
    {mayWrite :
      Event Op Ret State Request Error Value → Bool}
    {trace : List (Event Op Ret State Request Error Value)}
    (hMayWrite : ∀ event, writes event → mayWrite event = true)
    (hCheck :
      followsClock reads mayWrite (lastReading reads i trace)
        trace = true) :
    FollowsClock reads writes i trace := by
  intro newer event older hTrace hWrites earlier current
    hEarlier hCurrent
  have hAll :
      ∀ rest,
        followsClock reads mayWrite (some current) rest =
            true →
          Throughout
            (fun event older =>
              ∀ earlier, writes event →
                lastReading reads event.task older =
                    some earlier →
                  earlier ≤ current)
            rest := by
    intro rest hRest
    induction rest with
    | nil => trivial
    | cons first rest ih =>
        unfold followsClock at hRest
        rw [Bool.and_eq_true] at hRest
        refine ⟨?_, ih hRest.2⟩
        intro time hFirst hTime
        have hHere := hRest.1
        rw [hMayWrite first hFirst] at hHere
        simpa [hTime] using hHere
  rw [hCurrent] at hCheck
  exact
    throughout_iff.mp (hAll trace hCheck) newer event older
      hTrace earlier hWrites hEarlier

------------------------------------------------------------
-- The Law
------------------------------------------------------------

/- What expires, which calls are on it, and how they say
   that it has. -/
structure SlidingWindow
    (Op : Type)
    (Ret : Op → Type)
    (State Request Error Value : Type) where
  clock : State → Nat
  expiry : State → Option Nat
  call : Request → Prop
  expired : Error

structure Slides
    (W : SlidingWindow Op Ret State Request Error Value)
    (trace :
      List (Event Op Ret State Request Error Value)) :
    Prop where
  grows :
    ∀ i op answer before after,
      .performed i op answer before after ∈ trace →
        ∀ earlier later, W.expiry before = some earlier →
          W.expiry after = some later → earlier ≤ later
  lapsed :
    ∀ newer j older request,
      trace = newer ++ .finished j (.error W.expired) ::
          older →
        .started j request ∈ older → W.call request →
          ∀ i op answer before after,
            .performed i op answer before after ∈ newer →
              ∀ expiresAt, W.expiry after = some expiresAt →
                expiresAt ≤ W.clock after
  refused :
    ∀ newer j older request,
      trace = newer ++ .finished j (.error W.expired) ::
          older →
        .started j request ∈ older → W.call request →
          ∀ k other value, .started k other ∈ newer →
            W.call other → .finished k (.ok value) ∉ newer

/- A task has no event before it starts. -/
def Begins
    (event : Event Op Ret State Request Error Value)
    (older :
      List (Event Op Ret State Request Error Value)) :
    Prop :=
  ∀ i request, event = .started i request →
    ∀ other ∈ older, other.task ≠ i

/- In the trace of a run, a task ends after it started. -/
theorem started_before
    {trace newer older :
      List (Event Op Ret State Request Error Value)}
    {event : Event Op Ret State Request Error Value}
    {k : Nat}
    {request : Request}
    (hBegins : Throughout Begins trace)
    (hTrace : trace = newer ++ event :: older)
    (hStart : .started k request ∈ trace)
    (hTask : event.task = k)
    (hOther : event ≠ .started k request) :
    .started k request ∈ older := by
  rw [hTrace] at hStart
  rcases List.mem_append.mp hStart with hNewer | hRest
  · exfalso
    rcases List.append_of_mem hNewer with
      ⟨first, second, hSplit⟩
    have hFirst :=
      throughout_iff.mp hBegins first (.started k request)
        (second ++ event :: older)
        (by rw [hTrace, hSplit, List.append_assoc]; rfl)
    exact
      hFirst k request rfl event
        (List.mem_append_right _ List.mem_cons_self) hTask
  · rcases List.mem_cons.mp hRest with hEq | hOlder
    · exact absurd hEq.symm hOther
    · exact hOlder

/-
  The rule for windows: some events move the expiry, others
  miss it.  When no event moves it after one has missed it,
  every rejection has missed it, and every success has moved
  it, the window slides as it should.
-/
theorem slides_of_order
    {W : SlidingWindow Op Ret State Request Error Value}
    {trace : List (Event Op Ret State Request Error Value)}
    (hits misses :
      Event Op Ret State Request Error Value →
        List (Event Op Ret State Request Error Value) → Prop)
    (hGrows :
      ∀ i op answer before after,
        .performed i op answer before after ∈ trace →
          ∀ earlier later, W.expiry before = some earlier →
            W.expiry after = some later → earlier ≤ later)
    (hBegins : Throughout Begins trace)
    (hOrder :
      Throughout
        (fun event older =>
          hits event older → ¬ Somewhere misses older)
        trace)
    (hOver :
      Throughout
        (fun event older =>
          ∀ i op answer before after,
            event = .performed i op answer before after →
              Somewhere misses older →
                ∀ expiresAt, W.expiry after = some expiresAt →
                  expiresAt ≤ W.clock after)
        trace)
    (hRejected :
      Throughout
        (fun event older =>
          ∀ j request, event = .finished j (.error W.expired) →
            .started j request ∈ older → W.call request →
              Somewhere misses (event :: older))
        trace)
    (hSucceeded :
      Throughout
        (fun event older =>
          ∀ k request value, event = .finished k (.ok value) →
            .started k request ∈ older → W.call request →
              Somewhere
                (fun hit before =>
                  hit.task = k ∧ hits hit before)
                older)
        trace) :
    Slides W trace := by
  constructor
  · exact hGrows
  · intro newer j older request hTrace hStart hCall i op answer
      before after hEvent expiresAt hExpiry
    have hMissed :=
      throughout_iff.mp hRejected newer _ older hTrace j
        request rfl hStart hCall
    rcases List.append_of_mem hEvent with
      ⟨first, second, hSplit⟩
    have hPast :=
      throughout_iff.mp hOver first _
        (second ++ .finished j (.error W.expired) :: older)
        (by rw [hTrace, hSplit, List.append_assoc]; rfl)
    exact
      hPast i op answer before after rfl
        (hMissed.of_suffix (List.suffix_append _ _)) expiresAt
        hExpiry
  · intro newer j older request hTrace hStart hCall k other
      value hOther hOtherCall hFinished
    have hMissed :=
      throughout_iff.mp hRejected newer _ older hTrace j
        request rfl hStart hCall
    -- Every event of the later call is after the rejection.
    have hLate :
        ∀ event ∈
            .finished j (.error W.expired) :: older,
          event.task ≠ k := by
      rcases List.append_of_mem hOther with
        ⟨first, second, hSplit⟩
      have hFirst :=
        throughout_iff.mp hBegins first (.started k other)
          (second ++ .finished j (.error W.expired) :: older)
          (by rw [hTrace, hSplit, List.append_assoc]; rfl)
      intro event hEvent
      exact hFirst k other rfl event
        (List.mem_append_right _ hEvent)
    rcases List.append_of_mem hFinished with
      ⟨first, second, hSplit⟩
    have hEnd :
        trace =
          first ++ .finished k (.ok value) ::
            (second ++ .finished j (.error W.expired) ::
              older) := by
      rw [hTrace, hSplit, List.append_assoc]
      rfl
    have hStarted :
        .started k other ∈
          second ++ .finished j (.error W.expired) :: older :=
      started_before hBegins hEnd
        (by
          rw [hTrace]
          exact List.mem_append_left _ hOther)
        rfl (by simp)
    have hHit :=
      throughout_iff.mp hSucceeded first _ _ hEnd k other value
        rfl hStarted hOtherCall
    rcases somewhere_iff.mp hHit with
      ⟨after, hit, before, hWhere, hTask, hHits⟩
    have hSuffix :=
      suffix_of_not_mem hWhere fun hMember =>
        hLate hit hMember hTask
    have hNot :=
      throughout_iff.mp hOrder
        (first ++ .finished k (.ok value) :: after) hit before
        (by rw [hEnd, hWhere]; simp) hHits
    exact hNot (hMissed.of_suffix hSuffix)

end Concurrency
