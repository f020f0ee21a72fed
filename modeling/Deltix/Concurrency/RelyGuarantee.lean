import Deltix.Concurrency.Tasks

/-
  Rely-guarantee reasoning for interleaved tasks.

  A contract states an invariant of the world and, for each
  task, how the other tasks may change the world while the
  task waits.  `Contract.Safe` is the weakest precondition
  of a computation under a contract: whatever the others do
  within the task's rely, each of its operations keeps the
  invariant and stays within everybody else's rely.

  Key definitions include:
    * `World.Grows`
    * `World.own`
    * `Throughout`
    * `Contract`
    * `Contract.Keeps`
    * `Contract.Safe`
    * `Contract.Stable`
    * `Contract.Moves`

  Key theorems include:
    * `Contract.safe_bind`
    * `Contract.safe_catchError`
    * `Contract.safe_mono`
    * `Contract.safe_with_inv`
    * `Contract.safe_forEach`
    * `Contract.safe_await`
    * `Contract.safe_only`
    * `Contract.sound`
-/

------------------------------------------------------------
-- Growing Traces
------------------------------------------------------------

namespace Concurrency

namespace World

variable {Op : Type} {Ret : Op → Type}
variable {State Request Error Value : Type}
variable {w v u : World Op Ret State Request Error Value}
variable {i j : Nat}
variable {event : Event Op Ret State Request Error Value}

/-
  The trace grew by events of other tasks than `i`.
-/
def Grows
    (i : Nat)
    (w v : World Op Ret State Request Error Value) : Prop :=
  ∃ events,
    v.trace = events ++ w.trace ∧
      ∀ event ∈ events, event.task ≠ i

/- The events of one task, newest first. -/
def own
    (w : World Op Ret State Request Error Value)
    (i : Nat) :
    List (Event Op Ret State Request Error Value) :=
  w.trace.filter fun event => event.task = i

theorem Grows.refl
    (i : Nat)
    (w : World Op Ret State Request Error Value) :
    Grows i w w :=
  ⟨[], by simp, by simp⟩

theorem Grows.trans
    (hFirst : Grows i w v)
    (hSecond : Grows i v u) :
    Grows i w u := by
  rcases hFirst with ⟨older, hOlder, hOlderTask⟩
  rcases hSecond with ⟨newer, hNewer, hNewerTask⟩
  refine ⟨newer ++ older, ?_, ?_⟩
  · rw [hNewer, hOlder, List.append_assoc]
  · intro event hEvent
    rcases List.mem_append.mp hEvent with hNew | hOld
    · exact hNewerTask event hNew
    · exact hOlderTask event hOld

/- One event of another task is growth. -/
theorem Grows.cons
    (event : Event Op Ret State Request Error Value)
    (hTask : event.task ≠ i)
    (hTrace : v.trace = event :: w.trace) :
    Grows i w v :=
  ⟨[event], by simp [hTrace], by simpa using hTask⟩

/- Growth keeps every event. -/
theorem Grows.mem
    (hGrows : Grows i w v)
    (hMember : event ∈ w.trace) :
    event ∈ v.trace := by
  rcases hGrows with ⟨events, hTrace, _⟩
  rw [hTrace]
  exact List.mem_append_right _ hMember

/- Growth adds no event of the task itself. -/
theorem Grows.mem_own
    (hGrows : Grows i w v)
    (hTask : event.task = i)
    (hMember : event ∈ v.trace) :
    event ∈ w.trace := by
  rcases hGrows with ⟨events, hTrace, hOthers⟩
  rw [hTrace] at hMember
  rcases List.mem_append.mp hMember with hNew | hOld
  · exact absurd hTask (hOthers event hNew)
  · exact hOld

/- Growth leaves the task's own events as they are. -/
theorem Grows.own_eq
    (hGrows : Grows i w v) :
    v.own i = w.own i := by
  rcases hGrows with ⟨events, hTrace, hOthers⟩
  have hNone :
      events.filter (fun event => event.task = i) = [] := by
    rw [List.filter_eq_nil_iff]
    intro event hEvent
    simpa using hOthers event hEvent
  simp [own, hTrace, List.filter_append, hNone]

@[simp] theorem own_start
    (w : World Op Ret State Request Error Value)
    (i : Nat)
    (request : Request) :
    (w.start i request).own i =
      .started i request :: w.own i := by
  simp [own]

@[simp] theorem own_perform
    (w : World Op Ret State Request Error Value)
    (i : Nat) (op : Op) (answer : Ret op) (after : State) :
    (w.perform i op answer after).own i =
      .performed i op answer w.state after :: w.own i := by
  simp [own]

theorem own_start_of_ne
    (w : World Op Ret State Request Error Value)
    (request : Request)
    (hNe : j ≠ i) :
    (w.start i request).own j = w.own j := by
  simp [own, hNe.symm]

theorem own_perform_of_ne
    (w : World Op Ret State Request Error Value)
    {i j : Nat} (op : Op) (answer : Ret op) (after : State)
    (hNe : j ≠ i) :
    (w.perform i op answer after).own j = w.own j := by
  simp [own, hNe.symm]

theorem own_finish_of_ne
    (w : World Op Ret State Request Error Value)
    (outcome : Except Error Value)
    (hNe : j ≠ i) :
    (w.finish i outcome).own j = w.own j := by
  simp [own, hNe.symm]

theorem own_eq_nil_of_fresh
    (hFresh : w.Fresh i) :
    w.own i = [] := by
  rw [own, List.filter_eq_nil_iff]
  intro event hEvent
  simpa using hFresh event hEvent

end World

/- Every event of a trace, with the events before it. -/
def Throughout
    {E : Type}
    (P : E → List E → Prop) : List E → Prop
  | [] => True
  | event :: older => P event older ∧ Throughout P older

theorem throughout_iff
    {E : Type}
    {P : E → List E → Prop}
    {trace : List E} :
    Throughout P trace ↔
      ∀ newer event older,
        trace = newer ++ event :: older → P event older := by
  induction trace with
  | nil => simp [Throughout]
  | cons first rest ih =>
      constructor
      · intro hAll newer event older hTrace
        cases newer with
        | nil =>
            cases hTrace
            exact hAll.1
        | cons _ newer =>
            cases hTrace
            exact ih.mp hAll.2 newer event older rfl
      · intro hAll
        refine ⟨hAll [] first rest rfl, ih.mpr ?_⟩
        intro newer event older hTrace
        subst hTrace
        exact hAll (first :: newer) event older rfl

------------------------------------------------------------
-- Starts And Ends Of Tasks
------------------------------------------------------------

variable {Op : Type} {Ret : Op → Type}
variable {State Choice Request Error Value : Type}

/- Every task is started with one request. -/
def StartsOnce
    (trace :
      List (Event Op Ret State Request Error Value)) : Prop :=
  ∀ i request other,
    .started i request ∈ trace → .started i other ∈ trace →
      request = other

theorem StartsOnce.cons
    {w : World Op Ret State Request Error Value}
    {event : Event Op Ret State Request Error Value}
    (hOnce : StartsOnce w.trace)
    (hFresh :
      ∀ i request, event = .started i request → w.Fresh i) :
    StartsOnce (event :: w.trace) := by
  intro i request other hRequest hOther
  rcases List.mem_cons.mp hRequest with hNew | hOld
  · rcases List.mem_cons.mp hOther with hSame | hOld'
    · rw [← hNew] at hSame
      cases hSame
      rfl
    · exact absurd rfl (hFresh i request hNew.symm _ hOld')
  · rcases List.mem_cons.mp hOther with hNew | hOld'
    · exact absurd rfl (hFresh i other hNew.symm _ hOld)
    · exact hOnce i request other hOld hOld'

/- No task has an event after its end. -/
def Quiet
    (trace :
      List (Event Op Ret State Request Error Value)) : Prop :=
  Throughout
    (fun event older =>
      ∀ outcome, .finished event.task outcome ∉ older)
    trace

/- What a task has done it has done before its end. -/
theorem Quiet.before_end
    {trace newer older :
      List (Event Op Ret State Request Error Value)}
    {event : Event Op Ret State Request Error Value}
    {outcome : Except Error Value}
    (hQuiet : Quiet trace)
    (hTrace :
      trace = newer ++ .finished event.task outcome :: older)
    (hEvent : event ∈ trace) :
    event ∈ .finished event.task outcome :: older := by
  rw [hTrace] at hEvent
  rcases List.mem_append.mp hEvent with hNew | hOld
  · rcases List.append_of_mem hNew with ⟨first, last, hSplit⟩
    have hSame :
        trace =
          first ++ event ::
            (last ++ .finished event.task outcome :: older) := by
      rw [hTrace, hSplit]
      simp
    exfalso
    exact
      throughout_iff.mp hQuiet first event _ hSame outcome
        (List.mem_append_right _ List.mem_cons_self)
  · exact hOld

/- The tasks that have ended are not in progress. -/
structure QuietPool
    (p : Pool Op Ret State Request Error Value) : Prop where
  quiet : Quiet p.world.trace
  ended :
    ∀ i outcome, .finished i outcome ∈ p.world.trace →
      ∃ rest, p.tasks i = some rest ∧
        ∀ op resume, rest ≠ .await op resume

variable
  {S : System Op Ret State Choice Request Error Value}
variable {ok : Allowed Op Ret State Request Error Value}
variable {p q : Pool Op Ret State Request Error Value}

theorem quietPool_advance
    {i : Nat}
    {w : World Op Ret State Request Error Value}
    {rest : Async Op Ret Error Value}
    (event : Event Op Ret State Request Error Value)
    (hPool : QuietPool p)
    (hTask : event.task = i)
    (hEvent : ∀ k outcome, event ≠ .finished k outcome)
    (hTrace : w.trace = event :: p.world.trace)
    (hNone :
      ∀ outcome, .finished i outcome ∉ p.world.trace) :
    QuietPool (p.advance i w rest) := by
  have hHere : Quiet w.trace := by
    rw [hTrace]
    refine ⟨?_, hPool.quiet⟩
    intro outcome
    rw [hTask]
    exact hNone outcome
  have hOpen : ∀ outcome, .finished i outcome ∉ w.trace := by
    intro outcome hMember
    rw [hTrace] at hMember
    rcases List.mem_cons.mp hMember with hNew | hOld
    · exact hEvent i outcome hNew.symm
    · exact hNone outcome hOld
  have hOthers :
      ∀ k outcome, k ≠ i → .finished k outcome ∈ w.trace →
        ∃ other, (p.advance i w rest).tasks k = some other ∧
          ∀ op resume, other ≠ .await op resume := by
    intro k outcome hOther hMember
    rw [hTrace] at hMember
    rcases List.mem_cons.mp hMember with hNew | hOld
    · exact absurd hNew.symm (hEvent k outcome)
    · rcases hPool.ended k outcome hOld with
        ⟨other, hTasks, hDone⟩
      exact ⟨other, by simpa [Pool.advance, hOther], hDone⟩
  have hEnds :
      ∀ outcome, rest.outcome? = some outcome →
        (w.settle i rest).trace =
          .finished i outcome :: w.trace := by
    intro outcome hOutcome
    simp [World.settle, hOutcome]
  cases hRest : rest.outcome? with
  | none =>
      have hSame : (p.advance i w rest).world = w := by
        simp [Pool.advance, World.settle, hRest]
      refine ⟨by rw [hSame]; exact hHere, ?_⟩
      intro k outcome hMember
      rw [hSame] at hMember
      by_cases hSelf : k = i
      · subst hSelf
        exact absurd hMember (hOpen outcome)
      · exact hOthers k outcome hSelf hMember
  | some ended =>
      have hLast := hEnds ended hRest
      refine ⟨?_, ?_⟩
      · rw [Pool.advance, hLast]
        exact ⟨hOpen, hHere⟩
      · intro k outcome hMember
        by_cases hSelf : k = i
        · subst hSelf
          refine ⟨rest, by simp [Pool.advance], ?_⟩
          rintro op resume rfl
          cases hRest
        · rw [Pool.advance, hLast] at hMember
          rcases List.mem_cons.mp hMember with hNew | hOld
          · cases hNew
            exact absurd rfl hSelf
          · exact hOthers k outcome hSelf hOld

/- Nothing happens in a task after its end. -/
theorem quiet_run
    {initial : State}
    (hRun : S.Run ok (Pool.initial initial) p) :
    Quiet p.world.trace := by
  have hPool : QuietPool p := by
    refine System.Run.invariant ?_ ?_ hRun
    · exact
        ⟨trivial,
          fun _ _ hMember => absurd hMember List.not_mem_nil⟩
    · intro q r label hPool _ hMoved
      cases label with
      | start i request =>
          rcases System.start_cases hMoved with ⟨hNone, rfl⟩
          refine
            quietPool_advance (.started i request) hPool rfl
              (by simp) rfl ?_
          intro outcome hMember
          rcases hPool.ended i outcome hMember with
            ⟨rest, hTask, _⟩
          rw [hNone] at hTask
          cases hTask
      | resume i choice =>
          rcases System.resume_cases hMoved with
            ⟨op, resume, answer, after, hTask, _, rfl⟩
          refine
            quietPool_advance
              (.performed i op answer q.world.state after)
              hPool rfl (by simp) rfl ?_
          intro outcome hMember
          rcases hPool.ended i outcome hMember with
            ⟨rest, hOther, hDone⟩
          rw [hTask, Option.some.injEq] at hOther
          exact hDone op resume hOther.symm
  exact hPool.quiet

/-
  An invariant of the world, and for each task a preorder
  that bounds what the other tasks do while it waits.
-/
structure Contract
    (Op : Type)
    (Ret : Op → Type)
    (State Request Error Value : Type) where
  inv : World Op Ret State Request Error Value → Prop
  rely :
    Nat → World Op Ret State Request Error Value →
      World Op Ret State Request Error Value → Prop
  rely_refl : ∀ i w, rely i w w
  rely_trans :
    ∀ i w v u, rely i w v → rely i v u → rely i w u

namespace Contract

variable {Op : Type} {Ret : Op → Type}
variable {State Choice Request Error Value Other : Type}
variable (K : Contract Op Ret State Request Error Value)
variable
  (S : System Op Ret State Choice Request Error Value)
variable
  (ok : Allowed Op Ret State Request Error Value)

/- What a task may find after it waited. -/
def Interferes
    (i : Nat)
    (w v : World Op Ret State Request Error Value) : Prop :=
  World.Grows i w v ∧ K.rely i w v

/- What a step of task `i` owes to the invariant and to the
   other tasks. -/
def Keeps
    (i : Nat)
    (w v : World Op Ret State Request Error Value) : Prop :=
  K.inv v ∧ ∀ j, j ≠ i → K.rely j w v

/-
  The weakest precondition of a computation of task `i`:
  every operation it performs keeps the contract, and it
  ends in a world with the postcondition of its outcome.
-/
def Safe
    (i : Nat)
    (computation : Async Op Ret Error Other)
    (post :
      Other → World Op Ret State Request Error Value → Prop)
    (raised :
      Error → World Op Ret State Request Error Value → Prop)
    (w : World Op Ret State Request Error Value) : Prop :=
  match computation with
  | .returned value => post value w
  | .threw error => raised error w
  | .await op resume =>
      ∀ v, K.Interferes i w v → K.inv v →
        ok.perform i op v →
        ∀ choice answer after,
          S.exec op choice v.state = some (answer, after) →
          K.Keeps i v (v.perform i op answer after) ∧
            Safe i (resume answer) post raised
              (v.perform i op answer after)

theorem Interferes.refl
    (i : Nat)
    (w : World Op Ret State Request Error Value) :
    K.Interferes i w w :=
  ⟨World.Grows.refl i w, K.rely_refl i w⟩

variable {K}

theorem Interferes.trans
    {i : Nat}
    {w v u : World Op Ret State Request Error Value}
    (hFirst : K.Interferes i w v)
    (hSecond : K.Interferes i v u) :
    K.Interferes i w u :=
  ⟨hFirst.1.trans hSecond.1,
    K.rely_trans i w v u hFirst.2 hSecond.2⟩

------------------------------------------------------------
-- Proof Rules
------------------------------------------------------------

variable {Op : Type} {Ret : Op → Type}
variable {State Choice Request Error Value : Type}
variable {First Other Element : Type}
variable {K : Contract Op Ret State Request Error Value}
variable
  {S : System Op Ret State Choice Request Error Value}
variable
  {ok : Allowed Op Ret State Request Error Value}
variable {i : Nat}
variable {w : World Op Ret State Request Error Value}
variable {computation : Async Op Ret Error Other}
variable {body : Element → Async Op Ret Error Unit}
variable {elements : List Element} {op : Op}
variable {resume : Ret op → Async Op Ret Error Other}
variable {cond : Op → Prop}
variable {J : World Op Ret State Request Error Value → Prop}

/- The rule of consequence. -/
theorem safe_mono
    {post post' :
      Other → World Op Ret State Request Error Value → Prop}
    {raised raised' :
      Error → World Op Ret State Request Error Value → Prop}
    (hPost : ∀ value v, post value v → post' value v)
    (hRaised : ∀ error v, raised error v → raised' error v)
    (hSafe : K.Safe S ok i computation post raised w) :
    K.Safe S ok i computation post' raised' w := by
  induction computation generalizing w with
  | returned value => exact hPost value w hSafe
  | threw error => exact hRaised error w hSafe
  | await op resume ih =>
      intro v hInterferes hInv hOk choice answer after hExec
      have hStep :=
        hSafe v hInterferes hInv hOk choice answer after
          hExec
      exact ⟨hStep.1, ih answer hStep.2⟩

/- The invariant also holds where a computation ends. -/
theorem safe_with_inv
    {post :
      Other → World Op Ret State Request Error Value → Prop}
    {raised :
      Error → World Op Ret State Request Error Value → Prop}
    (hInv : K.inv w)
    (hSafe : K.Safe S ok i computation post raised w) :
    K.Safe S ok i computation
      (fun value v => K.inv v ∧ post value v)
      (fun error v => K.inv v ∧ raised error v) w := by
  induction computation generalizing w with
  | returned value => exact ⟨hInv, hSafe⟩
  | threw error => exact ⟨hInv, hSafe⟩
  | await op resume ih =>
      intro v hInterferes hHere hOk choice answer after hExec
      have hStep :=
        hSafe v hInterferes hHere hOk choice answer after
          hExec
      exact ⟨hStep.1, ih answer hStep.1.1 hStep.2⟩

/- No event is forgotten where a computation ends. -/
theorem safe_with_event
    {post :
      Other → World Op Ret State Request Error Value → Prop}
    {raised :
      Error → World Op Ret State Request Error Value → Prop}
    {event : Event Op Ret State Request Error Value}
    (hEvent : event ∈ w.trace)
    (hSafe : K.Safe S ok i computation post raised w) :
    K.Safe S ok i computation
      (fun value v => event ∈ v.trace ∧ post value v)
      (fun error v => event ∈ v.trace ∧ raised error v) w := by
  induction computation generalizing w with
  | returned value => exact ⟨hEvent, hSafe⟩
  | threw error => exact ⟨hEvent, hSafe⟩
  | await op resume ih =>
      intro v hInterferes hHere hOk choice answer after hExec
      have hStep :=
        hSafe v hInterferes hHere hOk choice answer after
          hExec
      refine ⟨hStep.1, ih answer ?_ hStep.2⟩
      exact
        List.mem_cons_of_mem _ (hInterferes.1.mem hEvent)

/- Sequencing. -/
theorem safe_bind
    {first : Async Op Ret Error First}
    {next : First → Async Op Ret Error Other}
    {post :
      Other → World Op Ret State Request Error Value → Prop}
    {raised :
      Error → World Op Ret State Request Error Value → Prop}
    (hSafe :
      K.Safe S ok i first
        (fun value v =>
          K.Safe S ok i (next value) post raised v)
        raised w) :
    K.Safe S ok i (first.bind next) post raised w := by
  induction first generalizing w with
  | returned value => exact hSafe
  | threw error => exact hSafe
  | await op resume ih =>
      intro v hInterferes hInv hOk choice answer after hExec
      have hStep :=
        hSafe v hInterferes hInv hOk choice answer after
          hExec
      exact ⟨hStep.1, ih answer hStep.2⟩

/- Handling an error. -/
theorem safe_catchError
    {body : Async Op Ret Error Other}
    {handler : Error → Async Op Ret Error Other}
    {post :
      Other → World Op Ret State Request Error Value → Prop}
    {raised :
      Error → World Op Ret State Request Error Value → Prop}
    (hSafe :
      K.Safe S ok i body post
        (fun error v =>
          K.Safe S ok i (handler error) post raised v)
        w) :
    K.Safe S ok i (body.catchError handler)
      post raised w := by
  induction body generalizing w with
  | returned value => exact hSafe
  | threw error => exact hSafe
  | await op resume ih =>
      intro v hInterferes hInv hOk choice answer after hExec
      have hStep :=
        hSafe v hInterferes hInv hOk choice answer after
          hExec
      exact ⟨hStep.1, ih answer hStep.2⟩

/- A check passes or throws. -/
theorem safe_ensure
    {condition : Bool}
    {error : Error}
    {post :
      Unit → World Op Ret State Request Error Value → Prop}
    {raised :
      Error → World Op Ret State Request Error Value → Prop}
    (hPasses : condition = true → post () w)
    (hThrows : condition = false → raised error w) :
    K.Safe S ok i (Async.ensure condition error) post raised
      w := by
  unfold Async.ensure
  cases condition with
  | true => exact hPasses rfl
  | false => exact hThrows rfl

/- A loop keeps what each of its rounds keeps. -/
theorem safe_forEach
    {raised :
      Error → World Op Ret State Request Error Value → Prop}
    (loop : World Op Ret State Request Error Value → Prop)
    (hBody :
      ∀ element ∈ elements, ∀ v, loop v →
        K.Safe S ok i (body element)
          (fun _ => loop) raised v)
    (hLoop : loop w) :
    K.Safe S ok i (Async.forEach body elements)
      (fun _ => loop) raised w := by
  induction elements generalizing w with
  | nil => exact hLoop
  | cons element rest ih =>
      apply safe_bind
      refine safe_mono ?_ (fun _ _ h => h)
        (hBody element List.mem_cons_self w hLoop)
      intro _ v hRound
      refine ih ?_ hRound
      intro other hOther
      exact hBody other (List.mem_cons_of_mem _ hOther)

/- A loop whose assertion knows the rounds that are done. -/
theorem safe_forEach_after
    {done rest : List Element}
    {raised :
      Error → World Op Ret State Request Error Value → Prop}
    (loop :
      List Element →
        World Op Ret State Request Error Value → Prop)
    (hBody :
      ∀ done element, done ++ [element] <+: elements →
        ∀ v, loop done v →
          K.Safe S ok i (body element)
            (fun _ => loop (done ++ [element])) raised v)
    (hElements : elements = done ++ rest)
    (hLoop : loop done w) :
    K.Safe S ok i (Async.forEach body rest)
      (fun _ => loop elements) raised w := by
  induction rest generalizing done w with
  | nil =>
      rw [List.append_nil] at hElements
      rw [hElements]
      exact hLoop
  | cons element rest ih =>
      have hNext : elements = (done ++ [element]) ++ rest := by
        rw [hElements, List.append_assoc]
        rfl
      apply safe_bind
      refine safe_mono ?_ (fun _ _ h => h)
        (hBody done element ⟨rest, hNext.symm⟩ w hLoop)
      intro _ v hRound
      exact ih hNext hRound

/- An assertion that survives what the other tasks do. -/
def Stable
    (K : Contract Op Ret State Request Error Value)
    (i : Nat)
    (J : World Op Ret State Request Error Value → Prop) :
    Prop :=
  ∀ w v, J w → K.Interferes i w v → K.inv v → J v

/- One operation, performed where an assertion holds. -/
theorem safe_await
    {post :
      Other → World Op Ret State Request Error Value → Prop}
    {raised :
      Error → World Op Ret State Request Error Value → Prop}
    {J : World Op Ret State Request Error Value → Prop}
    (hStable : K.Stable i J)
    (hHere : J w)
    (hStep :
      ∀ v, J v → K.inv v → ok.perform i op v →
        ∀ choice answer after,
          S.exec op choice v.state = some (answer, after) →
          K.Keeps i v (v.perform i op answer after) ∧
            K.Safe S ok i (resume answer) post raised
              (v.perform i op answer after)) :
    K.Safe S ok i (.await op resume) post raised w := by
  intro v hInterferes hInv hOk choice answer after hExec
  have hThere : J v := hStable w v hHere hInterferes hInv
  exact hStep v hThere hInv hOk choice answer after hExec

/-
  A computation all of whose operations keep a stable
  assertion keeps it.
-/
theorem safe_only
    (hOnly : computation.Only cond)
    (hStable : K.Stable i J)
    (hStep :
      ∀ v op, J v → K.inv v → cond op →
        ok.perform i op v →
        ∀ choice answer after,
          S.exec op choice v.state = some (answer, after) →
          K.Keeps i v (v.perform i op answer after) ∧
            J (v.perform i op answer after))
    (hHere : J w) :
    K.Safe S ok i computation (fun _ => J) (fun _ => J) w :=
    by
  induction computation generalizing w with
  | returned value => exact hHere
  | threw error => exact hHere
  | await op resume ih =>
      refine safe_await hStable hHere ?_
      intro v hThere hInv hOk choice answer after hExec
      have hKept :=
        hStep v op hThere hInv hOnly.1 hOk choice answer
          after hExec
      exact ⟨hKept.1, ih answer (hOnly.2 answer) hKept.2⟩

/-
  From worlds with an assertion, every outcome of an allowed
  operation keeps the contract and has another assertion.
-/
def Moves
    (K : Contract Op Ret State Request Error Value)
    (S : System Op Ret State Choice Request Error Value)
    (ok : Allowed Op Ret State Request Error Value)
    (i : Nat)
    (op : Op)
    (pre : World Op Ret State Request Error Value → Prop)
    (post :
      Ret op → World Op Ret State Request Error Value →
        Prop) : Prop :=
  ∀ v, pre v → K.inv v → ok.perform i op v →
    ∀ choice answer after,
      S.exec op choice v.state = some (answer, after) →
      K.Keeps i v (v.perform i op answer after) ∧
        post answer (v.perform i op answer after)

theorem Moves.safe
    {post :
      Ret op → World Op Ret State Request Error Value → Prop}
    {raised :
      Error → World Op Ret State Request Error Value → Prop}
    (hMoves : K.Moves S ok i op J post)
    (hStable : K.Stable i J)
    (hHere : J w) :
    K.Safe S ok i (Async.call op) post raised w := by
  refine safe_await hStable hHere ?_
  intro v hThere hInv hOk choice answer after hExec
  exact hMoves v hThere hInv hOk choice answer after hExec

/- What every answer to an operation has, is also there. -/
theorem Moves.with_answer
    {pre : World Op Ret State Request Error Value → Prop}
    {post :
      Ret op → World Op Ret State Request Error Value → Prop}
    {R : Ret op → Prop}
    (hMoves : K.Moves S ok i op pre post)
    (hAnswer :
      ∀ choice s answer t,
        S.exec op choice s = some (answer, t) → R answer) :
    K.Moves S ok i op pre fun answer v =>
      post answer v ∧ R answer := by
  intro v hPre hInv hOk choice answer after hExec
  have hMoved := hMoves v hPre hInv hOk choice answer after
    hExec
  exact ⟨hMoved.1, hMoved.2,
    hAnswer choice v.state answer after hExec⟩

/- A program whose operations keep a stable assertion. -/
theorem safe_of_moves
    (hOnly : computation.Only cond)
    (hMoves :
      ∀ op, cond op → K.Moves S ok i op J fun _ => J)
    (hStable : K.Stable i J)
    (hHere : J w) :
    K.Safe S ok i computation (fun _ => J) (fun _ => J) w := by
  refine safe_only hOnly hStable ?_ hHere
  intro v op hThere hInv hCond hOk choice answer after hExec
  exact hMoves op hCond v hThere hInv hOk choice answer after
    hExec

/- A task that waits does not notice the others. -/
theorem safe_await_of_interferes
    {post :
      Other → World Op Ret State Request Error Value → Prop}
    {raised :
      Error → World Op Ret State Request Error Value → Prop}
    {v : World Op Ret State Request Error Value}
    (hSafe :
      K.Safe S ok i (.await op resume) post raised w)
    (hInterferes : K.Interferes i w v) :
    K.Safe S ok i (.await op resume) post raised v :=
  fun u hLater =>
    hSafe u (hInterferes.trans hLater)

------------------------------------------------------------
-- Soundness
------------------------------------------------------------

variable {Op : Type} {Ret : Op → Type}
variable {State Choice Request Error Value : Type}
variable (K : Contract Op Ret State Request Error Value)
variable
  (S : System Op Ret State Choice Request Error Value)
variable
  (ok : Allowed Op Ret State Request Error Value)

/- A task may end in a world: its end keeps the contract. -/
def Ends
    (i : Nat)
    (outcome : Except Error Value)
    (w : World Op Ret State Request Error Value) : Prop :=
  K.Keeps i w (w.finish i outcome)

/- A whole task is safe from a world on. -/
def SafeTask
    (i : Nat)
    (rest : Async Op Ret Error Value)
    (w : World Op Ret State Request Error Value) : Prop :=
  K.Safe S ok i rest
    (fun value => K.Ends i (.ok value))
    (fun error => K.Ends i (.error error)) w

/-
  What a pool keeps along a run: the invariant, the
  freshness of tasks not started, and the safety of every
  task still in progress.
-/
structure PoolSafe
    (p : Pool Op Ret State Request Error Value) :
    Prop where
  inv : K.inv p.world
  fresh : ∀ i, p.tasks i = none → p.world.Fresh i
  safe :
    ∀ i op resume,
      p.tasks i = some (.await op resume) →
        K.SafeTask S ok i (.await op resume) p.world

variable {K S ok}
variable {p : Pool Op Ret State Request Error Value}

/-
  A step of task `i` to a world `w` in which the rest of its
  computation is safe keeps the pool safe.
-/
theorem poolSafe_advance
    {i : Nat}
    {w : World Op Ret State Request Error Value}
    {rest : Async Op Ret Error Value}
    (event : Event Op Ret State Request Error Value)
    (hPool : K.PoolSafe S ok p)
    (hEvent : event.task = i)
    (hTrace : w.trace = event :: p.world.trace)
    (hKeeps : K.Keeps i p.world w)
    (hRest : K.SafeTask S ok i rest w) :
    K.PoolSafe S ok (p.advance i w rest) := by
  have hSettled :
      K.Keeps i p.world (w.settle i rest) ∧
        ∀ j, j ≠ i →
          World.Grows j p.world (w.settle i rest) := by
    have hGrows :
        ∀ j, j ≠ i → World.Grows j p.world w := by
      intro j hj
      exact World.Grows.cons event
        (by rw [hEvent]; exact fun h => hj h.symm) hTrace
    have hEnds :
        ∀ outcome, K.Ends i outcome w →
          K.Keeps i p.world (w.finish i outcome) ∧
            ∀ j, j ≠ i →
              World.Grows j p.world
                (w.finish i outcome) := by
      intro outcome hEnd
      refine ⟨⟨hEnd.1, ?_⟩, ?_⟩
      · intro j hj
        exact K.rely_trans j _ _ _ (hKeeps.2 j hj)
          (hEnd.2 j hj)
      · intro j hj
        exact (hGrows j hj).trans
          (World.Grows.cons (.finished i outcome)
            (fun h => hj h.symm) rfl)
    cases rest with
    | returned value => exact hEnds _ hRest
    | threw error => exact hEnds _ hRest
    | await op resume => exact ⟨hKeeps, hGrows⟩
  have hInterferes :
      ∀ j, j ≠ i →
        K.Interferes j p.world (w.settle i rest) :=
    fun j hj => ⟨hSettled.2 j hj, hSettled.1.2 j hj⟩
  refine ⟨hSettled.1.1, ?_, ?_⟩
  · intro j hNone
    have hj : j ≠ i := by
      intro hEq
      subst hEq
      simp [Pool.advance] at hNone
    have hOld : p.tasks j = none := by
      simpa [Pool.advance, hj] using hNone
    intro other hOther hTask
    exact hPool.fresh j hOld other
      ((hSettled.2 j hj).mem_own hTask hOther) hTask
  · intro j op resume hTask
    by_cases hj : j = i
    · subst hj
      have hRestEq : rest = .await op resume := by
        simpa [Pool.advance] using hTask
      subst hRestEq
      exact hRest
    · have hOld :
          p.tasks j = some (.await op resume) := by
        simpa [Pool.advance, hj] using hTask
      exact safe_await_of_interferes
        (hPool.safe j op resume hOld) (hInterferes j hj)

/-
  Soundness: when every request that may start is served by
  a safe computation, every pool that a run reaches is safe,
  and so its world has the invariant.
-/
theorem sound
    (initial : State)
    (hInit : K.inv ⟨initial, []⟩)
    (hServe :
      ∀ w i request, K.inv w → w.Fresh i →
        ok.start i request w →
        K.Keeps i w (w.start i request) ∧
          K.SafeTask S ok i (S.serve i request)
            (w.start i request))
    (hRun : S.Run ok (Pool.initial initial) p) :
    K.PoolSafe S ok p := by
  refine System.Run.invariant ?_ ?_ hRun
  · refine ⟨hInit, ?_, ?_⟩
    · intro i _ event hEvent
      exact absurd hEvent List.not_mem_nil
    · intro i op resume hTask
      exact absurd hTask (by simp [Pool.initial])
  · intro q r label hPool hAllowed hMoved
    cases label with
    | start i request =>
        rcases System.start_cases hMoved with
          ⟨hNone, rfl⟩
        rcases hServe q.world i request hPool.inv
            (hPool.fresh i hNone) hAllowed with
          ⟨hKeeps, hSafe⟩
        exact poolSafe_advance (.started i request) hPool
          rfl rfl hKeeps hSafe
    | resume i choice =>
        rcases System.resume_cases hMoved with
          ⟨op, resume, answer, after, hTask, hExec, rfl⟩
        have hStep :=
          hPool.safe i op resume hTask q.world
            (Interferes.refl K i q.world) hPool.inv
            (hAllowed op resume hTask) choice answer after
            hExec
        exact poolSafe_advance
          (.performed i op answer q.world.state after)
          hPool rfl rfl hStep.1 hStep.2

end Contract

end Concurrency
