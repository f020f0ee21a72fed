import Deltix.Concurrency.Precedence

/-
  Tasks that work inside a critical section, one at a time.

  A task first performs operations that neither read nor
  change the state, then may enter the section, and ends as
  it leaves it.  A run of such tasks comes to the same as
  serving their requests one after the other, in the order
  in which the tasks end.

  Key definitions include:
    * `CriticalSection`
    * `Async.Inside`
    * `Async.Guarded`
    * `Served`
    * `OneByOne`

  Key theorems include:
    * `inside_andFinally`
    * `guarded_bind`
    * `guarded_exclusive`
    * `one_by_one`
-/

namespace Concurrency

variable {Op : Type} {Ret : Op → Type}
variable {State Choice Request Error Value Other : Type}

/-
  What the operations of the tasks do to the state, and to
  the task that is inside the section.  The operations of a
  task outside do the same in every state.
-/
structure CriticalSection
    (exec :
      (op : Op) → Choice → State → Option (Ret op × State))
    where
  apart : Op → Prop
  works : Op → Prop
  enter : Nat → Op
  leave : Op
  holder : State → Option Nat
  apart_exec :
    ∀ {op choice s answer t},
      apart op → exec op choice s = some (answer, t) →
        t = s ∧ ∀ u, exec op choice u = some (answer, u)
  works_exec :
    ∀ {op choice s answer t},
      works op → exec op choice s = some (answer, t) →
        holder t = holder s
  enter_exec :
    ∀ {i choice s answer t},
      exec (enter i) choice s = some (answer, t) →
        holder s = none ∧ holder t = some i
  leave_exec :
    ∀ {choice s answer t},
      exec leave choice s = some (answer, t) →
        holder t = none

variable
  {exec : (op : Op) → Choice → State → Option (Ret op × State)}

/- Work inside the section, and end when leaving it. -/
def Async.Inside
    (cs : CriticalSection exec) :
    Async Op Ret Error Value → Prop
  | .returned _ => False
  | .threw _ => False
  | .await op resume =>
      (op = cs.leave ∧
          ∀ answer, (resume answer).outcome?.isSome = true) ∨
        cs.works op ∧ ∀ answer, Async.Inside cs (resume answer)

/- A computation of a task that is still outside. -/
def Async.Guarded
    (cs : CriticalSection exec)
    (i : Nat) :
    Async Op Ret Error Value → Prop
  | .returned _ => True
  | .threw _ => True
  | .await op resume =>
      (op = cs.enter i ∧
          ∀ answer, (resume answer).Inside cs) ∨
        cs.apart op ∧
          ∀ answer, Async.Guarded cs i (resume answer)

------------------------------------------------------------
-- Computations With A Section
------------------------------------------------------------

variable {cs : CriticalSection exec} {i : Nat}
variable {body : Async Op Ret Error Value}
variable {next : Value → Async Op Ret Error Other}
variable {cleanup : Async Op Ret Error Unit}

/- A `finally` that leaves ends whatever came before. -/
theorem inside_bind
    (hBody : body.Inside cs)
    (hNext : ∀ value, (next value).outcome?.isSome = true) :
    (body.bind next).Inside cs := by
  induction body with
  | returned value => exact hBody.elim
  | threw error => exact hBody.elim
  | await op resume ih =>
      rcases hBody with ⟨hLeave, hEnds⟩ | ⟨hWorks, hRest⟩
      · refine Or.inl ⟨hLeave, ?_⟩
        intro answer
        have hEnded := hEnds answer
        cases hResume : resume answer with
        | returned value =>
            rw [hResume] at hEnded
            simpa [hResume] using hNext value
        | threw error => simp [hResume, Async.outcome?]
        | await other more =>
            rw [hResume] at hEnded
            cases hEnded
      · refine Or.inr ⟨hWorks, ?_⟩
        intro answer
        exact ih answer (hRest answer)

theorem inside_andFinally
    (hBody : body.Only cs.works)
    (hCleanup : cleanup.Inside cs) :
    (body.andFinally cleanup).Inside cs := by
  induction body with
  | returned value =>
      have hReturned :
          (cleanup.bind fun _ =>
            (.returned value : Async Op Ret Error Value)).Inside
            cs :=
        inside_bind hCleanup fun _ => rfl
      exact hReturned
  | threw error =>
      have hThrown :
          (cleanup.bind fun _ =>
            (.threw error : Async Op Ret Error Value)).Inside
            cs :=
        inside_bind hCleanup fun _ => rfl
      have hSame :
          (Async.threw error : Async Op Ret Error Value).andFinally
              cleanup =
            (cleanup.bind fun _ => .threw error) := by
        unfold Async.andFinally
        rw [Async.catchError_threw, Async.bind_assoc]
        rfl
      rw [hSame]
      exact hThrown
  | await op resume ih =>
      refine Or.inr ⟨hBody.1, ?_⟩
      intro answer
      exact ih answer (hBody.2 answer)

/- What comes before the section keeps apart. -/
theorem guarded_bind
    (hBody : body.Only cs.apart)
    (hNext : ∀ value, (next value).Guarded cs i) :
    (body.bind next).Guarded cs i := by
  induction body with
  | returned value => exact hNext value
  | threw error => trivial
  | await op resume ih =>
      refine Or.inr ⟨hBody.1, ?_⟩
      intro answer
      exact ih answer (hBody.2 answer)

/- A result may be wrapped after the section. -/
theorem guarded_map
    (hBody : body.Guarded cs i)
    (hNext : ∀ value, (next value).outcome?.isSome = true) :
    (body.bind next).Guarded cs i := by
  induction body with
  | returned value =>
      have hEnds := hNext value
      cases hEnd : next value with
      | returned other => simp [hEnd, Async.Guarded]
      | threw error => simp [hEnd, Async.Guarded]
      | await op resume =>
          rw [hEnd] at hEnds
          cases hEnds
  | threw error => trivial
  | await op resume ih =>
      rcases hBody with ⟨hEnter, hInside⟩ | ⟨hApart, hRest⟩
      · refine Or.inl ⟨hEnter, ?_⟩
        intro answer
        exact inside_bind (hInside answer) hNext
      · refine Or.inr ⟨hApart, ?_⟩
        intro answer
        exact ih answer (hRest answer)

/- Enter, work, and leave whatever happens. -/
theorem guarded_exclusive
    {op : Op}
    (hEnter : op = cs.enter i)
    (hBody : body.Only cs.works)
    (hCleanup : cleanup.Inside cs) :
    ((Async.call op).bind fun _ =>
      body.andFinally cleanup).Guarded cs i := by
  refine Or.inl ⟨hEnter, ?_⟩
  intro answer
  exact inside_andFinally hBody hCleanup

/- An operation that ends a task is its last one. -/
theorem only_of_ended
    {cond : Op → Prop}
    (hEnded : body.outcome?.isSome = true) :
    body.Only cond := by
  cases body with
  | returned value => exact Async.only_returned value
  | threw error => exact Async.only_threw error
  | await op resume => cases hEnded

theorem only_of_inside
    {cond : Op → Prop}
    (hWorks : ∀ op, cs.works op → cond op)
    (hLeave : cond cs.leave)
    (hInside : body.Inside cs) :
    body.Only cond := by
  induction body with
  | returned value => exact hInside.elim
  | threw error => exact hInside.elim
  | await op resume ih =>
      rcases hInside with ⟨hOp, hEnds⟩ | ⟨hOp, hRest⟩
      · subst hOp
        exact ⟨hLeave, fun answer => only_of_ended (hEnds answer)⟩
      · exact ⟨hWorks op hOp, fun answer => ih answer (hRest answer)⟩

theorem only_of_guarded
    {cond : Op → Prop}
    (hApart : ∀ op, cs.apart op → cond op)
    (hEnter : cond (cs.enter i))
    (hWorks : ∀ op, cs.works op → cond op)
    (hLeave : cond cs.leave)
    (hGuarded : body.Guarded cs i) :
    body.Only cond := by
  induction body with
  | returned value => exact Async.only_returned value
  | threw error => exact Async.only_threw error
  | await op resume ih =>
      rcases hGuarded with ⟨hOp, hInside⟩ | ⟨hOp, hRest⟩
      · subst hOp
        exact
          ⟨hEnter, fun answer =>
            only_of_inside hWorks hLeave (hInside answer)⟩
      · exact ⟨hApart op hOp, fun answer => ih answer (hRest answer)⟩

/- A request, the task that served it, and how it ended. -/
structure Served (Request Error Value : Type) where
  task : Nat
  request : Request
  outcome : Except Error Value

/- Requests served alone, one after the other.  The newest
   comes first. -/
inductive OneByOne
    (S : System Op Ret State Choice Request Error Value)
    (initial : State) :
    List (Served Request Error Value) → State → Prop where
  | nil : OneByOne S initial [] initial
  | cons
      {served : List (Served Request Error Value)}
      {s t : State}
      {last : Served Request Error Value}
      {steps : List (Taken Op Ret State Choice)}
      (before : OneByOne S initial served s)
      (alone :
        Solo S.exec (S.serve last.task last.request) s steps
          last.outcome t) :
      OneByOne S initial (last :: served) t

variable
  {S : System Op Ret State Choice Request Error Value}
variable {initial s : State}
variable {served : List (Served Request Error Value)}

/- The tasks that have ended, the last of them first. -/
def endings :
    List (Event Op Ret State Request Error Value) →
      List (Nat × Except Error Value)
  | [] => []
  | .finished i outcome :: rest => (i, outcome) :: endings rest
  | .started _ _ :: rest => endings rest
  | .performed _ _ _ _ _ :: rest => endings rest

def Served.ending (served : Served Request Error Value) :
    Nat × Except Error Value :=
  (served.task, served.outcome)

variable {Op : Type} {Ret : Op → Type}
variable {State Choice Request Error Value : Type}
variable
  {S : System Op Ret State Choice Request Error Value}
variable (cs : CriticalSection S.exec)

/- The task has done nothing yet that depends on a state. -/
def Waits
    (w : World Op Ret State Request Error Value)
    (i : Nat)
    (rest : Async Op Ret Error Value) : Prop :=
  rest.Guarded cs i ∧
    ∃ request, .started i request ∈ w.trace ∧
      ∀ u more outcome t,
        Solo S.exec rest u more outcome t →
          ∃ steps,
            Solo S.exec (S.serve i request) u steps outcome t

/- The task works on what it found when it entered. -/
def Holds
    (w : World Op Ret State Request Error Value)
    (found : State)
    (i : Nat)
    (rest : Async Op Ret Error Value) : Prop :=
  rest.Inside cs ∧
    ∃ request, .started i request ∈ w.trace ∧
      ∀ more outcome t,
        Solo S.exec rest w.state more outcome t →
          ∃ steps,
            Solo S.exec (S.serve i request) found steps outcome
              t

/- The section is free, or a task is inside that found it so. -/
def Found
    (p : Pool Op Ret State Request Error Value)
    (found : State) : Prop :=
  match cs.holder p.world.state with
  | none => found = p.world.state
  | some i =>
      cs.holder found = none ∧
        ∃ rest, p.tasks i = some rest ∧
          Holds cs p.world found i rest

structure Serial
    (initial : State)
    (p : Pool Op Ret State Request Error Value)
    (served : List (Served Request Error Value))
    (found : State) : Prop where
  oneByOne : OneByOne S initial served found
  ended :
    served.map Served.ending = endings p.world.trace
  started :
    ∀ last ∈ served,
      .started last.task last.request ∈ p.world.trace
  found : Found cs p found
  waits :
    ∀ i rest, p.tasks i = some rest →
      cs.holder p.world.state ≠ some i →
        rest.outcome? = none → Waits cs p.world i rest

variable {cs}
variable {w v : World Op Ret State Request Error Value}
variable {i : Nat} {rest : Async Op Ret Error Value}
variable {found : State}
variable {outcome : Except Error Value}

theorem Waits.mono
    (hTrace : ∀ event ∈ w.trace, event ∈ v.trace)
    (hWaits : Waits cs w i rest) :
    Waits cs v i rest := by
  rcases hWaits with ⟨hGuarded, request, hStarted, hRest⟩
  exact ⟨hGuarded, request, hTrace _ hStarted, hRest⟩

theorem Holds.mono
    (hTrace : ∀ event ∈ w.trace, event ∈ v.trace)
    (hState : v.state = w.state)
    (hHolds : Holds cs w found i rest) :
    Holds cs v found i rest := by
  rcases hHolds with ⟨hInside, request, hStarted, hRest⟩
  refine ⟨hInside, request, hTrace _ hStarted, ?_⟩
  rw [hState]
  exact hRest

/- An ended computation ends a solo run. -/
theorem solo_of_outcome
    {exec :
      (op : Op) → Choice → State → Option (Ret op × State)}
    (hEnded : rest.outcome? = some outcome)
    (s : State) :
    Solo exec rest s [] outcome s := by
  cases rest with
  | returned value =>
      cases hEnded
      exact .returned value s
  | threw error =>
      cases hEnded
      exact .threw error s
  | await op resume => cases hEnded

theorem not_ended_of_inside
    (hInside : rest.Inside cs) :
    rest.outcome? = none := by
  cases rest with
  | returned value => exact hInside.elim
  | threw error => exact hInside.elim
  | await op resume => rfl

theorem endings_settle_of_none
    (hNone : rest.outcome? = none) :
    (w.settle i rest).trace = w.trace := by
  unfold World.settle
  rw [hNone]

theorem endings_settle_of_some
    (hEnded : rest.outcome? = some outcome) :
    (w.settle i rest).trace =
      .finished i outcome :: w.trace := by
  unfold World.settle
  rw [hEnded]
  rfl

------------------------------------------------------------
-- The Steps Of A Run
------------------------------------------------------------

variable {ok : Allowed Op Ret State Request Error Value}
variable {p : Pool Op Ret State Request Error Value}
variable {served : List (Served Request Error Value)}
variable {initial : State}

/-
  A task outside takes a step that leaves the state: it has
  been served if this was its end.
-/
theorem Serial.outside
    (hSerial : Serial cs initial p served found)
    (hState : w.state = p.world.state)
    (hTrace : ∀ event ∈ p.world.trace, event ∈ w.trace)
    (hEndings : endings w.trace = endings p.world.trace)
    (hWaits : Waits cs w i rest)
    (hOutside : cs.holder p.world.state ≠ some i) :
    ∃ served, Serial cs initial (p.advance i w rest) served
      found := by
  have hAfter :
      (p.advance i w rest).world.state = p.world.state := by
    rw [← hState]
    exact World.settle_state w i rest
  have hMember :
      ∀ event ∈ p.world.trace,
        event ∈ (p.advance i w rest).world.trace :=
    fun event hEvent => mem_settle_of_mem (hTrace event hEvent)
  have hFound : Found cs (p.advance i w rest) found := by
    have hBefore := hSerial.found
    unfold Found at hBefore ⊢
    rw [hAfter]
    cases hHolder : cs.holder p.world.state with
    | none =>
        rw [hHolder] at hBefore
        exact hBefore
    | some k =>
        rw [hHolder] at hBefore
        rcases hBefore with ⟨hFree, other, hTask, hHolds⟩
        refine ⟨hFree, other, ?_, hHolds.mono hMember hAfter⟩
        have hNe : k ≠ i := by
          intro hSame
          apply hOutside
          rw [hHolder, hSame]
        have hKept :
            (p.advance i w rest).tasks k = p.tasks k :=
          Function.update_of_ne hNe ..
        rw [hKept, hTask]
  have hOthers :
      ∀ j other, (p.advance i w rest).tasks j = some other →
        cs.holder (p.advance i w rest).world.state ≠ some j →
          other.outcome? = none →
            Waits cs (p.advance i w rest).world j other := by
    intro j other hTask hFree hOpen
    by_cases hSame : j = i
    · subst hSame
      have hRest : rest = other := by
        simpa [Pool.advance] using hTask
      rw [← hRest]
      exact hWaits.mono fun _ hEvent => mem_settle_of_mem hEvent
    · have hBefore : p.tasks j = some other := by
        simpa [Pool.advance, hSame] using hTask
      rw [hAfter] at hFree
      exact
        (hSerial.waits j other hBefore hFree hOpen).mono hMember
  cases hEnd : rest.outcome? with
  | none =>
      refine ⟨served, hSerial.oneByOne, ?_, ?_, hFound, hOthers⟩
      · unfold Pool.advance
        rw [endings_settle_of_none hEnd, hEndings]
        exact hSerial.ended
      · intro last hLast
        exact hMember _ (hSerial.started last hLast)
  | some outcome =>
      rcases hWaits with ⟨_, request, hStarted, hRest⟩
      rcases
          hRest found [] outcome found
            (solo_of_outcome hEnd found) with
        ⟨steps, hSolo⟩
      refine
        ⟨⟨i, request, outcome⟩ :: served,
          .cons hSerial.oneByOne hSolo, ?_, ?_, hFound,
          hOthers⟩
      · unfold Pool.advance
        rw [endings_settle_of_some hEnd, endings, hEndings,
          List.map_cons, hSerial.ended]
        rfl
      · intro last hLast
        rcases List.mem_cons.mp hLast with hNew | hOld
        · rw [hNew]
          exact mem_settle_of_mem hStarted
        · exact hMember _ (hSerial.started last hOld)

/- What a task inside is left with, and where it came from. -/
theorem Serial.inside
    (hSerial : Serial cs initial p served found)
    (hHolder : cs.holder p.world.state = some i)
    (hTask : p.tasks i = some rest) :
    cs.holder found = none ∧ Holds cs p.world found i rest := by
  have hFound := hSerial.found
  unfold Found at hFound
  rw [hHolder] at hFound
  rcases hFound with ⟨hFree, other, hOther, hHolds⟩
  have hSame : other = rest := by
    rw [hOther] at hTask
    exact Option.some.inj hTask
  rw [hSame] at hHolds
  exact ⟨hFree, hHolds⟩

theorem others_outside
    {s : State}
    (hHolder : cs.holder s = some i)
    (j : Nat)
    (hNe : j ≠ i) :
    cs.holder s ≠ some j := by
  intro hOther
  rw [hHolder] at hOther
  exact hNe (Option.some.inj hOther).symm

/- The others wait as before while one moves the state. -/
theorem Serial.others
    (hSerial : Serial cs initial p served found)
    (hOutside :
      ∀ j, j ≠ i → cs.holder p.world.state ≠ some j)
    (hTrace : ∀ event ∈ p.world.trace, event ∈ w.trace)
    {j : Nat}
    {other : Async Op Ret Error Value}
    (hNe : j ≠ i)
    (hTask : (p.advance i w rest).tasks j = some other)
    (hOpen : other.outcome? = none) :
    Waits cs (p.advance i w rest).world j other := by
  have hBefore : p.tasks j = some other := by
    simpa [Pool.advance, hNe] using hTask
  have hWaits :=
    hSerial.waits j other hBefore (hOutside j hNe) hOpen
  exact hWaits.mono fun event hEvent =>
    mem_settle_of_mem (hTrace event hEvent)

section Operations

variable {op : Op} {choice : Choice} {answer : Ret op}
variable {after : State}
variable {resume : Ret op → Async Op Ret Error Value}

/- A task takes a step and is inside the section after it. -/
theorem Serial.holding
    {request : Request}
    (hSerial : Serial cs initial p served found)
    (hOutside :
      ∀ j, j ≠ i → cs.holder p.world.state ≠ some j)
    (hHolder : cs.holder after = some i)
    (hFree : cs.holder found = none)
    (hInside : rest.Inside cs)
    (hStarted : .started i request ∈ p.world.trace)
    (hRest :
      ∀ more outcome t,
        Solo S.exec rest after more outcome t →
          ∃ steps,
            Solo S.exec (S.serve i request) found steps outcome
              t) :
    Serial cs initial
      (p.advance i (p.world.perform i op answer after) rest)
      served found := by
  have hTrace :
      ∀ event ∈ p.world.trace,
        event ∈ (p.world.perform i op answer after).trace :=
    fun event hEvent => List.mem_cons_of_mem _ hEvent
  have hAfter :
      (p.advance i (p.world.perform i op answer after)
        rest).world.state = after :=
    World.settle_state _ i rest
  constructor
  · exact hSerial.oneByOne
  · unfold Pool.advance
    rw [endings_settle_of_none (not_ended_of_inside hInside)]
    exact hSerial.ended
  · intro last hLast
    exact mem_settle_of_mem (hTrace _ (hSerial.started last hLast))
  · unfold Found
    rw [hAfter, hHolder]
    refine ⟨hFree, rest, ?_, hInside, request, ?_, ?_⟩
    · exact Function.update_self ..
    · exact mem_settle_of_mem (hTrace _ hStarted)
    · rw [hAfter]
      exact hRest
  · intro j other hOther hNotHolder hEnded
    rw [hAfter, hHolder] at hNotHolder
    have hNe : j ≠ i := by
      intro hSame
      exact hNotHolder (by rw [hSame])
    exact hSerial.others hOutside hTrace hNe hOther hEnded

/- A task enters the section. -/
theorem Serial.entered
    (hSerial : Serial cs initial p served found)
    (hTask : p.tasks i = some (.await op resume))
    (hEnter : op = cs.enter i)
    (hInside : ∀ answer, (resume answer).Inside cs)
    (hExec :
      S.exec op choice p.world.state = some (answer, after)) :
    Serial cs initial
      (p.advance i (p.world.perform i op answer after)
        (resume answer))
      served found := by
  have hGuard :
      cs.holder p.world.state = none ∧
        cs.holder after = some i := by
    subst hEnter
    exact cs.enter_exec hExec
  have hFree : found = p.world.state := by
    have hFound := hSerial.found
    unfold Found at hFound
    rw [hGuard.1] at hFound
    exact hFound
  have hNobody : ∀ j, cs.holder p.world.state ≠ some j := by
    intro j hHolder
    rw [hGuard.1] at hHolder
    cases hHolder
  rcases hSerial.waits i _ hTask (hNobody i) rfl with
    ⟨_, request, hStarted, hRest⟩
  apply
    hSerial.holding (fun j _ => hNobody j) hGuard.2 ?_
      (hInside answer) hStarted
  · intro more outcome t hSolo
    rw [hFree]
    exact hRest _ _ _ _ (.await hExec hSolo)
  · rw [hFree]
    exact hGuard.1

/- The task inside works. -/
theorem Serial.worked
    (hSerial : Serial cs initial p served found)
    (hTask : p.tasks i = some (.await op resume))
    (hHolder : cs.holder p.world.state = some i)
    (hWorks : cs.works op)
    (hInside : ∀ answer, (resume answer).Inside cs)
    (hExec :
      S.exec op choice p.world.state = some (answer, after)) :
    Serial cs initial
      (p.advance i (p.world.perform i op answer after)
        (resume answer))
      served found := by
  have hSame : cs.holder after = some i := by
    rw [cs.works_exec hWorks hExec, hHolder]
  rcases hSerial.inside hHolder hTask with
    ⟨hFree, _, request, hStarted, hRest⟩
  apply
    hSerial.holding (others_outside hHolder) hSame hFree
      (hInside answer) hStarted
  intro more outcome t hSolo
  exact hRest _ _ _ (.await hExec hSolo)

/- The task inside leaves, and has been served. -/
theorem Serial.left
    (hSerial : Serial cs initial p served found)
    (hTask : p.tasks i = some (.await op resume))
    (hHolder : cs.holder p.world.state = some i)
    (hLeave : op = cs.leave)
    (hEnds : ∀ answer, (resume answer).outcome?.isSome = true)
    (hExec :
      S.exec op choice p.world.state = some (answer, after)) :
    ∃ served,
      Serial cs initial
        (p.advance i (p.world.perform i op answer after)
          (resume answer))
        served after := by
  have hFreed : cs.holder after = none := by
    subst hLeave
    exact cs.leave_exec hExec
  have hTrace :
      ∀ event ∈ p.world.trace,
        event ∈ (p.world.perform i op answer after).trace :=
    fun event hEvent => List.mem_cons_of_mem _ hEvent
  have hAfter :
      (p.advance i (p.world.perform i op answer after)
        (resume answer)).world.state = after :=
    World.settle_state _ i (resume answer)
  rcases Option.isSome_iff_exists.mp (hEnds answer) with
    ⟨outcome, hEnd⟩
  rcases hSerial.inside hHolder hTask with
    ⟨_, _, request, hStarted, hRest⟩
  rcases
      hRest _ outcome after
        (.await hExec (solo_of_outcome hEnd after)) with
    ⟨steps, hSolo⟩
  refine ⟨⟨i, request, outcome⟩ :: served, ?_⟩
  constructor
  · exact .cons hSerial.oneByOne hSolo
  · unfold Pool.advance
    rw [endings_settle_of_some hEnd, List.map_cons,
      hSerial.ended]
    rfl
  · intro last hLast
    rcases List.mem_cons.mp hLast with hNew | hOld
    · rw [hNew]
      exact mem_settle_of_mem (hTrace _ hStarted)
    · exact mem_settle_of_mem (hTrace _ (hSerial.started last hOld))
  · unfold Found
    rw [hAfter, hFreed]
  · intro j other hOther _ hEnded
    by_cases hSame : j = i
    · subst hSame
      have hRestIs : resume answer = other := by
        simpa [Pool.advance] using hOther
      rw [← hRestIs, hEnd] at hEnded
      cases hEnded
    · exact
        hSerial.others (others_outside hHolder) hTrace hSame
          hOther hEnded

end Operations

------------------------------------------------------------
-- Whole Runs
------------------------------------------------------------

variable {q : Pool Op Ret State Request Error Value}

theorem serial_started
    {request : Request}
    (hSerial : Serial cs initial p served found)
    (hNone : p.tasks i = none)
    (hGuarded : (S.serve i request).Guarded cs i) :
    ∃ served,
      Serial cs initial
        (p.advance i (p.world.start i request)
          (S.serve i request))
        served found := by
  refine
    hSerial.outside rfl (fun _ => List.mem_cons_of_mem _) rfl
      ⟨hGuarded, request, List.mem_cons_self, ?_⟩ ?_
  · intro u more outcome t hSolo
    exact ⟨more, hSolo⟩
  · intro hHolder
    have hFound := hSerial.found
    unfold Found at hFound
    rw [hHolder] at hFound
    rcases hFound with ⟨_, rest, hTask, _⟩
    rw [hNone] at hTask
    cases hTask

theorem serial_resumed
    {op : Op}
    {choice : Choice}
    {resume : Ret op → Async Op Ret Error Value}
    {answer : Ret op}
    {after : State}
    (hSerial : Serial cs initial p served found)
    (hTask : p.tasks i = some (.await op resume))
    (hExec :
      S.exec op choice p.world.state = some (answer, after)) :
    ∃ served found,
      Serial cs initial
        (p.advance i (p.world.perform i op answer after)
          (resume answer))
        served found := by
  by_cases hHolder : cs.holder p.world.state = some i
  · rcases (hSerial.inside hHolder hTask).2.1 with
      ⟨hLeave, hEnds⟩ | ⟨hWorks, hInside⟩
    · rcases
          hSerial.left hTask hHolder hLeave hEnds hExec with
        ⟨served, hNext⟩
      exact ⟨served, after, hNext⟩
    · exact
        ⟨served, found,
          hSerial.worked hTask hHolder hWorks hInside hExec⟩
  · have hWaits := hSerial.waits i _ hTask hHolder rfl
    rcases hWaits with ⟨hGuarded, request, hStarted, hRest⟩
    rcases hGuarded with ⟨hEnter, hInside⟩ | ⟨hApart, hGuarded⟩
    · exact
        ⟨served, found,
          hSerial.entered hTask hEnter hInside hExec⟩
    · rcases cs.apart_exec hApart hExec with ⟨hSame, hAnywhere⟩
      have hNext :=
        hSerial.outside (i := i)
          (w := p.world.perform i op answer after) hSame
          (fun _ => List.mem_cons_of_mem _) rfl
          ⟨hGuarded answer, request,
            List.mem_cons_of_mem _ hStarted, ?_⟩
          hHolder
      · rcases hNext with ⟨served, hNext⟩
        exact ⟨served, found, hNext⟩
      · intro u more outcome t hSolo
        exact hRest _ _ _ _ (.await (hAnywhere u) hSolo)

theorem serial_run
    (hFree : cs.holder initial = none)
    (hGuarded :
      ∀ i request w, ok.start i request w →
        (S.serve i request).Guarded cs i)
    (hRun : S.Run ok (Pool.initial initial) p) :
    ∃ served found, Serial cs initial p served found := by
  refine
    System.Run.invariant
      (P := fun p =>
        ∃ served found, Serial cs initial p served found)
      ?_ ?_ hRun
  · refine ⟨[], initial, .nil, rfl, ?_, ?_, ?_⟩
    · intro last hLast
      cases hLast
    · unfold Found
      show
        match cs.holder initial with
        | none => initial = initial
        | some _ => _
      rw [hFree]
    · intro i rest hTask
      cases hTask
  · intro q r label hBefore hAllowed hMoved
    rcases hBefore with ⟨served, found, hSerial⟩
    cases label with
    | start i request =>
        rcases System.start_cases hMoved with ⟨hNone, rfl⟩
        rcases
            serial_started hSerial hNone
              (hGuarded i request _ hAllowed) with
          ⟨more, hNext⟩
        exact ⟨more, found, hNext⟩
    | resume i choice =>
        rcases System.resume_cases hMoved with
          ⟨op, resume, answer, after, hTask, hExec, rfl⟩
        exact serial_resumed hSerial hTask hExec

/-
  However the tasks interleave: those that have ended have
  been served one after the other, in the order in which
  they have ended.  When nobody is inside the section, that
  has led to the state as it is.
-/
theorem one_by_one
    (hFree : cs.holder initial = none)
    (hGuarded :
      ∀ i request w, ok.start i request w →
        (S.serve i request).Guarded cs i)
    (hRun : S.Run ok (Pool.initial initial) p) :
    ∃ served found,
      OneByOne S initial served found ∧
        served.map Served.ending = endings p.world.trace ∧
        (∀ last ∈ served,
          .started last.task last.request ∈ p.world.trace) ∧
        (cs.holder p.world.state = none →
          found = p.world.state) := by
  rcases serial_run hFree hGuarded hRun with
    ⟨served, found, hSerial⟩
  refine
    ⟨served, found, hSerial.oneByOne, hSerial.ended,
      hSerial.started, ?_⟩
  intro hNobody
  have hFound := hSerial.found
  unfold Found at hFound
  rw [hNobody] at hFound
  exact hFound

end Concurrency
