import Deltix.Concurrency.Async
import Mathlib.Logic.Function.Basic

/-
  Interleaved tasks over a shared state.

  A system serves requests.  Serving a request starts a task
  that runs the request's computation, and any number of
  tasks may be in progress: one step starts a task or lets
  one task perform the operation it awaits.  Operations are
  atomic, and a choice resolves what the system does not
  determine itself (a failure, a random value).  The world
  keeps the whole trace, newest event first, and each
  performed operation with the states before and after it.

  Key definitions include:
    * `Event`
    * `World`
    * `System`
    * `Pool`
    * `System.step?`
    * `System.replay?`
    * `System.Allowed`
    * `System.Run`

  Key theorems include:
    * `System.Run.invariant`
    * `System.run_of_replay?`
    * `System.run_of_checks`
    * `System.start_cases`
    * `System.resume_cases`
-/

------------------------------------------------------------
-- Events And Worlds
------------------------------------------------------------

namespace Concurrency

/-
  One event of a run, tagged with the task it belongs to.
-/
inductive Event
    (Op : Type)
    (Ret : Op → Type)
    (State Request Error Value : Type) where
  | started (task : Nat) (request : Request)
  | performed
      (task : Nat)
      (op : Op)
      (answer : Ret op)
      (before after : State)
  | finished (task : Nat) (outcome : Except Error Value)

/- The shared state and the trace that led to it. -/
structure World
    (Op : Type)
    (Ret : Op → Type)
    (State Request Error Value : Type) where
  state : State
  trace : List (Event Op Ret State Request Error Value)

variable {Op : Type} {Ret : Op → Type}
variable {State Choice Request Error Value : Type}

namespace Event

/- The task an event belongs to. -/
def task : Event Op Ret State Request Error Value → Nat
  | .started i _ => i
  | .performed i _ _ _ _ => i
  | .finished i _ => i

@[simp] theorem task_started
    (i : Nat)
    (request : Request) :
    (started i request :
      Event Op Ret State Request Error Value).task = i := rfl

@[simp] theorem task_performed
    (i : Nat)
    (op : Op)
    (answer : Ret op)
    (before after : State) :
    (performed i op answer before after :
      Event Op Ret State Request Error Value).task = i := rfl

@[simp] theorem task_finished
    (i : Nat)
    (outcome : Except Error Value) :
    (finished i outcome :
      Event Op Ret State Request Error Value).task = i := rfl

end Event

namespace World

/- Record the start of a task. -/
def start
    (w : World Op Ret State Request Error Value)
    (i : Nat)
    (request : Request) :
    World Op Ret State Request Error Value :=
  { w with trace := .started i request :: w.trace }

/- Record an operation and move to the state it leaves. -/
def perform
    (w : World Op Ret State Request Error Value)
    (i : Nat)
    (op : Op)
    (answer : Ret op)
    (after : State) :
    World Op Ret State Request Error Value where
  state := after
  trace :=
    .performed i op answer w.state after :: w.trace

/- Record the end of a task. -/
def finish
    (w : World Op Ret State Request Error Value)
    (i : Nat)
    (outcome : Except Error Value) :
    World Op Ret State Request Error Value :=
  { w with trace := .finished i outcome :: w.trace }

/- Record the end of a task whose computation has ended. -/
def settle
    (w : World Op Ret State Request Error Value)
    (i : Nat)
    (rest : Async Op Ret Error Value) :
    World Op Ret State Request Error Value :=
  match rest.outcome? with
  | some outcome => w.finish i outcome
  | none => w

section Projections

variable (w : World Op Ret State Request Error Value)

@[simp] theorem start_state
    (i : Nat) (request : Request) :
    (w.start i request).state = w.state := rfl

@[simp] theorem start_trace
    (i : Nat) (request : Request) :
    (w.start i request).trace =
      .started i request :: w.trace := rfl

@[simp] theorem perform_state
    (i : Nat) (op : Op) (answer : Ret op) (after : State) :
    (w.perform i op answer after).state = after := rfl

@[simp] theorem perform_trace
    (i : Nat) (op : Op) (answer : Ret op) (after : State) :
    (w.perform i op answer after).trace =
      .performed i op answer w.state after :: w.trace := rfl

@[simp] theorem finish_state
    (i : Nat) (outcome : Except Error Value) :
    (w.finish i outcome).state = w.state := rfl

@[simp] theorem finish_trace
    (i : Nat) (outcome : Except Error Value) :
    (w.finish i outcome).trace =
      .finished i outcome :: w.trace := rfl

@[simp] theorem settle_state
    (i : Nat) (rest : Async Op Ret Error Value) :
    (w.settle i rest).state = w.state := by
  cases rest <;> rfl

end Projections

/- A task that has no event in the trace. -/
def Fresh
    (w : World Op Ret State Request Error Value)
    (i : Nat) : Prop :=
  ∀ event ∈ w.trace, event.task ≠ i

end World

end Concurrency

------------------------------------------------------------
-- Systems And Runs
------------------------------------------------------------

namespace Concurrency

variable {Op : Type} {Ret : Op → Type}
variable {State Choice Request Error Value : Type}

/-
  A system: the computation that serves a request, and the
  effect of an operation under a choice.  An operation
  without effect is not enabled: its task waits.
-/
structure System
    (Op : Type)
    (Ret : Op → Type)
    (State Choice Request Error Value : Type) where
  serve : Nat → Request → Async Op Ret Error Value
  exec : (op : Op) → Choice → State → Option (Ret op × State)

/- All tasks of a run and the world they share. -/
structure Pool
    (Op : Type)
    (Ret : Op → Type)
    (State Request Error Value : Type) where
  world : World Op Ret State Request Error Value
  tasks : Nat → Option (Async Op Ret Error Value)

/- A schedule entry: which task moves, and how. -/
inductive Label (Choice Request : Type) where
  | start (task : Nat) (request : Request)
  | resume (task : Nat) (choice : Choice)

namespace Pool

/- The pool before any request. -/
def initial
    (state : State) :
    Pool Op Ret State Request Error Value where
  world := ⟨state, []⟩
  tasks := fun _ => none

/- Give a task its remaining computation. -/
def advance
    (p : Pool Op Ret State Request Error Value)
    (i : Nat)
    (w : World Op Ret State Request Error Value)
    (rest : Async Op Ret Error Value) :
    Pool Op Ret State Request Error Value where
  world := w.settle i rest
  tasks := Function.update p.tasks i (some rest)

end Pool

namespace System

variable
  (S : System Op Ret State Choice Request Error Value)

/- One step of a run, as the schedule asks for it. -/
def step?
    (p : Pool Op Ret State Request Error Value) :
    Label Choice Request →
      Option (Pool Op Ret State Request Error Value)
  | .start i request =>
      match p.tasks i with
      | some _ => none
      | none =>
          some (p.advance i (p.world.start i request)
            (S.serve i request))
  | .resume i choice =>
      match p.tasks i with
      | some (.await op resume) =>
          match S.exec op choice p.world.state with
          | some (answer, after) =>
              some (p.advance i
                (p.world.perform i op answer after)
                (resume answer))
          | none => none
      | _ => none

/- Run a whole schedule. -/
def replay?
    (p : Pool Op Ret State Request Error Value) :
    List (Label Choice Request) →
      Option (Pool Op Ret State Request Error Value)
  | [] => some p
  | label :: rest =>
      match S.step? p label with
      | some next => replay? next rest
      | none => none

end System

/-
  Which steps a run may take: a condition on the requests
  started and on the operations performed, each with the
  world before the step.
-/
structure Allowed
    (Op : Type)
    (Ret : Op → Type)
    (State Request Error Value : Type) where
  start :
    Nat → Request →
      World Op Ret State Request Error Value → Prop
  perform :
    Nat → Op → World Op Ret State Request Error Value → Prop

namespace Allowed

/- Every step is allowed. -/
def everything :
    Allowed Op Ret State Request Error Value where
  start := fun _ _ _ => True
  perform := fun _ _ _ => True

/- The same steps, in worlds of which something is known. -/
def also
    (ok : Allowed Op Ret State Request Error Value)
    (P : World Op Ret State Request Error Value → Prop) :
    Allowed Op Ret State Request Error Value where
  start := fun i request w => ok.start i request w ∧ P w
  perform := fun i op w => ok.perform i op w ∧ P w

/- The condition a schedule entry has to meet in a pool. -/
def holds
    (ok : Allowed Op Ret State Request Error Value)
    (p : Pool Op Ret State Request Error Value) :
    Label Choice Request → Prop
  | .start i request => ok.start i request p.world
  | .resume i _ =>
      ∀ op resume, p.tasks i = some (.await op resume) →
        ok.perform i op p.world

end Allowed

namespace System

variable
  (S : System Op Ret State Choice Request Error Value)

/-
  The pools that a run from `p` reaches when each of its
  steps is allowed.
-/
inductive Run
    (ok : Allowed Op Ret State Request Error Value)
    (p : Pool Op Ret State Request Error Value) :
    Pool Op Ret State Request Error Value → Prop where
  | refl : Run ok p p
  | step
      {q r : Pool Op Ret State Request Error Value}
      (label : Label Choice Request)
      (reached : Run ok p q)
      (allowed : ok.holds q label)
      (moved : S.step? q label = some r) :
      Run ok p r

variable {S}
variable {ok : Allowed Op Ret State Request Error Value}
variable {p q r : Pool Op Ret State Request Error Value}

/- Runs compose. -/
theorem Run.trans
    (hFirst : S.Run ok p q)
    (hSecond : S.Run ok q r) :
    S.Run ok p r := by
  induction hSecond with
  | refl => exact hFirst
  | step label _ hAllowed hMoved ih =>
      exact .step label ih hAllowed hMoved

/-
  What holds at the start and is kept by every allowed step
  holds in every pool a run reaches.
-/
theorem Run.invariant
    {P : Pool Op Ret State Request Error Value → Prop}
    (hStart : P p)
    (hStep :
      ∀ q r label, P q → ok.holds q label →
        S.step? q label = some r → P r)
    (hRun : S.Run ok p q) :
    P q := by
  induction hRun with
  | refl => exact hStart
  | step label _ hAllowed hMoved ih =>
      exact hStep _ _ label ih hAllowed hMoved

/- A run whose steps meet a condition meets a weaker one. -/
theorem Run.mono
    {ok' : Allowed Op Ret State Request Error Value}
    (hStart :
      ∀ i request w, ok.start i request w →
        ok'.start i request w)
    (hPerform :
      ∀ i op w, ok.perform i op w → ok'.perform i op w)
    (hRun : S.Run ok p q) :
    S.Run ok' p q := by
  induction hRun with
  | refl => exact .refl
  | step label _ hAllowed hMoved ih =>
      refine .step label ih ?_ hMoved
      cases label with
      | start i request => exact hStart i request _ hAllowed
      | resume i choice =>
          intro op resume hTask
          exact hPerform i op _ (hAllowed op resume hTask)

/- What is known of every world of a run may be assumed of
   its steps. -/
theorem Run.also
    {P : World Op Ret State Request Error Value → Prop}
    (hKnown : ∀ q, S.Run ok p q → P q.world)
    (hRun : S.Run ok p q) :
    S.Run (ok.also P) p q := by
  induction hRun with
  | refl => exact .refl
  | step label hReached hAllowed hMoved ih =>
      refine .step label ih ?_ hMoved
      cases label with
      | start i request =>
          exact ⟨hAllowed, hKnown _ hReached⟩
      | resume i choice =>
          intro op resume hTask
          exact
            ⟨hAllowed op resume hTask, hKnown _ hReached⟩

/- A replayed schedule is a run in which any step goes. -/
theorem run_of_replay?
    {schedule : List (Label Choice Request)}
    (hReplay : S.replay? p schedule = some q) :
    S.Run .everything p q := by
  induction schedule generalizing p with
  | nil =>
      have hEq : p = q := by
        simpa [replay?] using hReplay
      subst hEq
      exact .refl
  | cons label rest ih =>
      cases hMoved : S.step? p label with
      | none => simp [replay?, hMoved] at hReplay
      | some next =>
          have hRest : S.replay? next rest = some q := by
            simpa [replay?, hMoved] using hReplay
          have hAllowed :
              Allowed.everything.holds p label := by
            cases label <;> simp [Allowed.holds,
              Allowed.everything]
          exact
            (Run.step label .refl hAllowed hMoved).trans
              (ih hRest)

/- Check each operation of a schedule before it happens. -/
def checks
    (S : System Op Ret State Choice Request Error Value)
    (check :
      Nat → Op → World Op Ret State Request Error Value → Bool)
    (p : Pool Op Ret State Request Error Value) :
    List (Label Choice Request) → Bool
  | [] => true
  | label :: rest =>
      (match label with
        | .start _ _ => true
        | .resume i _ =>
            match p.tasks i with
            | some (.await op _) => check i op p.world
            | _ => true) &&
        match S.step? p label with
        | some next => checks S check next rest
        | none => true

/- A replayed schedule is a run in which every operation is
   allowed when each passes a check that says so. -/
theorem run_of_checks
    {check :
      Nat → Op → World Op Ret State Request Error Value → Bool}
    {schedule : List (Label Choice Request)}
    (hStart :
      ∀ i request, .start i request ∈ schedule →
        ∀ w, ok.start i request w)
    (hCheck :
      ∀ i op w, check i op w = true → ok.perform i op w)
    (hChecks : S.checks check p schedule = true)
    (hReplay : S.replay? p schedule = some q) :
    S.Run ok p q := by
  induction schedule generalizing p with
  | nil =>
      have hEq : p = q := by
        simpa [replay?] using hReplay
      subst hEq
      exact .refl
  | cons label rest ih =>
      cases hMoved : S.step? p label with
      | none => simp [replay?, hMoved] at hReplay
      | some next =>
          rw [replay?, hMoved] at hReplay
          unfold checks at hChecks
          rw [hMoved, Bool.and_eq_true] at hChecks
          have hAllowed : ok.holds p label := by
            cases label with
            | start i request =>
                exact
                  hStart i request List.mem_cons_self p.world
            | resume i choice =>
                intro op resume hTask
                apply hCheck i op p.world
                simpa [hTask] using hChecks.1
          exact
            (Run.step label .refl hAllowed hMoved).trans
              (ih
                (fun i request hMember =>
                  hStart i request
                    (List.mem_cons_of_mem _ hMember))
                hChecks.2 hReplay)

/- What a step that starts a task does. -/
theorem start_cases
    {i : Nat}
    {request : Request}
    (hMoved : S.step? p (.start i request) = some q) :
    p.tasks i = none ∧
      q = p.advance i (p.world.start i request)
        (S.serve i request) := by
  cases hTask : p.tasks i with
  | some rest => simp [step?, hTask] at hMoved
  | none =>
      refine ⟨rfl, ?_⟩
      simpa [step?, hTask] using hMoved.symm

/- What a step of a task in progress does. -/
theorem resume_cases
    {i : Nat}
    {choice : Choice}
    (hMoved : S.step? p (.resume i choice) = some q) :
    ∃ op resume answer after,
      p.tasks i = some (.await op resume) ∧
        S.exec op choice p.world.state =
          some (answer, after) ∧
        q = p.advance i
          (p.world.perform i op answer after)
          (resume answer) := by
  cases hTask : p.tasks i with
  | none => simp [step?, hTask] at hMoved
  | some rest =>
      cases rest with
      | returned value => simp [step?, hTask] at hMoved
      | threw error => simp [step?, hTask] at hMoved
      | await op resume =>
          cases hExec :
              S.exec op choice p.world.state with
          | none => simp [step?, hTask, hExec] at hMoved
          | some result =>
              rcases result with ⟨answer, after⟩
              refine
                ⟨op, resume, answer, after, rfl, hExec, ?_⟩
              simpa [step?, hTask, hExec] using hMoved.symm

end System

end Concurrency
