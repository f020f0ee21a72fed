import Deltix.Concurrency.RelyGuarantee
import Deltix.Concurrency.Solo

/-
  A computation among others: each of its operations finds
  the state that the others have left by then.

  The state it finds is part of the choice, so the rules for
  solo runs hold for runs among others.

  Key definitions include:
    * `Disturbance`
    * `disturbed`
    * `eventsOf`

  Key theorems include:
    * `Solo.undisturbed`
    * `exists_disturbed`
-/

namespace Concurrency

structure Disturbance (State Choice : Type) where
  choice : Choice
  found : State

variable {Op : Type} {Ret : Op → Type}
variable {State Choice Request Error Value : Type}

/- An operation works on the state it finds. -/
def disturbed
    (exec : (op : Op) → Choice → State → Option (Ret op × State))
    (op : Op)
    (disturbance : Disturbance State Choice)
    (_ : State) : Option (Ret op × State) :=
  exec op disturbance.choice disturbance.found

/- One operation of a computation among others. -/
abbrev DisturbedTaken
    (Op : Type)
    (Ret : Op → Type)
    (State Choice : Type) : Type :=
  Taken Op Ret State (Disturbance State Choice)

/- An operation that finds what the last one has left. -/
def quietly (step : Taken Op Ret State Choice) :
    DisturbedTaken Op Ret State Choice where
  op := step.op
  choice := ⟨step.choice, step.before⟩
  before := step.before
  answer := step.answer
  after := step.after

/- A run alone is one among others that do nothing. -/
theorem Solo.undisturbed
    {exec :
      (op : Op) → Choice → State → Option (Ret op × State)}
    {body : Async Op Ret Error Value}
    {s t : State}
    {steps : List (Taken Op Ret State Choice)}
    {outcome : Except Error Value}
    (hSolo : Solo exec body s steps outcome t) :
    Solo (disturbed exec) body s (steps.map quietly) outcome
      t := by
  induction hSolo with
  | returned value s => exact .returned value s
  | threw error s => exact .threw error s
  | await hExec _ ih => exact .await hExec ih

/- What the operations of a task look like in a trace. -/
def eventsOf
    (i : Nat) :
    List (DisturbedTaken Op Ret State Choice) →
      List (Event Op Ret State Request Error Value)
  | [] => []
  | step :: rest =>
      eventsOf i rest ++
        [.performed i step.op step.answer step.choice.found
          step.after]

theorem eventsOf_append
    (i : Nat)
    (first rest : List (DisturbedTaken Op Ret State Choice)) :
    (eventsOf i (first ++ rest) :
        List (Event Op Ret State Request Error Value)) =
      eventsOf i rest ++ eventsOf i first := by
  induction first with
  | nil =>
      rw [List.nil_append, eventsOf, List.append_nil]
  | cons step first ih =>
      rw [List.cons_append, eventsOf, ih, eventsOf,
        List.append_assoc]

------------------------------------------------------------
-- The Tasks Of A System
------------------------------------------------------------

variable {S : System Op Ret State Choice Request Error Value}
variable {ok : Allowed Op Ret State Request Error Value}
variable {p q : Pool Op Ret State Request Error Value}
variable {i : Nat}
variable {j : Nat}
variable {w : World Op Ret State Request Error Value}
variable {rest : Async Op Ret Error Value} {initial : State}

/- The end of a computation as it is recorded. -/
def endOf
    (i : Nat)
    (rest : Async Op Ret Error Value) :
    List (Event Op Ret State Request Error Value) :=
  match rest.outcome? with
  | some outcome => [.finished i outcome]
  | none => []

/-
  The task has performed some operations among others, and
  what is left of it completes them to a run.
-/
def PartlyServed
    (S : System Op Ret State Choice Request Error Value)
    (w : World Op Ret State Request Error Value)
    (i : Nat)
    (rest : Async Op Ret Error Value) : Prop :=
  ∃ request steps s mid,
    w.own i =
        endOf i rest ++ (eventsOf i steps ++
          [.started i request]) ∧
      ∀ more outcome t,
        Solo (disturbed S.exec) rest mid more outcome t →
          Solo (disturbed S.exec) (S.serve i request) s
            (steps ++ more) outcome t

/- What is known of the tasks of a pool. -/
def TaskServed
    (S : System Op Ret State Choice Request Error Value)
    (p : Pool Op Ret State Request Error Value)
    (i : Nat) : Prop :=
  match p.tasks i with
  | none => p.world.own i = []
  | some rest => PartlyServed S p.world i rest

theorem own_settle
    (w : World Op Ret State Request Error Value)
    (i : Nat)
    (rest : Async Op Ret Error Value) :
    (w.settle i rest).own i = endOf i rest ++ w.own i := by
  unfold World.settle endOf
  cases rest.outcome? with
  | none => rw [List.nil_append]
  | some outcome => simp [World.own]

theorem own_settle_of_ne
    (w : World Op Ret State Request Error Value)
    (rest : Async Op Ret Error Value)
    (hNe : j ≠ i) :
    (w.settle i rest).own j = w.own j := by
  unfold World.settle
  cases rest.outcome? with
  | none => rfl
  | some outcome =>
      exact World.own_finish_of_ne w outcome hNe

theorem taskServed_start
    {request : Request}
    (hServed : TaskServed S p i)
    (hNone : p.tasks i = none) :
    PartlyServed S
      (p.advance i (p.world.start i request)
        (S.serve i request)).world
      i (S.serve i request) := by
  have hOwn : p.world.own i = [] := by
    unfold TaskServed at hServed
    rw [hNone] at hServed
    exact hServed
  refine ⟨request, [], p.world.state, p.world.state, ?_, ?_⟩
  · unfold Pool.advance
    rw [own_settle, World.own_start, hOwn, eventsOf,
      List.nil_append]
  · intro more outcome t hSolo
    exact hSolo

theorem taskServed_resume
    {choice : Choice}
    {op : Op}
    {resume : Ret op → Async Op Ret Error Value}
    {answer : Ret op}
    {after : State}
    (hServed : TaskServed S p i)
    (hTask : p.tasks i = some (.await op resume))
    (hExec :
      S.exec op choice p.world.state = some (answer, after)) :
    PartlyServed S
      (p.advance i (p.world.perform i op answer after)
        (resume answer)).world
      i (resume answer) := by
  unfold TaskServed at hServed
  rw [hTask] at hServed
  rcases hServed with ⟨request, steps, s, mid, hOwn, hRest⟩
  refine
    ⟨request,
      steps ++ [⟨op, ⟨choice, p.world.state⟩, mid, answer,
        after⟩],
      s, after, ?_, ?_⟩
  · unfold Pool.advance
    rw [own_settle, World.own_perform, hOwn, eventsOf_append]
    rfl
  · intro more outcome t hSolo
    rw [List.append_assoc]
    apply hRest
    exact .await hExec hSolo

/- The step of a task leaves the others where they are. -/
theorem taskServed_of_ne
    (hServed : TaskServed S p j)
    (hNe : j ≠ i)
    (hOwn : w.own j = p.world.own j) :
    TaskServed S (p.advance i w rest) j := by
  have hTask :
      (p.advance i w rest).tasks j = p.tasks j :=
    Function.update_of_ne hNe ..
  have hSame :
      (p.advance i w rest).world.own j = p.world.own j := by
    unfold Pool.advance
    rw [own_settle_of_ne _ _ hNe, hOwn]
  unfold TaskServed PartlyServed at hServed ⊢
  rw [hTask, hSame]
  exact hServed

theorem taskServed_self
    (hServed :
      PartlyServed S (p.advance i w rest).world i rest) :
    TaskServed S (p.advance i w rest) i := by
  have hTask :
      (p.advance i w rest).tasks i = some rest :=
    Function.update_self ..
  unfold TaskServed
  rw [hTask]
  exact hServed

/- The computations of all tasks are runs among others. -/
theorem taskServed_run
    (hRun : S.Run ok (Pool.initial initial) p) :
    ∀ i, TaskServed S p i := by
  refine
    System.Run.invariant (P := fun p => ∀ i, TaskServed S p i)
      ?_ ?_ hRun
  · intro i
    rfl
  · intro q r label hServed _ hMoved j
    cases label with
    | start i request =>
        rcases System.start_cases hMoved with ⟨hNone, hNext⟩
        subst hNext
        by_cases hSame : j = i
        · subst hSame
          apply taskServed_self
          exact taskServed_start (hServed j) hNone
        · apply taskServed_of_ne (hServed j) hSame
          exact World.own_start_of_ne _ _ hSame
    | resume i choice =>
        rcases System.resume_cases hMoved with
          ⟨op, resume, answer, after, hHere, hExec, hNext⟩
        subst hNext
        by_cases hSame : j = i
        · subst hSame
          apply taskServed_self
          exact taskServed_resume (hServed j) hHere hExec
        · apply taskServed_of_ne (hServed j) hSame
          exact World.own_perform_of_ne _ _ _ _ hSame

/-
  Whatever the other tasks do in between: a task that has
  finished is a run among others of the computation that
  serves its request.
-/
theorem exists_disturbed
    {outcome : Except Error Value}
    (hRun : S.Run ok (Pool.initial initial) p)
    (hFinished : .finished i outcome ∈ p.world.trace) :
    ∃ request steps s t,
      p.world.own i =
          .finished i outcome ::
            (eventsOf i steps ++ [.started i request]) ∧
        Solo (disturbed S.exec) (S.serve i request) s steps
          outcome t := by
  have hOwnMember : .finished i outcome ∈ p.world.own i := by
    unfold World.own
    rw [List.mem_filter]
    exact ⟨hFinished, by simp⟩
  have hServed := taskServed_run hRun i
  unfold TaskServed at hServed
  cases hTask : p.tasks i with
  | none =>
      rw [hTask] at hServed
      rw [show p.world.own i = [] from hServed] at hOwnMember
      cases hOwnMember
  | some rest =>
      rw [hTask] at hServed
      rcases hServed with ⟨request, steps, s, mid, hOwn, hRest⟩
      have hNoEnd :
          .finished i outcome ∉
            (eventsOf i steps ++ [.started i request] :
              List
                (Event Op Ret State Request Error Value)) := by
        clear hRest hOwn
        induction steps with
        | nil => simp [eventsOf]
        | cons step steps ih =>
            intro hMember
            apply ih
            simpa [eventsOf] using hMember
      rw [hOwn] at hOwnMember
      cases rest with
      | await op resume =>
          exact absurd hOwnMember hNoEnd
      | returned value =>
          rcases List.mem_cons.mp hOwnMember with hEnd | hEarly
          · cases hEnd
            have hSolo := hRest [] (.ok value) mid (.returned ..)
            rw [List.append_nil] at hSolo
            exact ⟨request, steps, s, mid, hOwn, hSolo⟩
          · exact absurd hEarly hNoEnd
      | threw error =>
          rcases List.mem_cons.mp hOwnMember with hEnd | hEarly
          · cases hEnd
            have hSolo := hRest [] (.error error) mid (.threw ..)
            rw [List.append_nil] at hSolo
            exact ⟨request, steps, s, mid, hOwn, hSolo⟩
          · exact absurd hEarly hNoEnd

end Concurrency
