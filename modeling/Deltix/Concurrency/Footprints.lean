import Deltix.Concurrency.Precedence

/-
  Runs whose tasks perform only certain operations, and what
  these keep in the long run.

  Key theorems include:
    * `only_run`
    * `kept_run`
-/

namespace Concurrency

variable {Op : Type} {Ret : Op → Type}
variable {State Choice Request Error Value : Type}
variable
  {S : System Op Ret State Choice Request Error Value}
variable {ok : Allowed Op Ret State Request Error Value}
variable {p q : Pool Op Ret State Request Error Value}
variable {initial : State} {cond : Op → Prop}

theorem only_any (body : Async Op Ret Error Value) :
    body.Only fun _ => True := by
  induction body with
  | returned value => exact Async.only_returned value
  | threw error => exact Async.only_threw error
  | await op resume ih => exact ⟨trivial, ih⟩

/- What is left of each task performs such operations. -/
def AllOnly
    (cond : Op → Prop)
    (p : Pool Op Ret State Request Error Value) : Prop :=
  ∀ i rest, p.tasks i = some rest → rest.Only cond

theorem AllOnly.advance
    {i : Nat}
    {w : World Op Ret State Request Error Value}
    {rest : Async Op Ret Error Value}
    (hAll : AllOnly cond p)
    (hRest : rest.Only cond) :
    AllOnly cond (p.advance i w rest) := by
  intro j other hTask
  by_cases hSame : j = i
  · have hOther : rest = other := by
      simpa [Pool.advance, hSame] using hTask
    rw [← hOther]
    exact hRest
  · have hBefore : p.tasks j = some other := by
      simpa [Pool.advance, hSame] using hTask
    exact hAll j other hBefore

theorem allOnly_step
    {label : Label Choice Request}
    (hServe :
      ∀ i request w,
        ok.start i request w → (S.serve i request).Only cond)
    (hAll : AllOnly cond p)
    (hAllowed : ok.holds p label)
    (hMoved : S.step? p label = some q) :
    AllOnly cond q := by
  cases label with
  | start i request =>
      rcases System.start_cases hMoved with ⟨_, hNext⟩
      subst hNext
      exact hAll.advance (hServe i request _ hAllowed)
  | resume i choice =>
      rcases System.resume_cases hMoved with
        ⟨op, resume, answer, after, hTask, _, hNext⟩
      subst hNext
      exact hAll.advance ((hAll i _ hTask).2 answer)

theorem only_run
    (hServe :
      ∀ i request w,
        ok.start i request w → (S.serve i request).Only cond)
    (hRun : S.Run ok (Pool.initial initial) p) :
    AllOnly cond p := by
  refine System.Run.invariant ?_ ?_ hRun
  · intro i rest hTask
    cases hTask
  · intro q r label hAll hAllowed hMoved
    exact allOnly_step hServe hAll hAllowed hMoved

/- The same operations have been performed, and have led to
   the same state. -/
def World.Alike
    (w v : World Op Ret State Request Error Value) : Prop :=
  v.state = w.state ∧
    ∀ i op answer before after,
      .performed i op answer before after ∈ v.trace ↔
        .performed i op answer before after ∈ w.trace

theorem alike_settle
    (w : World Op Ret State Request Error Value)
    (i : Nat)
    (rest : Async Op Ret Error Value) :
    w.Alike (w.settle i rest) := by
  refine ⟨World.settle_state w i rest, ?_⟩
  intro k op answer before after
  constructor
  · intro hMember
    apply mem_of_mem_settle hMember
    intro outcome hSame
    cases hSame
  · exact mem_settle_of_mem

theorem alike_start
    (w : World Op Ret State Request Error Value)
    (i : Nat)
    (request : Request) :
    w.Alike (w.start i request) := by
  refine ⟨rfl, ?_⟩
  intro k op answer before after
  rw [World.start_trace, List.mem_cons]
  simp

/- What every operation keeps, a run keeps, from any of its
   pools on. -/
theorem kept_run
    (P : World Op Ret State Request Error Value → Prop)
    (hAlike : ∀ w v, w.Alike v → P w → P v)
    (hServe :
      ∀ i request w,
        ok.start i request w → (S.serve i request).Only cond)
    (hStep :
      ∀ i op choice answer after w,
        cond op → ok.perform i op w → P w →
          S.exec op choice w.state = some (answer, after) →
            P (w.perform i op answer after))
    (hRun : S.Run ok (Pool.initial initial) p)
    (hLater : S.Run ok p q)
    (hHere : P p.world) :
    P q.world := by
  have hBoth : AllOnly cond q ∧ P q.world := by
    refine
      System.Run.invariant
        (P := fun q => AllOnly cond q ∧ P q.world)
        ⟨only_run hServe hRun, hHere⟩ ?_ hLater
    intro q r label hBefore hAllowed hMoved
    rcases hBefore with ⟨hAll, hKept⟩
    refine ⟨allOnly_step hServe hAll hAllowed hMoved, ?_⟩
    cases label with
    | start i request =>
        rcases System.start_cases hMoved with ⟨_, hNext⟩
        subst hNext
        apply hAlike _ _ (alike_settle ..)
        exact hAlike _ _ (alike_start ..) hKept
    | resume i choice =>
        rcases System.resume_cases hMoved with
          ⟨op, resume, answer, after, hTask, hExec, hNext⟩
        subst hNext
        apply hAlike _ _ (alike_settle ..)
        exact
          hStep i op choice answer after q.world
            (hAll i _ hTask).1 (hAllowed op resume hTask) hKept
            hExec
  exact hBoth.2

end Concurrency
