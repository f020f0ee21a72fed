import Deltix.Concurrency.RelyGuarantee

/-
  What the events of a trace record, each by a mark that it
  is given.

  Key definitions include:
    * `Recorded`

  Key theorems include:
    * `recorded_cons`
    * `Recorded.of_grows`
    * `recorded_older_iff`
    * `begun_run`
-/

namespace Concurrency

variable {E Mark : Type}

/- Some event of the trace has this mark. -/
def Recorded
    (mark : E → Option Mark)
    (m : Mark)
    (trace : List E) : Prop :=
  ∃ event ∈ trace, mark event = some m

variable {mark : E → Option Mark} {m : Mark}
variable {event : E} {trace later : List E}

@[simp] theorem not_recorded_nil : ¬ Recorded mark m [] := by
  intro hRecorded
  rcases hRecorded with ⟨event, hMember, _⟩
  cases hMember

theorem recorded_cons :
    Recorded mark m (event :: trace) ↔
      mark event = some m ∨ Recorded mark m trace := by
  unfold Recorded
  constructor
  · intro hRecorded
    rcases hRecorded with ⟨other, hMember, hMark⟩
    rcases List.mem_cons.mp hMember with hNew | hOld
    · subst hNew
      exact Or.inl hMark
    · exact Or.inr ⟨other, hOld, hMark⟩
  · intro hEither
    rcases hEither with hMark | ⟨other, hMember, hMark⟩
    · exact ⟨event, List.mem_cons_self, hMark⟩
    · exact ⟨other, List.mem_cons_of_mem _ hMember, hMark⟩

theorem recorded_cons_of_none
    (hNone : mark event = none) :
    Recorded mark m (event :: trace) ↔ Recorded mark m trace := by
  rw [recorded_cons, hNone]
  simp

theorem Recorded.mono
    (hMore : ∀ event ∈ trace, event ∈ later)
    (hRecorded : Recorded mark m trace) :
    Recorded mark m later := by
  rcases hRecorded with ⟨event, hMember, hMark⟩
  exact ⟨event, hMore event hMember, hMark⟩

variable {Op : Type} {Ret : Op → Type}
variable {State Choice Request Error Value Mark : Type}
variable {w v : World Op Ret State Request Error Value}
variable {i j : Nat} {m : Mark}
variable
  {mark :
    Event Op Ret State Request Error Value → Option (Nat × Mark)}

/- A task is not marked by what the others do. -/
theorem Recorded.of_grows
    (hTask : ∀ event j m, mark event = some (j, m) → event.task = j)
    (hGrows : World.Grows i w v)
    (hRecorded : Recorded mark (i, m) v.trace) :
    Recorded mark (i, m) w.trace := by
  rcases hRecorded with ⟨event, hMember, hMark⟩
  exact
    ⟨event, hGrows.mem_own (hTask event i m hMark) hMember, hMark⟩

theorem Recorded.grows
    (hGrows : World.Grows i w v)
    (hRecorded : Recorded mark (j, m) w.trace) :
    Recorded mark (j, m) v.trace :=
  hRecorded.mono fun _ hMember => hGrows.mem hMember

/- Nor by anything after its end. -/
theorem recorded_older_iff
    {trace newer older :
      List (Event Op Ret State Request Error Value)}
    {outcome : Except Error Value}
    (hTask : ∀ event j m, mark event = some (j, m) → event.task = j)
    (hNone : ∀ j outcome, mark (.finished j outcome) = none)
    (hQuiet : Quiet trace)
    (hTrace : trace = newer ++ .finished i outcome :: older) :
    Recorded mark (i, m) trace ↔ Recorded mark (i, m) older := by
  constructor
  · intro hRecorded
    rcases hRecorded with ⟨event, hMember, hMark⟩
    have hSelf : event.task = i := hTask event i m hMark
    subst hSelf
    have hBefore := hQuiet.before_end hTrace hMember
    rcases List.mem_cons.mp hBefore with hEnd | hOlder
    · rw [hEnd, hNone] at hMark
      cases hMark
    · exact ⟨event, hOlder, hMark⟩
  · intro hRecorded
    refine hRecorded.mono ?_
    intro event hMember
    rw [hTrace]
    exact
      List.mem_append_right _ (List.mem_cons_of_mem _ hMember)

------------------------------------------------------------
-- What Has Begun
------------------------------------------------------------

variable {S : System Op Ret State Choice Request Error Value}
variable {ok : Allowed Op Ret State Request Error Value}
variable {p : Pool Op Ret State Request Error Value}

/- A task with an event, or in progress, has been started. -/
structure Begun
    (p : Pool Op Ret State Request Error Value) : Prop where
  task :
    ∀ i rest, p.tasks i = some rest →
      ∃ request, .started i request ∈ p.world.trace
  event :
    ∀ event ∈ p.world.trace,
      ∃ request, .started event.task request ∈ p.world.trace

theorem Begun.advance
    {rest : Async Op Ret Error Value}
    (event : Event Op Ret State Request Error Value)
    (hBegun : Begun p)
    (hTrace : w.trace = event :: p.world.trace)
    (hTask : event.task = i)
    (hStarted : ∃ request, .started i request ∈ w.trace) :
    Begun (p.advance i w rest) := by
  have hOld :
      ∀ other ∈ p.world.trace,
        other ∈ (p.advance i w rest).world.trace := by
    intro other hMember
    have hThere : other ∈ w.trace := by
      rw [hTrace]
      exact List.mem_cons_of_mem _ hMember
    unfold Pool.advance World.settle
    dsimp only
    split
    · exact List.mem_cons_of_mem _ hThere
    · exact hThere
  have hHere :
      ∃ request,
        .started i request ∈ (p.advance i w rest).world.trace := by
    rcases hStarted with ⟨request, hStarted⟩
    refine ⟨request, ?_⟩
    unfold Pool.advance World.settle
    dsimp only
    split
    · exact List.mem_cons_of_mem _ hStarted
    · exact hStarted
  constructor
  · intro k other hOther
    by_cases hSelf : k = i
    · rw [hSelf]
      exact hHere
    · have hBefore : p.tasks k = some other := by
        simpa [Pool.advance, hSelf] using hOther
      rcases hBegun.task k other hBefore with
        ⟨request, hMember⟩
      exact ⟨request, hOld _ hMember⟩
  · intro other hMember
    have hCases :
        other.task = i ∨ other ∈ p.world.trace := by
      have hThere :
          (∃ outcome, other = .finished i outcome) ∨
            other ∈ w.trace := by
        unfold Pool.advance World.settle at hMember
        dsimp only at hMember
        split at hMember
        · rcases List.mem_cons.mp hMember with hEnd | hBefore
          · exact Or.inl ⟨_, hEnd⟩
          · exact Or.inr hBefore
        · exact Or.inr hMember
      rcases hThere with ⟨outcome, hEnd⟩ | hThere
      · rw [hEnd]
        exact Or.inl rfl
      · rw [hTrace] at hThere
        rcases List.mem_cons.mp hThere with hNew | hBefore
        · rw [hNew]
          exact Or.inl hTask
        · exact Or.inr hBefore
    rcases hCases with hSelf | hBefore
    · rw [hSelf]
      exact hHere
    · rcases hBegun.event other hBefore with
        ⟨request, hStarted⟩
      exact ⟨request, hOld _ hStarted⟩

theorem begun_run
    {initial : State}
    (hRun : S.Run ok (Pool.initial initial) p) :
    Begun p := by
  refine System.Run.invariant ?_ ?_ hRun
  · constructor
    · intro i rest hTask
      cases hTask
    · intro event hMember
      cases hMember
  · intro q r label hBegun _ hMoved
    cases label with
    | start i request =>
        rcases System.start_cases hMoved with ⟨_, rfl⟩
        exact
          hBegun.advance (.started i request) rfl rfl
            ⟨request, List.mem_cons_self⟩
    | resume i choice =>
        rcases System.resume_cases hMoved with
          ⟨op, resume, answer, after, hTask, _, rfl⟩
        rcases hBegun.task i _ hTask with ⟨request, hStarted⟩
        exact
          hBegun.advance
            (.performed i op answer q.world.state after)
            rfl rfl
            ⟨request, List.mem_cons_of_mem _ hStarted⟩

end Concurrency
