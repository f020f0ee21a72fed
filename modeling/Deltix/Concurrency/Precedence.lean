import Deltix.Concurrency.Disturbed
import Deltix.Concurrency.Records

/-
  Operations that come after others in a computation, and so
  in every run of a system that serves it.

  Key definitions include:
    * `Async.Yields`
    * `Async.Precedes`
    * `DoneBy`

  Key theorems include:
    * `precedes_bind`
    * `tracked_run`
    * `startsOnce_run`
    * `precedes_run`
    * `reached_before`
-/

------------------------------------------------------------
-- Computations
------------------------------------------------------------

namespace Concurrency

variable {Op : Type} {Ret : Op → Type}
variable {Error Value Other : Type}

/- No value is returned before some operation has given an
   answer of this kind, other than these values. -/
def Async.Yields
    (gives : (op : Op) → Ret op → Prop)
    (otherwise : Value → Prop) :
    Async Op Ret Error Value → Prop
  | .returned value => otherwise value
  | .threw _ => True
  | .await op resume =>
      ∀ answer,
        gives op answer ∨
          Async.Yields gives otherwise (resume answer)

/- No operation that needs it is performed before some
   operation has given an answer of this kind. -/
def Async.Precedes
    (needs : Op → Prop)
    (gives : (op : Op) → Ret op → Prop) :
    Async Op Ret Error Value → Prop
  | .returned _ => True
  | .threw _ => True
  | .await op resume =>
      ¬ needs op ∧
        ∀ answer,
          gives op answer ∨
            Async.Precedes needs gives (resume answer)

variable {needs : Op → Prop}
variable {gives : (op : Op) → Ret op → Prop}
variable {first : Async Op Ret Error Value}
variable {next : Value → Async Op Ret Error Other}

theorem yields_any (body : Async Op Ret Error Value) :
    body.Yields gives fun _ => True := by
  induction body with
  | returned value => trivial
  | threw error => trivial
  | await op resume ih =>
      intro answer
      exact Or.inr (ih answer)

theorem precedes_of_only
    (hOnly : first.Only fun op => ¬ needs op) :
    first.Precedes needs gives := by
  induction first with
  | returned value => trivial
  | threw error => trivial
  | await op resume ih =>
      refine ⟨hOnly.1, ?_⟩
      intro answer
      exact Or.inr (ih answer (hOnly.2 answer))

theorem precedes_mono
    {fewer : Op → Prop}
    (hPrecedes : first.Precedes needs gives)
    (hFewer : ∀ op, fewer op → needs op) :
    first.Precedes fewer gives := by
  induction first with
  | returned value => trivial
  | threw error => trivial
  | await op resume ih =>
      refine ⟨fun hNeeds => hPrecedes.1 (hFewer op hNeeds), ?_⟩
      intro answer
      rcases hPrecedes.2 answer with hGiven | hRest
      · exact Or.inl hGiven
      · exact Or.inr (ih answer hRest)

theorem precedes_of_never
    (hNever : ∀ op, ¬ needs op)
    (body : Async Op Ret Error Value) :
    body.Precedes needs gives := by
  induction body with
  | returned value => trivial
  | threw error => trivial
  | await op resume ih =>
      refine ⟨hNever op, ?_⟩
      intro answer
      exact Or.inr (ih answer)

/- The second part may need what the first always gives. -/
theorem precedes_bind
    {mid : Value → Prop}
    (hFirst : first.Precedes needs gives)
    (hYields : first.Yields gives mid)
    (hNext :
      ∀ value, mid value → (next value).Precedes needs gives) :
    (first.bind next).Precedes needs gives := by
  induction first with
  | returned value => exact hNext value hYields
  | threw error => trivial
  | await op resume ih =>
      refine ⟨hFirst.1, ?_⟩
      intro answer
      rcases hYields answer with hGiven | hLater
      · exact Or.inl hGiven
      · rcases hFirst.2 answer with hGiven | hRest
        · exact Or.inl hGiven
        · exact Or.inr (ih answer hRest hLater)

/- A first part that always gives it, and needs nothing. -/
theorem precedes_after
    (hOnly : first.Only fun op => ¬ needs op)
    (hYields : first.Yields gives fun _ => False) :
    (first.bind next).Precedes needs gives :=
  precedes_bind (precedes_of_only hOnly) hYields
    fun _ hNever => hNever.elim

/- A first part that neither needs nor gives it. -/
theorem precedes_later
    (hOnly : first.Only fun op => ¬ needs op)
    (hNext : ∀ value, (next value).Precedes needs gives) :
    (first.bind next).Precedes needs gives :=
  precedes_bind (precedes_of_only hOnly) (yields_any first)
    fun value _ => hNext value

------------------------------------------------------------
-- The Pools Before An Event
------------------------------------------------------------

variable {State Choice Request : Type}
variable {S : System Op Ret State Choice Request Error Value}
variable {ok : Allowed Op Ret State Request Error Value}
variable {p : Pool Op Ret State Request Error Value}
variable {initial : State}

theorem trace_settle
    (w : World Op Ret State Request Error Value)
    (i : Nat)
    (rest : Async Op Ret Error Value) :
    (w.settle i rest).trace = endOf i rest ++ w.trace := by
  unfold World.settle endOf
  cases rest.outcome? with
  | none => rfl
  | some outcome => rfl

theorem ended_of_mem_endOf
    {i : Nat}
    {rest : Async Op Ret Error Value}
    {event : Event Op Ret State Request Error Value}
    (hEnd : event ∈ endOf i rest) :
    ∃ outcome,
      event = .finished i outcome ∧
        rest.outcome? = some outcome := by
  unfold endOf at hEnd
  cases hOutcome : rest.outcome? with
  | none =>
      rw [hOutcome] at hEnd
      cases hEnd
  | some outcome =>
      rw [hOutcome] at hEnd
      exact ⟨outcome, List.mem_singleton.mp hEnd, rfl⟩

/- A split of a trace at an event that is not its newest. -/
theorem split_of_newest
    {E : Type}
    {first newer older rest : List E}
    {event : E}
    (hNot : event ∉ first)
    (hTrace : first ++ rest = newer ++ event :: older) :
    ∃ more, newer = first ++ more ∧ rest = more ++ event :: older := by
  induction first generalizing newer with
  | nil => exact ⟨newer, rfl, hTrace⟩
  | cons head first ih =>
      rw [List.mem_cons, not_or] at hNot
      cases newer with
      | nil =>
          rw [List.cons_append, List.nil_append,
            List.cons.injEq] at hTrace
          exact absurd hTrace.1.symm hNot.1
      | cons other newer =>
          rw [List.cons_append, List.cons_append,
            List.cons.injEq] at hTrace
          rcases ih hNot.2 hTrace.2 with ⟨more, hNewer, hRest⟩
          refine ⟨more, ?_, hRest⟩
          rw [hTrace.1, hNewer, List.cons_append]

/- A run has been where an operation was performed. -/
theorem reached_before
    {newer older :
      List (Event Op Ret State Request Error Value)}
    {i : Nat}
    {op : Op}
    {answer : Ret op}
    {before after : State}
    (hRun : S.Run ok (Pool.initial initial) p)
    (hTrace :
      p.world.trace =
        newer ++ .performed i op answer before after :: older) :
    ∃ (q : Pool Op Ret State Request Error Value)
        (resume : Ret op → Async Op Ret Error Value)
        (choice : Choice),
      S.Run ok (Pool.initial initial) q ∧
        q.world = ⟨before, older⟩ ∧
        q.tasks i = some (.await op resume) ∧
        ok.perform i op q.world ∧
        S.exec op choice before = some (answer, after) := by
  induction hRun generalizing newer with
  | refl =>
      exfalso
      have hNil :
          (Pool.initial initial :
              Pool Op Ret State Request Error Value).world.trace =
            [] := rfl
      rw [hNil] at hTrace
      exact
        List.append_ne_nil_of_right_ne_nil _
          (List.cons_ne_nil _ _) hTrace.symm
  | @step q r label hReached hAllowed hMoved ih =>
      cases label with
      | start k request =>
          rcases System.start_cases hMoved with ⟨_, hNext⟩
          subst hNext
          have hSplit :
              (endOf k (S.serve k request) ++
                    [.started k request]) ++
                  q.world.trace =
                newer ++
                  .performed i op answer before after :: older := by
            unfold Pool.advance at hTrace
            rw [trace_settle, World.start_trace] at hTrace
            rw [← hTrace, List.append_assoc]
            rfl
          have hNot :
              (.performed i op answer before after :
                  Event Op Ret State Request Error Value) ∉
                endOf k (S.serve k request) ++
                  [.started k request] := by
            intro hMember
            rcases List.mem_append.mp hMember with hEnd | hStart
            · rcases ended_of_mem_endOf hEnd with ⟨_, hSame, _⟩
              cases hSame
            · cases List.mem_singleton.mp hStart
          rcases split_of_newest hNot hSplit with
            ⟨more, _, hRest⟩
          exact ih hRest
      | resume k choice =>
          rcases System.resume_cases hMoved with
            ⟨other, resume, reply, next, hTask, hExec, hNext⟩
          subst hNext
          have hSplit :
              endOf k (resume reply) ++
                  (.performed k other reply q.world.state next ::
                    q.world.trace) =
                newer ++
                  .performed i op answer before after :: older := by
            unfold Pool.advance at hTrace
            rw [trace_settle, World.perform_trace] at hTrace
            exact hTrace
          have hNot :
              (.performed i op answer before after :
                  Event Op Ret State Request Error Value) ∉
                endOf k (resume reply) := by
            intro hEnd
            rcases ended_of_mem_endOf hEnd with ⟨_, hSame, _⟩
            cases hSame
          rcases split_of_newest hNot hSplit with
            ⟨more, _, hRest⟩
          cases more with
          | nil =>
              rw [List.nil_append, List.cons.injEq] at hRest
              rcases hRest with ⟨hEvent, hOlder⟩
              cases hEvent
              subst hOlder
              exact
                ⟨q, resume, choice, hReached, rfl, hTask,
                  hAllowed op resume hTask, hExec⟩
          | cons newest more =>
              rw [List.cons_append, List.cons.injEq] at hRest
              exact ih hRest.2

------------------------------------------------------------
-- What Comes Before In A Run
------------------------------------------------------------

variable {i : Nat} {request : Request}

/- Some operation of the task has given such an answer. -/
def DoneBy
    (i : Nat)
    (gives : (op : Op) → Ret op → Prop)
    (trace : List (Event Op Ret State Request Error Value)) :
    Prop :=
  ∃ op answer before after,
    .performed i op answer before after ∈ trace ∧
      gives op answer

theorem DoneBy.mono
    {trace more : List (Event Op Ret State Request Error Value)}
    (hDone : DoneBy i gives trace)
    (hMore : ∀ event ∈ trace, event ∈ more) :
    DoneBy i gives more := by
  rcases hDone with ⟨op, answer, before, after, hMember, hGives⟩
  exact ⟨op, answer, before, after, hMore _ hMember, hGives⟩

/- Each task has done what it has to, or what is left of it
   will. -/
structure Tracked
    (gives : Request → (op : Op) → Ret op → Prop)
    (will : Request → Async Op Ret Error Value → Prop)
    (p : Pool Op Ret State Request Error Value) : Prop where
  fresh : ∀ i, p.tasks i = none → p.world.Fresh i
  done :
    ∀ i rest request,
      p.tasks i = some rest →
        .started i request ∈ p.world.trace →
          DoneBy i (gives request) p.world.trace ∨
            will request rest

variable {gives : Request → (op : Op) → Ret op → Prop}
variable {will : Request → Async Op Ret Error Value → Prop}
variable {w : World Op Ret State Request Error Value}
variable {rest : Async Op Ret Error Value}
variable {event : Event Op Ret State Request Error Value}

theorem mem_settle_of_mem
    (hMember : event ∈ w.trace) :
    event ∈ (w.settle i rest).trace := by
  rw [trace_settle]
  exact List.mem_append_right _ hMember

theorem mem_of_mem_settle
    (hMember : event ∈ (w.settle i rest).trace)
    (hNot : ∀ outcome, event ≠ .finished i outcome) :
    event ∈ w.trace := by
  rw [trace_settle, List.mem_append] at hMember
  rcases hMember with hEnd | hThere
  · rcases ended_of_mem_endOf hEnd with ⟨outcome, hSame, _⟩
    exact absurd hSame (hNot outcome)
  · exact hThere

theorem Tracked.advance
    (event : Event Op Ret State Request Error Value)
    (hTracked : Tracked gives will p)
    (hTrace : w.trace = event :: p.world.trace)
    (hTask : event.task = i)
    (hOthers :
      ∀ k request, event = .started k request → k = i)
    (hHere :
      ∀ request, .started i request ∈ w.trace →
        DoneBy i (gives request) w.trace ∨ will request rest) :
    Tracked gives will (p.advance i w rest) := by
  have hMore :
      ∀ other ∈ p.world.trace,
        other ∈ (p.advance i w rest).world.trace := by
    intro other hMember
    apply mem_settle_of_mem
    rw [hTrace]
    exact List.mem_cons_of_mem _ hMember
  constructor
  · intro k hNone other hMember hOther
    by_cases hSame : k = i
    · subst hSame
      have hSome :
          (p.advance k w rest).tasks k = some rest :=
        Function.update_self ..
      rw [hSome] at hNone
      cases hNone
    · have hBefore : p.tasks k = none := by
        rw [← hNone]
        exact (Function.update_of_ne hSame ..).symm
      have hThere : other ∈ w.trace := by
        apply mem_of_mem_settle hMember
        intro outcome hEnd
        rw [hEnd] at hOther
        exact hSame hOther.symm
      rw [hTrace, List.mem_cons] at hThere
      rcases hThere with hNew | hOld
      · rw [hNew, hTask] at hOther
        exact hSame hOther.symm
      · exact hTracked.fresh k hBefore other hOld hOther
  · intro k left request hLeft hStarted
    have hThere : .started k request ∈ w.trace := by
      apply mem_of_mem_settle hStarted
      intro outcome hEnd
      cases hEnd
    by_cases hSame : k = i
    · subst hSame
      have hRest : left = rest := by
        have hSome :
            (p.advance k w rest).tasks k = some rest :=
          Function.update_self ..
        rw [hSome] at hLeft
        cases hLeft
        rfl
      subst hRest
      rcases hHere request hThere with hDone | hWill
      · exact Or.inl (hDone.mono fun _ => mem_settle_of_mem)
      · exact Or.inr hWill
    · have hBefore : p.tasks k = some left := by
        rw [← hLeft]
        exact (Function.update_of_ne hSame ..).symm
      rw [hTrace, List.mem_cons] at hThere
      rcases hThere with hNew | hOld
      · exact absurd (hOthers k request hNew.symm) hSame
      · rcases hTracked.done k left request hBefore hOld with
          hDone | hWill
        · exact Or.inl (hDone.mono hMore)
        · exact Or.inr hWill

/- What a computation will have done, its task has done or
   has still to do. -/
theorem tracked_run
    (hServe :
      ∀ i request w,
        ok.start i request w → will request (S.serve i request))
    (hWill :
      ∀ request op resume,
        will request (.await op resume) →
          ∀ answer,
            gives request op answer ∨ will request (resume answer))
    (hRun : S.Run ok (Pool.initial initial) p) :
    Tracked gives will p := by
  refine System.Run.invariant ?_ ?_ hRun
  · constructor
    · intro i _ event hMember
      cases hMember
    · intro i rest request hTask
      cases hTask
  · intro q r label hTracked hAllowed hMoved
    cases label with
    | start i request =>
        rcases System.start_cases hMoved with ⟨hNone, hNext⟩
        subst hNext
        refine
          hTracked.advance (.started i request) rfl rfl ?_ ?_
        · intro k other hSame
          cases hSame
          rfl
        · intro other hStarted
          rw [World.start_trace, List.mem_cons] at hStarted
          rcases hStarted with hNew | hOld
          · cases hNew
            exact Or.inr (hServe i request _ hAllowed)
          · exact
              absurd rfl (hTracked.fresh i hNone _ hOld)
    | resume i choice =>
        rcases System.resume_cases hMoved with
          ⟨op, resume, answer, after, hTask, _, hNext⟩
        subst hNext
        refine
          hTracked.advance
            (.performed i op answer q.world.state after) rfl rfl
            ?_ ?_
        · intro k other hSame
          cases hSame
        · intro request hStarted
          rw [World.perform_trace, List.mem_cons] at hStarted
          rcases hStarted with hNew | hOld
          · cases hNew
          rcases hTracked.done i _ request hTask hOld with
            hDone | hLeft
          · left
            exact
              hDone.mono fun _ hMember =>
                List.mem_cons_of_mem _ hMember
          · rcases hWill request op resume hLeft answer with
              hGives | hRest
            · left
              exact
                ⟨op, answer, _, after, List.mem_cons_self, hGives⟩
            · exact Or.inr hRest

/- No task is started twice. -/
theorem startsOnce_run
    (hRun : S.Run ok (Pool.initial initial) p) :
    StartsOnce p.world.trace := by
  induction hRun with
  | refl =>
      intro i request other hMember
      cases hMember
  | @step q r label hReached hAllowed hMoved ih =>
      have hSettle
          (w : World Op Ret State Request Error Value)
          (k : Nat)
          (rest : Async Op Ret Error Value)
          (hOnce : StartsOnce w.trace) :
          StartsOnce (w.settle k rest).trace := by
        intro i request other hRequest hOther
        refine
          hOnce i request other
            (mem_of_mem_settle hRequest ?_)
            (mem_of_mem_settle hOther ?_)
        · intro outcome hSame
          cases hSame
        · intro outcome hSame
          cases hSame
      cases label with
      | start k request =>
          rcases System.start_cases hMoved with ⟨hNone, hNext⟩
          subst hNext
          have hTracked :
              Tracked
                (fun (_ : Request) (_ : Op) _ => False)
                (fun _ _ => True) q :=
            tracked_run (fun _ _ _ _ => trivial)
              (fun _ _ _ _ _ => Or.inr trivial) hReached
          apply hSettle
          rw [World.start_trace]
          apply ih.cons
          intro i other hSame
          cases hSame
          exact hTracked.fresh k hNone
      | resume k choice =>
          rcases System.resume_cases hMoved with
            ⟨op, resume, answer, after, _, _, hNext⟩
          subst hNext
          apply hSettle
          rw [World.perform_trace]
          apply ih.cons
          intro i other hSame
          cases hSame

/- What an operation needs, its task has done before. -/
theorem precedes_run
    (needs : Request → Op → Prop)
    (gives : Request → (op : Op) → Ret op → Prop)
    {newer older :
      List (Event Op Ret State Request Error Value)}
    {op : Op}
    {answer : Ret op}
    {before after : State}
    (hServe :
      ∀ i request w,
        ok.start i request w →
          (S.serve i request).Precedes (needs request)
            (gives request))
    (hRun : S.Run ok (Pool.initial initial) p)
    (hTrace :
      p.world.trace =
        newer ++ .performed i op answer before after :: older)
    (hStarted : .started i request ∈ older)
    (hNeeds : needs request op) :
    DoneBy i (gives request) older := by
  rcases reached_before hRun hTrace with
    ⟨q, resume, _, hReached, hWorld, hTask, _, _⟩
  have hTracked :
      Tracked gives
        (fun request rest =>
          rest.Precedes (needs request) (gives request))
        q :=
    tracked_run hServe (fun _ _ _ hWill => hWill.2) hReached
  have hDone := hTracked.done i _ request hTask
  rw [hWorld] at hDone
  rcases hDone hStarted with hGiven | hLeft
  · exact hGiven
  · exact absurd hNeeds hLeft.1

end Concurrency
