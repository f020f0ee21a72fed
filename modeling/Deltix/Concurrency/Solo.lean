import Deltix.Concurrency.Tasks

/-
  A computation that runs alone, with a record of the
  operations it performs.

  Every choice is part of the record, so a statement about
  all solo runs is one about every pattern of failures.

  Key definitions include:
    * `Taken`
    * `Solo`
    * `solo?`
    * `runWith`
    * `Ends`
    * `Returns`

  Key theorems include:
    * `choices_of_solo?`
    * `Solo.only`
    * `Solo.throws`
    * `Solo.relates`
    * `Solo.relates_step`
    * `Solo.split_of`
    * `Solo.simulates`
    * `exists_solo`
    * `ends_bind`
    * `ends_catchError`
    * `ends_andFinally`
    * `ends_forEach`
    * `runWith_bind`
    * `runWith_catchError`
    * `exists_solo_of_choice`
-/

------------------------------------------------------------
-- Solo Runs
------------------------------------------------------------

namespace Concurrency

/- One operation of a run, with the states around it. -/
structure Taken
    (Op : Type)
    (Ret : Op → Type)
    (State Choice : Type) where
  op : Op
  choice : Choice
  before : State
  answer : Ret op
  after : State

variable {Op : Type} {Ret : Op → Type}
variable {State Choice Request Error Value Other : Type}

/- The operations come in the order they are performed in. -/
inductive Solo
    (exec : (op : Op) → Choice → State → Option (Ret op × State)) :
    Async Op Ret Error Value → State →
      List (Taken Op Ret State Choice) →
      Except Error Value → State → Prop where
  | returned (value : Value) (s : State) :
      Solo exec (.returned value) s [] (.ok value) s
  | threw (error : Error) (s : State) :
      Solo exec (.threw error) s [] (.error error) s
  | await
      {op : Op}
      {resume : Ret op → Async Op Ret Error Value}
      {choice : Choice}
      {answer : Ret op}
      {s next t : State}
      {steps : List (Taken Op Ret State Choice)}
      {outcome : Except Error Value}
      (performed : exec op choice s = some (answer, next))
      (rest : Solo exec (resume answer) next steps outcome t) :
      Solo exec (.await op resume) s
        (⟨op, choice, s, answer, next⟩ :: steps) outcome t

/- Run a computation on a list of choices. -/
def solo?
    (exec : (op : Op) → Choice → State → Option (Ret op × State)) :
    Async Op Ret Error Value → State → List Choice →
      Option
        (List (Taken Op Ret State Choice) ×
          Except Error Value × State)
  | .returned value, s, _ => some ([], .ok value, s)
  | .threw error, s, _ => some ([], .error error, s)
  | .await _ _, _, [] => none
  | .await op resume, s, choice :: rest =>
      match exec op choice s with
      | none => none
      | some (answer, next) =>
          (solo? exec (resume answer) next rest).map fun run =>
            (⟨op, choice, s, answer, next⟩ :: run.1, run.2)

variable
  {exec : (op : Op) → Choice → State → Option (Ret op × State)}
variable {steps : List (Taken Op Ret State Choice)}
variable {s t : State}
variable {body : Async Op Ret Error Value}
variable {choices : List Choice}
variable {outcome : Except Error Value}

theorem solo_of_solo?
    (hRun : solo? exec body s choices = some (steps, outcome, t)) :
    Solo exec body s steps outcome t := by
  induction body generalizing s choices steps with
  | returned value =>
      cases hRun
      exact .returned value _
  | threw error =>
      cases hRun
      exact .threw error _
  | await op resume ih =>
      cases choices with
      | nil => cases hRun
      | cons choice rest =>
          unfold solo? at hRun
          split at hRun
          · cases hRun
          · rename_i answer next hExec
            rw [Option.map_eq_some_iff] at hRun
            rcases hRun with ⟨⟨more, last⟩, hRest, hEq⟩
            cases hEq
            exact .await hExec (ih answer hRest)

/- The choices are taken in order, and some may be left. -/
theorem choices_of_solo?
    (hRun : solo? exec body s choices = some (steps, outcome, t)) :
    steps.map Taken.choice <+: choices := by
  induction body generalizing s choices steps with
  | returned value =>
      cases hRun
      exact List.nil_prefix
  | threw error =>
      cases hRun
      exact List.nil_prefix
  | await op resume ih =>
      cases choices with
      | nil => cases hRun
      | cons choice rest =>
          unfold solo? at hRun
          split at hRun
          · cases hRun
          · rename_i answer next hExec
            rw [Option.map_eq_some_iff] at hRun
            rcases hRun with ⟨⟨more, last⟩, hRest, hEq⟩
            cases hEq
            have hMore := ih answer hRest
            exact (List.prefix_cons_inj choice).mpr hMore

------------------------------------------------------------
-- The Steps Of A Solo Run
------------------------------------------------------------

variable {body : Async Op Ret Error Value}
variable {first rest : List (Taken Op Ret State Choice)}
variable {outcome : Except Error Value} {cond : Op → Prop}

/- The operations of a run are those of its computation. -/
theorem Solo.only
    (hOnly : body.Only cond)
    (hSolo : Solo exec body s steps outcome t) :
    ∀ step ∈ steps, cond step.op := by
  induction hSolo with
  | returned value s =>
      intro step hMember
      cases hMember
  | threw error s =>
      intro step hMember
      cases hMember
  | await hExec _ ih =>
      intro step hMember
      rcases List.mem_cons.mp hMember with hSame | hLater
      · rw [hSame]
        exact hOnly.1
      · exact ih (hOnly.2 _) step hLater

theorem Solo.performed
    (hSolo : Solo exec body s steps outcome t) :
    ∀ step ∈ steps,
      exec step.op step.choice step.before =
        some (step.answer, step.after) := by
  induction hSolo with
  | returned value s =>
      intro step hMember
      cases hMember
  | threw error s =>
      intro step hMember
      cases hMember
  | await hExec _ ih =>
      intro step hMember
      rcases List.mem_cons.mp hMember with hSame | hLater
      · rw [hSame]
        exact hExec
      · exact ih step hLater

/- A run throws what its computation may throw. -/
theorem Solo.throws
    {error : Error}
    {bad : Error → Prop}
    (hThrows : body.Throws bad)
    (hSolo : Solo exec body s steps (.error error) t) :
    bad error := by
  generalize hOutcome :
    (.error error : Except Error Value) = outcome at hSolo
  induction hSolo with
  | returned value s => cases hOutcome
  | threw other s =>
      cases hOutcome
      exact hThrows
  | await hExec _ ih => exact ih (hThrows _) hOutcome

/- What every step does to the state, the run does to it. -/
theorem Solo.relates
    (relation : State → State → Prop)
    (hRefl : ∀ u, relation u u)
    (hTrans :
      ∀ u v w, relation u v → relation v w → relation u w)
    (hSteps :
      ∀ step ∈ steps, relation step.before step.after)
    (hSolo : Solo exec body s steps outcome t) :
    relation s t := by
  induction hSolo with
  | returned value s => exact hRefl s
  | threw error s => exact hRefl s
  | await hExec _ ih =>
      apply hTrans _ _ _ (hSteps _ List.mem_cons_self)
      apply ih
      intro step hMember
      exact hSteps step (List.mem_cons_of_mem _ hMember)

/- The same, up to each step and from there on. -/
theorem Solo.relates_step
    (relation : State → State → Prop)
    (hRefl : ∀ u, relation u u)
    (hTrans :
      ∀ u v w, relation u v → relation v w → relation u w)
    (hSteps :
      ∀ step ∈ steps, relation step.before step.after)
    (hSolo : Solo exec body s steps outcome t) :
    ∀ step ∈ steps,
      relation s step.before ∧ relation step.after t := by
  induction hSolo with
  | returned value s =>
      intro step hMember
      cases hMember
  | threw error s =>
      intro step hMember
      cases hMember
  | await hExec hRest ih =>
      rw [List.forall_mem_cons] at hSteps
      intro step hMember
      rcases List.mem_cons.mp hMember with hSame | hLater
      · rw [hSame]
        constructor
        · exact hRefl _
        · exact hRest.relates relation hRefl hTrans hSteps.2
      · have hThere := ih hSteps.2 step hLater
        constructor
        · exact hTrans _ _ _ hSteps.1 hThere.1
        · exact hThere.2

/-
  A run can be cut anywhere: what was left of it is a run,
  and any other end of the computation would do.  What is
  inherited by the rest of a computation holds there.
-/
theorem Solo.split_of
    {inherited : Async Op Ret Error Value → Prop}
    (hInherits :
      ∀ op resume, inherited (.await op resume) →
        ∀ answer, inherited (resume answer))
    (hBody : inherited body)
    (hSolo : Solo exec body s (first ++ rest) outcome t) :
    ∃ (program : Async Op Ret Error Value) (mid : State),
      inherited program ∧
        Solo exec program mid rest outcome t ∧
        ∀ (more : List (Taken Op Ret State Choice))
          (ended : Except Error Value) (u : State),
          Solo exec program mid more ended u →
            Solo exec body s (first ++ more) ended u := by
  induction first generalizing body s with
  | nil =>
      exact ⟨body, s, hBody, hSolo, fun _ _ _ hMore => hMore⟩
  | cons step others ih =>
      cases hSolo with
      | await hExec hRest =>
          rcases ih (hInherits _ _ hBody _) hRest with
            ⟨program, mid, hProgram, hLeft, hEnds⟩
          refine ⟨program, mid, hProgram, hLeft, ?_⟩
          intro more ended u hMore
          exact .await hExec (hEnds more ended u hMore)

theorem Solo.split
    (hOnly : body.Only cond)
    (hSolo : Solo exec body s (first ++ rest) outcome t) :
    ∃ (program : Async Op Ret Error Value) (mid : State),
      program.Only cond ∧
        Solo exec program mid rest outcome t ∧
        ∀ (more : List (Taken Op Ret State Choice))
          (ended : Except Error Value) (u : State),
          Solo exec program mid more ended u →
            Solo exec body s (first ++ more) ended u := by
  have hInherits :
      ∀ op (resume : Ret op → Async Op Ret Error Value),
        (Async.await op resume).Only cond →
          ∀ answer, (resume answer).Only cond :=
    fun _ _ hAwait => hAwait.2
  exact hSolo.split_of hInherits hOnly

/- A step in front of a run starts where the run does. -/
theorem Solo.cons
    {step : Taken Op Ret State Choice}
    (hOnly : body.Only cond)
    (hSolo : Solo exec body s (step :: rest) outcome t) :
    step.before = s ∧
      ∃ program : Async Op Ret Error Value,
        program.Only cond ∧
          Solo exec program step.after rest outcome t ∧
          ∀ (more : List (Taken Op Ret State Choice))
            (ended : Except Error Value) (u : State),
            Solo exec program step.after more ended u →
              Solo exec body s (step :: more) ended u := by
  cases hSolo with
  | await hExec hRest =>
      refine ⟨rfl, _, hOnly.2 _, hRest, ?_⟩
      intro more ended u hMore
      exact .await hExec hMore

/- A run over states that stand for others is a run over the
   others, if each operation is. -/
theorem Solo.simulates
    {Abstract : Type}
    {abstractExec :
      (op : Op) → Other → Abstract →
        Option (Ret op × Abstract)}
    (inv : State → Prop)
    (abstraction : State → Abstract)
    (hExec :
      ∀ op choice u answer v,
        inv u → exec op choice u = some (answer, v) →
          inv v ∧
            ∃ other,
              abstractExec op other (abstraction u) =
                some (answer, abstraction v))
    (hInv : inv s)
    (hSolo : Solo exec body s steps outcome t) :
    inv t ∧
      ∃ others,
        Solo abstractExec body (abstraction s) others outcome
          (abstraction t) := by
  induction hSolo with
  | returned value s =>
      exact ⟨hInv, [], .returned value _⟩
  | threw error s =>
      exact ⟨hInv, [], .threw error _⟩
  | await hStep _ ih =>
      rcases hExec _ _ _ _ _ hInv hStep with
        ⟨hNext, other, hOther⟩
      rcases ih hNext with ⟨hLast, others, hRest⟩
      exact ⟨hLast, _, .await hOther hRest⟩

/- A computation can end if its operations can be performed,
   and what they may keep it may keep. -/
theorem exists_solo
    (keeps : State → State → Prop)
    (hRefl : ∀ u, keeps u u)
    (hTrans : ∀ u v w, keeps u v → keeps v w → keeps u w)
    (hCan :
      ∀ op, cond op → ∀ u,
        ∃ choice answer v,
          exec op choice u = some (answer, v) ∧ keeps u v)
    (hOnly : body.Only cond)
    (s : State) :
    ∃ steps outcome t,
      Solo exec body s steps outcome t ∧ keeps s t := by
  induction body generalizing s with
  | returned value => exact ⟨_, _, s, .returned value s, hRefl s⟩
  | threw error => exact ⟨_, _, s, .threw error s, hRefl s⟩
  | await op resume ih =>
      rcases hCan op hOnly.1 s with
        ⟨choice, answer, next, hExec, hKeeps⟩
      rcases ih answer (hOnly.2 answer) next with
        ⟨steps, outcome, t, hSolo, hRest⟩
      exact ⟨_, outcome, t, .await hExec hSolo,
        hTrans s next t hKeeps hRest⟩

------------------------------------------------------------
-- What Holds When A Solo Run Ends
------------------------------------------------------------

variable {Element : Type}

/- However a solo run ends, it ends with this. -/
def Ends
    (exec : (op : Op) → Choice → State → Option (Ret op × State))
    (body : Async Op Ret Error Value)
    (s : State)
    (post :
      List (Taken Op Ret State Choice) →
        Except Error Value → State → Prop) : Prop :=
  ∀ steps outcome t,
    Solo exec body s steps outcome t → post steps outcome t

variable
  {post weaker :
    List (Taken Op Ret State Choice) →
      Except Error Value → State → Prop}
variable {value : Value} {error : Error} {op : Op}
variable {next : Value → Async Op Ret Error Other}
variable {handler : Error → Async Op Ret Error Value}

theorem ends_mono
    (hEnds : Ends exec body s post)
    (hWeaker :
      ∀ steps outcome t,
        post steps outcome t → weaker steps outcome t) :
    Ends exec body s weaker := by
  intro steps outcome t hSolo
  exact hWeaker _ _ _ (hEnds steps outcome t hSolo)

theorem ends_and
    (hEnds : Ends exec body s post)
    (hAlso : Ends exec body s weaker) :
    Ends exec body s fun steps outcome t =>
      post steps outcome t ∧ weaker steps outcome t := by
  intro steps outcome t hSolo
  exact
    ⟨hEnds steps outcome t hSolo, hAlso steps outcome t hSolo⟩

theorem ends_any
    (body : Async Op Ret Error Value)
    (s : State) :
    Ends exec body s fun _ _ _ => True :=
  fun _ _ _ _ => trivial

theorem ends_returned
    (hPost : post [] (.ok value) s) :
    Ends exec (.returned value) s post := by
  intro steps outcome t hSolo
  cases hSolo
  exact hPost

theorem ends_threw
    (hPost : post [] (.error error) s) :
    Ends exec (.threw error) s post := by
  intro steps outcome t hSolo
  cases hSolo
  exact hPost

theorem ends_await
    {resume : Ret op → Async Op Ret Error Value}
    (hRest :
      ∀ choice answer next,
        exec op choice s = some (answer, next) →
          Ends exec (resume answer) next
            fun steps =>
              post (⟨op, choice, s, answer, next⟩ :: steps)) :
    Ends exec (.await op resume) s post := by
  intro steps outcome t hSolo
  cases hSolo with
  | await hExec hMore =>
      exact hRest _ _ _ hExec _ _ _ hMore

/- The second part starts where the first has returned. -/
theorem ends_bind
    {first : Async Op Ret Error Value}
    {post :
      List (Taken Op Ret State Choice) →
        Except Error Other → State → Prop}
    (hFirst :
      Ends exec first s fun steps outcome u =>
        match outcome with
        | .ok value =>
            Ends exec (next value) u
              fun more => post (steps ++ more)
        | .error error => post steps (.error error) u) :
    Ends exec (first.bind next) s post := by
  induction first generalizing s post with
  | returned value =>
      exact hFirst _ _ _ (.returned value s)
  | threw error =>
      exact ends_threw (hFirst _ _ _ (.threw error s))
  | await op resume ih =>
      apply ends_await
      intro choice answer u hExec
      refine ih answer ?_
      intro steps outcome v hSolo
      exact hFirst _ _ _ (.await hExec hSolo)

/- The same, by what is known of the end of the first. -/
theorem ends_bind_of
    {first : Async Op Ret Error Value}
    {mid :
      List (Taken Op Ret State Choice) →
        Except Error Value → State → Prop}
    {post :
      List (Taken Op Ret State Choice) →
        Except Error Other → State → Prop}
    (hFirst : Ends exec first s mid)
    (hReturned :
      ∀ steps value u, mid steps (.ok value) u →
        Ends exec (next value) u
          fun more => post (steps ++ more))
    (hThrew :
      ∀ steps error u, mid steps (.error error) u →
        post steps (.error error) u) :
    Ends exec (first.bind next) s post := by
  refine ends_bind (ends_mono hFirst ?_)
  intro steps outcome u hMid
  cases outcome with
  | ok value => exact hReturned steps value u hMid
  | error error => exact hThrew steps error u hMid

/- The same, after a first part that ends in one way. -/
theorem ends_bind_ok
    {first : Async Op Ret Error Value}
    {u : State}
    {post : Except Error Other → State → Prop}
    (hFirst :
      Ends exec first s fun _ outcome t =>
        outcome = .ok value ∧ t = u)
    (hNext : Ends exec (next value) u fun _ => post) :
    Ends exec (first.bind next) s fun _ => post := by
  refine ends_bind_of hFirst ?_ ?_
  · rintro steps other t ⟨hValue, hSame⟩
    cases hValue
    subst hSame
    exact hNext
  · rintro _ _ _ ⟨hError, _⟩
    cases hError

/- The handler starts where the body has thrown. -/
theorem ends_catchError
    (hBody :
      Ends exec body s fun steps outcome u =>
        match outcome with
        | .ok value => post steps (.ok value) u
        | .error error =>
            Ends exec (handler error) u
              fun more => post (steps ++ more)) :
    Ends exec (body.catchError handler) s post := by
  induction body generalizing s post with
  | returned value =>
      exact ends_returned (hBody _ _ _ (.returned value s))
  | threw error =>
      exact hBody _ _ _ (.threw error s)
  | await op resume ih =>
      apply ends_await
      intro choice answer u hExec
      refine ih answer ?_
      intro steps outcome v hSolo
      exact hBody _ _ _ (.await hExec hSolo)

theorem ends_catchError_of
    {mid :
      List (Taken Op Ret State Choice) →
        Except Error Value → State → Prop}
    (hBody : Ends exec body s mid)
    (hReturned :
      ∀ steps value u, mid steps (.ok value) u →
        post steps (.ok value) u)
    (hThrew :
      ∀ steps error u, mid steps (.error error) u →
        Ends exec (handler error) u
          fun more => post (steps ++ more)) :
    Ends exec (body.catchError handler) s post := by
  refine ends_catchError (ends_mono hBody ?_)
  intro steps outcome u hMid
  cases outcome with
  | ok value => exact hReturned steps value u hMid
  | error error => exact hThrew steps error u hMid

theorem ends_call
    {post :
      List (Taken Op Ret State Choice) →
        Except Error (Ret op) → State → Prop}
    (hPost :
      ∀ choice answer next,
        exec op choice s = some (answer, next) →
          post [⟨op, choice, s, answer, next⟩] (.ok answer)
            next) :
    Ends exec (Async.call op) s post := by
  apply ends_await
  intro choice answer next hExec
  exact ends_returned (hPost choice answer next hExec)

theorem ends_ensure
    {condition : Bool}
    {post :
      List (Taken Op Ret State Choice) →
        Except Error Unit → State → Prop}
    (hHolds : condition = true → post [] (.ok ()) s)
    (hFails : condition = false → post [] (.error error) s) :
    Ends exec (Async.ensure condition error) s post := by
  unfold Async.ensure
  cases condition with
  | true => exact ends_returned (hHolds rfl)
  | false => exact ends_threw (hFails rfl)

/- A cleanup that does not throw keeps the outcome. -/
theorem ends_andFinally
    {cleanup : Async Op Ret Error Unit}
    (hBody :
      Ends exec body s fun steps outcome u =>
        Ends exec cleanup u fun more ended v =>
          match ended with
          | .ok _ => post (steps ++ more) outcome v
          | .error error =>
              post (steps ++ more) (.error error) v) :
    Ends exec (body.andFinally cleanup) s post := by
  unfold Async.andFinally
  apply ends_bind
  apply ends_catchError
  refine ends_mono hBody ?_
  intro steps outcome u hCleanup
  cases outcome with
  | ok value =>
      apply ends_bind
      refine ends_mono hCleanup ?_
      intro more ended v hPost
      cases ended with
      | ok _ =>
          apply ends_returned
          simpa using hPost
      | error error => exact hPost
  | error error =>
      apply ends_bind
      refine ends_mono hCleanup ?_
      intro more ended v hPost
      cases ended with
      | ok _ =>
          apply ends_threw
          simpa using hPost
      | error error => exact hPost

------------------------------------------------------------
-- What A Solo Run Returns
------------------------------------------------------------

/- Where a solo run returns a value, it does so with this. -/
def Returns
    (exec : (op : Op) → Choice → State → Option (Ret op × State))
    (body : Async Op Ret Error Value)
    (s : State)
    (post : Value → State → Prop) : Prop :=
  ∀ steps value t,
    Solo exec body s steps (.ok value) t → post value t

variable {post weaker : Value → State → Prop}
variable {value : Value} {op : Op}
variable {next : Value → Async Op Ret Error Other}
variable {handler : Error → Async Op Ret Error Value}

theorem returns_mono
    (hReturns : Returns exec body s post)
    (hWeaker : ∀ value t, post value t → weaker value t) :
    Returns exec body s weaker := by
  intro steps value t hSolo
  exact hWeaker value t (hReturns steps value t hSolo)

theorem returns_returned
    (hPost : post value s) :
    Returns exec
      (.returned value : Async Op Ret Error Value) s post := by
  intro steps other t hSolo
  cases hSolo
  exact hPost

theorem returns_threw
    (error : Error)
    (s : State)
    (post : Value → State → Prop) :
    Returns exec (.threw error) s post := by
  intro steps value t hSolo
  cases hSolo

theorem returns_await
    {resume : Ret op → Async Op Ret Error Value}
    (hRest :
      ∀ choice answer next,
        exec op choice s = some (answer, next) →
          Returns exec (resume answer) next post) :
    Returns exec (.await op resume) s post := by
  intro steps value t hSolo
  cases hSolo with
  | await hExec hMore =>
      exact hRest _ _ _ hExec _ _ _ hMore

/- A run that returns has two parts that do. -/
theorem Solo.of_bind
    {first : Async Op Ret Error Value}
    {value : Other}
    (hSolo :
      Solo exec (first.bind next) s steps (.ok value) t) :
    ∃ more rest middle u,
      steps = more ++ rest ∧
        Solo exec first s more (.ok middle) u ∧
        Solo exec (next middle) u rest (.ok value) t := by
  induction first generalizing s steps with
  | returned middle =>
      exact ⟨[], steps, middle, s, rfl, .returned middle s,
        hSolo⟩
  | threw error => cases hSolo
  | await op resume ih =>
      cases hSolo with
      | await hExec hRest =>
          rcases ih _ hRest with
            ⟨more, rest, middle, u, hSteps, hFirst, hNext⟩
          refine ⟨_ :: more, rest, middle, u, ?_,
            .await hExec hFirst, hNext⟩
          rw [hSteps]
          rfl

/- A run that returns has not thrown, or a handler has. -/
theorem Solo.of_catchError
    (hSolo :
      Solo exec (body.catchError handler) s steps (.ok value)
        t) :
    Solo exec body s steps (.ok value) t ∨
      ∃ error u rest,
        Solo exec (handler error) u rest (.ok value) t := by
  induction body generalizing s steps with
  | returned value => exact Or.inl hSolo
  | threw error => exact Or.inr ⟨error, s, steps, hSolo⟩
  | await op resume ih =>
      cases hSolo with
      | await hExec hRest =>
          rcases ih _ hRest with hBody | hHandler
          · exact Or.inl (.await hExec hBody)
          · exact Or.inr hHandler

theorem returns_bind
    {first : Async Op Ret Error Value}
    {post : Other → State → Prop}
    (hFirst :
      Returns exec first s fun value u =>
        Returns exec (next value) u post) :
    Returns exec (first.bind next) s post := by
  intro steps value t hSolo
  rcases hSolo.of_bind with
    ⟨more, rest, middle, u, _, hBefore, hAfter⟩
  exact hFirst _ _ _ hBefore _ _ _ hAfter

theorem returns_call
    {post : Ret op → State → Prop}
    (hPost :
      ∀ choice answer next,
        exec op choice s = some (answer, next) →
          post answer next) :
    Returns exec
      (Async.call op : Async Op Ret Error (Ret op)) s
      post := by
  apply returns_await
  intro choice answer next hExec
  exact returns_returned (hPost choice answer next hExec)

theorem returns_ensure
    {condition : Bool}
    {error : Error}
    {post : Unit → State → Prop}
    (hHolds : condition = true → post () s) :
    Returns exec (Async.ensure condition error) s post := by
  unfold Async.ensure
  cases condition with
  | true => exact returns_returned (hHolds rfl)
  | false => exact returns_threw error s post

/- An error that is caught is one of an ended run. -/
theorem returns_catchError
    (hBody : Returns exec body s post)
    (hThrew :
      Ends exec body s fun _ outcome u =>
        ∀ error, outcome = .error error →
          Returns exec (handler error) u post) :
    Returns exec (body.catchError handler) s post := by
  induction body generalizing s with
  | returned value => exact hBody
  | threw error =>
      exact hThrew _ _ _ (.threw error s) error rfl
  | await op resume ih =>
      apply returns_await
      intro choice answer next hExec
      apply ih
      · intro steps value t hSolo
        exact hBody _ _ _ (.await hExec hSolo)
      · intro steps outcome t hSolo
        exact hThrew _ _ _ (.await hExec hSolo)

theorem returns_andFinally
    {cleanup : Async Op Ret Error Unit}
    (hBody :
      Returns exec body s fun value u =>
        Returns exec cleanup u fun _ v => post value v) :
    Returns exec (body.andFinally cleanup) s post := by
  unfold Async.andFinally
  apply returns_bind
  apply returns_catchError
  · intro steps value u hSolo
    apply returns_bind
    refine returns_mono (hBody steps value u hSolo) ?_
    intro _ v hPost
    exact returns_returned hPost
  · intro steps outcome u _ error _
    apply returns_bind
    intro _ _ v _
    exact returns_threw error v _

/- An invariant of the body is one of the loop. -/
theorem returns_forEach
    {body : Element → Async Op Ret Error Unit}
    (invariant : List Element → State → Prop)
    {elements : List Element}
    (hStart : invariant [] s)
    (hStep :
      ∀ done element u,
        element ∈ elements →
          invariant done u →
            Returns exec (body element) u fun _ v =>
              invariant (done ++ [element]) v) :
    Returns exec (Async.forEach body elements) s fun _ t =>
      invariant elements t := by
  have hLoop :
      ∀ rest done u,
        done ++ rest = elements →
          invariant done u →
            Returns exec (Async.forEach body rest) u
              fun _ t => invariant elements t := by
    intro rest
    induction rest with
    | nil =>
        intro done u hDone hInvariant
        rw [List.append_nil] at hDone
        subst hDone
        exact returns_returned hInvariant
    | cons element rest ih =>
        intro done u hDone hInvariant
        have hMember : element ∈ elements := by
          rw [← hDone]
          exact List.mem_append_right _ List.mem_cons_self
        apply returns_bind
        refine
          returns_mono
            (hStep done element u hMember hInvariant) ?_
        intro _ v hNext
        apply ih (done ++ [element]) v _ hNext
        rw [← hDone, List.append_assoc]
        rfl
  exact hLoop elements [] s rfl hStart

------------------------------------------------------------
-- Runs With One Choice
------------------------------------------------------------

/-
  Run a computation with the same choice at each operation.
  With one that lets nothing fail, this is how the
  computation goes when all is well.
-/
def runWith
    (exec : (op : Op) → Choice → State → Option (Ret op × State))
    (choice : Choice) :
    Async Op Ret Error Value → State →
      Option (Except Error Value × State)
  | .returned value, s => some (.ok value, s)
  | .threw error, s => some (.error error, s)
  | .await op resume, s =>
      match exec op choice s with
      | none => none
      | some (answer, next) =>
          runWith exec choice (resume answer) next

variable
  {exec : (op : Op) → Choice → State → Option (Ret op × State)}
variable {choice : Choice} {s : State}

@[simp] theorem runWith_returned (value : Value) :
    runWith exec choice
        (.returned value : Async Op Ret Error Value) s =
      some (.ok value, s) := rfl

@[simp] theorem runWith_threw (error : Error) :
    runWith exec choice
        (.threw error : Async Op Ret Error Value) s =
      some (.error error, s) := rfl

theorem runWith_await
    {op : Op}
    {resume : Ret op → Async Op Ret Error Value}
    {answer : Ret op}
    {next : State}
    (hExec : exec op choice s = some (answer, next)) :
    runWith exec choice (.await op resume) s =
      runWith exec choice (resume answer) next := by
  simp only [runWith, hExec]

theorem runWith_bind
    (first : Async Op Ret Error Value)
    (next : Value → Async Op Ret Error Other) :
    runWith exec choice (first.bind next) s =
      match runWith exec choice first s with
      | none => none
      | some (.ok value, u) => runWith exec choice (next value) u
      | some (.error error, u) => some (.error error, u) := by
  induction first generalizing s with
  | returned value => rfl
  | threw error => rfl
  | await op resume ih =>
      rw [Async.bind_await]
      simp only [runWith]
      cases hExec : exec op choice s with
      | none => rfl
      | some result => exact ih result.1

theorem runWith_catchError
    (body : Async Op Ret Error Value)
    (handler : Error → Async Op Ret Error Value) :
    runWith exec choice (body.catchError handler) s =
      match runWith exec choice body s with
      | none => none
      | some (.ok value, u) => some (.ok value, u)
      | some (.error error, u) =>
          runWith exec choice (handler error) u := by
  induction body generalizing s with
  | returned value => rfl
  | threw error => rfl
  | await op resume ih =>
      rw [Async.catchError_await]
      simp only [runWith]
      cases hExec : exec op choice s with
      | none => rfl
      | some result => exact ih result.1

/- The second part goes on from where the first returned. -/
theorem runWith_bind_ok
    {first : Async Op Ret Error Value}
    {next : Value → Async Op Ret Error Other}
    {value : Value}
    {u : State}
    (hFirst :
      runWith exec choice first s = some (.ok value, u)) :
    runWith exec choice (first.bind next) s =
      runWith exec choice (next value) u := by
  rw [runWith_bind, hFirst]

/- A run that no operation blocks comes to its end. -/
theorem runWith_isSome
    (hEnabled : ∀ op u, (exec op choice u).isSome) :
    (runWith exec choice body s).isSome := by
  induction body generalizing s with
  | returned value => rfl
  | threw error => rfl
  | await op resume ih =>
      have hSome := hEnabled op s
      cases hExec : exec op choice s with
      | none =>
          rw [hExec] at hSome
          cases hSome
      | some result =>
          rw [runWith_await hExec]
          exact ih result.1

/- So it has a run in which every choice is the same, from a
   state in which that choice goes and goes on. -/
theorem exists_solo_within
    (good : State → Prop)
    (hEnabled :
      ∀ op u, good u →
        ∃ answer v, exec op choice u = some (answer, v) ∧ good v)
    (body : Async Op Ret Error Value)
    (hGood : good s) :
    ∃ steps outcome t,
      Solo exec body s steps outcome t ∧
        ∀ step ∈ steps, step.choice = choice := by
  induction body generalizing s with
  | returned value =>
      refine ⟨[], .ok value, s, .returned value s, ?_⟩
      intro step hMember
      cases hMember
  | threw error =>
      refine ⟨[], .error error, s, .threw error s, ?_⟩
      intro step hMember
      cases hMember
  | await op resume ih =>
      rcases hEnabled op s hGood with
        ⟨answer, next, hExec, hNext⟩
      rcases ih answer hNext with
        ⟨steps, outcome, t, hSolo, hChoices⟩
      refine ⟨_, outcome, t, .await hExec hSolo, ?_⟩
      intro step hMember
      rcases List.mem_cons.mp hMember with hFirst | hRest
      · rw [hFirst]
      · exact hChoices step hRest

theorem exists_solo_of_choice
    (hEnabled : ∀ op u, (exec op choice u).isSome)
    (body : Async Op Ret Error Value)
    (s : State) :
    ∃ steps outcome t,
      Solo exec body s steps outcome t ∧
        ∀ step ∈ steps, step.choice = choice := by
  refine exists_solo_within (fun _ => True) ?_ body trivial
  intro op u _
  rcases Option.isSome_iff_exists.mp (hEnabled op u) with
    ⟨⟨answer, next⟩, hExec⟩
  exact ⟨answer, next, hExec, trivial⟩

end Concurrency
