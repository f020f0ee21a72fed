import Mathlib.Init

/-
  Asynchronous computations over a set of atomic operations.

  A computation either has ended, with a value or with an
  error, or awaits the answer of one atomic operation and
  resumes with it.  Everything between two awaits is pure,
  so it belongs to the step that delivers the answer.

  Key definitions include:
    * `Async`
    * `Async.bind`
    * `Async.catchError`
    * `Async.call`
    * `Async.andFinally`
    * `Async.ensure`
    * `Async.forEach`
    * `Async.Only`
    * `Async.Throws`

  The computation laws `bind_returned`, `bind_threw` and
  `bind_await` and their `catchError` counterparts are
  definitional, and are the only way the rest of the library
  looks inside a computation.
-/

------------------------------------------------------------
-- Computations
------------------------------------------------------------

namespace Concurrency

/-
  A computation over operations `Op` with answers `Ret`,
  failing with `Error` or returning `Value`.
-/
inductive Async
    (Op : Type)
    (Ret : Op → Type)
    (Error Value : Type) where
  | returned (value : Value)
  | threw (error : Error)
  | await
      (op : Op)
      (resume : Ret op → Async Op Ret Error Value)

namespace Async

variable {Op : Type} {Ret : Op → Type}
variable {Error Value Other : Type}

/- Continue after a normal return. -/
def bind :
    Async Op Ret Error Value →
      (Value → Async Op Ret Error Other) →
      Async Op Ret Error Other
  | .returned value, next => next value
  | .threw error, _ => .threw error
  | .await op resume, next =>
      .await op fun answer => (resume answer).bind next

/- Continue after an error: the `catch` of the language. -/
def catchError :
    Async Op Ret Error Value →
      (Error → Async Op Ret Error Value) →
      Async Op Ret Error Value
  | .returned value, _ => .returned value
  | .threw error, handler => handler error
  | .await op resume, handler =>
      .await op fun answer =>
        (resume answer).catchError handler

instance : Monad (Async Op Ret Error) where
  pure := returned
  bind := bind

instance : MonadExceptOf Error (Async Op Ret Error) where
  throw := threw
  tryCatch := catchError

/- Await one operation and return its answer. -/
def call (op : Op) : Async Op Ret Error (Ret op) :=
  .await op .returned

/- Run `cleanup` after `body`, whether it fails or not. -/
def andFinally
    (body : Async Op Ret Error Value)
    (cleanup : Async Op Ret Error Unit) :
    Async Op Ret Error Value :=
  (body.catchError fun error =>
      cleanup.bind fun _ => .threw error).bind
    fun value => cleanup.bind fun _ => .returned value

/- Continue with a value or throw, as an answer says. -/
def ofExcept :
    Except Error Value → Async Op Ret Error Value
  | .ok value => .returned value
  | .error error => .threw error

/- Throw `error` unless `condition` holds. -/
def ensure
    (condition : Bool)
    (error : Error) :
    Async Op Ret Error Unit :=
  if condition then .returned () else .threw error

/- Run `body` on each element of a list, in order. -/
def forEach
    {Element : Type}
    (body : Element → Async Op Ret Error Unit) :
    List Element → Async Op Ret Error Unit
  | [] => .returned ()
  | element :: rest =>
      (body element).bind fun _ => forEach body rest

/- The computation has ended, with a value or an error. -/
def outcome? :
    Async Op Ret Error Value → Option (Except Error Value)
  | .returned value => some (.ok value)
  | .threw error => some (.error error)
  | .await _ _ => none

variable {Op : Type} {Ret : Op → Type}
variable {Error Value Other : Type}

@[simp] theorem pure_eq_returned
    (value : Value) :
    (pure value : Async Op Ret Error Value) =
      .returned value := rfl

@[simp] theorem throw_eq_threw
    (error : Error) :
    (throw error : Async Op Ret Error Value) =
      .threw error := rfl

@[simp] theorem bind_eq
    (first : Async Op Ret Error Value)
    (next : Value → Async Op Ret Error Other) :
    (first >>= next) = first.bind next := rfl

@[simp] theorem tryCatch_eq
    (body : Async Op Ret Error Value)
    (handler : Error → Async Op Ret Error Value) :
    (tryCatch body handler) =
      body.catchError handler := rfl

@[simp] theorem bind_returned
    (value : Value)
    (next : Value → Async Op Ret Error Other) :
    (returned value : Async Op Ret Error Value).bind next =
      next value := rfl

@[simp] theorem bind_threw
    (error : Error)
    (next : Value → Async Op Ret Error Other) :
    (threw error : Async Op Ret Error Value).bind next =
      .threw error := rfl

@[simp] theorem bind_await
    (op : Op)
    (resume : Ret op → Async Op Ret Error Value)
    (next : Value → Async Op Ret Error Other) :
    (await op resume).bind next =
      .await op fun answer =>
        (resume answer).bind next := rfl

theorem bind_assoc
    {Last : Type}
    (first : Async Op Ret Error Value)
    (next : Value → Async Op Ret Error Other)
    (last : Other → Async Op Ret Error Last) :
    (first.bind next).bind last =
      first.bind fun value => (next value).bind last := by
  induction first with
  | returned value => rfl
  | threw error => rfl
  | await op resume ih =>
      simp only [bind_await, ih]

@[simp] theorem catchError_returned
    (value : Value)
    (handler : Error → Async Op Ret Error Value) :
    (returned value).catchError handler =
      .returned value := rfl

@[simp] theorem catchError_threw
    (error : Error)
    (handler : Error → Async Op Ret Error Value) :
    (threw error).catchError handler = handler error := rfl

@[simp] theorem catchError_await
    (op : Op)
    (resume : Ret op → Async Op Ret Error Value)
    (handler : Error → Async Op Ret Error Value) :
    (await op resume).catchError handler =
      .await op fun answer =>
        (resume answer).catchError handler := rfl

------------------------------------------------------------
-- Which Operations A Computation Performs
------------------------------------------------------------

variable {Element : Type}

/-
  Every operation that the computation may perform, whatever
  the answers, meets a condition.
-/
def Only
    (cond : Op → Prop) :
    Async Op Ret Error Value → Prop
  | .returned _ => True
  | .threw _ => True
  | .await op resume =>
      cond op ∧ ∀ answer, Only cond (resume answer)

variable {cond : Op → Prop}

@[simp] theorem only_returned
    (value : Value) :
    (returned value : Async Op Ret Error Value).Only cond :=
  trivial

@[simp] theorem only_threw
    (error : Error) :
    (threw error : Async Op Ret Error Value).Only cond :=
  trivial

@[simp] theorem only_await
    {op : Op}
    {resume : Ret op → Async Op Ret Error Value} :
    (await op resume).Only cond ↔
      cond op ∧ ∀ answer, (resume answer).Only cond :=
  Iff.rfl

@[simp] theorem only_call {op : Op} :
    (call op : Async Op Ret Error (Ret op)).Only cond ↔
      cond op := by
  simp [call]

@[simp] theorem only_ensure
    {condition : Bool}
    {error : Error} :
    (ensure condition error :
      Async Op Ret Error Unit).Only cond := by
  unfold ensure
  cases condition
  · exact only_threw error
  · exact only_returned ()

@[simp] theorem only_ofExcept
    {result : Except Error Value} :
    (ofExcept result :
      Async Op Ret Error Value).Only cond := by
  cases result
  · exact only_threw _
  · exact only_returned _

theorem only_mono
    {cond' : Op → Prop}
    {computation : Async Op Ret Error Value}
    (hCond : ∀ op, cond op → cond' op)
    (hOnly : computation.Only cond) :
    computation.Only cond' := by
  induction computation with
  | returned value => exact only_returned value
  | threw error => exact only_threw error
  | await op resume ih =>
      exact ⟨hCond op hOnly.1, fun answer =>
        ih answer (hOnly.2 answer)⟩

theorem only_bind
    {first : Async Op Ret Error Value}
    {next : Value → Async Op Ret Error Other}
    (hFirst : first.Only cond)
    (hNext : ∀ value, (next value).Only cond) :
    (first.bind next).Only cond := by
  induction first with
  | returned value => exact hNext value
  | threw error => exact only_threw error
  | await op resume ih =>
      exact ⟨hFirst.1, fun answer =>
        ih answer (hFirst.2 answer)⟩

theorem only_catchError
    {body : Async Op Ret Error Value}
    {handler : Error → Async Op Ret Error Value}
    (hBody : body.Only cond)
    (hHandler : ∀ error, (handler error).Only cond) :
    (body.catchError handler).Only cond := by
  induction body with
  | returned value => exact only_returned value
  | threw error => exact hHandler error
  | await op resume ih =>
      exact ⟨hBody.1, fun answer =>
        ih answer (hBody.2 answer)⟩

theorem only_forEach
    {body : Element → Async Op Ret Error Unit}
    {elements : List Element}
    (hBody : ∀ element ∈ elements, (body element).Only cond) :
    (forEach body elements).Only cond := by
  induction elements with
  | nil => exact only_returned ()
  | cons element rest ih =>
      apply only_bind (hBody element List.mem_cons_self)
      intro _
      apply ih
      intro other hOther
      exact hBody other (List.mem_cons_of_mem _ hOther)

/-
  Every error that the computation may throw, whatever the
  answers, meets a condition.
-/
def Throws
    (cond : Error → Prop) :
    Async Op Ret Error Value → Prop
  | .returned _ => True
  | .threw error => cond error
  | .await _ resume => ∀ answer, Throws cond (resume answer)

variable {cond : Error → Prop}

theorem throws_returned
    (value : Value) :
    (returned value : Async Op Ret Error Value).Throws cond :=
  trivial

theorem throws_call (op : Op) :
    (call op : Async Op Ret Error (Ret op)).Throws cond :=
  fun _ => trivial

theorem throws_ensure
    {condition : Bool}
    {error : Error}
    (hError : cond error) :
    (ensure condition error :
      Async Op Ret Error Unit).Throws cond := by
  unfold ensure
  cases condition
  · exact hError
  · exact trivial

theorem throws_bind
    {first : Async Op Ret Error Value}
    {next : Value → Async Op Ret Error Other}
    (hFirst : first.Throws cond)
    (hNext : ∀ value, (next value).Throws cond) :
    (first.bind next).Throws cond := by
  induction first with
  | returned value => exact hNext value
  | threw error => exact hFirst
  | await op resume ih =>
      intro answer
      exact ih answer (hFirst answer)

end Async

end Concurrency
