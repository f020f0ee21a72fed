import Deltix.Concurrency.Promises
import Mathlib.Logic.Function.Basic

/-
  The mutex of a repository: a chain of promises, one link
  a call, kept in a map from repository ids.

  A call awaits the link before it.  Its own link is a
  promise derived from that one which ends when the action
  of the call has, so every hop of the chain is a job of the
  language's queue, and calls and the ends of actions may
  come between any two jobs.

  Key definitions include:
    * `Mutex`
    * `Mutex.runExclusive`
    * `Mutex.runJob`
    * `Step`
    * `Reached`
    * `KeyedLock`
-/

------------------------------------------------------------
-- The Mutex
------------------------------------------------------------

namespace Versioning

namespace RepoBranchMutex

open Concurrency

/- What the calls register on promises, and queue. -/
inductive Reaction where
  | resume (call : Nat)
  | follow (derived current : Nat)
  | adopt (derived current : Nat)
  | fulfil (derived : Nat)
  | finish (call : Nat)
  deriving DecidableEq

/- How far a call has come. -/
inductive Phase (Error Value : Type) where
  | waiting
  | running
  | returning (outcome : Except Error Value)
  | done (outcome : Except Error Value)

/- A call: its argument and its local variables. -/
structure Call (Repo : Type) where
  repoId : Repo
  previous : Nat
  current : Nat

/- The promise derived from `previous` is made right after
   `current`. -/
def Call.derived {Repo : Type} (call : Call Repo) : Nat :=
  call.current + 1

/-
  The calls are numbered in the order they are made in.
  `acted` is how the action of a call ended, for the record.
-/
structure Mutex (Repo Error Value : Type) where
  heap : PromiseHeap Reaction Error
  tails : Repo → Option Nat
  calls : List (Call Repo)
  phase : Nat → Phase Error Value
  acted : Nat → Option (Except Error Value)

variable {Repo Error Value : Type}

namespace Mutex

def empty : Mutex Repo Error Value where
  heap := .empty
  tails := fun _ => none
  calls := []
  phase := fun _ => .waiting
  acted := fun _ => none

/- `this.tails.get(repoId) ?? Promise.resolve()` -/
def previousOf
    (s : Mutex Repo Error Value)
    (repoId : Repo) : Nat × PromiseHeap Reaction Error :=
  match s.tails repoId with
  | some tail => (tail, s.heap)
  | none => (s.heap.size, s.heap.alloc (.settled (.ok ())))

/- The promise of an action in progress settles. -/
def settleAction
    (s : Mutex Repo Error Value)
    (i : Nat)
    (outcome : Except Error Value) : Mutex Repo Error Value :=
  { s with
    heap := s.heap.enqueue ⟨.finish i, .ok ()⟩
    phase := Function.update s.phase i (.returning outcome)
    acted := Function.update s.acted i (some outcome) }

variable [DecidableEq Repo]

/- What a call does before it awaits `previous`. -/
def runExclusive
    (s : Mutex Repo Error Value)
    (repoId : Repo) : Mutex Repo Error Value :=
  let previous := (s.previousOf repoId).1
  let heap := (s.previousOf repoId).2
  let current := heap.size
  let derived := current + 1
  { s with
    heap :=
      (((heap.alloc (.pending [])).alloc (.pending [])).react
        previous (.follow derived current)).react
        previous (.resume s.calls.length)
    tails := Function.update s.tails repoId (some derived)
    calls := s.calls ++ [⟨repoId, previous, current⟩] }

/- The `finally` of a call, and its return. -/
def leave
    (s : Mutex Repo Error Value)
    (i : Nat)
    (call : Call Repo)
    (outcome : Except Error Value) : Mutex Repo Error Value :=
  { s with
    heap := s.heap.settle call.current (.ok ())
    tails :=
      if s.tails call.repoId = some call.current then
        Function.update s.tails call.repoId none
      else s.tails
    phase := Function.update s.phase i (.done outcome) }

/-
  Resume a call with the result of `previous`.  Its action
  may throw at once instead of returning a promise.
-/
def resume
    (s : Mutex Repo Error Value)
    (i : Nat)
    (throws : Option Error)
    (call : Call Repo) :
    Except Error Unit → Mutex Repo Error Value
  | .error error =>
      { s with
        phase := Function.update s.phase i (.done (.error error)) }
  | .ok () =>
      match throws with
      | none =>
          { s with phase := Function.update s.phase i .running }
      | some error =>
          leave
            { s with
              acted :=
                Function.update s.acted i (some (.error error)) }
            i call (.error error)

def runJob
    (s : Mutex Repo Error Value)
    (throws : Option Error) :
    Job Reaction Error → Mutex Repo Error Value
  | ⟨.resume i, result⟩ =>
      match s.calls[i]? with
      | some call => s.resume i throws call result
      | none => s
  | ⟨.follow derived current, .ok ()⟩ =>
      { s with
        heap := s.heap.enqueue ⟨.adopt derived current, .ok ()⟩ }
  | ⟨.follow derived _, .error error⟩ =>
      { s with heap := s.heap.settle derived (.error error) }
  | ⟨.adopt derived current, _⟩ =>
      { s with heap := s.heap.react current (.fulfil derived) }
  | ⟨.fulfil derived, result⟩ =>
      { s with heap := s.heap.settle derived result }
  | ⟨.finish i, _⟩ =>
      match s.calls[i]?, s.phase i with
      | some call, .returning outcome => s.leave i call outcome
      | _, _ => s

/- Run the job at the head of the queue. -/
def tick
    (s : Mutex Repo Error Value)
    (throws : Option Error) : Option (Mutex Repo Error Value) :=
  match s.heap.jobs with
  | [] => none
  | job :: rest =>
      some
        (runJob { s with heap := s.heap.withJobs rest } throws
          job)

end Mutex

variable [DecidableEq Repo]

/- A call, the end of an action, or a job. -/
inductive Step :
    Mutex Repo Error Value → Mutex Repo Error Value → Prop where
  | call (s : Mutex Repo Error Value) (repoId : Repo) :
      Step s (s.runExclusive repoId)
  | settle
      (s : Mutex Repo Error Value)
      (i : Nat)
      (outcome : Except Error Value)
      (running : s.phase i = .running) :
      Step s (s.settleAction i outcome)
  | tick
      (s t : Mutex Repo Error Value)
      (throws : Option Error)
      (ran : s.tick throws = some t) :
      Step s t

/- What calls, actions and jobs make of a new mutex. -/
inductive Reached : Mutex Repo Error Value → Prop where
  | start : Reached .empty
  | step
      {s t : Mutex Repo Error Value}
      (reached : Reached s)
      (moved : Step s t) :
      Reached t

/- Run `n` jobs.  An action that the `k`th of them starts
   throws `throws k`. -/
def drain :
    (throws : Nat → Option Error) → Nat →
      Mutex Repo Error Value → Option (Mutex Repo Error Value)
  | _, 0, s => some s
  | throws, n + 1, s =>
      match s.tick (throws 0) with
      | none => none
      | some next => drain (fun k => throws (k + 1)) n next

variable {Repo Error Value : Type}

namespace Mutex

/- Two calls are on the same repository. -/
def SameRepo
    (s : Mutex Repo Error Value)
    (i j : Nat) : Prop :=
  ∃ first second : Call Repo,
    s.calls[i]? = some first ∧ s.calls[j]? = some second ∧
      first.repoId = second.repoId

variable [DecidableEq Repo]

/-
  No call has to be made and no action has to end: the jobs
  that are queued let the call in.
-/
def Enabled (s : Mutex Repo Error Value) (i : Nat) : Prop :=
  ∀ throws : Nat → Option Error,
    ∃ n, ∃ t : Mutex Repo Error Value,
      drain throws n s = some t ∧ t.phase i ≠ .waiting

end Mutex

variable [DecidableEq Repo]

/-
  Actions of one repository run one at a time, in the order
  of their calls.  Each call ends as its own action did.
  Where no action of a repository runs, its next call is
  enabled, whatever other repositories do.
-/
structure KeyedLock (s : Mutex Repo Error Value) : Prop where
  exclusive :
    ∀ i j, s.SameRepo i j →
      s.phase i = .running → s.phase j = .running → i = j
  inOrder :
    ∀ i j, s.SameRepo i j → i < j →
      s.phase j ≠ .waiting →
        ∃ outcome, s.phase i = .done outcome
  ownOutcome :
    ∀ i outcome,
      (s.phase i = .done outcome →
          s.acted i = some outcome) ∧
        (s.acted i = some outcome →
          s.phase i = .returning outcome ∨
            s.phase i = .done outcome)
  nextEnabled :
    ∀ i, s.SameRepo i i → s.phase i = .waiting →
      (∀ j, s.SameRepo i j →
        s.phase j ≠ .running ∧
          (s.phase j = .waiting → i ≤ j)) →
      s.Enabled i

end RepoBranchMutex

end Versioning
