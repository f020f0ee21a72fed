import Deltix.Text.Json
import Mathlib.Data.List.Induction
import Mathlib.Data.List.Infix
import Mathlib.Logic.Function.Basic

/-
  The breaker around the routes of addons: which requests
  reach a handler while others of the addon are still running.

  Key definitions include:
    * `AddonCircuitBreaker`
    * `AddonCircuitBreaker.enter`
    * `AddonCircuitBreaker.settle`
    * `run`
    * `Guards`

  Key theorems include:
    * `disabled_iff`
    * `agrees_run`
    * `guards_run`
-/

namespace Addons

/- The number of failures after the last success. -/
def streak (failures : List Bool) : Nat :=
  (failures.reverse.takeWhile id).length

/- The last so many all failed. -/
def LastFailed
    (number : Nat)
    (failures : List Bool) : Prop :=
  ∃ before, failures = before ++ List.replicate number true

theorem streak_failed
    (failures : List Bool) :
    streak (failures ++ [true]) = streak failures + 1 := by
  simp [streak]

theorem streak_succeeded
    (failures : List Bool) :
    streak (failures ++ [false]) = 0 := by
  simp [streak]

theorem lastFailed_succ_iff
    {number : Nat}
    (failures : List Bool)
    (failed : Bool) :
    LastFailed (number + 1) (failures ++ [failed]) ↔
      failed = true ∧ LastFailed number failures := by
  unfold LastFailed
  constructor
  · rintro ⟨before, hLast⟩
    rw [List.replicate_succ', ← List.append_assoc] at hLast
    have hParts := List.append_inj' hLast rfl
    exact ⟨List.singleton_inj.mp hParts.2, before, hParts.1⟩
  · rintro ⟨hFailed, before, hLast⟩
    refine ⟨before, ?_⟩
    rw [hFailed, hLast, List.replicate_succ',
      List.append_assoc]

theorem lastFailed_iff
    (number : Nat)
    (failures : List Bool) :
    LastFailed number failures ↔ number ≤ streak failures := by
  induction failures using List.reverseRecOn
    generalizing number with
  | nil =>
      have hNone : streak [] = 0 := rfl
      rw [hNone]
      constructor
      · rintro ⟨before, hLast⟩
        have hLength := congrArg List.length hLast
        simp only [List.length_nil, List.length_append,
          List.length_replicate] at hLength
        omega
      · intro hNumber
        refine ⟨[], ?_⟩
        rw [Nat.le_zero.mp hNumber]
        rfl
  | append_singleton before failed ih =>
      cases number with
      | zero =>
          constructor
          · intro hLast
            exact Nat.zero_le _
          · intro hNumber
            exact ⟨before ++ [failed], by simp⟩
      | succ number =>
          rw [lastFailed_succ_iff, ih]
          cases failed with
          | true =>
              rw [streak_failed]
              simp
          | false =>
              rw [streak_succeeded]
              simp

open Text

structure Response where
  body : JsString
  status : Nat
  deriving DecidableEq, Repr

structure AddonCircuitBreakerOptions (Thrown : Type) where
  maxConsecutiveFailures : Nat
  onDisabled : Option (JsString → Except Thrown Unit)

/- The failures in a row of each addon, and which addons are
   disabled. -/
structure AddonCircuitBreaker (Thrown : Type) where
  options : AddonCircuitBreakerOptions Thrown
  failureCounts : JsString → Option Nat
  disabled : JsString → Bool

/- What a request has come to. -/
inductive CallPhase (Thrown : Type) where
  | refused (response : Response)
  | running
  | settled (reply : Except Thrown Response)
  deriving DecidableEq

variable {Thrown : Type}

namespace AddonCircuitBreaker

/- `new AddonCircuitBreaker(options)` -/
def new
    (options : AddonCircuitBreakerOptions Thrown) :
    AddonCircuitBreaker Thrown where
  options := options
  failureCounts := fun _ => none
  disabled := fun _ => false

def isDisabled
    (breaker : AddonCircuitBreaker Thrown)
    (addonName : JsString) : Bool :=
  breaker.disabled addonName

def recordFailure
    (breaker : AddonCircuitBreaker Thrown)
    (addonName : JsString) :
    Except Thrown Unit × AddonCircuitBreaker Thrown :=
  let count := (breaker.failureCounts addonName).getD 0 + 1
  let counted :=
    { breaker with
      failureCounts :=
        Function.update breaker.failureCounts addonName
          (some count) }
  if breaker.options.maxConsecutiveFailures ≤ count then
    let opened :=
      { counted with
        disabled :=
          Function.update counted.disabled addonName true }
    match breaker.options.onDisabled with
    | none => (.ok (), opened)
    | some onDisabled => (onDisabled addonName, opened)
  else (.ok (), counted)

/- The wrapped handler up to the call of the handler. -/
def enter
    (breaker : AddonCircuitBreaker Thrown)
    (addonName : JsString) : CallPhase Thrown :=
  if breaker.disabled addonName then
    .refused
      { body := js "Addon disabled after repeated failures"
        status := 503 }
  else .running

/- The wrapped handler from the end of the handler. -/
def settle
    (breaker : AddonCircuitBreaker Thrown)
    (addonName : JsString) :
    Except Thrown Response →
      CallPhase Thrown × AddonCircuitBreaker Thrown
  | .ok response =>
      (.settled (.ok response),
        { breaker with
          failureCounts :=
            Function.update breaker.failureCounts addonName
              (some 0) })
  | .error _ =>
      match breaker.recordFailure addonName with
      | (.error thrown, recorded) =>
          (.settled (.error thrown), recorded)
      | (.ok (), recorded) =>
          (.settled
              (.ok
                { body := js "Addon route handler failed"
                  status := 500 }),
            recorded)

end AddonCircuitBreaker

end Addons

------------------------------------------------------------
-- Requests
------------------------------------------------------------

namespace Addons

open Text

/- A request of one of the handlers of an addon. -/
structure Request where
  addonName : JsString
  handler : Nat
  number : Nat
  deriving DecidableEq, Repr

/- A request comes in, or the handler that it called
   resolves or rejects. -/
inductive Event (Thrown : Type) where
  | start (request : Request)
  | complete
      (request : Request)
      (result : Except Thrown Response)

variable {Thrown : Type}

def Event.request : Event Thrown → Request
  | .start request => request
  | .complete request _ => request

structure Served (Thrown : Type) where
  breaker : AddonCircuitBreaker Thrown
  calls : Request → Option (CallPhase Thrown)

def Served.new
    (options : AddonCircuitBreakerOptions Thrown) :
    Served Thrown where
  breaker := .new options
  calls := fun _ => none

/- A handler completes once, after it was called. -/
def Served.step
    (served : Served Thrown) :
    Event Thrown → Option (Served Thrown)
  | .start request =>
      match served.calls request with
      | some _ => none
      | none =>
          some
            { served with
              calls :=
                Function.update served.calls request
                  (some
                    (served.breaker.enter
                      request.addonName)) }
  | .complete request result =>
      match served.calls request with
      | some .running =>
          let settled :=
            served.breaker.settle request.addonName result
          some
            { breaker := settled.2
              calls :=
                Function.update served.calls request
                  (some settled.1) }
      | _ => none

/- The events of a run, each of them possible. -/
def run
    (options : AddonCircuitBreakerOptions Thrown)
    (events : List (Event Thrown)) :
    Option (Served Thrown) :=
  events.foldlM Served.step (Served.new options)

/- Whether a handler rejected. -/
def failed : Except Thrown Response → Bool
  | .ok _ => false
  | .error _ => true

/- Which of the calls of an addon that completed failed. -/
def outcomes
    (addonName : JsString)
    (events : List (Event Thrown)) : List Bool :=
  events.filterMap fun
    | .start _ => none
    | .complete request result =>
        if request.addonName = addonName then
          some (failed result)
        else none

/- What the breaker does to the requests of one addon, and
   what has become of them. -/
structure Agrees
    (addonName : JsString)
    (served other : Served Thrown) : Prop where
  options : other.breaker.options = served.breaker.options
  failureCounts :
    other.breaker.failureCounts addonName =
      served.breaker.failureCounts addonName
  disabled :
    other.breaker.isDisabled addonName =
      served.breaker.isDisabled addonName
  calls
      (request : Request) :
    request.addonName = addonName →
    other.calls request = served.calls request

/- What the breaker promises of a run. -/
structure Guards
    (options : AddonCircuitBreakerOptions Thrown)
    (events : List (Event Thrown))
    (served : Served Thrown) : Prop where
  disabled_iff
      (addonName : JsString) :
    served.breaker.isDisabled addonName = true ↔
      ∃ earlier,
        earlier <+: events ∧
          LastFailed options.maxConsecutiveFailures
            (outcomes addonName earlier)
  stays
      (earlier : List (Event Thrown))
      (past : Served Thrown)
      (addonName : JsString) :
    earlier <+: events →
    run options earlier = some past →
    past.breaker.isDisabled addonName = true →
    served.breaker.isDisabled addonName = true
  refused
      (earlier : List (Event Thrown))
      (past : Served Thrown)
      (request : Request)
      (phase : CallPhase Thrown) :
    earlier <+: events →
    run options earlier = some past →
    past.breaker.isDisabled request.addonName = true →
    past.calls request = none →
    served.calls request = some phase →
    ∃ response, phase = .refused response
  alone
      (addonName : JsString) :
    ∃ other,
      run options
          (events.filter fun event =>
            event.request.addonName = addonName) =
        some other ∧
      Agrees addonName served other
  answers
      (request : Request)
      (reply : Except Thrown Response) :
    served.calls request = some (.settled reply) →
    ∃ response, reply = .ok response

------------------------------------------------------------
-- Steps
------------------------------------------------------------

variable {options : AddonCircuitBreakerOptions Thrown}
variable {events : List (Event Thrown)} {event : Event Thrown}
variable {served next : Served Thrown} {request : Request}
variable {result : Except Thrown Response}

namespace AddonCircuitBreaker

variable {breaker : AddonCircuitBreaker Thrown}
variable {addonName : JsString}

/- The count of an addon after one more outcome. -/
def nextCount
    (breaker : AddonCircuitBreaker Thrown)
    (addonName : JsString)
    (result : Except Thrown Response) : Nat :=
  if failed result then
    (breaker.failureCounts addonName).getD 0 + 1
  else 0

/- What a failure leaves behind, whatever the callback does. -/
theorem recordFailure_snd :
    (breaker.recordFailure addonName).2 =
      { breaker with
        failureCounts :=
          Function.update breaker.failureCounts addonName
            (some ((breaker.failureCounts addonName).getD 0 + 1))
        disabled :=
          if breaker.options.maxConsecutiveFailures ≤
              (breaker.failureCounts addonName).getD 0 + 1 then
            Function.update breaker.disabled addonName true
          else breaker.disabled } := by
  unfold recordFailure
  dsimp only
  split
  · cases breaker.options.onDisabled with
    | none => rfl
    | some onDisabled => rfl
  · rfl

theorem settle_snd :
    (breaker.settle addonName result).2 =
      { breaker with
        failureCounts :=
          Function.update breaker.failureCounts addonName
            (some (breaker.nextCount addonName result))
        disabled :=
          if failed result = true ∧
              breaker.options.maxConsecutiveFailures ≤
                breaker.nextCount addonName result then
            Function.update breaker.disabled addonName true
          else breaker.disabled } := by
  cases result with
  | ok response => simp [settle, failed, nextCount]
  | error thrown =>
      have hRecorded :
          (breaker.recordFailure addonName).2 = _ :=
        recordFailure_snd
      unfold settle
      generalize
        breaker.recordFailure addonName = recorded at hRecorded ⊢
      rcases recorded with ⟨notified, after⟩
      dsimp only at hRecorded
      subst hRecorded
      cases notified with
      | error thrown => simp [failed, nextCount]
      | ok done => simp [failed, nextCount]

/- The callback learns of every failure that is too many. -/
theorem recordFailure_fst :
    (breaker.recordFailure addonName).1 =
      if breaker.options.maxConsecutiveFailures ≤
          (breaker.failureCounts addonName).getD 0 + 1 then
        match breaker.options.onDisabled with
        | none => .ok ()
        | some onDisabled => onDisabled addonName
      else .ok () := by
  unfold recordFailure
  dsimp only
  split
  · cases breaker.options.onDisabled with
    | none => rfl
    | some onDisabled => rfl
  · rfl

theorem settle_fst_of_error
    (thrown : Thrown) :
    (breaker.settle addonName (.error thrown)).1 =
      .settled
        ((breaker.recordFailure addonName).1.map fun _ =>
          { body := js "Addon route handler failed"
            status := 500 }) := by
  unfold settle
  rcases breaker.recordFailure addonName with ⟨notified, after⟩
  cases notified with
  | error thrown => rfl
  | ok done => rfl

/- The reply of a failed handler is one of the breaker, unless
   the callback throws. -/
theorem settle_fst
    (hSilent :
      ∀ onDisabled ∈ breaker.options.onDisabled,
        ∀ addonName, onDisabled addonName = .ok ()) :
    ∃ response,
      (breaker.settle addonName result).1 =
        .settled (.ok response) := by
  cases result with
  | ok response => exact ⟨response, rfl⟩
  | error thrown =>
      have hNotified :
          (breaker.recordFailure addonName).1 = .ok () := by
        rw [recordFailure_fst]
        split
        · cases hCallback : breaker.options.onDisabled with
          | none => rfl
          | some onDisabled =>
              exact hSilent onDisabled hCallback addonName
        · rfl
      rw [settle_fst_of_error, hNotified]
      exact ⟨_, rfl⟩

end AddonCircuitBreaker

/- What an event does that is possible. -/
theorem step_start_iff :
    served.step (.start request) = some next ↔
      served.calls request = none ∧
        next =
          { served with
            calls :=
              Function.update served.calls request
                (some
                  (served.breaker.enter request.addonName)) } := by
  cases hCall : served.calls request with
  | none => simp [Served.step, hCall, eq_comm]
  | some phase => simp [Served.step, hCall]

theorem step_complete_iff :
    served.step (.complete request result) = some next ↔
      served.calls request = some .running ∧
        next =
          { breaker :=
              (served.breaker.settle request.addonName result).2
            calls :=
              Function.update served.calls request
                (some
                  (served.breaker.settle request.addonName
                    result).1) } := by
  cases hCall : served.calls request with
  | none => simp [Served.step, hCall]
  | some phase =>
      cases phase with
      | refused response => simp [Served.step, hCall]
      | running => simp [Served.step, hCall, eq_comm]
      | settled reply => simp [Served.step, hCall]

/- A run is a run and one more event. -/
theorem run_concat_iff :
    run options (events ++ [event]) = some next ↔
      ∃ served,
        run options events = some served ∧
          served.step event = some next := by
  unfold run
  rw [List.foldlM_append]
  simp [Option.bind_eq_some_iff]

theorem outcomes_concat
    (addonName : JsString) :
    outcomes addonName (events ++ [event]) =
      outcomes addonName events ++
        outcomes addonName [event] :=
  List.filterMap_append

------------------------------------------------------------
-- The Count Of An Addon
------------------------------------------------------------

/- The breaker counts the failures since the last success. -/
structure Counts
    (options : AddonCircuitBreakerOptions Thrown)
    (events : List (Event Thrown))
    (served : Served Thrown) : Prop where
  options : served.breaker.options = options
  counted
      (addonName : JsString) :
    (served.breaker.failureCounts addonName).getD 0 =
      streak (outcomes addonName events)

/- An addon is disabled by the outcome that makes them too
   many. -/
structure Disables
    (options : AddonCircuitBreakerOptions Thrown)
    (events : List (Event Thrown))
    (event : Event Thrown)
    (served next : Served Thrown) : Prop where
  counts : Counts options (events ++ [event]) next
  disabled
      (addonName : JsString) :
    next.breaker.isDisabled addonName = true ↔
      served.breaker.isDisabled addonName = true ∨
        (outcomes addonName [event] ≠ [] ∧
          options.maxConsecutiveFailures ≤
            streak (outcomes addonName (events ++ [event])))

theorem disables_step
    (hMax : 1 ≤ options.maxConsecutiveFailures)
    (hCounts : Counts options events served)
    (hStep : served.step event = some next) :
    Disables options events event served next := by
  cases event with
  | start request =>
      rw [step_start_iff] at hStep
      rcases hStep with ⟨hNew, hNext⟩
      subst hNext
      have hSame : ∀ addonName,
          outcomes addonName
              [(Event.start request : Event Thrown)] =
            [] :=
        fun addonName => rfl
      constructor
      · constructor
        · exact hCounts.options
        · intro addonName
          rw [outcomes_concat, hSame, List.append_nil]
          exact hCounts.counted addonName
      · intro addonName
        simp [hSame]
  | complete request result =>
      rw [step_complete_iff] at hStep
      rcases hStep with ⟨hRunning, hNext⟩
      subst hNext
      have hOwn :
          outcomes request.addonName
              [Event.complete request result] =
            [failed result] := by
        cases result with
        | ok response => simp [outcomes, failed]
        | error thrown => simp [outcomes, failed]
      have hOther : ∀ addonName, addonName ≠ request.addonName →
          outcomes addonName
              [Event.complete request result] =
            [] := by
        intro addonName hName
        simp [outcomes, Ne.symm hName]
      have hStreak :
          streak
              (outcomes request.addonName
                (events ++ [Event.complete request result])) =
            served.breaker.nextCount request.addonName
              result := by
        rw [outcomes_concat, hOwn]
        unfold AddonCircuitBreaker.nextCount
        rw [hCounts.counted]
        cases failed result with
        | true => exact streak_failed _
        | false => exact streak_succeeded _
      constructor
      · constructor
        · dsimp only
          rw [AddonCircuitBreaker.settle_snd]
          exact hCounts.options
        · intro addonName
          dsimp only
          rw [AddonCircuitBreaker.settle_snd]
          dsimp only
          by_cases hName : addonName = request.addonName
          · rw [hName, hStreak, Function.update_self]
            rfl
          · rw [outcomes_concat, hOther addonName hName,
              List.append_nil, Function.update_of_ne hName]
            exact hCounts.counted addonName
      · intro addonName
        unfold AddonCircuitBreaker.isDisabled
        dsimp only
        rw [AddonCircuitBreaker.settle_snd]
        dsimp only
        rw [hCounts.options]
        by_cases hName : addonName = request.addonName
        · rw [hName, hStreak, hOwn]
          by_cases hFailed : failed result = true
          · by_cases hMany :
                options.maxConsecutiveFailures ≤
                  served.breaker.nextCount request.addonName
                    result
            · simp [hFailed, hMany]
            · simp [hMany]
          · have hNone :
                served.breaker.nextCount request.addonName
                    result =
                  0 :=
              if_neg hFailed
            have hFew :
                ¬ options.maxConsecutiveFailures ≤ 0 := by
              omega
            simp [hFailed, hNone, hFew]
        · rw [hOther addonName hName]
          split
          · simp [Function.update_of_ne hName]
          · simp

theorem counts_run
    (hMax : 1 ≤ options.maxConsecutiveFailures)
    (hRun : run options events = some served) :
    Counts options events served := by
  induction events using List.reverseRecOn
    generalizing served with
  | nil =>
      cases hRun
      constructor
      · rfl
      · intro addonName
        rfl
  | append_singleton before event ih =>
      rcases run_concat_iff.mp hRun with ⟨past, hPast, hStep⟩
      exact (disables_step hMax (ih hPast) hStep).counts

/- By induction on the run: each event adds the point after
   it. -/
theorem disabled_iff
    (hMax : 1 ≤ options.maxConsecutiveFailures)
    (hRun : run options events = some served)
    (addonName : JsString) :
    served.breaker.isDisabled addonName = true ↔
      ∃ earlier,
        earlier <+: events ∧
          LastFailed options.maxConsecutiveFailures
            (outcomes addonName earlier) := by
  simp only [lastFailed_iff]
  induction events using List.reverseRecOn
    generalizing served with
  | nil =>
      cases hRun
      have hEnabled :
          (Served.new options).breaker.isDisabled addonName =
            false :=
        rfl
      rw [hEnabled]
      constructor
      · intro hDisabled
        cases hDisabled
      · rintro ⟨earlier, hPrefix, hMany⟩
        rw [List.prefix_nil.mp hPrefix] at hMany
        have hNone :
            streak
                (outcomes addonName
                  ([] : List (Event Thrown))) =
              0 :=
          rfl
        omega
  | append_singleton before event ih =>
      rcases run_concat_iff.mp hRun with ⟨past, hPast, hStep⟩
      have hDisables :=
        disables_step hMax (counts_run hMax hPast) hStep
      rw [hDisables.disabled addonName, ih hPast]
      constructor
      · rintro (⟨earlier, hPrefix, hMany⟩ | ⟨_, hMany⟩)
        · exact
            ⟨earlier, hPrefix.trans (List.prefix_append _ _),
              hMany⟩
        · exact ⟨before ++ [event], List.prefix_refl _, hMany⟩
      · rintro ⟨earlier, hPrefix, hMany⟩
        rcases List.prefix_concat_iff.mp hPrefix with
          hWhole | hBefore
        · subst hWhole
          by_cases hOutcome : outcomes addonName [event] = []
          · rw [outcomes_concat, hOutcome, List.append_nil]
              at hMany
            exact
              Or.inl ⟨before, List.prefix_refl _, hMany⟩
          · exact Or.inr ⟨hOutcome, hMany⟩
        · exact Or.inl ⟨earlier, hBefore, hMany⟩

------------------------------------------------------------
-- Addons Apart
------------------------------------------------------------

variable {other : Served Thrown} {addonName : JsString}

theorem Agrees.calls_update
    (hAgrees : Agrees addonName served other)
    {asked : Request}
    (phase : Option (CallPhase Thrown))
    (hAsked : asked.addonName = addonName) :
    Function.update other.calls request phase asked =
      Function.update served.calls request phase asked := by
  by_cases hRequest : asked = request
  · rw [hRequest, Function.update_self, Function.update_self]
  · rw [Function.update_of_ne hRequest,
      Function.update_of_ne hRequest]
    exact hAgrees.calls asked hAsked

/- A call starts alike, whatever the others have done. -/
theorem agrees_start
    (hAgrees : Agrees request.addonName served other)
    (hStep : served.step (.start request) = some next) :
    ∃ otherNext,
      other.step (.start request) = some otherNext ∧
        Agrees request.addonName next otherNext := by
  rw [step_start_iff] at hStep
  rcases hStep with ⟨hNew, hNext⟩
  subst hNext
  have hSame := hAgrees.calls request rfl
  have hPhase :
      other.breaker.enter request.addonName =
        served.breaker.enter request.addonName := by
    have hDisabled := hAgrees.disabled
    unfold AddonCircuitBreaker.isDisabled at hDisabled
    unfold AddonCircuitBreaker.enter
    rw [hDisabled]
  refine
    ⟨_, step_start_iff.mpr ⟨hSame.trans hNew, rfl⟩, ?_⟩
  constructor
  · exact hAgrees.options
  · exact hAgrees.failureCounts
  · exact hAgrees.disabled
  · intro asked hAsked
    dsimp only
    rw [hPhase]
    exact hAgrees.calls_update _ hAsked

/- And it completes alike. -/
theorem agrees_complete
    (hAgrees : Agrees request.addonName served other)
    (hStep :
      served.step (.complete request result) = some next) :
    ∃ otherNext,
      other.step (.complete request result) =
          some otherNext ∧
        Agrees request.addonName next otherNext := by
  rw [step_complete_iff] at hStep
  rcases hStep with ⟨hRunning, hNext⟩
  subst hNext
  have hSame := hAgrees.calls request rfl
  have hCount :
      other.breaker.nextCount request.addonName result =
        served.breaker.nextCount request.addonName
          result := by
    unfold AddonCircuitBreaker.nextCount
    rw [hAgrees.failureCounts]
  have hPhase :
      (other.breaker.settle request.addonName result).1 =
        (served.breaker.settle request.addonName
          result).1 := by
    cases result with
    | ok response => rfl
    | error thrown =>
        rw [AddonCircuitBreaker.settle_fst_of_error,
          AddonCircuitBreaker.settle_fst_of_error,
          AddonCircuitBreaker.recordFailure_fst,
          AddonCircuitBreaker.recordFailure_fst,
          hAgrees.failureCounts, hAgrees.options]
  have hDisabled := hAgrees.disabled
  unfold AddonCircuitBreaker.isDisabled at hDisabled
  refine
    ⟨_, step_complete_iff.mpr ⟨hSame.trans hRunning, rfl⟩,
      ?_⟩
  constructor
  · dsimp only
    rw [AddonCircuitBreaker.settle_snd,
      AddonCircuitBreaker.settle_snd]
    exact hAgrees.options
  · dsimp only
    rw [AddonCircuitBreaker.settle_snd,
      AddonCircuitBreaker.settle_snd]
    simp only [Function.update_self, hCount]
  · unfold AddonCircuitBreaker.isDisabled
    dsimp only
    rw [AddonCircuitBreaker.settle_snd,
      AddonCircuitBreaker.settle_snd]
    dsimp only
    rw [hCount, hAgrees.options]
    split
    · simp
    · exact hDisabled
  · intro asked hAsked
    dsimp only
    rw [hPhase]
    exact hAgrees.calls_update _ hAsked

/- An event of the addon does the same to it, whatever the
   others have done. -/
theorem agrees_step_own
    (hAgrees : Agrees addonName served other)
    (hOwn : event.request.addonName = addonName)
    (hStep : served.step event = some next) :
    ∃ otherNext,
      other.step event = some otherNext ∧
        Agrees addonName next otherNext := by
  cases event with
  | start request =>
      dsimp only [Event.request] at hOwn
      subst hOwn
      exact agrees_start hAgrees hStep
  | complete request result =>
      dsimp only [Event.request] at hOwn
      subst hOwn
      exact agrees_complete hAgrees hStep

/- An event of another addon does nothing to it. -/
theorem agrees_step_other
    (hAgrees : Agrees addonName served other)
    (hOther : event.request.addonName ≠ addonName)
    (hStep : served.step event = some next) :
    Agrees addonName next other := by
  cases event with
  | start request =>
      rw [step_start_iff] at hStep
      rcases hStep with ⟨hNew, hNext⟩
      subst hNext
      constructor
      · exact hAgrees.options
      · exact hAgrees.failureCounts
      · exact hAgrees.disabled
      · intro asked hAsked
        dsimp only
        rw [Function.update_of_ne]
        · exact hAgrees.calls asked hAsked
        · rintro rfl
          exact hOther hAsked
  | complete request result =>
      rw [step_complete_iff] at hStep
      rcases hStep with ⟨hRunning, hNext⟩
      subst hNext
      have hName : addonName ≠ request.addonName :=
        Ne.symm hOther
      constructor
      · dsimp only
        rw [AddonCircuitBreaker.settle_snd]
        exact hAgrees.options
      · dsimp only
        rw [AddonCircuitBreaker.settle_snd]
        dsimp only
        rw [Function.update_of_ne hName]
        exact hAgrees.failureCounts
      · rw [hAgrees.disabled]
        unfold AddonCircuitBreaker.isDisabled
        dsimp only
        rw [AddonCircuitBreaker.settle_snd]
        dsimp only
        split
        · rw [Function.update_of_ne hName]
        · rfl
      · intro asked hAsked
        dsimp only
        rw [Function.update_of_ne]
        · exact hAgrees.calls asked hAsked
        · rintro rfl
          exact hOther hAsked

/- A run does to an addon what the events of the addon
   do alone. -/
theorem agrees_run
    (addonName : JsString)
    (hRun : run options events = some served) :
    ∃ other,
      run options
          (events.filter fun event =>
            event.request.addonName = addonName) =
        some other ∧
      Agrees addonName served other := by
  induction events using List.reverseRecOn
    generalizing served with
  | nil =>
      cases hRun
      exact ⟨_, rfl, ⟨rfl, rfl, rfl, fun _ _ => rfl⟩⟩
  | append_singleton before event ih =>
      rcases run_concat_iff.mp hRun with ⟨past, hPast, hStep⟩
      rcases ih hPast with ⟨other, hAlone, hAgrees⟩
      by_cases hOwn : event.request.addonName = addonName
      · rcases agrees_step_own hAgrees hOwn hStep with
          ⟨otherNext, hOtherStep, hNext⟩
        refine ⟨otherNext, ?_, hNext⟩
        rw [List.filter_append,
          List.filter_cons_of_pos (by simpa using hOwn)]
        exact run_concat_iff.mpr ⟨other, hAlone, hOtherStep⟩
      · refine
          ⟨other, ?_, agrees_step_other hAgrees hOwn hStep⟩
        rw [List.filter_append,
          List.filter_cons_of_neg (by simpa using hOwn),
          List.filter_nil, List.append_nil]
        exact hAlone

------------------------------------------------------------
-- Whole Runs
------------------------------------------------------------

variable {past : Served Thrown}
variable {reply : Except Thrown Response}

/- A request of a disabled addon is refused when it starts, and
   a refused request does not come to anything else. -/
theorem refused_step
    (hDisabled :
      served.breaker.isDisabled request.addonName = true)
    (hRefused :
      ∀ phase ∈ served.calls request,
        ∃ response, phase = .refused response)
    (hStep : served.step event = some next) :
    ∀ phase ∈ next.calls request,
      ∃ response, phase = .refused response := by
  intro phase hPhase
  cases event with
  | start started =>
      rw [step_start_iff] at hStep
      rcases hStep with ⟨hNew, hNext⟩
      subst hNext
      by_cases hRequest : request = started
      · subst hRequest
        dsimp only at hPhase
        rw [Function.update_self] at hPhase
        unfold AddonCircuitBreaker.isDisabled at hDisabled
        cases hPhase
        exact ⟨_, if_pos hDisabled⟩
      · dsimp only at hPhase
        rw [Function.update_of_ne hRequest] at hPhase
        exact hRefused phase hPhase
  | complete completed result =>
      rw [step_complete_iff] at hStep
      rcases hStep with ⟨hRunning, hNext⟩
      subst hNext
      by_cases hRequest : request = completed
      · subst hRequest
        rcases hRefused .running hRunning with
          ⟨response, hResponse⟩
        cases hResponse
      · dsimp only at hPhase
        rw [Function.update_of_ne hRequest] at hPhase
        exact hRefused phase hPhase

theorem refused_run
    {earlier rest : List (Event Thrown)}
    (hMax : 1 ≤ options.maxConsecutiveFailures)
    (hPast : run options earlier = some past)
    (hDisabled :
      past.breaker.isDisabled request.addonName = true)
    (hNew : past.calls request = none)
    (hRun : run options (earlier ++ rest) = some served) :
    ∀ phase ∈ served.calls request,
      ∃ response, phase = .refused response := by
  induction rest using List.reverseRecOn
    generalizing served with
  | nil =>
      rw [List.append_nil, hPast] at hRun
      cases hRun
      intro phase hPhase
      rw [hNew] at hPhase
      cases hPhase
  | append_singleton before event ih =>
      rw [← List.append_assoc] at hRun
      rcases run_concat_iff.mp hRun with ⟨reached, hReached, hStep⟩
      have hStill :
          reached.breaker.isDisabled request.addonName =
            true := by
        rw [disabled_iff hMax hReached]
        rcases (disabled_iff hMax hPast _).mp hDisabled with
          ⟨point, hPoint, hFailed⟩
        exact
          ⟨point, hPoint.trans (List.prefix_append _ _),
            hFailed⟩
      exact refused_step hStill (ih hReached) hStep

theorem answered_run
    (hMax : 1 ≤ options.maxConsecutiveFailures)
    (hSilent :
      ∀ onDisabled ∈ options.onDisabled,
        ∀ addonName, onDisabled addonName = .ok ())
    (hRun : run options events = some served)
    (hReply : served.calls request = some (.settled reply)) :
    ∃ response, reply = .ok response := by
  induction events using List.reverseRecOn
    generalizing served with
  | nil =>
      cases hRun
      cases hReply
  | append_singleton before event ih =>
      rcases run_concat_iff.mp hRun with ⟨past, hPast, hStep⟩
      cases event with
      | start started =>
          rw [step_start_iff] at hStep
          rcases hStep with ⟨hNew, hNext⟩
          subst hNext
          by_cases hRequest : request = started
          · subst hRequest
            dsimp only at hReply
            rw [Function.update_self] at hReply
            unfold AddonCircuitBreaker.enter at hReply
            split at hReply
            · cases hReply
            · cases hReply
          · dsimp only at hReply
            rw [Function.update_of_ne hRequest] at hReply
            exact ih hPast hReply
      | complete completed result =>
          rw [step_complete_iff] at hStep
          rcases hStep with ⟨hRunning, hNext⟩
          subst hNext
          by_cases hRequest : request = completed
          · subst hRequest
            dsimp only at hReply
            rw [Function.update_self] at hReply
            have hOptions := (counts_run hMax hPast).options
            have hSettled :
                ∃ response,
                  (past.breaker.settle request.addonName
                      result).1 =
                    .settled (.ok response) := by
              apply AddonCircuitBreaker.settle_fst
              rw [hOptions]
              exact hSilent
            rcases hSettled with ⟨response, hResponse⟩
            rw [hResponse] at hReply
            cases hReply
            exact ⟨response, rfl⟩
          · dsimp only at hReply
            rw [Function.update_of_ne hRequest] at hReply
            exact ih hPast hReply

theorem guards_run
    (options : AddonCircuitBreakerOptions Thrown)
    (hMax : 1 ≤ options.maxConsecutiveFailures)
    (hSilent :
      ∀ onDisabled ∈ options.onDisabled,
        ∀ addonName, onDisabled addonName = .ok ())
    (events : List (Event Thrown))
    (served : Served Thrown)
    (hRun : run options events = some served) :
    Guards options events served := by
  constructor
  · exact disabled_iff hMax hRun
  · intro earlier past addonName hPrefix hPast hDisabled
    rw [disabled_iff hMax hRun]
    rcases (disabled_iff hMax hPast _).mp hDisabled with
      ⟨point, hPoint, hFailed⟩
    exact ⟨point, hPoint.trans hPrefix, hFailed⟩
  · intro earlier past request phase hPrefix hPast hDisabled
      hNew hPhase
    rcases hPrefix with ⟨rest, hEvents⟩
    subst hEvents
    exact
      refused_run hMax hPast hDisabled hNew hRun phase hPhase
  · intro addonName
    exact agrees_run addonName hRun
  · intro request reply hReply
    exact answered_run hMax hSilent hRun hReply

/- Two requests that run at once fail, a third is refused, and
   another addon goes on. -/
theorem guards_run_two :
    let options : AddonCircuitBreakerOptions Unit :=
      { maxConsecutiveFailures := 2
        onDisabled := some fun _ => .ok () }
    let bad (number : Nat) : Request :=
      { addonName := js "bad", handler := 0, number }
    let good : Request :=
      { addonName := js "good", handler := 0, number := 0 }
    let events : List (Event Unit) :=
      [.start (bad 0), .start (bad 1), .start good,
        .complete (bad 1) (.error ()),
        .complete (bad 0) (.error ()),
        .start (bad 2),
        .complete good (.ok { body := js "ok", status := 200 })]
    1 ≤ options.maxConsecutiveFailures ∧
      ∃ served,
        run options events = some served ∧
          Guards options events served := by
  refine ⟨by decide, ?_⟩
  refine ⟨_, rfl, guards_run _ (by decide) ?_ _ _ rfl⟩
  intro onDisabled hCallback addonName
  cases hCallback
  rfl

end Addons
