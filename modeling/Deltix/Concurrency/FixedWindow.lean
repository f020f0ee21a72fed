import Mathlib.Data.List.Basic
import Mathlib.Data.List.Induction

/-
  Fixed windows: a counter that starts over once the window
  it counts in has passed.

  An attempt reads the clock when it is checked and again
  when it is recorded, so it may be checked in one window and
  recorded as the first of the next.

  Key definitions include:
    * `Attempt`
    * `InOrder`
    * `judge`
    * `Window.attempt`
    * `Keyed`
    * `Limits`

  Key theorems include:
    * `admitted_in_window_le`
    * `admitted_in_interval_le`
    * `Keyed.limits`
-/

------------------------------------------------------------
-- Attempts
------------------------------------------------------------

namespace Concurrency

/- An attempt on a key, with its readings of the clock. -/
structure Attempt (Key : Type) where
  key : Key
  checkedAt : Nat
  recordedAt : Nat
  deriving DecidableEq, Repr

variable {Key State : Type}

/- Attempts one after the other, by a clock that does not
   run backwards. -/
structure InOrder (attempts : List (Attempt Key)) : Prop where
  reads : ∀ a ∈ attempts, a.checkedAt ≤ a.recordedAt
  inTurn :
    attempts.Pairwise fun a b => a.recordedAt ≤ b.checkedAt

theorem InOrder.rest
    {a : Attempt Key}
    {rest : List (Attempt Key)}
    (hOrder : InOrder (a :: rest)) :
    InOrder rest := by
  constructor
  · intro b hMember
    exact hOrder.reads b (List.mem_cons_of_mem _ hMember)
  · exact (List.pairwise_cons.mp hOrder.inTurn).2

theorem InOrder.later
    {a : Attempt Key}
    {rest : List (Attempt Key)}
    (hOrder : InOrder (a :: rest)) :
    ∀ b ∈ rest, a.recordedAt ≤ b.checkedAt :=
  (List.pairwise_cons.mp hOrder.inTurn).1

theorem InOrder.filter
    {attempts : List (Attempt Key)}
    (hOrder : InOrder attempts)
    (keep : Attempt Key → Bool) :
    InOrder (attempts.filter keep) := by
  constructor
  · intro a hMember
    exact hOrder.reads a (List.mem_filter.mp hMember).1
  · exact hOrder.inTurn.filter keep

/- Each attempt with what a limiter decides. -/
def judge
    (attempt : Attempt Key → State → Bool × State) :
    State → List (Attempt Key) → List (Attempt Key × Bool)
  | _, [] => []
  | s, a :: rest =>
      (a, (attempt a s).1) ::
        judge attempt (attempt a s).2 rest

/- What a limiter knows after some attempts. -/
def afterAll
    (attempt : Attempt Key → State → Bool × State)
    (s : State)
    (attempts : List (Attempt Key)) : State :=
  attempts.foldl (fun s a => (attempt a s).2) s

variable {attempt : Attempt Key → State → Bool × State}
variable {s : State} {attempts : List (Attempt Key)}

theorem judge_append
    (more : List (Attempt Key)) :
    judge attempt s (attempts ++ more) =
      judge attempt s attempts ++
        judge attempt (afterAll attempt s attempts) more := by
  induction attempts generalizing s with
  | nil => rfl
  | cons a rest ih =>
      simp only [List.cons_append, judge, ih, afterAll,
        List.foldl_cons]

theorem mem_of_judged
    {judged : Attempt Key × Bool}
    (hMember : judged ∈ judge attempt s attempts) :
    judged.1 ∈ attempts := by
  induction attempts generalizing s with
  | nil => cases hMember
  | cons a rest ih =>
      rcases List.mem_cons.mp hMember with hFirst | hRest
      · rw [hFirst]
        exact List.mem_cons_self
      · exact List.mem_cons_of_mem _ (ih hRest)

end Concurrency

namespace Concurrency

/- What is counted for one key. -/
structure Window where
  count : Nat
  startedAt : Nat
  deriving DecidableEq, Repr

variable {Key : Type}

namespace Window

/- A window that has not passed. -/
def live?
    (length now : Nat) :
    Option Window → Option Window
  | none => none
  | some window =>
      if length ≤ now - window.startedAt then none
      else some window

def admits (maxAttempts : Nat) : Option Window → Bool
  | none => true
  | some window => window.count < maxAttempts

def counted (now : Nat) : Option Window → Window
  | none => ⟨1, now⟩
  | some window => ⟨window.count + 1, window.startedAt⟩

/- A check, and a recording if it admits the attempt. -/
def attempt
    (maxAttempts length : Nat)
    (a : Attempt Key)
    (window : Option Window) : Bool × Option Window :=
  let seen := live? length a.checkedAt window
  if admits maxAttempts seen then
    (true,
      some (counted a.recordedAt (live? length a.recordedAt seen)))
  else (false, window)

end Window

end Concurrency

namespace Concurrency

variable {Key : Type} {a : Attempt Key}
variable {maxAttempts length : Nat}
variable {window : Window} {state : Option Window}

namespace Window

theorem live?_some_of_lt
    {now : Nat}
    (hLive : now - window.startedAt < length) :
    live? length now (some window) = some window :=
  if_neg (Nat.not_le.mpr hLive)

theorem live?_some_of_le
    {now : Nat}
    (hPassed : length ≤ now - window.startedAt) :
    live? length now (some window) = none :=
  if_pos hPassed

theorem attempt_none :
    attempt maxAttempts length a none =
      (true, some ⟨1, a.recordedAt⟩) :=
  rfl

/- A window that has passed counts no more. -/
theorem attempt_of_passed
    (hPassed : length ≤ a.checkedAt - window.startedAt) :
    attempt maxAttempts length a (some window) =
      (true, some ⟨1, a.recordedAt⟩) := by
  unfold attempt
  rw [live?_some_of_le hPassed]
  rfl

theorem attempt_of_full
    (hLive : a.checkedAt - window.startedAt < length)
    (hFull : maxAttempts ≤ window.count) :
    attempt maxAttempts length a (some window) =
      (false, some window) := by
  have hNot : ¬ window.count < maxAttempts := by
    omega
  unfold attempt
  rw [live?_some_of_lt hLive]
  simp [admits, hNot]

theorem attempt_of_room
    (hLive : a.checkedAt - window.startedAt < length)
    (hRoom : window.count < maxAttempts) :
    attempt maxAttempts length a (some window) =
      (true,
        some
          (counted a.recordedAt
            (live? length a.recordedAt (some window)))) := by
  unfold attempt
  rw [live?_some_of_lt hLive]
  simp [admits, hRoom]

/- What an attempt does to a window. -/
inductive Step
    (maxAttempts length : Nat)
    (a : Attempt Key) :
    Option Window → Bool × Option Window → Prop where
  | fresh :
      Step maxAttempts length a none
        (true, some ⟨1, a.recordedAt⟩)
  | passed
      {window : Window}
      (gone : length ≤ a.checkedAt - window.startedAt) :
      Step maxAttempts length a (some window)
        (true, some ⟨1, a.recordedAt⟩)
  | refused
      {window : Window}
      (live : a.checkedAt - window.startedAt < length)
      (full : maxAttempts ≤ window.count) :
      Step maxAttempts length a (some window)
        (false, some window)
  | counted
      {window : Window}
      (live : a.checkedAt - window.startedAt < length)
      (room : window.count < maxAttempts)
      (still : a.recordedAt - window.startedAt < length) :
      Step maxAttempts length a (some window)
        (true, some ⟨window.count + 1, window.startedAt⟩)
  | late
      {window : Window}
      (live : a.checkedAt - window.startedAt < length)
      (room : window.count < maxAttempts)
      (gone : length ≤ a.recordedAt - window.startedAt) :
      Step maxAttempts length a (some window)
        (true, some ⟨1, a.recordedAt⟩)

theorem step_attempt
    (maxAttempts length : Nat)
    (a : Attempt Key)
    (state : Option Window) :
    Step maxAttempts length a state
      (attempt maxAttempts length a state) := by
  cases state with
  | none => exact .fresh
  | some window =>
      by_cases hPassed :
          length ≤ a.checkedAt - window.startedAt
      · rw [attempt_of_passed hPassed]
        exact .passed hPassed
      have hLive := Nat.not_le.mp hPassed
      by_cases hFull : maxAttempts ≤ window.count
      · rw [attempt_of_full hLive hFull]
        exact .refused hLive hFull
      have hRoom := Nat.not_le.mp hFull
      rw [attempt_of_room hLive hRoom]
      by_cases hGone :
          length ≤ a.recordedAt - window.startedAt
      · rw [live?_some_of_le hGone]
        exact .late hLive hRoom hGone
      · have hStill := Nat.not_le.mp hGone
        rw [live?_some_of_lt hStill]
        exact .counted hLive hRoom hStill

end Window

end Concurrency

------------------------------------------------------------
-- How Many Are Admitted
------------------------------------------------------------

namespace Concurrency

variable {Key : Type}
variable {maxAttempts length start stop : Nat}
variable {instant : Attempt Key → Nat}
variable {attempts : List (Attempt Key)}
variable {state : Option Window} {window : Window}

/- The attempts that are admitted from one instant to
   another, where it is open when exactly each took place. -/
def admittedIn
    (instant : Attempt Key → Nat)
    (start stop : Nat)
    (judged : List (Attempt Key × Bool)) : Nat :=
  judged.countP fun p =>
    p.2 && decide (start ≤ instant p.1 ∧ instant p.1 < stop)

/- Each attempt took place between its readings. -/
def Between
    (instant : Attempt Key → Nat)
    (attempts : List (Attempt Key)) : Prop :=
  ∀ a ∈ attempts,
    a.checkedAt ≤ instant a ∧ instant a ≤ a.recordedAt

theorem Between.rest
    {a : Attempt Key}
    (hBetween : Between instant (a :: attempts)) :
    Between instant attempts :=
  fun b hMember => hBetween b (List.mem_cons_of_mem _ hMember)

theorem admittedIn_cons
    (p : Attempt Key × Bool)
    (judged : List (Attempt Key × Bool)) :
    admittedIn instant start stop (p :: judged) =
      admittedIn instant start stop judged +
        if p.2 = true ∧
            (start ≤ instant p.1 ∧ instant p.1 < stop) then 1
        else 0 := by
  unfold admittedIn
  rw [List.countP_cons]
  simp only [Bool.and_eq_true, decide_eq_true_eq]

theorem admittedIn_append
    (first second : List (Attempt Key × Bool)) :
    admittedIn instant start stop (first ++ second) =
      admittedIn instant start stop first +
        admittedIn instant start stop second :=
  List.countP_append

/- Nothing is admitted in an interval that is over. -/
theorem admittedIn_eq_zero
    {judging : Attempt Key → Option Window →
      Bool × Option Window}
    (hLater : ∀ a ∈ attempts, stop ≤ a.checkedAt)
    (hBetween : Between instant attempts) :
    admittedIn instant start stop
        (judge judging state attempts) =
      0 := by
  unfold admittedIn
  rw [List.countP_eq_zero]
  intro p hMember
  have hAttempt := mem_of_judged hMember
  have hFirst := hLater p.1 hAttempt
  have hRead := (hBetween p.1 hAttempt).1
  simp only [Bool.and_eq_true, decide_eq_true_eq]
  omega

/- A window that has begun admits what there is room for.
   By induction on the attempts. -/
theorem admitted_le_of_window
    (hCount : window.count ≤ maxAttempts)
    (hOrder : InOrder attempts)
    (hLater : ∀ a ∈ attempts, window.startedAt ≤ a.checkedAt)
    (hBetween : Between instant attempts)
    (hStop : stop ≤ window.startedAt + length) :
    admittedIn instant start stop
        (judge (Window.attempt maxAttempts length)
          (some window) attempts) ≤
      maxAttempts - window.count := by
  induction attempts generalizing window with
  | nil => exact Nat.zero_le _
  | cons a rest ih =>
      have hHere := hBetween a List.mem_cons_self
      have hReads := hOrder.reads a List.mem_cons_self
      have hStarted := hLater a List.mem_cons_self
      have hNext := hOrder.later
      have hOver :
          window.startedAt + length ≤ a.recordedAt →
            ∀ state,
              admittedIn instant start stop
                  (judge (Window.attempt maxAttempts length)
                    state rest) =
                0 := by
        intro hPassed state
        apply admittedIn_eq_zero _ hBetween.rest
        intro b hMember
        have hTurn := hNext b hMember
        omega
      have hSince :
          ∀ b ∈ rest, window.startedAt ≤ b.checkedAt := by
        intro b hMember
        have hTurn := hNext b hMember
        omega
      have hStep :=
        Window.step_attempt maxAttempts length a (some window)
      rw [judge, admittedIn_cons]
      generalize
        Window.attempt maxAttempts length a (some window) =
          result at hStep ⊢
      cases hStep with
      | passed hGone =>
          rw [hOver (by omega)]
          dsimp only
          split
          · omega
          · omega
      | refused hLive hFull =>
          have hRest :=
            ih hCount hOrder.rest hSince hBetween.rest hStop
          simpa using hRest
      | counted hLive hRoom hStill =>
          have hRest :
              admittedIn instant start stop
                  (judge (Window.attempt maxAttempts length)
                    (some ⟨window.count + 1, window.startedAt⟩)
                    rest) ≤
                maxAttempts - (window.count + 1) :=
            ih hRoom hOrder.rest hSince hBetween.rest hStop
          dsimp only
          split
          · omega
          · omega
      | late hLive hRoom hGone =>
          rw [hOver (by omega)]
          dsimp only
          split
          · omega
          · omega

/- In an interval that began before the attempts, one more
   window has its turn. -/
theorem admitted_le_of_begun
    (hMax : 1 ≤ maxAttempts)
    (hCount : window.count ≤ maxAttempts)
    (hOrder : InOrder attempts)
    (hLater : ∀ a ∈ attempts, start ≤ a.checkedAt)
    (hBetween : Between instant attempts) :
    admittedIn instant start (start + length)
        (judge (Window.attempt maxAttempts length)
          (some window) attempts) ≤
      maxAttempts - window.count + maxAttempts := by
  induction attempts generalizing window with
  | nil => exact Nat.zero_le _
  | cons a rest ih =>
      have hReads := hOrder.reads a List.mem_cons_self
      have hBegun := hLater a List.mem_cons_self
      have hRestLater :
          ∀ b ∈ rest, start ≤ b.checkedAt :=
        fun b hMember =>
          hLater b (List.mem_cons_of_mem _ hMember)
      have hFresh :
          admittedIn instant start (start + length)
              (judge (Window.attempt maxAttempts length)
                (some ⟨1, a.recordedAt⟩) rest) ≤
            maxAttempts - 1 := by
        apply admitted_le_of_window hMax hOrder.rest
          hOrder.later hBetween.rest
        dsimp only
        omega
      have hStep :=
        Window.step_attempt maxAttempts length a (some window)
      rw [judge, admittedIn_cons]
      generalize
        Window.attempt maxAttempts length a (some window) =
          result at hStep ⊢
      cases hStep with
      | passed hGone =>
          dsimp only
          split
          · omega
          · omega
      | refused hLive hFull =>
          have hRest :=
            ih hCount hOrder.rest hRestLater hBetween.rest
          simpa using hRest
      | counted hLive hRoom hStill =>
          have hRest :
              admittedIn instant start (start + length)
                  (judge (Window.attempt maxAttempts length)
                    (some ⟨window.count + 1, window.startedAt⟩)
                    rest) ≤
                maxAttempts - (window.count + 1) +
                  maxAttempts :=
            ih hRoom hOrder.rest hRestLater hBetween.rest
          dsimp only
          split
          · omega
          · omega
      | late hLive hRoom hGone =>
          dsimp only
          split
          · omega
          · omega

/- An interval of the length of a window meets two of them. -/
theorem admitted_in_interval_le
    (hMax : 1 ≤ maxAttempts)
    (hCount : ∀ window ∈ state, window.count ≤ maxAttempts)
    (hOrder : InOrder attempts)
    (hBetween : Between instant attempts) :
    admittedIn instant start (start + length)
        (judge (Window.attempt maxAttempts length) state
          attempts) ≤
      2 * maxAttempts := by
  induction attempts generalizing state with
  | nil => exact Nat.zero_le _
  | cons a rest ih =>
      have hHere := hBetween a List.mem_cons_self
      have hStep :=
        Window.step_attempt maxAttempts length a state
      rw [judge, admittedIn_cons]
      generalize
        Window.attempt maxAttempts length a state = result
          at hStep ⊢
      have hGood :
          (∀ window ∈ result.2,
            window.count ≤ maxAttempts) ∧
            (result.1 = true →
              ∃ window, result.2 = some window ∧
                1 ≤ window.count) := by
        cases hStep with
        | fresh => simpa using hMax
        | passed hGone => simpa using hMax
        | refused hLive hFull => simpa using hCount
        | counted hLive hRoom hStill =>
            simpa [Nat.succ_le_iff] using hRoom
        | late hLive hRoom hGone => simpa using hMax
      have hRest := ih hGood.1 hOrder.rest hBetween.rest
      dsimp only
      split
      · rename_i hInside
        rcases hGood.2 hInside.1 with ⟨window, hState, hSome⟩
        have hFull := hGood.1 window hState
        have hBegun : ∀ b ∈ rest, start ≤ b.checkedAt := by
          intro b hMember
          have hTurn := hOrder.later b hMember
          omega
        have hTwo :
            admittedIn instant start (start + length)
                (judge (Window.attempt maxAttempts length)
                  (some window) rest) ≤
              maxAttempts - window.count + maxAttempts :=
          admitted_le_of_begun hMax hFull hOrder.rest hBegun
            hBetween.rest
        rw [hState]
        omega
      · omega

------------------------------------------------------------
-- One Window
------------------------------------------------------------

variable {earlier later : List (Attempt Key)}
variable {judged : List (Attempt Key × Bool)}

/- What has been counted in a window. -/
structure Filled
    (maxAttempts length : Nat)
    (instant : Attempt Key → Nat)
    (attempts : List (Attempt Key))
    (judged : List (Attempt Key × Bool))
    (window : Window) : Prop where
  count : window.count ≤ maxAttempts
  opened :
    ∃ a ∈ attempts, window.startedAt = a.recordedAt
  admitted :
    admittedIn instant window.startedAt
        (window.startedAt + length) judged ≤
      window.count
  before :
    ∀ p ∈ judged, p.2 = true →
      p.1.recordedAt < window.startedAt + length ∨ length = 0

/- What was recorded before does not count in a window that
   is opened. -/
theorem admittedIn_of_recorded
    (hBetween : ∀ p ∈ judged, instant p.1 ≤ p.1.recordedAt)
    (hBefore :
      ∀ p ∈ judged, p.2 = true →
        p.1.recordedAt < start ∨ length = 0) :
    admittedIn instant start (start + length) judged = 0 := by
  unfold admittedIn
  rw [List.countP_eq_zero]
  intro p hMember
  have hInstant := hBetween p hMember
  simp only [Bool.and_eq_true, decide_eq_true_eq]
  rintro ⟨hAdmitted, hInside⟩
  have hRecorded := hBefore p hMember hAdmitted
  omega

theorem inOrder_append
    (hOrder : InOrder (earlier ++ later)) :
    InOrder earlier ∧ InOrder later ∧
      ∀ a ∈ earlier, ∀ b ∈ later,
        a.recordedAt ≤ b.checkedAt := by
  have hTurns := List.pairwise_append.mp hOrder.inTurn
  refine ⟨⟨?_, hTurns.1⟩, ⟨?_, hTurns.2.1⟩, hTurns.2.2⟩
  · intro a hMember
    exact hOrder.reads a (List.mem_append_left _ hMember)
  · intro a hMember
    exact hOrder.reads a (List.mem_append_right _ hMember)

/- A window is opened by an attempt that comes after what has
   been recorded. -/
theorem filled_opened
    {a : Attempt Key}
    (hMax : 1 ≤ maxAttempts)
    (hBetween : ∀ p ∈ judged, instant p.1 ≤ p.1.recordedAt)
    (hBefore :
      ∀ p ∈ judged, p.2 = true →
        p.1.recordedAt < a.recordedAt ∨ length = 0) :
    Filled maxAttempts length instant (attempts ++ [a])
      (judged ++ [(a, true)]) ⟨1, a.recordedAt⟩ := by
  constructor
  · exact hMax
  · exact ⟨a, by simp, rfl⟩
  · rw [admittedIn_append,
      admittedIn_of_recorded hBetween hBefore,
      admittedIn_cons]
    dsimp only [admittedIn, List.countP_nil]
    split
    · omega
    · omega
  · intro p hMember hAdmitted
    rcases List.mem_append.mp hMember with hOld | hNew
    · have hRecorded := hBefore p hOld hAdmitted
      dsimp only
      omega
    · rw [List.mem_singleton.mp hNew]
      dsimp only
      omega

/- By induction on the attempts, the last one first. -/
theorem filled_afterAll
    (hMax : 1 ≤ maxAttempts)
    (hOrder : InOrder earlier)
    (hBetween : Between instant earlier) :
    match
      afterAll (Window.attempt maxAttempts length) none
        earlier with
    | none => earlier = []
    | some window =>
        Filled maxAttempts length instant earlier
          (judge (Window.attempt maxAttempts length) none
            earlier)
          window := by
  induction earlier using List.reverseRecOn with
  | nil => rfl
  | append_singleton before a ih =>
      have hParts := inOrder_append hOrder
      have hPast : Between instant before :=
        fun b hMember =>
          hBetween b (List.mem_append_left _ hMember)
      have hHere :=
        hBetween a (List.mem_append_right _ List.mem_cons_self)
      have hReads :=
        hOrder.reads a
          (List.mem_append_right _ List.mem_cons_self)
      have hTurn : ∀ b ∈ before, b.recordedAt ≤ a.checkedAt :=
        fun b hMember =>
          hParts.2.2 b hMember a List.mem_cons_self
      have hKnown := ih hParts.1 hPast
      rw [judge_append]
      have hAfter :
          afterAll (Window.attempt maxAttempts length) none
              (before ++ [a]) =
            (Window.attempt maxAttempts length a
              (afterAll (Window.attempt maxAttempts length)
                none before)).2 := by
        unfold afterAll
        rw [List.foldl_append]
        rfl
      rw [hAfter]
      generalize
        afterAll (Window.attempt maxAttempts length) none
          before = state at hKnown ⊢
      have hStep :=
        Window.step_attempt maxAttempts length a state
      simp only [judge]
      generalize
        Window.attempt maxAttempts length a state = result
          at hStep ⊢
      have hInstants :
          ∀ p ∈
              judge (Window.attempt maxAttempts length) none
                before,
            instant p.1 ≤ p.1.recordedAt :=
        fun p hMember => (hPast p.1 (mem_of_judged hMember)).2
      have hRecorded :
          ∀ p ∈
              judge (Window.attempt maxAttempts length) none
                before,
            p.1.recordedAt ≤ a.checkedAt :=
        fun p hMember => hTurn p.1 (mem_of_judged hMember)
      cases hStep with
      | fresh =>
          dsimp only at hKnown ⊢
          subst hKnown
          apply filled_opened hMax
          · intro p hMember
            cases hMember
          · intro p hMember
            cases hMember
      | passed hGone =>
          apply filled_opened hMax hInstants
          intro p hMember hAdmitted
          have hOld := hRecorded p hMember
          have hBefore := hKnown.before p hMember hAdmitted
          omega
      | late hLive hRoom hGone =>
          apply filled_opened hMax hInstants
          intro p hMember hAdmitted
          have hOld := hRecorded p hMember
          have hBefore := hKnown.before p hMember hAdmitted
          omega
      | refused hLive hFull =>
          dsimp only at hKnown ⊢
          rcases hKnown with
            ⟨hCount, ⟨b, hMember, hStart⟩, hAdmitted, hBefore⟩
          refine ⟨hCount, ⟨b, by simp [hMember], hStart⟩, ?_, ?_⟩
          · rw [admittedIn_append, admittedIn_cons]
            simpa [admittedIn] using hAdmitted
          · intro p hJudged hYes
            rcases List.mem_append.mp hJudged with hOld | hNew
            · exact hBefore p hOld hYes
            · rw [List.mem_singleton.mp hNew] at hYes
              cases hYes
      | counted hLive hRoom hStill =>
          dsimp only at hKnown ⊢
          rcases hKnown with
            ⟨hCount, ⟨b, hMember, hStart⟩, hAdmitted, hBefore⟩
          have hFirst := hTurn b hMember
          refine ⟨hRoom, ⟨b, by simp [hMember], hStart⟩, ?_, ?_⟩
          · rw [admittedIn_append, admittedIn_cons]
            dsimp only [admittedIn, List.countP_nil]
              at hAdmitted ⊢
            split
            · omega
            · omega
          · intro p hJudged hYes
            rcases List.mem_append.mp hJudged with hOld | hNew
            · exact hBefore p hOld hYes
            · rw [List.mem_singleton.mp hNew]
              dsimp only
              omega

/- Any window admits no more than there is room for, before
   and after it is seen. -/
theorem admitted_in_window_le
    (hMax : 1 ≤ maxAttempts)
    (hOrder : InOrder (earlier ++ later))
    (hBetween : Between instant (earlier ++ later))
    (hSeen :
      afterAll (Window.attempt maxAttempts length) none earlier =
        some window) :
    admittedIn instant window.startedAt
        (window.startedAt + length)
        (judge (Window.attempt maxAttempts length) none
          (earlier ++ later)) ≤
      maxAttempts := by
  have hParts := inOrder_append hOrder
  have hPast : Between instant earlier :=
    fun a hMember =>
      hBetween a (List.mem_append_left _ hMember)
  have hNext : Between instant later :=
    fun a hMember =>
      hBetween a (List.mem_append_right _ hMember)
  have hFilled :
      match
        afterAll (Window.attempt maxAttempts length) none
          earlier with
      | none => earlier = []
      | some window =>
          Filled maxAttempts length instant earlier
            (judge (Window.attempt maxAttempts length) none
              earlier)
            window :=
    filled_afterAll hMax hParts.1 hPast
  rw [hSeen] at hFilled
  rcases hFilled.opened with ⟨a, hMember, hStart⟩
  have hLater : ∀ b ∈ later, window.startedAt ≤ b.checkedAt := by
    intro b hAfter
    rw [hStart]
    exact hParts.2.2 a hMember b hAfter
  have hRest :
      admittedIn instant window.startedAt
          (window.startedAt + length)
          (judge (Window.attempt maxAttempts length)
            (some window) later) ≤
        maxAttempts - window.count :=
    admitted_le_of_window hFilled.count hParts.2.1 hLater hNext
      (Nat.le_refl _)
  have hFull := hFilled.admitted
  have hCount := hFilled.count
  rw [judge_append, admittedIn_append, hSeen]
  omega

------------------------------------------------------------
-- Limiters Of Many Keys
------------------------------------------------------------

variable {State : Type} [DecidableEq Key]

/- The decisions on the attempts of one key. -/
def ownDecisions
    (key : Key)
    (judged : List (Attempt Key × Bool)) :
    List (Attempt Key × Bool) :=
  judged.filter fun p => p.1.key = key

/- The attempts on one key. -/
def ownAttempts
    (key : Key)
    (attempts : List (Attempt Key)) : List (Attempt Key) :=
  attempts.filter fun a => a.key = key

/-
  What a limiter promises from a state in which nothing has
  been counted: how many it admits in a window that is seen at
  some point of a run, and in an interval of the length of a
  window; and that a key is judged as if it were alone.
-/
structure Limits
    (attempt : Attempt Key → State → Bool × State)
    (view : State → Key → Option Window)
    (maxAttempts length : Nat)
    (start : State) : Prop where
  inWindow
      (earlier later : List (Attempt Key))
      (instant : Attempt Key → Nat)
      (key : Key)
      (window : Window) :
    InOrder (earlier ++ later) →
    Between instant (earlier ++ later) →
    view (afterAll attempt start earlier) key = some window →
    admittedIn instant window.startedAt
        (window.startedAt + length)
        (ownDecisions key
          (judge attempt start (earlier ++ later))) ≤
      maxAttempts
  inInterval
      (attempts : List (Attempt Key))
      (instant : Attempt Key → Nat)
      (key : Key)
      (since : Nat) :
    InOrder attempts →
    Between instant attempts →
    admittedIn instant since (since + length)
        (ownDecisions key (judge attempt start attempts)) ≤
      2 * maxAttempts
  alone
      (attempts : List (Attempt Key))
      (key : Key) :
    ownDecisions key (judge attempt start attempts) =
      judge attempt start (ownAttempts key attempts)

/- A limiter that keeps one window for each key, from any
   state of a set that it does not leave. -/
structure Keyed
    (attempt : Attempt Key → State → Bool × State)
    (view : State → Key → Option Window)
    (maxAttempts length : Nat)
    (good : State → Prop) : Prop where
  keeps
      (a : Attempt Key)
      (s : State) :
    good s → good (attempt a s).2
  own
      (a : Attempt Key)
      (s : State) :
    good s →
      ((attempt a s).1, view (attempt a s).2 a.key) =
        Window.attempt maxAttempts length a (view s a.key)
  other
      (a : Attempt Key)
      (s : State)
      (key : Key) :
    key ≠ a.key → view (attempt a s).2 key = view s key

variable {attempt : Attempt Key → State → Bool × State}
variable {view : State → Key → Option Window}
variable {maxAttempts length : Nat} {good : State → Prop}
variable {s : State}

namespace Keyed

/- The attempts of a key are judged by its window. -/
theorem judge_own
    (hKeyed : Keyed attempt view maxAttempts length good)
    (hGood : good s)
    (attempts : List (Attempt Key))
    (key : Key) :
    ownDecisions key (judge attempt s attempts) =
      judge (Window.attempt maxAttempts length) (view s key)
        (ownAttempts key attempts) := by
  induction attempts generalizing s with
  | nil => rfl
  | cons a rest ih =>
      have hRest := ih (hKeyed.keeps a s hGood)
      unfold ownDecisions ownAttempts at hRest ⊢
      by_cases hKey : a.key = key
      · have hOwn := hKeyed.own a s hGood
        rw [hKey] at hOwn
        have hDecision := congrArg Prod.fst hOwn
        have hNext := congrArg Prod.snd hOwn
        simp only [judge, List.filter_cons, hKey,
          decide_true, if_true, hRest]
        dsimp only at hDecision hNext
        rw [hDecision, hNext]
      · have hNext := hKeyed.other a s key (Ne.symm hKey)
        simp only [judge, List.filter_cons, hKey,
          decide_false, Bool.false_eq_true, if_false, hRest,
          hNext]

theorem view_afterAll
    (hKeyed : Keyed attempt view maxAttempts length good)
    (hGood : good s)
    (attempts : List (Attempt Key))
    (key : Key) :
    view (afterAll attempt s attempts) key =
      afterAll (Window.attempt maxAttempts length) (view s key)
        (ownAttempts key attempts) := by
  induction attempts generalizing s with
  | nil => rfl
  | cons a rest ih =>
      have hRest := ih (hKeyed.keeps a s hGood)
      unfold afterAll ownAttempts at hRest ⊢
      rw [List.foldl_cons, hRest, List.filter_cons]
      by_cases hKey : a.key = key
      · have hOwn := hKeyed.own a s hGood
        rw [hKey] at hOwn
        have hNext := congrArg Prod.snd hOwn
        dsimp only at hNext
        simp only [hKey, decide_true, if_true,
          List.foldl_cons, hNext]
      · have hNext := hKeyed.other a s key (Ne.symm hKey)
        simp only [hKey, decide_false, Bool.false_eq_true,
          if_false, hNext]

theorem limits
    (hKeyed : Keyed attempt view maxAttempts length good)
    (hGood : good s)
    (hMax : 1 ≤ maxAttempts)
    (hNothing : ∀ key, view s key = none) :
    Limits attempt view maxAttempts length s := by
  have hOwn := hKeyed.judge_own hGood
  constructor
  · intro earlier later instant key window hOrder hBetween hSeen
    have hParts :
        ownAttempts key (earlier ++ later) =
          ownAttempts key earlier ++ ownAttempts key later :=
      List.filter_append ..
    have hTurns : InOrder (ownAttempts key (earlier ++ later)) :=
      hOrder.filter _
    have hInstants :
        Between instant (ownAttempts key (earlier ++ later)) :=
      fun a hMember => hBetween a (List.mem_filter.mp hMember).1
    rw [hKeyed.view_afterAll hGood, hNothing] at hSeen
    rw [hOwn, hNothing]
    rw [hParts] at hTurns hInstants ⊢
    exact admitted_in_window_le hMax hTurns hInstants hSeen
  · intro attempts instant key since hOrder hBetween
    have hInstants :
        Between instant (ownAttempts key attempts) :=
      fun a hMember => hBetween a (List.mem_filter.mp hMember).1
    rw [hOwn, hNothing]
    apply admitted_in_interval_le hMax _ (hOrder.filter _)
      hInstants
    intro window hWindow
    cases hWindow
  · intro attempts key
    have hAlone :
        ownDecisions key
            (judge attempt s (ownAttempts key attempts)) =
          judge attempt s (ownAttempts key attempts) := by
      unfold ownDecisions
      rw [List.filter_eq_self]
      intro p hMember
      exact (List.mem_filter.mp (mem_of_judged hMember)).2
    have hTwice :
        ownAttempts key (ownAttempts key attempts) =
          ownAttempts key attempts := by
      unfold ownAttempts
      rw [List.filter_filter]
      simp only [Bool.and_self]
    rw [← hAlone, hOwn, hOwn, hTwice]

end Keyed

/- Two limiters that both keep one window for each key decide
   alike. -/
theorem judge_eq_judge
    {Other : Type}
    {attempt' : Attempt Key → Other → Bool × Other}
    {view' : Other → Key → Option Window}
    {good' : Other → Prop}
    {s' : Other}
    (hKeyed : Keyed attempt view maxAttempts length good)
    (hKeyed' : Keyed attempt' view' maxAttempts length good')
    (hGood : good s)
    (hGood' : good' s')
    (hSame : view s = view' s')
    (attempts : List (Attempt Key)) :
    judge attempt s attempts = judge attempt' s' attempts := by
  induction attempts generalizing s s' with
  | nil => rfl
  | cons a rest ih =>
      have hOwn := hKeyed.own a s hGood
      have hOwn' := hKeyed'.own a s' hGood'
      rw [hSame, ← hOwn'] at hOwn
      have hDecision := congrArg Prod.fst hOwn
      have hOwnNext := congrArg Prod.snd hOwn
      have hNext :
          view (attempt a s).2 = view' (attempt' a s').2 := by
        funext key
        by_cases hKey : key = a.key
        · rw [hKey]
          exact hOwnNext
        · rw [hKeyed.other a s key hKey,
            hKeyed'.other a s' key hKey, hSame]
      have hRest :=
        ih (hKeyed.keeps a s hGood) (hKeyed'.keeps a s' hGood')
          hNext
      dsimp only at hDecision
      rw [judge, judge, hDecision, hRest]

end Concurrency
