import Deltix.Auth.LoginRateLimiter
import Deltix.Concurrency.FixedWindow

/-
  The limiter of the certificate endpoint, a copy of that of
  the logins, and what both of them admit.

  Key definitions include:
    * `BootstrapRateLimiter`
    * `BootstrapRateLimiter.isAllowed`
    * `loginAttempt`
    * `bootstrapAttempt`

  Key theorems include:
    * `keyed_login`
    * `keyed_bootstrap`
    * `limiters_bound`
-/

------------------------------------------------------------
-- Certificate Requests
------------------------------------------------------------

namespace TlsDiscovery

structure BootstrapAttempts where
  count : Nat
  windowStartedAt : Nat
  deriving DecidableEq, Repr

/- The attempts of each key, and the limits. -/
structure BootstrapRateLimiter where
  maxAttempts : Nat
  windowMs : Nat
  attempts : String → Option BootstrapAttempts

namespace BootstrapRateLimiter

/- `new BootstrapRateLimiter(maxAttempts, windowMs)` -/
def new (maxAttempts windowMs : Nat) : BootstrapRateLimiter where
  maxAttempts := maxAttempts
  windowMs := windowMs
  attempts := fun _ => none

/- Forgets a window that is over. -/
def isAllowed
    (limiter : BootstrapRateLimiter)
    (key : String)
    (now : Nat) : Bool × BootstrapRateLimiter :=
  match limiter.attempts key with
  | none => (true, limiter)
  | some state =>
      if limiter.windowMs ≤ now - state.windowStartedAt then
        (true,
          { limiter with
            attempts :=
              Function.update limiter.attempts key none })
      else (state.count < limiter.maxAttempts, limiter)

/- Counts an attempt, in a new window if need be. -/
def recordAttempt
    (limiter : BootstrapRateLimiter)
    (key : String)
    (now : Nat) : BootstrapRateLimiter :=
  let fresh : BootstrapAttempts :=
    { count := 1, windowStartedAt := now }
  let next :=
    match limiter.attempts key with
    | none => fresh
    | some state =>
        if limiter.windowMs ≤ now - state.windowStartedAt then
          fresh
        else { state with count := state.count + 1 }
  { limiter with
    attempts :=
      Function.update limiter.attempts key (some next) }

end BootstrapRateLimiter

end TlsDiscovery

namespace TlsDiscovery

open Auth Concurrency

/- `new LoginRateLimiter(maxAttempts, windowMs)` -/
def newLoginRateLimiter
    (maxAttempts windowMs : Nat) : LoginRateLimiter where
  maxAttempts := maxAttempts
  windowMs := windowMs
  attempts := fun _ => none

/- A login is recorded at once if it is allowed. -/
def loginAttempt
    (a : Attempt String)
    (limiter : LoginRateLimiter) : Bool × LoginRateLimiter :=
  match limiter.assertAllowed a.key a.checkedAt with
  | .error _ => (false, limiter)
  | .ok allowed =>
      (true, allowed.recordAttempt a.key a.recordedAt)

/- So is a request of the certificate. -/
def bootstrapAttempt
    (a : Attempt String)
    (limiter : BootstrapRateLimiter) :
    Bool × BootstrapRateLimiter :=
  match limiter.isAllowed a.key a.checkedAt with
  | (false, checked) => (false, checked)
  | (true, allowed) =>
      (true, allowed.recordAttempt a.key a.recordedAt)

/- The window in which a limiter counts a key. -/
def loginWindow
    (limiter : LoginRateLimiter)
    (key : String) : Option Window :=
  (limiter.attempts key).map fun state =>
    ⟨state.count, state.windowStartedAt⟩

def bootstrapWindow
    (limiter : BootstrapRateLimiter)
    (key : String) : Option Window :=
  (limiter.attempts key).map fun state =>
    ⟨state.count, state.windowStartedAt⟩

------------------------------------------------------------
-- Windows Of Both
------------------------------------------------------------

variable (maxAttempts windowMs : Nat)

theorem keyed_login :
    Keyed loginAttempt loginWindow maxAttempts windowMs
      fun limiter =>
        limiter.maxAttempts = maxAttempts ∧
          limiter.windowMs = windowMs := by
  constructor
  · intro a limiter hLimits
    unfold loginAttempt LoginRateLimiter.assertAllowed
    cases limiter.attempts a.key with
    | none => exact hLimits
    | some state =>
        dsimp only
        split
        · rename_i hChecked
          split at hChecked
          · cases hChecked
          · split at hChecked
            · exact hLimits
            · cases hChecked
        · rename_i allowed hChecked
          split at hChecked
          · cases hChecked
            exact hLimits
          · split at hChecked
            · cases hChecked
            · cases hChecked
              exact hLimits
  · intro a limiter hLimits
    rcases hLimits with ⟨hMax, hLength⟩
    unfold loginAttempt LoginRateLimiter.assertAllowed
      loginWindow
    cases hState : limiter.attempts a.key with
    | none =>
        simp [LoginRateLimiter.recordAttempt, hState,
          Window.attempt_none]
    | some state =>
        dsimp only [Option.map_some]
        rw [hLength, hMax]
        by_cases hPassed :
            windowMs ≤ a.checkedAt - state.windowStartedAt
        · rw [if_pos hPassed, Window.attempt_of_passed hPassed]
          simp [LoginRateLimiter.recordAttempt]
        · have hLive := Nat.not_le.mp hPassed
          rw [if_neg hPassed]
          by_cases hFull : maxAttempts ≤ state.count
          · rw [if_pos hFull,
              Window.attempt_of_full hLive hFull]
            simp [hState]
          · have hRoom := Nat.not_le.mp hFull
            rw [if_neg hFull,
              Window.attempt_of_room hLive hRoom]
            simp only [LoginRateLimiter.recordAttempt, hState,
              hLength, Function.update_self, Option.map_some,
              Window.live?]
            split
            · rfl
            · rfl
  · intro a limiter key hOther
    unfold loginAttempt LoginRateLimiter.assertAllowed
      loginWindow
    cases limiter.attempts a.key with
    | none =>
        simp [LoginRateLimiter.recordAttempt, hOther]
    | some state =>
        dsimp only
        by_cases hPassed :
            limiter.windowMs ≤
              a.checkedAt - state.windowStartedAt
        · rw [if_pos hPassed]
          simp [LoginRateLimiter.recordAttempt, hOther]
        · rw [if_neg hPassed]
          by_cases hFull : limiter.maxAttempts ≤ state.count
          · rw [if_pos hFull]
          · rw [if_neg hFull]
            simp [LoginRateLimiter.recordAttempt, hOther]

theorem keyed_bootstrap :
    Keyed bootstrapAttempt bootstrapWindow maxAttempts windowMs
      fun limiter =>
        limiter.maxAttempts = maxAttempts ∧
          limiter.windowMs = windowMs := by
  constructor
  · intro a limiter hLimits
    unfold bootstrapAttempt BootstrapRateLimiter.isAllowed
    cases limiter.attempts a.key with
    | none => exact hLimits
    | some state =>
        dsimp only
        by_cases hPassed :
            limiter.windowMs ≤
              a.checkedAt - state.windowStartedAt
        · rw [if_pos hPassed]
          exact hLimits
        · rw [if_neg hPassed]
          cases decide (state.count < limiter.maxAttempts) with
          | true => exact hLimits
          | false => exact hLimits
  · intro a limiter hLimits
    rcases hLimits with ⟨hMax, hLength⟩
    unfold bootstrapAttempt BootstrapRateLimiter.isAllowed
      bootstrapWindow
    cases hState : limiter.attempts a.key with
    | none =>
        simp [BootstrapRateLimiter.recordAttempt, hState,
          Window.attempt_none]
    | some state =>
        dsimp only [Option.map_some]
        rw [hLength, hMax]
        by_cases hPassed :
            windowMs ≤ a.checkedAt - state.windowStartedAt
        · rw [if_pos hPassed, Window.attempt_of_passed hPassed]
          simp [BootstrapRateLimiter.recordAttempt]
        · have hLive := Nat.not_le.mp hPassed
          rw [if_neg hPassed]
          by_cases hFull : maxAttempts ≤ state.count
          · have hNoRoom := Nat.not_lt.mpr hFull
            rw [Window.attempt_of_full hLive hFull]
            simp [hNoRoom, hState]
          · have hRoom := Nat.not_le.mp hFull
            rw [Window.attempt_of_room hLive hRoom]
            simp only [hRoom, decide_true,
              BootstrapRateLimiter.recordAttempt, hState,
              hLength, Function.update_self, Option.map_some,
              Window.live?]
            split
            · rfl
            · rfl
  · intro a limiter key hOther
    unfold bootstrapAttempt BootstrapRateLimiter.isAllowed
      bootstrapWindow
    cases limiter.attempts a.key with
    | none =>
        simp [BootstrapRateLimiter.recordAttempt, hOther]
    | some state =>
        dsimp only
        by_cases hPassed :
            limiter.windowMs ≤
              a.checkedAt - state.windowStartedAt
        · rw [if_pos hPassed]
          simp [BootstrapRateLimiter.recordAttempt, hOther]
        · rw [if_neg hPassed]
          cases decide (state.count < limiter.maxAttempts) with
          | false => rfl
          | true =>
              simp [BootstrapRateLimiter.recordAttempt, hOther]

/- Both admit what one window for each key admits, and they
   decide alike. -/
theorem limiters_bound
    (hMax : 1 ≤ maxAttempts) :
    Limits loginAttempt loginWindow maxAttempts windowMs
        (newLoginRateLimiter maxAttempts windowMs) ∧
      Limits bootstrapAttempt bootstrapWindow maxAttempts
        windowMs
        (BootstrapRateLimiter.new maxAttempts windowMs) ∧
      ∀ attempts,
        judge loginAttempt
            (newLoginRateLimiter maxAttempts windowMs)
            attempts =
          judge bootstrapAttempt
            (BootstrapRateLimiter.new maxAttempts windowMs)
            attempts := by
  have hLogin := keyed_login maxAttempts windowMs
  have hBootstrap := keyed_bootstrap maxAttempts windowMs
  refine ⟨?_, ?_, ?_⟩
  · apply hLogin.limits ⟨rfl, rfl⟩ hMax
    intro key
    rfl
  · apply hBootstrap.limits ⟨rfl, rfl⟩ hMax
    intro key
    rfl
  · intro attempts
    apply judge_eq_judge hLogin hBootstrap ⟨rfl, rfl⟩
      ⟨rfl, rfl⟩
    rfl

theorem limiters_bound_three :
    (1 ≤ 3) ∧
      Limits loginAttempt loginWindow 3 60000
        (newLoginRateLimiter 3 60000) ∧
      Limits bootstrapAttempt bootstrapWindow 3 60000
        (BootstrapRateLimiter.new 3 60000) ∧
      ∀ attempts,
        judge loginAttempt (newLoginRateLimiter 3 60000)
            attempts =
          judge bootstrapAttempt
            (BootstrapRateLimiter.new 3 60000) attempts :=
  ⟨by decide, limiters_bound 3 60000 (by decide)⟩

end TlsDiscovery
