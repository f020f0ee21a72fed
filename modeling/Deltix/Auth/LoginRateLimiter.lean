import Mathlib.Logic.Function.Basic

/-
  The fixed-window limiter of login attempts.

  Key definitions include:
    * `WindowState`
    * `LoginRateLimiter`
    * `LoginRateLimiter.assertAllowed`
    * `LoginRateLimiter.recordAttempt`
-/

namespace Auth

structure WindowState where
  count : Nat
  windowStartedAt : Nat
  deriving DecidableEq, Repr

/- The attempts of each key, and the limits. -/
structure LoginRateLimiter where
  maxAttempts : Nat
  windowMs : Nat
  attempts : String → Option WindowState

namespace LoginRateLimiter

/-
  Throws the time to wait when the key has used up its
  window; forgets a window that is over.
-/
def assertAllowed
    (limiter : LoginRateLimiter)
    (key : String)
    (now : Nat) :
    Except Nat LoginRateLimiter :=
  match limiter.attempts key with
  | none => .ok limiter
  | some state =>
      if limiter.windowMs ≤ now - state.windowStartedAt then
        .ok
          { limiter with
            attempts :=
              Function.update limiter.attempts key none }
      else if limiter.maxAttempts ≤ state.count then
        .error
          (limiter.windowMs - (now - state.windowStartedAt))
      else .ok limiter

/- Counts an attempt, in a new window if need be. -/
def recordAttempt
    (limiter : LoginRateLimiter)
    (key : String)
    (now : Nat) :
    LoginRateLimiter :=
  let fresh : WindowState :=
    { count := 1, windowStartedAt := now }
  let next :=
    match limiter.attempts key with
    | none => fresh
    | some state =>
        if limiter.windowMs ≤ now - state.windowStartedAt then
          fresh
        else { state with count := state.count + 1 }
  { limiter with
    attempts :=
      Function.update limiter.attempts key (some next) }

end LoginRateLimiter

end Auth
