import Mathlib.Data.Nat.Notation

/-!
# The circuit breaker of an encoder

`CircuitBreaker` of `apps/console/src/main/hardware/lockBridge.ts`. Times are
milliseconds.
-/

namespace Hotelia.Hardware

inductive BreakerState where
  | closed | opened | paused
  deriving DecidableEq, Repr

structure CircuitBreaker where
  failureThreshold : ℕ
  cooldownMs : ℕ
  state : BreakerState
  consecutiveFailures : ℕ
  openedAt : ℕ
  deriving DecidableEq, Repr

namespace CircuitBreaker

/-- `new CircuitBreaker()`. -/
def fresh : CircuitBreaker := ⟨3, 30000, .closed, 0, 0⟩

/-- `allow()`: whether an encode may go out, and the breaker after the question. -/
def allow (b : CircuitBreaker) (now : ℕ) : Bool × CircuitBreaker :=
  match b.state with
  | .paused => (false, b)
  | .opened =>
    -- the cooldown is over: the next encode is the probe
    if b.openedAt + b.cooldownMs ≤ now then
      (true, { b with state := .closed, consecutiveFailures := 0 })
    else (false, b)
  | .closed => (true, b)

/-- `onSuccess()`. -/
def onSuccess (b : CircuitBreaker) : CircuitBreaker :=
  { b with consecutiveFailures := 0, state := .closed }

/-- `onFailure()`. -/
def onFailure (b : CircuitBreaker) (now : ℕ) : CircuitBreaker :=
  let b := { b with consecutiveFailures := b.consecutiveFailures + 1 }
  if b.failureThreshold ≤ b.consecutiveFailures then { b with state := .opened, openedAt := now }
  else b

/-- `pause()`. -/
def pause (b : CircuitBreaker) : CircuitBreaker := { b with state := .paused }

/-- `resume()`. -/
def resume (b : CircuitBreaker) : CircuitBreaker :=
  { b with state := .closed, consecutiveFailures := 0 }

end CircuitBreaker

/-- A call of a breaker, with what its clock shows. -/
inductive BreakerCall where
  | allow (now : ℕ)
  | onSuccess
  | onFailure (now : ℕ)
  | pause
  | resume
  deriving DecidableEq, Repr

/-- The breaker after a call. -/
def CircuitBreaker.after (b : CircuitBreaker) : BreakerCall → CircuitBreaker
  | .allow now => (b.allow now).2
  | .onSuccess => b.onSuccess
  | .onFailure now => b.onFailure now
  | .pause => b.pause
  | .resume => b.resume

end Hotelia.Hardware
