import Hotelia.Shared.Binary64
import Mathlib.Data.List.AList

/-!
# The rate limiter of `POST /packet`

A token bucket for each address (`RateLimiter` of `apps/console/src/main/server.ts`).
Times are milliseconds. Tokens are counted with the numbers of the language, which round;
the limiter that counts by another rule `fl` is there to compare it with.
-/

namespace Hotelia.Broker

structure Bucket where
  tokens : ℚ
  lastRefill : ℕ
  deriving DecidableEq

structure RateLimiter where
  rps : ℕ
  buckets : AList fun _ : String => Bucket

namespace RateLimiter

/-- `new RateLimiter()`. -/
def fresh : RateLimiter := ⟨8, ∅⟩

section Counting

variable (fl : ℚ → ℚ)

/-- The tokens of `ip` after the refill that `allows` makes at `now`, if the exact result of an
operation becomes what `fl` makes of it. -/
def refilled (l : RateLimiter) (ip : String) (now : ℕ) : ℚ :=
  let b := (l.buckets.lookup ip).getD ⟨l.rps, now⟩
  min l.rps (fl (b.tokens + fl (fl ((now - b.lastRefill) / 1000) * l.rps)))

/-- `allows(ip)` at `now`, if tokens are counted by `fl`. -/
def allowsBy (l : RateLimiter) (ip : String) (now : ℕ) : Bool × RateLimiter :=
  let tokens := l.refilled fl ip now
  if tokens < 1 then
    (false, { l with buckets := l.buckets.insert ip ⟨tokens, now⟩ })
  else
    -- too many addresses, and all of them start afresh
    let buckets := l.buckets.insert ip ⟨fl (tokens - 1), now⟩
    (true, { l with buckets := if buckets.entries.length > 2000 then ∅ else buckets })

end Counting

/-- `allows(ip)`: whether the request passes, and the limiter after it. -/
def allows (l : RateLimiter) (ip : String) (now : ℕ) : Bool × RateLimiter :=
  l.allowsBy binary64 ip now

/-- The limiter after `k` requests of one address, at the times `clock 0`, `clock 1` and so on. -/
def after (l : RateLimiter) (ip : String) (clock : ℕ → ℕ) : ℕ → RateLimiter
  | 0 => l
  | k + 1 => ((l.after ip clock k).allows ip (clock k)).2

/-- Whether it lets the `k`-th of these requests pass. -/
def grants (l : RateLimiter) (ip : String) (clock : ℕ → ℕ) (k : ℕ) : Bool :=
  ((l.after ip clock k).allows ip (clock k)).1

end RateLimiter

end Hotelia.Broker
