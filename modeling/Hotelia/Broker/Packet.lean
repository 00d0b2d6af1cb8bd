import Hotelia.Broker.RateLimiter
import Hotelia.Events.Registry
import Hotelia.Foundation.ExpiringMap
import Hotelia.Shared.Validators

/-!
# Packet ingress

The handler of `POST /packet` (`apps/console/src/main/server.ts`) behind the
token check and the body parser: rate limit, schema, event registry, and the
window of idempotency keys.

## Main definitions

- `LocalServer` — the limiter, the window, and what the bus has published
- `handlePacket` — one request
- `serve` — requests in the order of their arrival
-/

namespace Hotelia.Broker
open Foundation

/-- A call of `bus.publish`, with the key and the time of the request behind it. -/
structure Publication where
  event : PacketInput
  key : String
  time : ℕ

/-- `IDEMPOTENT_WINDOW`: for each key the event, stamped with `acceptedAt`. -/
abbrev Window := ExpiringMap String String

structure LocalServer where
  limiter : RateLimiter
  window : Window
  published : List Publication

/-- The broker when its process starts. -/
def LocalServer.fresh : LocalServer := ⟨.fresh, ∅, []⟩

inductive Response where
  | rateLimited
  | validationFailed
  | unknownEvent (type : String)
  | answered (accepted : String) (deduped : Bool)
  deriving DecidableEq

def Response.status : Response → ℕ
  | .rateLimited => 429
  | .validationFailed => 400
  | .unknownEvent _ => 400
  | .answered _ deduped => if deduped then 208 else 202

/-- How long the window remembers a key. -/
def windowMs : ℕ := 60000

/-- The purge at the end of `dedupePacket`. -/
def purgeLarge (w : Window) (now : ℕ) : Window :=
  if w.entries.length > 500 then ExpiringMap.purge windowMs w now else w

section Purge

variable (purge : Window → ℕ → Window)

/-- `dedupePacket(key, event)`: whether it was deduped, with which event, and the window. -/
def dedupePacket (w : Window) (key event : String) (now : ℕ) : Bool × String × Window :=
  match ExpiringMap.peek windowMs w now key with
  | some existing => (true, existing.value, w)
  -- no entry, or one that has expired
  | none => (false, event, purge (w.record now key event) now)

/-- The handler of `POST /packet` for a request from `ip`. -/
def handlePacket (b : LocalServer) (ip : String) (req : PacketRequest) (now : ℕ) :
    Response × LocalServer :=
  let (allowed, limiter) := b.limiter.allows ip now
  let b := { b with limiter }
  if !allowed then (.rateLimited, b)
  else
    match packetSchema req.body with
    | none => (.validationFailed, b)
    | some parsed =>
      if !Events.isValid parsed.type then (.unknownEvent parsed.type, b)
      else
        let (deduped, event, window) :=
          if req.idempotencyKey ≠ "" then
            dedupePacket purge b.window req.idempotencyKey parsed.type now
          -- a request without a key is never deduped
          else (false, parsed.type, b.window)
        let b := { b with window }
        let b :=
          if !deduped then
            { b with published := b.published ++ [⟨parsed, req.idempotencyKey, now⟩] }
          else b
        (.answered event deduped, b)

/-- A request with the address it comes from and the time at which it arrives. -/
structure Arrival where
  ip : String
  request : PacketRequest
  time : ℕ

/-- Requests in the order of their arrival, with the answers to them, and the broker
after the last. -/
def serve (b : LocalServer) : List Arrival → List (Arrival × Response) × LocalServer
  | [] => ([], b)
  | a :: as =>
    let (r, b) := handlePacket purge b a.ip a.request a.time
    let (log, b) := serve b as
    ((a, r) :: log, b)

end Purge

/-! ## What one request does -/

section Spec

variable {purge : Window → ℕ → Window} {b : LocalServer} {ip : String} {req : PacketRequest}
  {now : ℕ}

/-- The broker after a request that it refuses. -/
def LocalServer.refuse (b : LocalServer) (ip : String) (now : ℕ) : LocalServer :=
  { b with limiter := (b.limiter.allows ip now).2 }

/-- The window after an event was accepted under `key`. -/
def remember (purge : Window → ℕ → Window) (w : Window) (key event : String) (now : ℕ) : Window :=
  if key ≠ "" then purge (w.record now key event) now else w

/-- The broker after a request whose event it publishes. -/
def LocalServer.accept (purge : Window → ℕ → Window) (b : LocalServer) (ip : String)
    (req : PacketRequest) (parsed : PacketInput) (now : ℕ) : LocalServer where
  limiter := (b.limiter.allows ip now).2
  window := remember purge b.window req.idempotencyKey parsed.type now
  published := b.published ++ [⟨parsed, req.idempotencyKey, now⟩]

theorem handlePacket_of_limited (h : (b.limiter.allows ip now).1 = false) :
    handlePacket purge b ip req now = (.rateLimited, b.refuse ip now) := by
  simp only [handlePacket, h, Bool.not_false, if_true]
  rfl

/-- A request that passes the limiter, the schema and the registry is answered by the window. -/
theorem handlePacket_of_parsed {parsed : PacketInput} (hl : (b.limiter.allows ip now).1 = true)
    (hp : packetSchema req.body = some parsed) (hv : Events.isValid parsed.type = true) :
    handlePacket purge b ip req now =
      if req.idempotencyKey = "" then
        (.answered parsed.type false, b.accept purge ip req parsed now)
      else
        match ExpiringMap.peek windowMs b.window now req.idempotencyKey with
        | some existing => (.answered existing.value true, b.refuse ip now)
        | none => (.answered parsed.type false, b.accept purge ip req parsed now) := by
  simp only [handlePacket, hl, hp, hv, Bool.not_true, Bool.false_eq_true, if_false, ne_eq,
    ite_not]
  by_cases hk : req.idempotencyKey = ""
  · simp [hk, LocalServer.accept, remember]
  · simp only [hk, if_false, dedupePacket]
    split <;> simp [hk, LocalServer.accept, LocalServer.refuse, remember]

/-- A request is refused, and then only the limiter changes, or its event is
published, and then its key was not in the window. -/
theorem handlePacket_cases (purge : Window → ℕ → Window) (b : LocalServer) (ip : String)
    (req : PacketRequest) (now : ℕ) :
    (∃ r, r.status ≠ 202 ∧ handlePacket purge b ip req now = (r, b.refuse ip now)) ∨
    ∃ parsed, (b.limiter.allows ip now).1 = true ∧ packetSchema req.body = some parsed ∧
      Events.isValid parsed.type = true ∧
      (req.idempotencyKey ≠ "" →
        ExpiringMap.peek windowMs b.window now req.idempotencyKey = none) ∧
      handlePacket purge b ip req now =
        (.answered parsed.type false, b.accept purge ip req parsed now) := by
  cases hl : (b.limiter.allows ip now).1 with
  | false => exact .inl ⟨_, by decide, handlePacket_of_limited hl⟩
  | true =>
    cases hp : packetSchema req.body with
    | none =>
      refine .inl ⟨.validationFailed, by decide, ?_⟩
      simp [handlePacket, hl, hp, LocalServer.refuse]
    | some parsed =>
      cases hv : Events.isValid parsed.type with
      | false =>
        refine .inl ⟨.unknownEvent parsed.type, by simp [Response.status], ?_⟩
        simp [handlePacket, hl, hp, hv, LocalServer.refuse]
      | true =>
        have heq : handlePacket purge b ip req now = _ := handlePacket_of_parsed hl hp hv
        by_cases hk : req.idempotencyKey = ""
        · rw [if_pos hk] at heq
          exact .inr ⟨parsed, rfl, rfl, hv, fun h => absurd hk h, heq⟩
        · rw [if_neg hk] at heq
          cases hw : ExpiringMap.peek windowMs b.window now req.idempotencyKey with
          | some existing =>
            rw [hw] at heq
            exact .inl ⟨_, by simp [Response.status], heq⟩
          | none =>
            rw [hw] at heq
            exact .inr ⟨parsed, rfl, rfl, hv, fun _ => rfl, heq⟩

end Spec

end Hotelia.Broker
