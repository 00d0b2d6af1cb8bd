import Hotelia.Offline.Store

/-!
# The sync engine

The engine that flushes the offline store (`apps/console/src/main/offline/sync.ts`).
Its backend is the clock and `fetch`: an answer is the HTTP status of the
response, and no answer stands for a request that throws or times out.

## Main definitions

- `SyncEngine` — the store, the `online` flag and the statuses pushed so far
- `flush` — one pass over the claimable rows
- `scripted` — a backend that answers by a given sequence
-/

namespace Hotelia.Offline

/-- `ACTION_TO_EVENT`. -/
def actionToEvent : List (String × String) :=
  [("checkin", "reservation.checked_in"), ("checkout", "reservation.checked_out"),
    ("posOrder", "order.placed"), ("roomKeyGenerate", "room.key_generated"),
    ("folioTransfer", "folio.balance_updated"), ("maintenanceOrder", "work_order.created")]

/-- `ACTION_TO_EVENT[actionType] ?? actionType`. -/
def eventTypeOf (actionType : String) : String :=
  (actionToEvent.lookup actionType).getD actionType

/-- `HTTP_OK`. -/
def httpOk : List ℕ := [200, 201, 202, 204]

/-- The request that `deliver` gives to `fetch` for a record; what of it arrives is
`PacketRequest.fetched`. -/
def OfflineActionRecord.packet (r : OfflineActionRecord) : PacketRequest where
  idempotencyKey := r.idempotencyKey
  body := .obj [("type", .str (eventTypeOf r.actionType)), ("payload", .obj r.payload)]

/-- What `deliver` returns for the answer that its request got. -/
def deliverOk : Option ℕ → Bool
  | some status => httpOk.contains status
  | none => false

/-- What the engine meets outside of it: the clock, and `fetch`. -/
structure Backend (σ : Type*) where
  now : σ → ℕ
  health : σ → Option Bool × σ
  post : PacketRequest → σ → Option ℕ × σ

/-- A backend that answers the `k`-th request by `answers k`, at time `clock k`. -/
def scripted (health : Option Bool) (answers : ℕ → Option ℕ) (clock : ℕ → ℕ) : Backend ℕ where
  now k := clock k
  health k := (health, k)
  post _ k := (answers k, k + 1)

structure SyncStatus where
  queued : ℕ
  processing : ℕ
  failed : ℕ
  online : Bool
  oldest : Option ℕ

/-- An engine, with the statuses it has given to `onChanged`, oldest first. -/
structure SyncEngine where
  store : OfflineActionStore
  online : Bool
  pushed : List SyncStatus

namespace SyncEngine

/-- `status()`. -/
def status (e : SyncEngine) : SyncStatus :=
  let counts := e.store.countByStatus
  { queued := counts.pending + counts.processing, failed := counts.failed,
    processing := counts.processing, online := e.online, oldest := e.store.oldestPendingTs }

/-- `emitChanged()`. -/
def emitChanged (e : SyncEngine) : SyncEngine := { e with pushed := e.pushed ++ [e.status] }

/-- `probeOnline()`, given `res.ok`, or nothing if `fetch` threw. -/
def probeOnline (e : SyncEngine) : Option Bool → SyncEngine
  | some ok =>
    let e' := { e with online := ok }
    if e.online ≠ ok then e'.emitChanged else e'
  | none =>
    let e' := { e with online := false }
    if e.online then e'.emitChanged else e'

end SyncEngine

namespace OfflineActionStore

/-- `'delivery failed (timeout / non-2xx)'`. -/
def deliveryFailed : String := "delivery failed (timeout / non-2xx)"

/-- How `flush` marks the row with `id` after `deliver` has returned `ok`. -/
abbrev settle (s : OfflineActionStore) (id : String) (ok : Bool) (now : ℕ) : OfflineActionStore :=
  s.mark id ok deliveryFailed now

end OfflineActionStore

/-- The state of a flush pass: the store, the backend, the variable `delivered`,
and the records claimed and those delivered so far, oldest first. -/
structure FlushPass (σ : Type*) where
  store : OfflineActionStore
  backend : σ
  delivered : ℕ
  claims : List OfflineActionRecord
  attempts : List OfflineActionRecord

variable {σ : Type*} (net : Backend σ)

/-- The body of the loop of `flush`: deliver the claimed record and mark its row. -/
def FlushPass.serve (p : FlushPass σ) (claimed : OfflineActionRecord) : FlushPass σ :=
  let (answer, backend) := net.post claimed.packet p.backend
  { p with
    store := p.store.settle claimed.id (deliverOk answer) (net.now backend)
    backend
    delivered := p.delivered + 1
    attempts := p.attempts ++ [claimed] }

/-- The loop of `flush`, with `n` deliveries to go before `delivered < 500` fails.
The guard claims before it tests `delivered`, so the last claim is not delivered. -/
def flushLoop : ℕ → FlushPass σ → FlushPass σ
  | n, p =>
    match p.store.claimNext (net.now p.backend) with
    | none => p
    | some (claimed, store) =>
      let p := { p with store, claims := p.claims ++ [claimed] }
      match n with
      | 0 => p
      | n + 1 => flushLoop n (p.serve net claimed)

/-- The ceiling of `delivered`. -/
def flushCeiling : ℕ := 500

/-- `flush()`: the engine after the pass, the status returned, and the pass itself. -/
def flush (e : SyncEngine) (b : σ) : SyncEngine × SyncStatus × FlushPass σ :=
  let (ok, b) := net.health b
  let e := e.probeOnline ok
  let p := flushLoop net flushCeiling ⟨e.store, b, 0, [], []⟩
  let e := { e with store := p.store }
  let e := if p.delivered > 0 then e.emitChanged else e
  (e, e.status, p)

end Hotelia.Offline
