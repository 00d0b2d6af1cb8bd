import Hotelia.Hardware.CircuitBreaker
import Hotelia.Offline.ClaimQueue
import Mathlib.Data.List.AList

/-!
# The retry drain of the lock bridge

`LockBridgeController` of `apps/console/src/main/hardware/lockBridge.ts`: its
devices, adapters and breakers, and `drainRetryQueue`, which re-attempts the key
encodes that wait in the offline store. What an adapter answers is part of the
world outside; no answer stands for a promise that rejects.

## Main definitions

- `LockBridge` — devices, channels, breakers, and the events emitted so far
- `drainStart`, `drainTurn` — what the drain does with one claimed record
- `drainRetryQueue` — claims and turns until nothing is left to claim
-/

namespace Hotelia.Hardware
open Offline

inductive LockChannel where
  | tcp | serial
  deriving DecidableEq, Repr

structure LockDevice where
  id : String
  channel : LockChannel
  endpoint : String
  model : String
  online : Bool

structure EncodeRequest where
  deviceId : String
  roomNumber : String
  credential : String
  deriving DecidableEq, Repr

inductive EncodeStatus where
  | encoded | queuedOffline | error
  deriving DecidableEq, Repr

structure EncodeResult where
  deviceId : String
  roomNumber : String
  credential : String
  status : EncodeStatus
  queuedId : Option String
  error : Option String
  ts : ℕ
  deriving DecidableEq, Repr

/-- The adapter of a channel: a socket to an endpoint, or a serial provider, if
one was attached. -/
inductive Adapter where
  | tcp (endpoint : String)
  | serial (attached : Bool)
  deriving DecidableEq, Repr

/-- `LOCK_ACTION_TYPE`. -/
def lockActionType : String := "roomKeyGenerate"

/-- The world of the bridge: the clock, what a turn of the drain takes, and the
adapters. -/
structure Encoders (σ : Type*) where
  now : σ → ℕ
  turn : σ → σ
  encode : Adapter → EncodeRequest → σ → Option EncodeResult × σ

structure LockBridge where
  devices : AList fun _ : String => LockDevice
  channels : LockChannel → Option Adapter
  breakers : AList fun _ : String => CircuitBreaker
  completed : List EncodeResult

namespace LockBridge

/-- `getBreaker(deviceId)`. -/
def getBreaker (c : LockBridge) (deviceId : String) : CircuitBreaker :=
  (c.breakers.lookup deviceId).getD .fresh

def setBreaker (c : LockBridge) (deviceId : String) (b : CircuitBreaker) : LockBridge :=
  { c with breakers := c.breakers.insert deviceId b }

/-- `dev.online = online`, for the device under `deviceId`. -/
def setOnline (c : LockBridge) (deviceId : String) (online : Bool) : LockBridge :=
  match c.devices.lookup deviceId with
  | none => c
  | some dev => { c with devices := c.devices.replace deviceId { dev with online } }

/-- `emit('encode-completed', result)`. -/
def emitCompleted (c : LockBridge) (result : EncodeResult) : LockBridge :=
  { c with completed := c.completed ++ [result] }

/-- What follows the answer of an adapter. The breaker and the device are shared
objects: they are as the calls in between have left them. -/
def afterEncode (c : LockBridge) (deviceId : String) (result : EncodeResult) (now : ℕ) :
    LockBridge :=
  if result.status = .encoded then
    ((c.setBreaker deviceId (c.getBreaker deviceId).onSuccess).setOnline deviceId true).emitCompleted
      result
  else
    (c.setBreaker deviceId ((c.getBreaker deviceId).onFailure now)).setOnline deviceId false

end LockBridge

/-- The request that a queued record stands for. -/
def encodeRequestOf (record : OfflineActionRecord) : EncodeRequest where
  deviceId := record.payload.text "deviceId"
  roomNumber := record.payload.text "roomNumber"
  credential := record.payload.text "credential"

/-- The call that marks the claimed row: `markComplete`, or `markFailed` with an error. -/
inductive Mark where
  | complete
  | failed (error : String)
  deriving DecidableEq, Repr

def Mark.ok : Mark → Bool
  | .complete => true
  | .failed _ => false

def Mark.error : Mark → String
  | .complete => ""
  | .failed error => error

/-- The body of the loop of `drainRetryQueue` up to its `await`, for the claimed
`record`: the error that the row is failed with, or the adapter that is asked. -/
def drainStart (c : LockBridge) (record : OfflineActionRecord) (now : ℕ) :
    Except String Adapter × LockBridge :=
  if record.actionType ≠ lockActionType then
    -- the row of another consumer is failed, not put back as it was
    (.error "non-lock action removed from lock drain", c)
  else
    let req := encodeRequestOf record
    match c.devices.lookup req.deviceId with
    | none => (.error "encoder device no longer registered", c)
    | some dev =>
      let breaker := c.getBreaker req.deviceId
      let c := c.setBreaker req.deviceId breaker
      match c.channels dev.channel with
      | none => (.error "breaker open / no adapter — will retry on next pass", c)
      | some adapter =>
        let (allowed, breaker) := breaker.allow now
        let c := c.setBreaker req.deviceId breaker
        if !allowed then (.error "breaker open / no adapter — will retry on next pass", c)
        else (.ok adapter, c)

/-- How the drain marks its row after an adapter has answered. -/
def drainMark (result : EncodeResult) : Mark :=
  if result.status = .encoded then .complete
  else .failed (result.error.getD "encoder still offline")

/-- What a turn of the drain leaves: the call that marks its row, unless the encode
was rejected, and the bridge and the world after it. -/
structure DrainTurn (σ : Type*) where
  mark : Option Mark
  bridge : LockBridge
  encoders : σ

section Drain

variable {σ : Type*} (env : Encoders σ)

/-- The body of the loop of `drainRetryQueue`, for the claimed `record`. -/
def drainTurn (c : LockBridge) (w : σ) (record : OfflineActionRecord) : DrainTurn σ :=
  match drainStart c record (env.now w) with
  | (.error error, c) => ⟨some (.failed error), c, w⟩
  | (.ok adapter, c) =>
    let req := encodeRequestOf record
    match env.encode adapter req w with
    | (none, w) => ⟨none, c, w⟩
    | (some result, w) =>
      ⟨some (drainMark result), c.afterEncode req.deviceId result (env.now w), w⟩

inductive DrainEnd where
  | running | finished | rejected
  deriving DecidableEq, Repr

/-- The state of a drain. -/
structure DrainPass (σ : Type*) where
  store : OfflineActionStore
  bridge : LockBridge
  encoders : σ
  ended : DrainEnd

/-- The loop of `drainRetryQueue`, for at most `n` turns. -/
def drainLoop : ℕ → DrainPass σ → DrainPass σ
  | 0, p => p
  | n + 1, p =>
    match p.store.claimNext (env.now p.encoders) with
    | none => { p with ended := .finished }
    | some (record, store) =>
      let turn := drainTurn env p.bridge p.encoders record
      match turn.mark with
      -- the rejection ends the drain with the row still `PROCESSING`
      | none => ⟨store, turn.bridge, turn.encoders, .rejected⟩
      | some m =>
        drainLoop n
          { p with
            store := store.mark record.id m.ok m.error (env.now turn.encoders)
            bridge := turn.bridge
            encoders := env.turn turn.encoders }

/-- `drainRetryQueue()`. The loop has no bound of its own; it ends within as many
turns as the claimable rows have tries left (`drainRetryQueue_ends`). -/
def drainRetryQueue (s : OfflineActionStore) (c : LockBridge) (w : σ) : DrainPass σ :=
  drainLoop env (s.triesLeft + 1) ⟨s, c, w, .running⟩

end Drain

end Hotelia.Hardware
