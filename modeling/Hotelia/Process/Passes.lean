import Hotelia.Foundation.Run
import Hotelia.Hardware.LockBridge
import Hotelia.Offline.Sync

/-!
# The console process

The passes over the offline store that one console process runs. A pass is what a
call of `flush` or `drainRetryQueue` still has to do. It moves by at most one
transaction of the store, so the process may be killed between any two of them,
and whatever order the passes take at their awaits is one of the runs.

## Main definitions

- `Pass` — where a call of `flush` or `drainRetryQueue` stands
- `Console` — the engine, the lock bridge and the passes
- `step` — what an event does, if it can happen
-/

namespace Hotelia.Process
open Offline Hardware

/-- Where a call of `flush` or `drainRetryQueue` stands. -/
inductive Pass where
  /-- `await this.probeOnline()` -/
  | probing
  /-- the guard of the loop of `flush` -/
  | flushing (delivered : ℕ)
  /-- `await this.deliver(claimed)` -/
  | delivering (claimed : OfflineActionRecord) (delivered : ℕ)
  /-- the head of the loop of `drainRetryQueue` -/
  | draining
  /-- the body of that loop -/
  | turning (record : OfflineActionRecord)
  /-- `await adapter.encode(req)` -/
  | encoding (record : OfflineActionRecord)

/-- The record that a pass has claimed and not marked yet. -/
def Pass.held : Pass → Option OfflineActionRecord
  | .delivering claimed _ => some claimed
  | .turning record => some record
  | .encoding record => some record
  | _ => none

/-- The console, with the passes of its process by number. -/
structure Console where
  engine : SyncEngine
  bridge : LockBridge
  passes : ℕ → Option Pass
  running : Bool

/-- What happens next. -/
inductive Event where
  /-- `start()` in a new process, whose bridge has been set up as `bridge` -/
  | boot (bridge : LockBridge) (now : ℕ)
  /-- The process is killed. -/
  | crash
  /-- `enqueue(input)`; the flush it starts is a `flush` of its own. -/
  | enqueue (input : SyncEnqueueInput) (uuid : String) (now : ℕ)
  /-- `store.insert(input)`, as the lock bridge calls it -/
  | insert (input : SyncEnqueueInput) (uuid : String) (now : ℕ)
  /-- Whatever else changes the bridge: encodes, devices and adapters. -/
  | hardware (bridge : LockBridge)
  /-- A call of `flush`. -/
  | flush (i : ℕ)
  /-- A call of `drainRetryQueue`. -/
  | drain (i : ℕ)
  /-- The health probe of a flush ends. -/
  | probed (i : ℕ) (ok : Option Bool)
  /-- A pass calls `claimNext`. -/
  | claimNext (i : ℕ) (now : ℕ)
  /-- A delivery ends, with the status of the answer if there is one. -/
  | answered (i : ℕ) (answer : Option ℕ) (now : ℕ)
  /-- A drain goes on with the record it has claimed. -/
  | turn (i : ℕ) (now : ℕ)
  /-- An adapter answers a drain, or rejects. -/
  | encoded (i : ℕ) (result : Option EncodeResult) (now : ℕ)

namespace Console

variable (c : Console)

def store : OfflineActionStore := c.engine.store

def withStore (s : OfflineActionStore) : Console := { c with engine := { c.engine with store := s } }

def setPass (i : ℕ) (p : Option Pass) : Console :=
  { c with passes := Function.update c.passes i p }

/-- A new pass, under a number that is free. -/
def begin (i : ℕ) (p : Pass) : Option Console :=
  if (c.passes i).isNone then some (c.setPass i (some p)) else none

theorem begin_eq_some {c c' : Console} {i : ℕ} {p : Pass} :
    c.begin i p = some c' ↔ c.passes i = none ∧ c.setPass i (some p) = c' := by
  rw [begin, Option.ite_none_right_eq_some, Option.isNone_iff_eq_none, Option.some_inj]

/-- The end of `flush`. -/
def endFlush (i delivered : ℕ) : Console :=
  let c := if delivered > 0 then { c with engine := c.engine.emitChanged } else c
  c.setPass i none

theorem endFlush_eq (i delivered : ℕ) : ∃ engine : SyncEngine, engine.store = c.store ∧
    c.endFlush i delivered = { c with engine := engine }.setPass i none := by
  rw [endFlush]
  split
  · exact ⟨c.engine.emitChanged, rfl, rfl⟩
  · exact ⟨c.engine, rfl, rfl⟩

/-- The guard of the loop of `flush`. It claims before it tests `delivered`. -/
def flushGuard (i delivered now : ℕ) : Console :=
  match c.store.claimNext now with
  | none => c.endFlush i delivered
  | some (claimed, store) =>
    let c := c.withStore store
    if delivered < flushCeiling then c.setPass i (some (.delivering claimed delivered))
    -- at the ceiling the claimed row is left as it is, `PROCESSING`
    else c.endFlush i delivered

theorem flushGuard_eq (i delivered now : ℕ) : ∃ (engine : SyncEngine) (p : Option Pass),
    c.flushGuard i delivered now = { c with engine := engine }.setPass i p := by
  rw [flushGuard]
  split
  · obtain ⟨engine, -, hend⟩ := c.endFlush_eq i delivered
    exact ⟨engine, none, hend⟩
  · next claimed store _ =>
    dsimp only
    split
    · exact ⟨{ c.engine with store }, some (.delivering claimed delivered), rfl⟩
    · obtain ⟨engine, -, hend⟩ := (c.withStore store).endFlush_eq i delivered
      exact ⟨engine, none, hend⟩

/-- The head of the loop of `drainRetryQueue`. -/
def drainHead (i now : ℕ) : Console :=
  match c.store.claimNext now with
  | none => c.setPass i none
  | some (record, store) => (c.withStore store).setPass i (some (.turning record))

theorem drainHead_eq (i now : ℕ) : ∃ (engine : SyncEngine) (p : Option Pass),
    c.drainHead i now = { c with engine := engine }.setPass i p := by
  rw [drainHead]
  split
  · exact ⟨c.engine, none, rfl⟩
  · next record store _ => exact ⟨{ c.engine with store }, some (.turning record), rfl⟩

/-- The body of that loop up to its `await`. -/
def drainBody (i : ℕ) (record : OfflineActionRecord) (now : ℕ) : Console :=
  match drainStart c.bridge record now with
  | (.error error, bridge) =>
    let c := { c with bridge }
    (c.withStore (c.store.markFailed record.id error now)).setPass i (some .draining)
  | (.ok _, bridge) => { c with bridge }.setPass i (some (.encoding record))

/-- The body of that loop after its `await`; a rejection ends the pass. -/
def drainAnswer (i : ℕ) (record : OfflineActionRecord) (now : ℕ) : Option EncodeResult → Console
  -- nothing catches the rejection, so nothing marks the row
  | none => c.setPass i none
  | some result =>
    let m := drainMark result
    let bridge := c.bridge.afterEncode (encodeRequestOf record).deviceId result now
    let c := { c with bridge }
    (c.withStore (c.store.mark record.id m.ok m.error now)).setPass i (some .draining)

/-- `start()` of the engine in a new process. -/
def boot (bridge : LockBridge) (now : ℕ) : Console where
  -- only the store is left of the process before
  engine := ⟨(c.store.requeueStaleProcessing OfflineActionStore.staleAfterMs now).2, false, []⟩
  bridge := bridge
  passes := fun _ => none
  running := true

/-- `enqueue(input)`: without a record `rowToRecord` throws. -/
def enqueue (input : SyncEnqueueInput) (uuid : String) (now : ℕ) : Console :=
  let (record, store) := c.store.insert input uuid now
  let c := c.withStore store
  if record.isSome then { c with engine := c.engine.emitChanged } else c

theorem enqueue_eq (input : SyncEnqueueInput) (uuid : String) (now : ℕ) :
    ∃ engine : SyncEngine, engine.store = (c.store.insert input uuid now).2 ∧
      c.enqueue input uuid now = { c with engine := engine } := by
  rw [enqueue]
  dsimp only
  split
  · exact ⟨(c.withStore (c.store.insert input uuid now).2).engine.emitChanged, rfl, rfl⟩
  · exact ⟨(c.withStore (c.store.insert input uuid now).2).engine, rfl, rfl⟩

/-- What an event does while the process runs. -/
def act : Event → Option Console
  | .boot _ _ => none
  | .crash => some { c with passes := fun _ => none, running := false }
  | .enqueue input uuid now => some (c.enqueue input uuid now)
  | .insert input uuid now => some (c.withStore (c.store.insert input uuid now).2)
  | .hardware bridge => some { c with bridge }
  | .flush i => c.begin i .probing
  | .drain i => c.begin i .draining
  | .probed i ok =>
    match c.passes i with
    | some .probing =>
      some ({ c with engine := c.engine.probeOnline ok }.setPass i (some (.flushing 0)))
    | _ => none
  | .claimNext i now =>
    match c.passes i with
    | some (.flushing delivered) => some (c.flushGuard i delivered now)
    | some .draining => some (c.drainHead i now)
    | _ => none
  | .answered i answer now =>
    match c.passes i with
    | some (.delivering claimed delivered) =>
      some ((c.withStore (c.store.settle claimed.id (deliverOk answer) now)).setPass i
        (some (.flushing (delivered + 1))))
    | _ => none
  | .turn i now =>
    match c.passes i with
    | some (.turning record) => some (c.drainBody i record now)
    | _ => none
  | .encoded i result now =>
    match c.passes i with
    | some (.encoding record) => some (c.drainAnswer i record now result)
    | _ => none

end Console

/-- One event. A process is started only while none is running. -/
def step (c : Console) : Event → Option Console
  | .boot bridge now => if c.running then none else some (c.boot bridge now)
  | e => if c.running then c.act e else none

/-- A console that was never started. -/
def Console.off : Console :=
  ⟨⟨Foundation.Table.empty, false, []⟩, ⟨∅, fun _ => none, ∅, []⟩, fun _ => none, false⟩

end Hotelia.Process
