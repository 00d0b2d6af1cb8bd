import Hotelia.Offline.Holding
import Hotelia.Process.Passes

/-!
# The passes of a process do not get in each other's way

Each step of the console is a move of its desk, so the invariant of the rows in
hand holds in every state of every run.

## Main results

- `acts_of_act`: what an event can do while the process runs.
- `move_of_step`: what a step can do to the store and to the rows in hand.
- `interleaving_safe`: no row is held twice, completed rows stay as they are, and
  no row is tried more often than allowed.
-/

namespace Hotelia.Process
open Foundation Offline Hardware Console

/-- The store and the records in the hands of the passes. -/
def Console.desk (c : Console) : Desk ℕ := ⟨c.store, fun i => (c.passes i).bind Pass.held⟩

namespace Console

variable (c : Console) (i : ℕ)

@[simp] theorem store_probeOnline (e : SyncEngine) (ok : Option Bool) :
    (e.probeOnline ok).store = e.store := by
  cases ok <;> (unfold SyncEngine.probeOnline; dsimp only; split <;> rfl)

@[simp] theorem desk_probeOnline (ok : Option Bool) :
    { c with engine := c.engine.probeOnline ok }.desk = c.desk := by
  simp [desk, store]

@[simp] theorem desk_setPass (p : Option Pass) :
    (c.setPass i p).desk = ⟨c.store, Function.update c.desk.held i (p.bind Pass.held)⟩ := by
  have hheld : (fun j => ((c.setPass i p).passes j).bind Pass.held) =
      Function.update (fun j => (c.passes j).bind Pass.held) i (p.bind Pass.held) := by
    funext j
    by_cases hj : j = i
    · subst hj
      simp [setPass]
    · simp [setPass, hj]
  exact congrArg (Desk.mk c.store) hheld

theorem desk_endFlush (delivered : ℕ) :
    (c.endFlush i delivered).desk = ⟨c.store, Function.update c.desk.held i none⟩ := by
  obtain ⟨engine, hstore, hend⟩ := c.endFlush_eq i delivered
  rw [hend, desk_setPass]
  exact congrArg (Desk.mk · _) hstore

theorem store_enqueue (input : SyncEnqueueInput) (uuid : String) (now : ℕ) :
    (c.enqueue input uuid now).store = (c.store.insert input uuid now).2 := by
  obtain ⟨engine, hstore, henqueue⟩ := c.enqueue_eq input uuid now
  rw [henqueue]
  exact hstore

theorem store_endFlush (delivered : ℕ) : (c.endFlush i delivered).store = c.store := by
  obtain ⟨engine, hstore, hend⟩ := c.endFlush_eq i delivered
  rw [hend]
  exact hstore

variable {c i}

theorem store_begin {c' : Console} {p : Pass} (h : c.begin i p = some c') : c'.store = c.store := by
  obtain ⟨-, rfl⟩ := begin_eq_some.mp h
  rfl

theorem held_of_pass {p : Pass} (h : c.passes i = some p) : c.desk.held i = p.held := by
  simp [desk, h]

end Console

/-! ## What an event can do -/

namespace Console

/-- The changes that an event can make, each with the pass that has come so far. -/
inductive Acts (c : Console) : Event → Console → Prop
  | crash : Acts c .crash { c with passes := fun _ => none, running := false }
  | enqueue (input : SyncEnqueueInput) (uuid : String) (now : ℕ) :
      Acts c (.enqueue input uuid now) (c.enqueue input uuid now)
  | insert (input : SyncEnqueueInput) (uuid : String) (now : ℕ) :
      Acts c (.insert input uuid now) (c.withStore (c.store.insert input uuid now).2)
  | hardware (bridge : LockBridge) : Acts c (.hardware bridge) { c with bridge }
  | flush (i : ℕ) (c' : Console) (begun : c.begin i .probing = some c') : Acts c (.flush i) c'
  | drain (i : ℕ) (c' : Console) (begun : c.begin i .draining = some c') : Acts c (.drain i) c'
  | probed (i : ℕ) (ok : Option Bool) (pass : c.passes i = some .probing) :
      Acts c (.probed i ok)
        ({ c with engine := c.engine.probeOnline ok }.setPass i (some (.flushing 0)))
  | flushGuard (i now delivered : ℕ) (pass : c.passes i = some (.flushing delivered)) :
      Acts c (.claimNext i now) (c.flushGuard i delivered now)
  | drainHead (i now : ℕ) (pass : c.passes i = some .draining) :
      Acts c (.claimNext i now) (c.drainHead i now)
  | answered (i : ℕ) (answer : Option ℕ) (now : ℕ) (claimed : OfflineActionRecord) (delivered : ℕ)
      (pass : c.passes i = some (.delivering claimed delivered)) :
      Acts c (.answered i answer now)
        ((c.withStore (c.store.settle claimed.id (deliverOk answer) now)).setPass i
          (some (.flushing (delivered + 1))))
  | turn (i now : ℕ) (record : OfflineActionRecord)
      (pass : c.passes i = some (.turning record)) :
      Acts c (.turn i now) (c.drainBody i record now)
  | encoded (i : ℕ) (result : Option EncodeResult) (now : ℕ) (record : OfflineActionRecord)
      (pass : c.passes i = some (.encoding record)) :
      Acts c (.encoded i result now) (c.drainAnswer i record now result)

theorem acts_of_act {c c' : Console} {e : Event} (h : c.act e = some c') : c.Acts e c' := by
  cases e with
  | boot => cases h
  | crash => cases h; exact .crash
  | enqueue input uuid now => cases h; exact .enqueue input uuid now
  | insert input uuid now => cases h; exact .insert input uuid now
  | hardware bridge => cases h; exact .hardware bridge
  | flush i => exact .flush i c' h
  | drain i => exact .drain i c' h
  | probed i ok =>
    simp only [act] at h
    split at h
    · next hpass => cases h; exact .probed i ok hpass
    · cases h
  | claimNext i now =>
    simp only [act] at h
    split at h
    · next delivered hpass => cases h; exact .flushGuard i now delivered hpass
    · next hpass => cases h; exact .drainHead i now hpass
    · cases h
  | answered i answer now =>
    simp only [act] at h
    split at h
    · next claimed delivered hpass => cases h; exact .answered i answer now claimed delivered hpass
    · cases h
  | turn i now =>
    simp only [act] at h
    split at h
    · next record hpass => cases h; exact .turn i now record hpass
    · cases h
  | encoded i result now =>
    simp only [act] at h
    split at h
    · next record hpass => cases h; exact .encoded i result now record hpass
    · cases h

end Console

/-! ## Each step is a move -/

section Moves

variable {record : OfflineActionRecord}

theorem move_flushGuard (c : Console) (i delivered now : ℕ) :
    Move c.desk (c.flushGuard i delivered now).desk := by
  rw [flushGuard]
  split
  · rw [desk_endFlush]
    exact .drop c.desk i
  · next claimed s h =>
    dsimp only
    split
    · rw [desk_setPass]
      exact .claim c.desk i now claimed s h
    · rw [desk_endFlush]
      exact .overrun c.desk i now claimed s h

theorem move_drainHead (c : Console) (i now : ℕ) : Move c.desk (c.drainHead i now).desk := by
  rw [drainHead]
  split
  · rw [desk_setPass]
    exact .drop c.desk i
  · next record s h =>
    rw [desk_setPass]
    exact .claim c.desk i now record s h

theorem move_drainBody {c : Console} {i : ℕ} (h : c.passes i = some (.turning record)) (now : ℕ) :
    Move c.desk (c.drainBody i record now).desk := by
  have hheld : c.desk.held i = some record := held_of_pass h
  rw [drainBody]
  split
  · next error bridge _ =>
    dsimp only
    rw [desk_setPass]
    exact .mark c.desk i record false error now hheld
  · next bridge _ =>
    rw [desk_setPass]
    -- the pass holds the record that it held before
    have hsame : Function.update c.desk.held i (some record) = c.desk.held := by
      rw [← hheld, Function.update_eq_self]
    show Move c.desk ⟨c.store, Function.update c.desk.held i (some record)⟩
    rw [hsame]
    exact .stay c.desk

theorem move_drainAnswer {c : Console} {i : ℕ} (h : c.passes i = some (.encoding record)) (now : ℕ)
    (result : Option EncodeResult) : Move c.desk (c.drainAnswer i record now result).desk := by
  cases result with
  | none =>
    rw [drainAnswer, desk_setPass]
    exact .drop c.desk i
  | some result =>
    dsimp only [drainAnswer]
    rw [desk_setPass]
    exact .mark c.desk i record (drainMark result).ok (drainMark result).error now (held_of_pass h)

theorem move_enqueue (c : Console) (input : SyncEnqueueInput) (uuid : String) (now : ℕ) :
    Move c.desk (c.enqueue input uuid now).desk := by
  have hinsert : (c.enqueue input uuid now).desk =
      ⟨(c.store.insert input uuid now).2, c.desk.held⟩ := by
    obtain ⟨engine, hstore, henqueue⟩ := c.enqueue_eq input uuid now
    rw [henqueue]
    exact congrArg (Desk.mk · _) hstore
  rw [hinsert]
  exact .insert c.desk input uuid now

theorem move_begin {c c' : Console} {i : ℕ} {p : Pass} (hp : p.held = none)
    (h : c.begin i p = some c') : Move c.desk c'.desk := by
  obtain ⟨-, rfl⟩ := begin_eq_some.mp h
  rw [desk_setPass, Option.bind_some, hp]
  exact .drop c.desk i

theorem move_act {c c' : Console} {e : Event} (h : c.act e = some c') : Move c.desk c'.desk := by
  cases acts_of_act h with
  | crash => exact .kill c.desk
  | enqueue input uuid now => exact move_enqueue c input uuid now
  | insert input uuid now => exact .insert c.desk input uuid now
  | hardware => exact .stay c.desk
  | flush i _ begun => exact move_begin rfl begun
  | drain i _ begun => exact move_begin rfl begun
  | probed i ok =>
    rw [desk_setPass, desk_probeOnline]
    simp only [store, store_probeOnline]
    exact .drop c.desk i
  | flushGuard i now delivered => exact move_flushGuard c i delivered now
  | drainHead i now => exact move_drainHead c i now
  | answered i answer now claimed delivered pass =>
    rw [desk_setPass]
    exact .mark c.desk i claimed (deliverOk answer) _ now (held_of_pass pass)
  | turn i now record pass => exact move_drainBody pass now
  | encoded i result now record pass => exact move_drainAnswer pass now result

end Moves

/-- A step happens in a process that runs, or it starts a new one. -/
theorem step_cases {c c' : Console} {e : Event} (h : step c e = some c') :
    (c.running = true ∧ c.act e = some c') ∨
      ∃ bridge now, e = .boot bridge now ∧ c.running = false ∧ c' = c.boot bridge now := by
  cases hrun : c.running with
  | true =>
    left
    cases e <;> simp_all [step, act]
  | false =>
    right
    cases e with
    | boot bridge now => exact ⟨bridge, now, rfl, rfl, by simpa [step, hrun] using h.symm⟩
    | _ => simp [step, hrun] at h

theorem move_of_step {c c' : Console} {e : Event} (h : step c e = some c') :
    Move c.desk c'.desk := by
  cases step_cases h with
  | inl hact => exact move_act hact.2
  | inr hboot =>
    obtain ⟨bridge, now, -, -, rfl⟩ := hboot
    exact .requeue c.desk OfflineActionStore.staleAfterMs now

/-! ## Runs -/

theorem safe_off : Safe off.desk :=
  ⟨fun _ _ h => (nomatch h), apart_none, fun _ h => (nomatch h), fun _ h => (nomatch h)⟩

/-- The invariant holds in every state that can be reached. -/
theorem safe_of_reachable {c : Console} (h : Reachable step off c) : Safe c.desk :=
  h.invariant (I := fun c => Safe c.desk) (fun _ _ _ hc hs => hc.move (move_of_step hs)) safe_off

/-- A completed row is left alone by everything that happens afterwards. -/
theorem completed_of_reachable {c c' : Console} (hc : Safe c.desk) (h : Reachable step c c')
    {r : OfflineActionRecord} (hr : r ∈ c.store.rows) (hdone : r.status = .completed) :
    r ∈ c'.store.rows := by
  have hkept : Safe c'.desk ∧ r ∈ c'.store.rows := by
    refine h.invariant (I := fun c => Safe c.desk ∧ r ∈ c.store.rows) ?_ ⟨hc, hr⟩
    rintro c e c' ⟨hc, hr⟩ hs
    exact ⟨hc.move (move_of_step hs), (move_of_step hs).completed_mem hc hr hdone⟩
  exact hkept.2

/-- Whatever order inserts, passes, kills and restarts take: no row is held by two
passes, a completed row stays as it is for good, and `retry_count` is at most
`MAX_RETRY_COUNT`, and below it for every row that is `PENDING` or `PROCESSING`. -/
theorem interleaving_safe {c : Console} (h : Reachable step off c) :
    (∀ i j r r', c.desk.held i = some r → c.desk.held j = some r' → r.id = r'.id → i = j) ∧
    (∀ c', Reachable step c c' → ∀ r ∈ c.store.rows, r.status = .completed →
      r ∈ c'.store.rows) ∧
    (∀ r ∈ c.store.rows, r.retryCount ≤ maxRetryCount ∧
      (r.status = .pending ∨ r.status = .processing → r.retryCount < maxRetryCount)) := by
  have hsafe := safe_of_reachable h
  refine ⟨hsafe.apart, ?_, fun r hr => ⟨hsafe.bounded r hr, hsafe.budget r hr⟩⟩
  intro c' hc' r hr hdone
  exact completed_of_reachable hsafe hc' hr hdone

/-- A check-in that a flush delivers while a drain looks for work. -/
def checkinDelivered : List Event :=
  [.boot off.bridge 0, .enqueue ⟨"check-in-001", "checkin", []⟩ "a1" 1, .flush 0, .drain 1,
    .probed 0 (some true), .claimNext 0 2, .claimNext 1 3, .answered 0 (some 202) 4]

theorem interleaving_safe_checkin :
    ∃ c, run step off checkinDelivered = some c ∧
      (∀ i j r r', c.desk.held i = some r → c.desk.held j = some r' → r.id = r'.id → i = j) ∧
      (∀ c', Reachable step c c' → ∀ r ∈ c.store.rows, r.status = .completed →
        r ∈ c'.store.rows) ∧
      (∀ r ∈ c.store.rows, r.retryCount ≤ maxRetryCount ∧
        (r.status = .pending ∨ r.status = .processing → r.retryCount < maxRetryCount)) := by
  have hsome : (run step off checkinDelivered).isSome = true := by decide +kernel
  obtain ⟨c, hc⟩ := Option.isSome_iff_exists.mp hsome
  exact ⟨c, hc, interleaving_safe ⟨checkinDelivered, hc⟩⟩

end Hotelia.Process
