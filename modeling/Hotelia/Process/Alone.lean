import Hotelia.Hardware.LockDrain
import Hotelia.Process.Passes

/-!
# A pass that runs alone

With nothing in between its steps, a flush of the console is the function `flush`,
and a drain is `drainRetryQueue`.

## Main results

- `flush_run`, `drain_run`: each is a run of the console.
-/

namespace Hotelia.Process
open Foundation Offline Hardware Console OfflineActionStore

variable {σ : Type*} {c : Console} {i : ℕ}

/-- While the process runs, a step is what the event does. -/
theorem step_of_act {c' : Console} {e : Event} (hrun : c.running = true) (h : c.act e = some c') :
    step c e = some c' := by
  cases e with
  | boot => cases h
  | _ => exact (if_pos hrun).trans h

@[simp] theorem withStore_store (c : Console) : c.withStore c.store = c := rfl

@[simp] theorem passes_setPass (c : Console) (i : ℕ) (p : Option Pass) :
    (c.setPass i p).passes i = p := by
  simp [setPass]

@[simp] theorem setPass_setPass (c : Console) (i : ℕ) (p q : Option Pass) :
    (c.setPass i p).setPass i q = c.setPass i q := by
  simp [setPass, Function.update_idem]

theorem setPass_of_eq {p : Option Pass} (h : c.passes i = p) : c.setPass i p = c := by
  rw [setPass, ← h, Function.update_eq_self]

/-! ## A flush -/

section Flush

variable (net : Backend σ)

theorem step_flushGuard {delivered : ℕ} (hrun : c.running = true)
    (hpass : c.passes i = some (.flushing delivered)) (now : ℕ) :
    step c (.claimNext i now) = some (c.flushGuard i delivered now) :=
  step_of_act hrun (by rw [act, hpass])

/-- Where a flush stands before it ends makes no difference. -/
theorem endFlush_setPass (c : Console) (i delivered : ℕ) (p : Option Pass)
    (s : OfflineActionStore) :
    ((c.setPass i p).withStore s).endFlush i delivered = (c.withStore s).endFlush i delivered := by
  unfold endFlush setPass withStore
  split <;> simp [Function.update_idem]

/-- The rest of a flush, from the guard of its loop. -/
theorem flushLoop_run {n : ℕ} {p : FlushPass σ} (hrun : c.running = true)
    (hpass : c.passes i = some (.flushing p.delivered)) (hstore : c.store = p.store)
    (hn : p.delivered + n = flushCeiling) :
    ∃ es, run step c es = some ((c.withStore (flushLoop net n p).store).endFlush i
      (flushLoop net n p).delivered) := by
  induction n generalizing p c with
  | zero =>
    refine ⟨[.claimNext i (net.now p.backend)], ?_⟩
    have hceiling : ¬ p.delivered < flushCeiling := by omega
    rw [run, step_flushGuard hrun hpass, flushGuard, flushLoop, hstore]
    cases p.store.claimNext (net.now p.backend) with
    | none => simp [run, ← hstore]
    | some claim => simp [run, hceiling]
  | succ n ih =>
    have hguard := step_flushGuard hrun hpass (net.now p.backend)
    rw [flushGuard, hstore] at hguard
    cases hclaim : p.store.claimNext (net.now p.backend) with
    | none =>
      refine ⟨[.claimNext i (net.now p.backend)], ?_⟩
      rw [hclaim] at hguard
      rw [run, hguard, flushLoop, hclaim]
      simp [run, ← hstore]
    | some claim =>
      obtain ⟨claimed, s⟩ := claim
      have hbelow : p.delivered < flushCeiling := by omega
      -- one turn of the loop is a claim and an answer
      let c₁ := (c.withStore s).setPass i (some (.delivering claimed p.delivered))
      let p' := { p with store := s, claims := p.claims ++ [claimed] }.serve net claimed
      let answer := (net.post claimed.packet p.backend).1
      let now := net.now (net.post claimed.packet p.backend).2
      let c₂ := (c₁.withStore (c₁.store.settle claimed.id (deliverOk answer) now)).setPass i
        (some (.flushing (p.delivered + 1)))
      have hclaimed : step c (.claimNext i (net.now p.backend)) = some c₁ := by
        rw [hguard, hclaim]
        simp [hbelow, c₁]
      have hanswered : step c₁ (.answered i answer now) = some c₂ :=
        step_of_act hrun (by rw [act, passes_setPass])
      obtain ⟨es, hes⟩ := ih (p := p') (c := c₂) hrun (passes_setPass _ _ _) rfl
        (by simp only [p', FlushPass.serve]; omega)
      have hloop : flushLoop net (n + 1) p = flushLoop net n p' := by
        rw [flushLoop, hclaim]
      refine ⟨.claimNext i (net.now p.backend) :: .answered i answer now :: es, ?_⟩
      rw [run, hclaimed, Option.bind_some, run, hanswered, Option.bind_some, hes, hloop,
        endFlush_setPass]
      exact congrArg some (endFlush_setPass c i _ _ _)

/-- A flush that runs alone does what `flush` does. -/
theorem flush_run (hrun : c.running = true) (hfree : c.passes i = none) (b : σ) :
    ∃ es, run step c es = some { c with engine := (flush net c.engine b).1 } := by
  let ok := (net.health b).1
  let c₁ := c.setPass i (some .probing)
  let c₂ := { c₁ with engine := c₁.engine.probeOnline ok }.setPass i (some (.flushing 0))
  have hbegin : step c (.flush i) = some c₁ := step_of_act hrun (by simp [act, begin, hfree, c₁])
  have hprobed : step c₁ (.probed i ok) = some c₂ := step_of_act hrun (by rw [act, passes_setPass])
  let p : FlushPass σ := ⟨(c.engine.probeOnline ok).store, (net.health b).2, 0, [], []⟩
  obtain ⟨es, hes⟩ := flushLoop_run net (p := p) (c := c₂) (i := i) hrun (passes_setPass _ _ _) rfl
    (Nat.zero_add _)
  refine ⟨.flush i :: .probed i ok :: es, ?_⟩
  rw [run, hbegin, Option.bind_some, run, hprobed, Option.bind_some, hes, endFlush_setPass]
  have hpasses : c₁.setPass i none = c := by
    rw [setPass_setPass, setPass_of_eq hfree]
  have hend : ∀ e : SyncEngine, { c₁ with engine := e }.setPass i none = { c with engine := e } :=
    fun e => congrArg (fun d : Console => { d with engine := e }) hpasses
  let q := flushLoop net flushCeiling p
  have hflush : (flush net c.engine b).1 =
      if q.delivered > 0 then { c.engine.probeOnline ok with store := q.store }.emitChanged
      else { c.engine.probeOnline ok with store := q.store } := rfl
  apply congrArg some
  rw [hflush, endFlush]
  by_cases hd : q.delivered > 0
  · rw [if_pos hd, if_pos hd]
    exact hend _
  · rw [if_neg hd, if_neg hd]
    exact hend _

end Flush

/-! ## A drain -/

section Drain

variable (env : Encoders σ)

/-- How a turn of the drain leaves its row. -/
def markTurn (s : OfflineActionStore) (record : OfflineActionRecord) (turn : DrainTurn σ) :
    OfflineActionStore :=
  match turn.mark with
  | none => s
  | some m => s.mark record.id m.ok m.error (env.now turn.encoders)

/-- A turn of the drain. -/
theorem drainTurn_run {record : OfflineActionRecord} (hrun : c.running = true)
    (hpass : c.passes i = some (.turning record)) (w : σ) :
    ∃ es, run step c es = some
      (({ c with bridge := (drainTurn env c.bridge w record).bridge }.withStore
        (markTurn env c.store record (drainTurn env c.bridge w record))).setPass i
          ((drainTurn env c.bridge w record).mark.map fun _ => .draining)) := by
  have hbody := step_of_act hrun (by rw [act, hpass] :
    c.act (.turn i (env.now w)) = some (c.drainBody i record (env.now w)))
  cases hstart : drainStart c.bridge record (env.now w) with
  | mk choice bridge =>
    rw [drainBody, hstart] at hbody
    cases choice with
    | error error =>
      refine ⟨[.turn i (env.now w)], ?_⟩
      rw [run, hbody, drainTurn, hstart]
      rfl
    | ok adapter =>
      refine ⟨[.turn i (env.now w), .encoded i (env.encode adapter (encodeRequestOf record) w).1
        (env.now (env.encode adapter (encodeRequestOf record) w).2)], ?_⟩
      let c₁ := { c with bridge }.setPass i (some (.encoding record))
      have hanswered : ∀ result now, step c₁ (.encoded i result now) =
          some (c₁.drainAnswer i record now result) := fun result now =>
        step_of_act hrun (by rw [act, passes_setPass])
      rw [run, hbody, Option.bind_some, run, hanswered, drainTurn, hstart]
      cases hencode : env.encode adapter (encodeRequestOf record) w with
      | mk result w' =>
        cases result with
        | none =>
          simp only [hencode, drainAnswer, markTurn, setPass_setPass, Option.map_none, c₁]
          rfl
        | some result =>
          simp only [hencode, drainAnswer, markTurn, setPass, withStore, Function.update_idem,
            Option.map_some, c₁]
          rfl

/-- The rest of a drain, from the head of its loop. -/
theorem drainLoop_run {n : ℕ} {p : DrainPass σ} (hrun : c.running = true)
    (hpass : c.passes i = some .draining) (hstore : c.store = p.store)
    (hbridge : c.bridge = p.bridge) (hp : p.ended = .running)
    (hend : (drainLoop env n p).ended ≠ .running) :
    ∃ es, run step c es = some
      (({ c with bridge := (drainLoop env n p).bridge }.withStore (drainLoop env n p).store).setPass i
        none) := by
  induction n generalizing p c with
  | zero => exact absurd hp hend
  | succ n ih =>
    have hhead := step_of_act hrun (by rw [act, hpass] :
      c.act (.claimNext i (env.now p.encoders)) = some (c.drainHead i (env.now p.encoders)))
    rw [drainHead, hstore] at hhead
    cases hclaim : p.store.claimNext (env.now p.encoders) with
    | none =>
      refine ⟨[.claimNext i (env.now p.encoders)], ?_⟩
      rw [hclaim] at hhead
      rw [run, hhead, drainLoop_none hclaim, ← hstore, ← hbridge]
      rfl
    | some claim =>
      obtain ⟨record, s⟩ := claim
      rw [hclaim] at hhead
      let c₁ := (c.withStore s).setPass i (some (.turning record))
      obtain ⟨es, hes⟩ := drainTurn_run env (c := c₁) hrun (passes_setPass _ _ _) p.encoders
      have hturn : drainTurn env c₁.bridge p.encoders record =
          drainTurn env p.bridge p.encoders record := congrArg (drainTurn env · _ _) hbridge
      rw [hturn] at hes
      let turn := drainTurn env p.bridge p.encoders record
      cases hmark : turn.mark with
      | none =>
        refine ⟨.claimNext i (env.now p.encoders) :: es, ?_⟩
        rw [run, hhead, Option.bind_some, hes, drainLoop_rejected hclaim hmark, markTurn, hmark]
        simp only [setPass, withStore, Function.update_idem, c₁]
        rfl
      | some m =>
        -- the row is marked, and the rest of the drain is a run by induction
        let p' : DrainPass σ :=
          ⟨s.mark record.id m.ok m.error (env.now turn.encoders), turn.bridge,
            env.turn turn.encoders, p.ended⟩
        let c₂ := ({ c₁ with bridge := turn.bridge }.withStore p'.store).setPass i (some .draining)
        have hloop : drainLoop env (n + 1) p = drainLoop env n p' := drainLoop_marked hclaim hmark
        have hturned : run step c₁ es = some c₂ := by
          rw [hes, markTurn, hmark]
          rfl
        rw [hloop] at hend ⊢
        obtain ⟨fs, hfs⟩ := ih (p := p') (c := c₂) hrun (passes_setPass _ _ _) rfl rfl hp hend
        refine ⟨.claimNext i (env.now p.encoders) :: (es ++ fs), ?_⟩
        rw [run, hhead, Option.bind_some, run_append, hturned, Option.bind_some, hfs]
        simp only [setPass, withStore, Function.update_idem, c₁, c₂]

/-- A drain that runs alone does what `drainRetryQueue` does. -/
theorem drain_run (hrun : c.running = true) (hfree : c.passes i = none) (w : σ) :
    ∃ es, run step c es = some
      ({ c with bridge := (drainRetryQueue env c.store c.bridge w).bridge }.withStore
        (drainRetryQueue env c.store c.bridge w).store) := by
  have hbegin : step c (.drain i) = some (c.setPass i (some .draining)) :=
    step_of_act hrun (by simp [act, begin, hfree])
  obtain ⟨es, hes⟩ := drainLoop_run env (c := c.setPass i (some .draining))
    (p := ⟨c.store, c.bridge, w, .running⟩) hrun (passes_setPass _ _ _) rfl rfl rfl
    (drainRetryQueue_ends env c.store c.bridge w)
  refine ⟨.drain i :: es, ?_⟩
  rw [run, hbegin, Option.bind_some, hes]
  have hpasses : Function.update (Function.update c.passes i (some .draining)) i none = c.passes := by
    rw [Function.update_idem, ← hfree, Function.update_eq_self]
  simp only [setPass, withStore, hpasses]
  rfl

end Drain

end Hotelia.Process
