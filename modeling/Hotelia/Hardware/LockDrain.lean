import Hotelia.Hardware.LockBridge

/-!
# What a drain does to the rows of others

The drain claims from the queue that the sync engine claims from, so it meets
rows that are not its own. Which drains leave those rows as deliverable as they
were follows from what one turn can do.

## Main results

- `drainRetryQueue_ends`: the loop ends.
- `drain_keeps_foreign_iff`: the rows of others keep their status and their
  budget exactly if none of them can be claimed, or the drain is cut short.
-/

namespace Hotelia.Hardware
open Foundation Foundation.RetryQueue Offline OfflineActionRecord OfflineActionStore

variable {σ : Type*} {env : Encoders σ}

/-! ## One turn -/

/-- A row of another action type is refused. -/
theorem drainStart_foreign (c : LockBridge) {record : OfflineActionRecord} (now : ℕ)
    (h : record.actionType ≠ lockActionType) :
    drainStart c record now = (.error "non-lock action removed from lock drain", c) := by
  rw [drainStart, if_pos h]

/-- It is always marked as failed. -/
theorem drainTurn_foreign (env : Encoders σ) (c : LockBridge) (w : σ) {record : OfflineActionRecord}
    (h : record.actionType ≠ lockActionType) :
    (drainTurn env c w record).mark = some (.failed "non-lock action removed from lock drain") := by
  rw [drainTurn, drainStart_foreign c (env.now w) h]

theorem drainLoop_none {n : ℕ} {p : DrainPass σ} (h : p.store.claimNext (env.now p.encoders) = none) :
    drainLoop env (n + 1) p = { p with ended := .finished } := by
  rw [drainLoop, h]

section Turn

variable {n : ℕ} {p : DrainPass σ} {record : OfflineActionRecord} {s : OfflineActionStore}

/-- A turn whose encode is rejected ends the drain. -/
theorem drainLoop_rejected
    (hclaim : p.store.claimNext (env.now p.encoders) = some (record, s))
    (hmark : (drainTurn env p.bridge p.encoders record).mark = none) :
    drainLoop env (n + 1) p =
      ⟨s, (drainTurn env p.bridge p.encoders record).bridge,
        (drainTurn env p.bridge p.encoders record).encoders, .rejected⟩ := by
  rw [drainLoop, hclaim]
  simp only [hmark]

/-- A turn that marks its row goes on with the rest. -/
theorem drainLoop_marked {m : Mark}
    (hclaim : p.store.claimNext (env.now p.encoders) = some (record, s))
    (hmark : (drainTurn env p.bridge p.encoders record).mark = some m) :
    drainLoop env (n + 1) p = drainLoop env n
      { p with
        store := s.mark record.id m.ok m.error
          (env.now (drainTurn env p.bridge p.encoders record).encoders)
        bridge := (drainTurn env p.bridge p.encoders record).bridge
        encoders := env.turn (drainTurn env p.bridge p.encoders record).encoders } := by
  rw [drainLoop, hclaim]
  simp only [hmark]

end Turn

/-- The induction over the turns of a drain: `P n p` holds of a drain with `n` turns
to go if it holds at the end of the fuel, when nothing is left to claim and when an
encode is rejected, and if a turn passes it back. -/
theorem drainLoop_induct (env : Encoders σ) {P : ℕ → DrainPass σ → Prop}
    (hzero : ∀ p, P 0 p)
    (hnone : ∀ n p, p.store.claimNext (env.now p.encoders) = none →
      drainLoop env (n + 1) p = { p with ended := .finished } → P (n + 1) p)
    (hrejected : ∀ n p record s bridge w,
      p.store.claimNext (env.now p.encoders) = some (record, s) →
      record.actionType = lockActionType →
      drainLoop env (n + 1) p = ⟨s, bridge, w, .rejected⟩ → P (n + 1) p)
    (hmarked : ∀ n p record s bridge w ok error now,
      p.store.claimNext (env.now p.encoders) = some (record, s) →
      (record.actionType ≠ lockActionType → ok = false) →
      let p' : DrainPass σ := ⟨s.mark record.id ok error now, bridge, w, p.ended⟩
      drainLoop env (n + 1) p = drainLoop env n p' → P n p' → P (n + 1) p)
    (n : ℕ) (p : DrainPass σ) : P n p := by
  induction n generalizing p with
  | zero => exact hzero p
  | succ n ih =>
    cases h : p.store.claimNext (env.now p.encoders) with
    | none => exact hnone n p h (drainLoop_none h)
    | some claim =>
      cases hm : (drainTurn env p.bridge p.encoders claim.1).mark with
      | none =>
        have hlock : claim.1.actionType = lockActionType := by
          by_contra hforeign
          rw [drainTurn_foreign env _ _ hforeign] at hm
          cases hm
        exact hrejected n p claim.1 claim.2 _ _ h hlock (drainLoop_rejected h hm)
      | some m =>
        have hok : claim.1.actionType ≠ lockActionType → m.ok = false := by
          intro hforeign
          rw [drainTurn_foreign env _ _ hforeign] at hm
          cases hm
          rfl
        exact hmarked n p claim.1 claim.2 _ _ _ _ _ h hok (drainLoop_marked h hm) (ih _)

/-! ## The loop ends -/

theorem triesLeft_mark_lt {s s₁ : OfflineActionStore} {c : OfflineActionRecord} {now now' : ℕ}
    {ok : Bool} {error : String} (h : s.claimNext now = some (c, s₁)) :
    (s₁.mark c.id ok error now').triesLeft < s.triesLeft := by
  obtain ⟨row, hrow, -, -⟩ := claimNext_eq_some h
  obtain ⟨q, hq⟩ := queue_eq_cons hrow
  rw [triesLeft, triesLeft, queue_mark h, hq]
  exact sum_left_requeue_lt Ticket.budget_left.pos Ticket.budget_left.lt ok row.ticket q

/-- Turns for all the tries that are left are enough for the loop to end. -/
theorem drainLoop_ends {n : ℕ} {p : DrainPass σ} (hn : p.store.triesLeft < n) :
    (drainLoop env n p).ended ≠ .running := by
  revert hn
  refine drainLoop_induct env (P := fun n p => p.store.triesLeft < n →
    (drainLoop env n p).ended ≠ .running) ?_ ?_ ?_ ?_ n p
  · intro p hn
    exact absurd hn (Nat.not_lt_zero _)
  · intro n p _ hloop _
    rw [hloop]
    exact DrainEnd.noConfusion
  · intro n p record s bridge w _ _ hloop _
    rw [hloop]
    exact DrainEnd.noConfusion
  · intro n p record s bridge w ok error now hclaim _ p' hloop ih hn
    rw [hloop]
    apply ih
    have hlt : p'.store.triesLeft < p.store.triesLeft := triesLeft_mark_lt hclaim
    omega

/-- The drain ends. -/
theorem drainRetryQueue_ends (env : Encoders σ) (s : OfflineActionStore) (c : LockBridge) (w : σ) :
    (drainRetryQueue env s c w).ended ≠ .running :=
  drainLoop_ends (Nat.lt_succ_self _)

/-! ## Rows that a drain does not change -/

/-- A drain leaves the rows alone that cannot be claimed. -/
theorem mem_drainLoop_of_not_claimable {n : ℕ} {p : DrainPass σ} {r : OfflineActionRecord}
    (hr : r ∈ p.store.rows) (hc : ¬ r.Claimable) : r ∈ (drainLoop env n p).store.rows := by
  revert hr
  refine drainLoop_induct env (P := fun n p => r ∈ p.store.rows →
    r ∈ (drainLoop env n p).store.rows) ?_ ?_ ?_ ?_ n p
  · intro p hr
    exact hr
  · intro n p _ hloop hr
    rwa [hloop]
  · intro n p record s bridge w hclaim _ hloop hr
    rw [hloop]
    obtain ⟨row', hrow', -, hrows⟩ := claimNext_eq_some hclaim
    obtain ⟨hmem, hrc, -⟩ := findClaimable_eq_some hrow'
    show r ∈ s.rows
    rw [hrows]
    refine List.mem_map.mpr ⟨r, hr, if_neg ?_⟩
    intro hid
    exact hc (p.store.eq_of_id_eq hr hmem hid ▸ hrc)
  · intro n p record s bridge w ok error now hclaim _ p' hloop ih hr
    rw [hloop]
    exact ih (mem_claim_mark_of_not_claimable hclaim hr hc)

/-- The retry count of a row never falls in a drain. -/
theorem retryCount_le_drainLoop (env : Encoders σ) {n : ℕ} {p : DrainPass σ} {r : OfflineActionRecord}
    (hr : r ∈ p.store.rows) :
    ∃ r' ∈ (drainLoop env n p).store.rows, r'.id = r.id ∧ r.retryCount ≤ r'.retryCount := by
  revert r
  refine drainLoop_induct env (P := fun n p => ∀ {r}, r ∈ p.store.rows →
    ∃ r' ∈ (drainLoop env n p).store.rows, r'.id = r.id ∧ r.retryCount ≤ r'.retryCount)
    ?_ ?_ ?_ ?_ n p
  · intro p r hr
    exact ⟨r, hr, rfl, le_rfl⟩
  · intro n p _ hloop r hr
    rw [hloop]
    exact ⟨r, hr, rfl, le_rfl⟩
  · intro n p record s bridge w hclaim _ hloop r hr
    obtain ⟨row', -, -, hrows⟩ := claimNext_eq_some hclaim
    rw [hloop]
    refine ⟨_, hrows ▸ List.mem_map_of_mem hr, ?_, ?_⟩ <;> split <;> rfl
  · intro n p record s bridge w ok error now hclaim _ p' hloop ih r hr
    rw [hloop]
    by_cases hid : r.id = record.id
    · obtain ⟨row', hrow', rfl, -⟩ := claimNext_eq_some hclaim
      obtain rfl := p.store.eq_of_id_eq hr (findClaimable_eq_some hrow').1 hid
      obtain ⟨r', hr', hid', hle⟩ := ih (marked_mem_claim_mark hclaim)
      refine ⟨r', hr', hid'.trans (marked_id _ _ _ _), le_trans ?_ hle⟩
      exact retryCount_le_marked _ _ _ _
    · exact ih (mem_claim_mark_of_ne hclaim hr hid)

theorem retryCount_le_of_mem_drainLoop {n : ℕ} {p : DrainPass σ} {r r' : OfflineActionRecord}
    (hr' : r' ∈ (drainLoop env n p).store.rows) (hr : r ∈ p.store.rows) (hid : r'.id = r.id) :
    r.retryCount ≤ r'.retryCount := by
  obtain ⟨r₁, hr₁, hid₁, hle⟩ := retryCount_le_drainLoop env (n := n) hr
  rwa [eq_of_id_eq _ hr' hr₁ (hid.trans hid₁.symm)]

/-! ## The rows of others -/

/-- Every row of another action type has kept its status and its retry count. -/
def ForeignKept (s s' : OfflineActionStore) : Prop :=
  ∀ r ∈ s.rows, r.actionType ≠ lockActionType →
    ∃ r' ∈ s'.rows, r'.id = r.id ∧ r'.status = r.status ∧ r'.retryCount = r.retryCount

/-- A drain keeps the rows of others if none of them can be claimed. -/
theorem foreignKept_of_not_claimable {n : ℕ} {p : DrainPass σ}
    (h : ∀ r ∈ p.store.rows, r.actionType ≠ lockActionType → ¬ r.Claimable) :
    ForeignKept p.store (drainLoop env n p).store := by
  intro r hr hforeign
  exact ⟨r, mem_drainLoop_of_not_claimable hr (h r hr hforeign), rfl, rfl, rfl⟩

/-- A drain whose first claim is a row of others does not keep it. -/
theorem not_foreignKept_of_claim {n : ℕ} {p : DrainPass σ} {record : OfflineActionRecord}
    {s₁ : OfflineActionStore} (hclaim : p.store.claimNext (env.now p.encoders) = some (record, s₁))
    (hforeign : record.actionType ≠ lockActionType) :
    ¬ ForeignKept p.store (drainLoop env (n + 1) p).store := by
  intro hkept
  have hloop := drainLoop_marked (n := n) hclaim (drainTurn_foreign env p.bridge p.encoders hforeign)
  obtain ⟨row, hrow, rfl, -⟩ := claimNext_eq_some hclaim
  obtain ⟨hmem, -, -⟩ := findClaimable_eq_some hrow
  obtain ⟨r', hr', hid, -, hcount⟩ := hkept row hmem hforeign
  rw [hloop] at hr'
  -- the turn has raised the retry count, and it does not fall again
  have hle := retryCount_le_of_mem_drainLoop hr' (marked_mem_claim_mark hclaim) hid
  rw [hcount] at hle
  exact Nat.not_succ_le_self _ hle

section Foreign

variable {s s₁ : OfflineActionStore} {c : OfflineActionRecord} {now : ℕ}

/-- The mark of a lock row leaves the rows of others as they are. -/
theorem mem_mark_iff_of_foreign (ok : Bool) (error : String) (now' : ℕ)
    (h : s.claimNext now = some (c, s₁))
    (hlock : c.actionType = lockActionType) (r : OfflineActionRecord)
    (hr : r.actionType ≠ lockActionType) :
    r ∈ (s₁.mark c.id ok error now').rows ↔ r ∈ s.rows := by
  refine ⟨fun hmem => ?_, fun hmem => ?_⟩
  · cases mem_claim_mark h hmem with
    | inl hserved =>
      obtain ⟨_, _, _, rfl⟩ := hserved
      exact absurd hlock (marked_actionType ok error now' c ▸ hr)
    | inr hold => exact hold.1
  · apply mem_claim_mark_of_ne h hmem
    intro hid
    obtain ⟨row, hrow, rfl, -⟩ := claimNext_eq_some h
    rw [s.eq_of_id_eq hmem (findClaimable_eq_some hrow).1 hid] at hr
    exact hr hlock

/-- So does its claim. -/
theorem mem_claim_iff_of_foreign (h : s.claimNext now = some (c, s₁))
    (hlock : c.actionType = lockActionType) {r : OfflineActionRecord} (hmem : r ∈ s.rows)
    (hr : r.actionType ≠ lockActionType) : r ∈ s₁.rows := by
  obtain ⟨row, hrow, rfl, hrows⟩ := claimNext_eq_some h
  rw [hrows]
  refine List.mem_map.mpr ⟨r, hmem, if_neg ?_⟩
  intro hid
  rw [s.eq_of_id_eq hmem (findClaimable_eq_some hrow).1 hid] at hr
  exact hr hlock

theorem foreignKept_congr {s s' t : OfflineActionStore}
    (h : ∀ r : OfflineActionRecord, r.actionType ≠ lockActionType → (r ∈ s'.rows ↔ r ∈ s.rows)) :
    ForeignKept s t ↔ ForeignKept s' t := by
  refine forall_congr' fun r => ⟨fun hr hmem hf => ?_, fun hr hmem hf => ?_⟩
  · exact hr ((h r hf).mp hmem) hf
  · exact hr ((h r hf).mpr hmem) hf

end Foreign

/-- An encode is rejected before the turn of a row of others has come: the rows that
are claimed until then are lock rows. -/
inductive CutShort (env : Encoders σ) : OfflineActionStore → LockBridge → σ → Prop where
  /-- The encode for the first row is rejected. -/
  | now {s s₁ : OfflineActionStore} {c : LockBridge} {w : σ} {record : OfflineActionRecord}
      (claim : s.claimNext (env.now w) = some (record, s₁))
      (rejected : (drainTurn env c w record).mark = none) : CutShort env s c w
  /-- The first row is a lock row, and after its turn the encode of a later one is rejected. -/
  | later {s s₁ : OfflineActionStore} {c : LockBridge} {w : σ} {record : OfflineActionRecord}
      {m : Mark} (claim : s.claimNext (env.now w) = some (record, s₁))
      (lock : record.actionType = lockActionType)
      (marked : (drainTurn env c w record).mark = some m)
      (rest : CutShort env
        (s₁.mark record.id m.ok m.error (env.now (drainTurn env c w record).encoders))
        (drainTurn env c w record).bridge (env.turn (drainTurn env c w record).encoders)) :
      CutShort env s c w

section CutShort

variable {s s₁ : OfflineActionStore} {c : LockBridge} {w : σ} {record : OfflineActionRecord}

theorem not_cutShort_of_foreign (h : s.claimNext (env.now w) = some (record, s₁))
    (hforeign : record.actionType ≠ lockActionType) : ¬ CutShort env s c w := by
  intro hcut
  cases hcut with
  | now claim rejected =>
    obtain ⟨rfl, rfl⟩ := Prod.mk.inj (Option.some.inj (h.symm.trans claim))
    rw [drainTurn_foreign env c w hforeign] at rejected
    cases rejected
  | later claim lock =>
    obtain ⟨rfl, rfl⟩ := Prod.mk.inj (Option.some.inj (h.symm.trans claim))
    exact hforeign lock

theorem cutShort_iff_of_marked {m : Mark} (h : s.claimNext (env.now w) = some (record, s₁))
    (hlock : record.actionType = lockActionType) (hm : (drainTurn env c w record).mark = some m) :
    CutShort env s c w ↔ CutShort env
      (s₁.mark record.id m.ok m.error (env.now (drainTurn env c w record).encoders))
      (drainTurn env c w record).bridge (env.turn (drainTurn env c w record).encoders) := by
  refine ⟨fun hcut => ?_, .later h hlock hm⟩
  cases hcut with
  | now claim rejected =>
    obtain ⟨rfl, rfl⟩ := Prod.mk.inj (Option.some.inj (h.symm.trans claim))
    cases hm.symm.trans rejected
  | later claim lock marked rest =>
    obtain ⟨rfl, rfl⟩ := Prod.mk.inj (Option.some.inj (h.symm.trans claim))
    obtain rfl := Option.some.inj (hm.symm.trans marked)
    exact rest

end CutShort

/-- While a row of others can be claimed, a drain keeps the rows of others exactly if
it is cut short before their turn. -/
theorem foreignKept_iff_of_claimable {n : ℕ} {p : DrainPass σ} (hn : p.store.triesLeft < n)
    (hopen : ∃ r ∈ p.store.rows, r.actionType ≠ lockActionType ∧ r.Claimable) :
    ForeignKept p.store (drainLoop env n p).store ↔ CutShort env p.store p.bridge p.encoders := by
  induction n generalizing p with
  | zero => exact absurd hn (Nat.not_lt_zero _)
  | succ n ih =>
    cases hclaim : p.store.claimNext (env.now p.encoders) with
    | none =>
      obtain ⟨r, hr, -, hc⟩ := hopen
      exact absurd hc (claimNext_eq_none.mp hclaim r hr)
    | some claim =>
      obtain ⟨record, s₁⟩ := claim
      by_cases hlock : record.actionType = lockActionType
      · cases hm : (drainTurn env p.bridge p.encoders record).mark with
        | none =>
          refine iff_of_true ?_ (.now hclaim hm)
          rw [drainLoop_rejected hclaim hm]
          intro r hr hforeign
          exact ⟨r, mem_claim_iff_of_foreign hclaim hlock hr hforeign, rfl, rfl, rfl⟩
        | some m =>
          have hforeign := mem_mark_iff_of_foreign m.ok m.error
            (env.now (drainTurn env p.bridge p.encoders record).encoders) hclaim hlock
          rw [drainLoop_marked hclaim hm, cutShort_iff_of_marked hclaim hlock hm,
            foreignKept_congr hforeign]
          apply ih (p := ⟨_, _, _, p.ended⟩)
          · exact Nat.lt_of_lt_of_le (triesLeft_mark_lt hclaim) (Nat.lt_succ_iff.mp hn)
          · obtain ⟨r, hr, hf, hrc⟩ := hopen
            exact ⟨r, (hforeign r hf).mpr hr, hf, hrc⟩
      -- the row of others is claimed first, and failed
      · exact iff_of_false (not_foreignKept_of_claim hclaim hlock)
          (not_cutShort_of_foreign hclaim hlock)

/-- A drain leaves the rows of other action types as deliverable as they were
exactly if none of them can be claimed, or if it is cut short before the first. -/
theorem drain_keeps_foreign_iff (env : Encoders σ) (s : OfflineActionStore) (c : LockBridge)
    (w : σ) :
    (∀ r ∈ s.rows, r.actionType ≠ lockActionType →
      ∃ r' ∈ (drainRetryQueue env s c w).store.rows,
        r'.id = r.id ∧ r'.status = r.status ∧ r'.retryCount = r.retryCount) ↔
    (∀ r ∈ s.rows, r.actionType ≠ lockActionType → ¬ r.Claimable) ∨ CutShort env s c w := by
  by_cases hopen : ∃ r ∈ s.rows, r.actionType ≠ lockActionType ∧ r.Claimable
  · refine (foreignKept_iff_of_claimable (p := ⟨s, c, w, .running⟩) (Nat.lt_succ_self _)
      hopen).trans ?_
    refine ⟨.inr, fun h => h.resolve_left ?_⟩
    obtain ⟨r, hr, hforeign, hc⟩ := hopen
    exact fun hnone => hnone r hr hforeign hc
  · have hnone : ∀ r ∈ s.rows, r.actionType ≠ lockActionType → ¬ r.Claimable :=
      fun r hr hforeign hc => hopen ⟨r, hr, hforeign, hc⟩
    refine iff_of_true ?_ (.inl hnone)
    exact foreignKept_of_not_claimable (p := ⟨s, c, w, .running⟩) hnone

/-- A drain on a bridge without devices fails a waiting check-in until its budget is spent. -/
theorem not_drain_keeps_foreign :
    ¬ ∀ r ∈ (checkins 1 (by decide)).rows, r.actionType ≠ lockActionType →
      ∃ r' ∈ (drainRetryQueue ⟨fun _ => 0, id, fun _ _ w => (none, w)⟩ (checkins 1 (by decide))
        ⟨∅, fun _ => none, ∅, []⟩ ()).store.rows,
        r'.id = r.id ∧ r'.status = r.status ∧ r'.retryCount = r.retryCount := by
  decide +kernel

end Hotelia.Hardware
