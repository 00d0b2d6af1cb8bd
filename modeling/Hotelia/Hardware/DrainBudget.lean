import Hotelia.Hardware.LockDrain

/-!
# How much a drain may claim

The loop of `drainRetryQueue` has no bound: it claims again what it has just failed. It ends
because a row is out of the queue for good after its last try.

## Main definitions

- `Drains` — the loop as it is, and the records that it claims one after the other

## Main results

- `exists_drains`: the loop ends.
- `drain_claims_le`: no more claims than the claimable rows have tries left.
-/

namespace Hotelia.Hardware
open Foundation Foundation.RetryQueue Offline OfflineActionRecord OfflineActionStore

variable {σ : Type*} {env : Encoders σ}

/-- The `for (;;)` of `drainRetryQueue`, until it is left: with the records that it has
claimed, and what it leaves. -/
inductive Drains (env : Encoders σ) :
    DrainPass σ → List OfflineActionRecord → DrainPass σ → Prop where
  /-- Nothing is left to claim. -/
  | stop {p : DrainPass σ} (claim : p.store.claimNext (env.now p.encoders) = none) :
      Drains env p [] { p with ended := .finished }
  /-- The encode of the claimed row is rejected. -/
  | reject {p : DrainPass σ} {record : OfflineActionRecord} {s : OfflineActionStore}
      (claim : p.store.claimNext (env.now p.encoders) = some (record, s))
      (rejected : (drainTurn env p.bridge p.encoders record).mark = none) :
      Drains env p [record] ⟨s, (drainTurn env p.bridge p.encoders record).bridge,
        (drainTurn env p.bridge p.encoders record).encoders, .rejected⟩
  /-- The claimed row is marked, and the loop goes on. -/
  | turn {p p' : DrainPass σ} {record : OfflineActionRecord} {s : OfflineActionStore} {m : Mark}
      {claimed : List OfflineActionRecord}
      (claim : p.store.claimNext (env.now p.encoders) = some (record, s))
      (marked : (drainTurn env p.bridge p.encoders record).mark = some m)
      (rest : Drains env
        { p with
          store := s.mark record.id m.ok m.error
            (env.now (drainTurn env p.bridge p.encoders record).encoders)
          bridge := (drainTurn env p.bridge p.encoders record).bridge
          encoders := env.turn (drainTurn env p.bridge p.encoders record).encoders }
        claimed p') :
      Drains env p (record :: claimed) p'

/-! ## The loop ends -/

/-- Every turn lowers the number of tries that are left. -/
theorem exists_drains (env : Encoders σ) (p : DrainPass σ) :
    ∃ claimed p', Drains env p claimed p' := by
  induction p using WellFounded.induction (measure fun p : DrainPass σ => p.store.triesLeft).wf with
  | _ p ih =>
    cases hclaim : p.store.claimNext (env.now p.encoders) with
    | none => exact ⟨_, _, .stop hclaim⟩
    | some claim =>
      obtain ⟨record, s⟩ := claim
      cases hmark : (drainTurn env p.bridge p.encoders record).mark with
      | none => exact ⟨_, _, .reject hclaim hmark⟩
      | some m =>
        let turn := drainTurn env p.bridge p.encoders record
        obtain ⟨claimed, p', hrest⟩ := ih
          ⟨s.mark record.id m.ok m.error (env.now turn.encoders), turn.bridge,
            env.turn turn.encoders, p.ended⟩ (triesLeft_mark_lt hclaim)
        exact ⟨_, _, .turn hclaim hmark hrest⟩

/-- The loop and the model with a bound on the turns do the same. -/
theorem Drains.drainLoop_eq {p p' : DrainPass σ} {claimed : List OfflineActionRecord}
    (h : Drains env p claimed p') {n : ℕ} (hn : claimed.length < n) : drainLoop env n p = p' := by
  induction h generalizing n with
  | stop claim =>
    obtain ⟨n, rfl⟩ := Nat.exists_eq_add_of_lt hn
    rw [drainLoop_none claim]
  | reject claim rejected =>
    obtain ⟨n, rfl⟩ := Nat.exists_eq_add_of_lt hn
    rw [drainLoop_rejected claim rejected]
  | turn claim marked rest ih =>
    obtain ⟨n, rfl⟩ := Nat.exists_eq_add_of_lt hn
    rw [drainLoop_marked claim marked]
    apply ih
    rw [List.length_cons]
    omega

/-! ## The claims -/

theorem Drains.length_le {p p' : DrainPass σ} {claimed : List OfflineActionRecord}
    (h : Drains env p claimed p') : claimed.length ≤ p.store.triesLeft := by
  induction h with
  | stop claim => exact Nat.zero_le _
  | @reject p record s claim rejected =>
    -- a mark would have lowered the number
    have hlt : (s.mark record.id true "" 0).triesLeft < p.store.triesLeft := triesLeft_mark_lt claim
    exact Nat.succ_le_of_lt (Nat.zero_lt_of_lt hlt)
  | turn claim marked rest ih =>
    rw [List.length_cons]
    exact Nat.lt_of_le_of_lt ih (triesLeft_mark_lt claim)

/-- `drainRetryQueue` is the loop. -/
theorem Drains.drainRetryQueue_eq {s : OfflineActionStore} {c : LockBridge} {w : σ}
    {p' : DrainPass σ} {claimed : List OfflineActionRecord}
    (h : Drains env ⟨s, c, w, .running⟩ claimed p') : drainRetryQueue env s c w = p' :=
  h.drainLoop_eq (Nat.lt_succ_of_le h.length_le)

/-- The tries that are left, row by row. -/
theorem triesLeft_eq (s : OfflineActionStore) :
    s.triesLeft =
      ((s.rows.filter Claimable).map fun r => max 1 (maxRetryCount - r.retryCount)).sum := by
  have hperm :=
    (List.perm_insertionSort (· ≤ ·) ((s.rows.filter Claimable).map ticket)).map Ticket.left
  rw [triesLeft, queue, hperm.sum_eq, List.map_map]
  rfl

/-- If no adapter rejects, every turn marks its row. -/
theorem drainTurn_mark_ne_none (hresolves : ∀ adapter req w, (env.encode adapter req w).1 ≠ none)
    (c : LockBridge) (w : σ) (record : OfflineActionRecord) :
    (drainTurn env c w record).mark ≠ none := by
  rw [drainTurn]
  split
  · exact Option.some_ne_none _
  · next adapter c' _ =>
    dsimp only
    have hanswer := hresolves adapter (encodeRequestOf record) w
    split
    · next hnone =>
      rw [hnone] at hanswer
      exact absurd rfl hanswer
    · exact Option.some_ne_none _

theorem Drains.ended_eq (hresolves : ∀ adapter req w, (env.encode adapter req w).1 ≠ none)
    {p p' : DrainPass σ} {claimed : List OfflineActionRecord} (h : Drains env p claimed p') :
    p'.ended = .finished := by
  induction h with
  | stop claim => rfl
  | reject claim rejected => exact absurd rejected (drainTurn_mark_ne_none hresolves _ _ _)
  | turn claim marked rest ih => exact ih

/-- For every store and all that adapters may answer: the loop ends, with nothing left to claim,
and has claimed no more rows than the claimable ones had tries left. -/
theorem drain_claims_le (env : Encoders σ)
    (hresolves : ∀ adapter req w, (env.encode adapter req w).1 ≠ none) (s : OfflineActionStore)
    (c : LockBridge) (w : σ) :
    (∃ claimed p', Drains env ⟨s, c, w, .running⟩ claimed p') ∧
      ∀ claimed p', Drains env ⟨s, c, w, .running⟩ claimed p' → p'.ended = .finished ∧
        claimed.length ≤ ((s.rows.filter Claimable).map fun r =>
          max 1 (maxRetryCount - r.retryCount)).sum := by
  refine ⟨exists_drains env _, fun claimed p' h => ⟨h.ended_eq hresolves, ?_⟩⟩
  rw [← triesLeft_eq]
  exact h.length_le

/-- A key that waits for its encoder. -/
def waitingKey : OfflineActionStore :=
  (insert ⟨[], List.Pairwise.nil⟩ ⟨"room-key-101", "roomKeyGenerate",
    [("deviceId", .str "LDOOR-01"), ("roomNumber", .str "101"), ("credential", .str "s3cret")]⟩
    "a1" 0).2

/-- An encoder that never acknowledges, asked every ten seconds. -/
def silentEncoder : Encoders ℕ where
  now w := w
  turn w := w + 10000
  encode _ req w := (some ⟨req.deviceId, req.roomNumber, req.credential, .queuedOffline, none,
    some "encoder timed out (5000ms)", w⟩, w)

def oneDoor : LockBridge where
  devices := AList.insert "LDOOR-01" ⟨"LDOOR-01", .tcp, "127.0.0.1:9100", "SALTO-BRIDGE", false⟩ ∅
  channels _ := some (.tcp "127.0.0.1:9100")
  breakers := ∅
  completed := []

/-- The key is claimed at most eight times. -/
theorem drain_claims_le_waitingKey :
    (∃ claimed p', Drains silentEncoder ⟨waitingKey, oneDoor, 0, .running⟩ claimed p') ∧
      ∀ claimed p', Drains silentEncoder ⟨waitingKey, oneDoor, 0, .running⟩ claimed p' →
        p'.ended = .finished ∧ claimed.length ≤ 8 := by
  have hsum : ((waitingKey.rows.filter Claimable).map fun r =>
      max 1 (maxRetryCount - r.retryCount)).sum = 8 := by decide
  rw [← hsum]
  exact drain_claims_le silentEncoder (fun _ _ _ => Option.some_ne_none _) waitingKey oneDoor 0

end Hotelia.Hardware
