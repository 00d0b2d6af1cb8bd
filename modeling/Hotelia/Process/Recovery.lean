import Hotelia.Process.Interleaving

/-!
# Recovery after a kill

`start()` puts back the rows that a killed process has left `PROCESSING`, once,
and only those that were claimed more than thirty seconds before.

## Main results

- `recovery_iff`: which restarts of a run recover all rows.
-/

namespace Hotelia.Process
open Foundation Offline Console

/-- No row is `PROCESSING`, so every row that is not delivered and has budget left
can be claimed. -/
def Recovered (s : OfflineActionStore) : Prop :=
  ∀ r ∈ s.rows, r.status ≠ .processing ∧
    (r.status ≠ .completed → r.retryCount < maxRetryCount → r.Claimable)

instance (s : OfflineActionStore) : Decidable (Recovered s) :=
  inferInstanceAs (Decidable (∀ r ∈ s.rows, r.status ≠ .processing ∧
    (r.status ≠ .completed → r.retryCount < maxRetryCount → r.Claimable)))

/-- It is enough that no row is `PROCESSING`. -/
theorem recovered_iff {s : OfflineActionStore} :
    Recovered s ↔ ∀ r ∈ s.rows, r.status ≠ .processing := by
  refine forall₂_congr fun r _ => and_iff_left_of_imp fun hnot hcompleted hbudget => ?_
  cases hs : r.status with
  | pending => exact .inl hs
  | failed => exact .inr ⟨hs, hbudget⟩
  | processing => exact absurd hs hnot
  | completed => exact absurd hs hcompleted

/-- A requeue recovers the rows exactly if all that are `PROCESSING` are stale. -/
theorem recovered_requeue_iff (s : OfflineActionStore) (beforeMs now : ℕ) :
    Recovered (s.requeueStaleProcessing beforeMs now).2 ↔
      ∀ r ∈ s.rows, r.status = .processing → r.updatedAt + beforeMs < now := by
  rw [recovered_iff]
  refine ⟨fun h r hr hp => ?_, fun h r' hr' => ?_⟩
  · by_contra hfresh
    have hstale : ¬ OfflineActionStore.Stale beforeMs now r := fun hs => hfresh hs.2
    exact h r (List.mem_map.mpr ⟨r, hr, by simp [hstale]⟩) hp
  · obtain ⟨r, hr, rfl⟩ := List.mem_map.mp hr'
    by_cases hp : r.status = .processing
    · have hstale : OfflineActionStore.Stale beforeMs now r := ⟨hp, h r hr hp⟩
      simp [hstale, OfflineActionRecord.requeued]
    · have hstale : ¬ OfflineActionStore.Stale beforeMs now r := fun hs => hp hs.1
      simpa [hstale] using hp

/-- A restart finds the `PROCESSING` rows claimed more than thirty seconds ago. -/
def LateBoot (c : Console) : Event → Prop
  | .boot _ now => ∀ r ∈ c.store.rows, r.status = .processing → r.updatedAt + 30000 < now
  | _ => True

/-- In every run of the console: each restart leaves no row `PROCESSING`, and every
undelivered row with budget left claimable, exactly if each restart comes more than
thirty seconds after the last change of every row that it finds `PROCESSING`. -/
theorem recovery_iff {es : List Event} {c : Console} (h : run step off es = some c) :
    (∀ pre bridge now c', pre ++ [.boot bridge now] <+: es →
      run step off (pre ++ [.boot bridge now]) = some c' → Recovered c'.store) ↔
      Along step LateBoot off es := by
  -- what has to hold after an event, which is nothing unless it is a restart
  let P : Event → Console → Prop := fun e c =>
    ∀ bridge now, e = .boot bridge now → Recovered c.store
  have hstep : ∀ c e c', step c e = some c' → (P e c' ↔ LateBoot c e) := by
    intro c e c' hs
    cases e with
    | boot bridge now =>
      cases step_cases hs with
      | inl hact => cases hact.2
      | inr hboot =>
        obtain ⟨bridge', now', he, -, rfl⟩ := hboot
        cases he
        refine ⟨fun h => ?_, fun h _ _ _ => ?_⟩
        · exact (recovered_requeue_iff _ _ _).mp (h bridge now rfl)
        · exact (recovered_requeue_iff _ _ _).mpr h
    | _ => exact iff_of_true (fun _ _ he => nomatch he) trivial
  rw [← forall_snoc_iff_along hstep h]
  refine ⟨?_, ?_⟩
  · intro hall pre e c' hpre hrun bridge now he
    subst he
    exact hall pre bridge now c' hpre hrun
  · intro hall pre bridge now c' hpre hrun
    exact hall pre (.boot bridge now) c' hpre hrun bridge now rfl

/-- A process is killed while it delivers a check-in and started again `delay` later. -/
def killedWhileDelivering (delay : ℕ) : List Event :=
  [.boot off.bridge 0, .enqueue ⟨"check-in-001", "checkin", []⟩ "a1" 1, .flush 0,
    .probed 0 (some true), .claimNext 0 2, .crash, .boot off.bridge (2 + delay)]

theorem recovery_iff_late :
    ∃ c, run step off (killedWhileDelivering 30001) = some c ∧
      ((∀ pre bridge now c', pre ++ [.boot bridge now] <+: killedWhileDelivering 30001 →
        run step off (pre ++ [.boot bridge now]) = some c' → Recovered c'.store) ↔
        Along step LateBoot off (killedWhileDelivering 30001)) := by
  have hsome : (run step off (killedWhileDelivering 30001)).isSome = true := by decide +kernel
  obtain ⟨c, hc⟩ := Option.isSome_iff_exists.mp hsome
  exact ⟨c, hc, recovery_iff hc⟩

/-- A restart ten seconds after the claim leaves the row `PROCESSING`. -/
theorem not_recovery_early :
    ¬ ∀ es bridge now c, run step off (es ++ [.crash, .boot bridge now]) = some c →
      Recovered c.store := by
  intro h
  have hsome : (run step off (killedWhileDelivering 10000)).isSome = true := by decide +kernel
  have hlost : ∀ c ∈ run step off (killedWhileDelivering 10000), ¬ Recovered c.store := by
    decide +kernel
  obtain ⟨c, hc⟩ := Option.isSome_iff_exists.mp hsome
  exact hlost c hc (h ((killedWhileDelivering 10000).take 5) off.bridge 10002 c hc)

end Hotelia.Process
