import Hotelia.Offline.FlushPass

/-!
# The limits of one flush pass

Which passes deliver each row at most once, and which leave every row that they
claimed marked. Both are conditions on the queue of claimable rows, on the
answers to the requests of the pass, and on its ceiling.
-/

namespace Hotelia.Offline
open Foundation Foundation.RetryQueue OfflineActionRecord OfflineActionStore

section Scripted

variable (e : SyncEngine) (health : Option Bool) (answers : ℕ → Option ℕ) (clock : ℕ → ℕ)

/-- The pass that `flush` makes over the store of `e`. -/
def scriptedPass : FlushPass ℕ := (flush (scripted health answers clock) e 0).2.2

/-- Probing leaves the store alone. -/
@[simp] theorem SyncEngine.probeOnline_store (res : Option Bool) :
    (e.probeOnline res).store = e.store := by
  cases res with
  | none => simp only [SyncEngine.probeOnline]; split <;> rfl
  | some ok => simp only [SyncEngine.probeOnline]; split <;> rfl

theorem scriptedPass_eq : scriptedPass e health answers clock =
    flushLoop (scripted health answers clock) flushCeiling ⟨e.store, 0, 0, [], []⟩ := by
  show flushLoop _ _ ⟨(e.probeOnline health).store, 0, 0, [], []⟩ = _
  rw [e.probeOnline_store]

/-- A pass delivers no row twice, and so no row fails more than once in it,
exactly if every row that fails in its turn, with budget left, goes back behind as
many claimable rows as the pass may deliver. -/
theorem flush_delivers_once_iff :
    (((scriptedPass e health answers clock).attempts.map (·.id)).Nodup ∧
      ∀ r ∈ e.store.rows, ∀ r' ∈ (scriptedPass e health answers clock).store.rows,
        r'.id = r.id → r'.retryCount ≤ r.retryCount + 1) ↔
    ∀ t ∈ e.store.queue, ahead e.store.queue t < flushCeiling →
      deliverOk (answers (ahead e.store.queue t)) = false →
        ∀ u, t.retry = some u → flushCeiling ≤ ahead e.store.queue u := by
  have hnet := answers_scripted health answers clock
  have hR : (0 : ℕ) = 0 := rfl
  have hattempts : (flushLoop (scripted health answers clock) flushCeiling
      ⟨e.store, 0, 0, [], []⟩).attempts.map (·.id) =
      (served Ticket.retry (fun k => deliverOk (answers k)) flushCeiling 0 e.store.queue).map
        Ticket.id := attempts_flushLoop (fun _ _ => rfl) hnet hR
  have honce : ((served Ticket.retry (fun k => deliverOk (answers k)) flushCeiling 0
      e.store.queue).map Ticket.id).Nodup ↔ _ :=
    served_nodup_iff Ticket.lawful_retry e.store.isQueue_queue
  simp only [Nat.zero_add] at honce
  rw [← honce, scriptedPass_eq, ← hattempts]
  refine ⟨And.left, fun hnodup => ⟨hnodup, ?_⟩⟩
  intro r hr r' hr' hid
  obtain ⟨r₀, hr₀, hid₀, hle⟩ := retryCount_flushLoop hnet hR r' hr'
  obtain rfl := e.store.eq_of_id_eq hr₀ hr (hid₀.trans hid)
  have hcount := List.nodup_iff_count_le_one.mp hnodup r'.id
  rw [List.count, List.countP_map] at hcount
  simp only [List.countP_nil, Nat.add_zero] at hle
  exact hle.trans (Nat.add_le_add_left hcount _)

/-- While nothing answers, one check-in is delivered eight times by one pass. -/
theorem not_flush_delivers_once :
    ¬ (((scriptedPass ⟨checkins 1 (by decide), true, []⟩ none (fun _ => none) id).attempts.map
        (·.id)).Nodup ∧
      ∀ r ∈ (checkins 1 (by decide)).rows,
        ∀ r' ∈ (scriptedPass ⟨checkins 1 (by decide), true, []⟩ none (fun _ => none) id).store.rows,
          r'.id = r.id → r'.retryCount ≤ r.retryCount + 1) := by
  decide +kernel

/-- A pass leaves all that it claimed `COMPLETED` or `FAILED` exactly if the
tries that its rows take are not more than it may deliver. -/
theorem flush_settles_claims_iff :
    (∀ c ∈ (scriptedPass e health answers clock).claims,
      ∀ r ∈ (scriptedPass e health answers clock).store.rows, r.id = c.id →
        r.status = .completed ∨ r.status = .failed) ↔
    demand (fun k => deliverOk (answers k)) Ticket.retry Ticket.left
      (e.store.queue.filter (·.rank = 0)) (e.store.queue.filter (·.rank ≠ 0)) 0 ≤ flushCeiling := by
  have hqueue : e.store.queue.filter (·.rank = 0) ++ e.store.queue.filter (·.rank ≠ 0) =
      e.store.queue :=
    filter_append_filter_fresh Ticket.inRounds_retry e.store.isQueue_queue
  have hdemand : rest Ticket.retry (fun k => deliverOk (answers k)) flushCeiling 0
      (e.store.queue.filter (·.rank = 0) ++ e.store.queue.filter (·.rank ≠ 0)) = [] ↔ _ :=
    rest_eq_nil_iff_demand_le Ticket.inRounds_retry Ticket.budget_left
      (hqueue.symm ▸ e.store.isQueue_queue)
      (fun t ht => by simpa [Ticket.Fresh] using (List.mem_filter.mp ht).2)
      (fun t ht => by simpa [Ticket.Fresh] using (List.mem_filter.mp ht).2)
  rw [hqueue] at hdemand
  rw [← hdemand, scriptedPass_eq]
  exact settledClaims_flushLoop_iff (answers_scripted health answers clock) rfl
    (by simp [SettledClaims])

/-- The last of 501 check-ins is claimed by the pass that delivers the others,
and stays `PROCESSING`. -/
theorem not_flush_settles_claims :
    ¬ ∀ c ∈ (scriptedPass ⟨checkins 501 (by decide), true, []⟩ (some true) (fun _ => some 202)
        id).claims,
      ∀ r ∈ (scriptedPass ⟨checkins 501 (by decide), true, []⟩ (some true) (fun _ => some 202)
        id).store.rows, r.id = c.id → r.status = .completed ∨ r.status = .failed := by
  rw [scriptedPass_eq]
  intro hsettled
  have hrest := (settledClaims_flushLoop_iff (k := 0)
    (answers_scripted (some true) (fun _ => some 202) id) rfl (by simp [SettledClaims])).mp hsettled
  have hok : ∀ _ : ℕ, deliverOk (some 202) = true := fun _ => by decide
  rw [rest_of_all_ok hok] at hrest
  have hlen := length_queue_checkins 501 (by decide)
  have hle := List.drop_eq_nil_iff.mp hrest
  simp only [flushCeiling] at hle
  omega

end Scripted

end Hotelia.Offline
