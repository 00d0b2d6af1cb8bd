import Hotelia.Foundation.Holders
import Hotelia.Offline.ClaimQueue

/-!
# Rows in the hands of passes

Several passes work on one store: each claims a row, holds it while it waits for
an answer, and marks it. Marks do not look at the status of the row, so what keeps
the passes out of each other's way is that the rows in their hands are `PROCESSING`
and that no claim takes such a row.

## Main results

- `Safe.move`: the invariant of the rows in hand.
- `Move.completed_mem`: a move leaves completed rows alone.
-/

namespace Hotelia.Offline
open Foundation OfflineActionRecord OfflineActionStore

variable {ι : Type*} [DecidableEq ι]

/-- A store, with the record that each pass has claimed and not marked yet. -/
structure Desk (ι : Type*) where
  store : OfflineActionStore
  held : ι → Option OfflineActionRecord

/-- What can happen to a store and to the rows in hand. -/
inductive Move : Desk ι → Desk ι → Prop
  | stay (d : Desk ι) : Move d d
  | insert (d : Desk ι) (input : SyncEnqueueInput) (uuid : String) (now : ℕ) :
      Move d ⟨(d.store.insert input uuid now).2, d.held⟩
  /-- `i` claims a row. -/
  | claim (d : Desk ι) (i : ι) (now : ℕ) (record : OfflineActionRecord) (s : OfflineActionStore)
      (h : d.store.claimNext now = some (record, s)) :
      Move d ⟨s, Function.update d.held i (some record)⟩
  /-- `i` claims a row and drops it, as `flush` does at its ceiling. -/
  | overrun (d : Desk ι) (i : ι) (now : ℕ) (record : OfflineActionRecord) (s : OfflineActionStore)
      (h : d.store.claimNext now = some (record, s)) :
      Move d ⟨s, Function.update d.held i none⟩
  /-- `i` marks the row it holds. -/
  | mark (d : Desk ι) (i : ι) (record : OfflineActionRecord) (ok : Bool) (error : String) (now : ℕ)
      (h : d.held i = some record) :
      Move d ⟨d.store.mark record.id ok error now, Function.update d.held i none⟩
  /-- `i` ends without a mark. -/
  | drop (d : Desk ι) (i : ι) : Move d ⟨d.store, Function.update d.held i none⟩
  | kill (d : Desk ι) : Move d ⟨d.store, fun _ => none⟩
  /-- Recovery, which leaves no row in hand. -/
  | requeue (d : Desk ι) (beforeMs now : ℕ) :
      Move d ⟨(d.store.requeueStaleProcessing beforeMs now).2, fun _ => none⟩

/-- The rows in hand are `PROCESSING`, each in one pair of hands, and no row that can
still be claimed or marked has used up its budget. -/
structure Safe (d : Desk ι) : Prop where
  processing : ∀ i record, d.held i = some record →
    ∃ r ∈ d.store.rows, r.id = record.id ∧ r.status = .processing
  apart : Apart OfflineActionRecord.id d.held
  bounded : ∀ r ∈ d.store.rows, r.retryCount ≤ maxRetryCount
  budget : ∀ r ∈ d.store.rows, r.status = .pending ∨ r.status = .processing →
    r.retryCount < maxRetryCount

namespace Safe

variable {d : Desk ι}

omit [DecidableEq ι] in
/-- The row with the id of a record in hand is `PROCESSING`. -/
theorem processing_of_held (h : Safe d) {i : ι} {record r : OfflineActionRecord}
    (hi : d.held i = some record) (hr : r ∈ d.store.rows) (hid : r.id = record.id) :
    r.status = .processing := by
  obtain ⟨r', hr', hid', hstatus⟩ := h.processing i record hi
  rw [d.store.eq_of_id_eq hr hr' (hid.trans hid'.symm)]
  exact hstatus

/-! ## Step by step -/

section Claim

variable {i : ι} {now : ℕ} {record : OfflineActionRecord} {s : OfflineActionStore}

omit [DecidableEq ι] in
/-- After a claim the rows of others are `PROCESSING` still, and so is the claimed one. -/
theorem processing_claim (h : Safe d) (hc : d.store.claimNext now = some (record, s)) :
    (∀ j held, d.held j = some held → ∃ r ∈ s.rows, r.id = held.id ∧ r.status = .processing) ∧
      ∃ r ∈ s.rows, r.id = record.id ∧ r.status = .processing := by
  obtain ⟨row, hrow, rfl, hrows⟩ := claimNext_eq_some hc
  obtain ⟨hmem, -, -⟩ := findClaimable_eq_some hrow
  refine ⟨?_, row.claimed now, ?_, rfl, rfl⟩
  · intro j held hj
    obtain ⟨r, hr, hid, hstatus⟩ := h.processing j held hj
    rw [hrows]
    refine ⟨_, List.mem_map_of_mem hr, ?_⟩
    split
    · exact ⟨hid, rfl⟩
    · exact ⟨hid, hstatus⟩
  · rw [hrows]
    exact List.mem_map.mpr ⟨row, hmem, if_pos rfl⟩

omit [DecidableEq ι] in
/-- No pass holds the row that is claimed next. -/
theorem free_claim (h : Safe d) (hc : d.store.claimNext now = some (record, s)) :
    ∀ j held, d.held j = some held → held.id ≠ record.id := by
  obtain ⟨row, hrow, rfl, -⟩ := claimNext_eq_some hc
  obtain ⟨hmem, hclaimable, -⟩ := findClaimable_eq_some hrow
  intro j held hj hid
  exact hclaimable.not_processing (h.processing_of_held hj hmem hid.symm)

omit [DecidableEq ι] in
/-- A claimed row keeps its count, which is below the maximum. -/
theorem counts_claim (h : Safe d) (hc : d.store.claimNext now = some (record, s)) :
    ∀ r' ∈ s.rows, r'.retryCount ≤ maxRetryCount ∧
      (r'.status = .pending ∨ r'.status = .processing → r'.retryCount < maxRetryCount) := by
  obtain ⟨row, hrow, rfl, hrows⟩ := claimNext_eq_some hc
  obtain ⟨hmem, hclaimable, -⟩ := findClaimable_eq_some hrow
  intro r' hr'
  rw [hrows] at hr'
  obtain ⟨r, hr, rfl⟩ := List.mem_map.mp hr'
  split
  · next hid =>
    rw [d.store.eq_of_id_eq hr hmem hid]
    have hlt : row.retryCount < maxRetryCount := by
      cases hclaimable with
      | inl hp => exact h.budget row hmem (.inl hp)
      | inr hf => exact hf.2
    exact ⟨hlt.le, fun _ => hlt⟩
  · exact ⟨h.bounded r hr, h.budget r hr⟩

theorem claim (h : Safe d) (hc : d.store.claimNext now = some (record, s)) :
    Safe ⟨s, Function.update d.held i (some record)⟩ where
  processing j held hj := by
    cases update_eq_some hj with
    | inl hnew => exact Option.some.inj hnew.2 ▸ (h.processing_claim hc).2
    | inr hold => exact (h.processing_claim hc).1 j held hold.2
  apart := h.apart.take i (h.free_claim hc)
  bounded r hr := (h.counts_claim hc r hr).1
  budget r hr := (h.counts_claim hc r hr).2

end Claim

/-- Letting go of rows is always safe. -/
theorem release (h : Safe d) (i : ι) : Safe ⟨d.store, Function.update d.held i none⟩ where
  processing j held hj := by
    cases update_eq_some hj with
    | inl hnew => exact nomatch hnew.2
    | inr hold => exact h.processing j held hold.2
  apart := h.apart.release i
  bounded := h.bounded
  budget := h.budget

theorem mark (h : Safe d) {i : ι} {record : OfflineActionRecord} (hi : d.held i = some record)
    (ok : Bool) (error : String) (now : ℕ) :
    Safe ⟨d.store.mark record.id ok error now, Function.update d.held i none⟩ where
  processing j held hj := by
    cases update_eq_some hj with
    | inl hnew => exact nomatch hnew.2
    | inr hold =>
      obtain ⟨r, hr, hid, hstatus⟩ := h.processing j held hold.2
      -- another pass holds another row
      have hne : r.id ≠ record.id := fun he => hold.1 (h.apart j i held record hold.2 hi (hid ▸ he))
      refine ⟨r, ?_, hid, hstatus⟩
      rw [mark_rows]
      exact List.mem_map.mpr ⟨r, hr, if_neg hne⟩
  apart := h.apart.release i
  bounded r' hr' := by
    rw [mark_rows] at hr'
    obtain ⟨r, hr, rfl⟩ := List.mem_map.mp hr'
    split
    · next hid =>
      have hlt := h.budget r hr (.inr (h.processing_of_held hi hr hid))
      exact (marked_retryCount_le ok error now r).trans hlt
    · exact h.bounded r hr
  budget r' hr' := by
    rw [mark_rows] at hr'
    obtain ⟨r, hr, rfl⟩ := List.mem_map.mp hr'
    split
    · cases settled_marked ok error now r with
      | inl hc => simp [hc]
      | inr hf => simp [hf]
    · exact h.budget r hr

omit [DecidableEq ι] in
theorem insert (h : Safe d) (input : SyncEnqueueInput) (uuid : String) (now : ℕ) :
    Safe ⟨(d.store.insert input uuid now).2, d.held⟩ where
  processing j held hj := by
    obtain ⟨r, hr, hrow⟩ := h.processing j held hj
    exact ⟨r, d.store.mem_insertOrIgnore_of_mem _ hr, hrow⟩
  apart := h.apart
  bounded r hr := by
    cases d.store.mem_of_mem_insertOrIgnore _ hr with
    | inl hold => exact h.bounded r hold
    | inr hnew => rw [hnew]; exact Nat.zero_le _
  budget r hr := by
    cases d.store.mem_of_mem_insertOrIgnore _ hr with
    | inl hold => exact h.budget r hold
    | inr hnew => rw [hnew]; exact fun _ => Nat.zero_lt_succ 7

omit [DecidableEq ι] in
theorem requeue (h : Safe d) (beforeMs now : ℕ) :
    Safe (⟨(d.store.requeueStaleProcessing beforeMs now).2, fun _ => none⟩ : Desk ι) := by
  have hrows : ∀ r' ∈ (d.store.requeueStaleProcessing beforeMs now).2.rows,
      ∃ r ∈ d.store.rows, r' = if Stale beforeMs now r then r.requeued now else r := by
    intro r' hr'
    obtain ⟨r, hr, he⟩ := List.mem_map.mp hr'
    exact ⟨r, hr, by simpa using he.symm⟩
  refine ⟨fun _ _ hj => (nomatch hj), apart_none, ?_, ?_⟩
  · intro r' hr'
    obtain ⟨r, hr, rfl⟩ := hrows r' hr'
    split
    · exact h.bounded r hr
    · exact h.bounded r hr
  · intro r' hr'
    obtain ⟨r, hr, rfl⟩ := hrows r' hr'
    split
    · next hstale => exact fun _ => h.budget r hr (.inr hstale.1)
    · exact h.budget r hr

/-- Every move keeps the rows in hand safe. -/
theorem move {d' : Desk ι} (h : Safe d) (hm : Move d d') : Safe d' := by
  cases hm with
  | stay => exact h
  | insert input uuid now => exact h.insert input uuid now
  | claim i now record s hc => exact h.claim hc
  | overrun i now record s hc =>
    -- a claim that is let go at once
    have hclaim : Safe ⟨s, Function.update d.held i (some record)⟩ := h.claim hc
    simpa using hclaim.release i
  | mark i record ok error now hi => exact h.mark hi ok error now
  | drop i => exact h.release i
  | kill => exact ⟨fun _ _ hj => (nomatch hj), apart_none, h.bounded, h.budget⟩
  | requeue beforeMs now => exact h.requeue beforeMs now

end Safe

/-- A move leaves completed rows alone. -/
theorem Move.completed_mem {d d' : Desk ι} (hm : Move d d') (h : Safe d) {r : OfflineActionRecord}
    (hr : r ∈ d.store.rows) (hdone : r.status = .completed) : r ∈ d'.store.rows := by
  have hclaim : ∀ {now record s}, d.store.claimNext now = some (record, s) → r ∈ s.rows := by
    intro now record s hc
    obtain ⟨row, hrow, -, hrows⟩ := claimNext_eq_some hc
    obtain ⟨hmem, hclaimable, -⟩ := findClaimable_eq_some hrow
    have hne : r.id ≠ row.id := by
      intro hid
      exact hclaimable.not_completed (d.store.eq_of_id_eq hr hmem hid ▸ hdone)
    rw [hrows]
    exact List.mem_map.mpr ⟨r, hr, if_neg hne⟩
  cases hm with
  | stay => exact hr
  | insert input uuid now => exact d.store.mem_insertOrIgnore_of_mem _ hr
  | claim i now record s hc => exact hclaim hc
  | overrun i now record s hc => exact hclaim hc
  | mark i record ok error now hi =>
    -- the row in hand is `PROCESSING`, so it is another row
    have hne : r.id ≠ record.id := by
      intro hid
      rw [h.processing_of_held hi hr hid] at hdone
      cases hdone
    rw [mark_rows]
    exact List.mem_map.mpr ⟨r, hr, if_neg hne⟩
  | drop i => exact hr
  | kill => exact hr
  | requeue beforeMs now =>
    have hstale : ¬ Stale beforeMs now r := by
      intro hs
      rw [hs.1] at hdone
      cases hdone
    exact List.mem_map.mpr ⟨r, hr, by simp [hstale]⟩

end Hotelia.Offline
