import Hotelia.Offline.PassLimits
import Hotelia.Offline.RowHistory

/-!
# A pass that delivers everything

While every request is answered well, a pass of `flush` serves its queue from the front
to the end, if that is not beyond its ceiling. The queue is sorted, so the rows are
delivered in the order in which they were created.

## Main results

- `flush_in_order`: what such a pass posts, and what it makes of the rows.
-/

namespace Hotelia.Offline
open Foundation Foundation.RetryQueue OfflineActionRecord OfflineActionStore

/-! ## Answers -/

section Delivers

variable {σ : Type*} (net : Backend σ)

/-- The first `n` requests of a pass, if there are as many, count as delivered. -/
def Delivers : ℕ → OfflineActionStore → σ → Prop
  | 0, _, _ => True
  | n + 1, s, w => ∀ c s₁, s.claimNext (net.now w) = some (c, s₁) →
      deliverOk (net.post c.packet w).1 = true ∧
        Delivers n (s₁.settle c.id true (net.now (net.post c.packet w).2)) (net.post c.packet w).2

theorem answers_delivers :
    Answers net (fun _ => true) fun _ s w => ∀ n, Delivers net n s w := by
  intro k s w c s₁ h hclaim
  exact ⟨(h 1 c s₁ hclaim).1, fun n => (h (n + 1) c s₁ hclaim).2⟩

variable {net}

/-- A backend that takes whatever it is sent. -/
theorem delivers_of_post (h : ∀ req w, deliverOk (net.post req w).1 = true) (n : ℕ)
    (s : OfflineActionStore) (w : σ) : Delivers net n s w := by
  induction n generalizing s w with
  | zero => trivial
  | succ n ih => exact fun c s₁ _ => ⟨h c.packet w, ih _ _⟩

end Delivers

/-! ## The rows -/

/-- What a row is posted as, and which row it is. -/
def OfflineActionRecord.posting (r : OfflineActionRecord) : String × PacketRequest :=
  (r.id, r.packet)

theorem OfflineActionRecord.posting_of_contents {r r' : OfflineActionRecord}
    (h : r.contents = r'.contents) : r.posting = r'.posting := by
  simp only [contents, Prod.mk.injEq] at h
  obtain ⟨hid, hkey, htype, hpayload⟩ := h
  rw [posting, posting, packet, packet, hid, hkey, htype, hpayload]

section Loop

variable {σ : Type*} {net : Backend σ} {ok : ℕ → Bool} {R : ℕ → OfflineActionStore → σ → Prop}

/-- Every record that a pass posts has the contents of a row. -/
theorem contents_attempts (hnet : Answers net ok R) {n k : ℕ} {p : FlushPass σ}
    (hR : R k p.store p.backend) : ∀ c ∈ (flushLoop net n p).attempts,
      c ∈ p.attempts ∨ ∃ r ∈ p.store.rows, r.contents = c.contents := by
  refine flushLoop_induct hnet (P := fun n k p => ∀ c ∈ (flushLoop net n p).attempts,
    c ∈ p.attempts ∨ ∃ r ∈ p.store.rows, r.contents = c.contents) ?_ ?_ ?_ hR
  · intro n k p _ _ hloop c hc
    rw [hloop] at hc
    exact .inl hc
  · intro k p c s _ _ hloop d hd
    rw [hloop] at hd
    exact .inl hd
  · intro n k p c s now' w _ hclaim p' hloop ih d hd
    rw [hloop] at hd
    obtain ⟨row, hrow, rfl, -⟩ := claimNext_eq_some hclaim
    obtain hd | ⟨r, hr, hcontents⟩ := ih d hd
    · obtain hd | hd := List.mem_append.mp hd
      · exact .inl hd
      · rw [List.mem_singleton.mp hd]
        exact .inr ⟨row, (findClaimable_eq_some hrow).1, rfl⟩
    · right
      obtain ⟨row', hrow', hrow'c, rfl⟩ | ⟨hr, -⟩ := mem_claim_mark hclaim hr
      · rw [contents_marked, hrow'c, contents_claimed] at hcontents
        exact ⟨row', hrow', hcontents⟩
      · exact ⟨r, hr, hcontents⟩

/-- To serve a row well, and then complete the rows that can be claimed, is to complete all
of them. -/
theorem completed_claim_mark {s : OfflineActionStore} {row : OfflineActionRecord}
    (hmem : row ∈ s.rows) (hclaimable : row.Claimable) (error : String) (now now' : ℕ)
    (doneAt : String → ℕ) :
    (s.rows.map fun r => if r.id = row.id then (r.claimed now).marked true error now' else r).map
        (fun r => if r.Claimable then r.completed (doneAt r.id) else r) =
      s.rows.map fun r =>
        if r.Claimable then r.completed (Function.update doneAt row.id now' r.id) else r := by
  rw [List.map_map]
  apply List.map_congr_left
  intro r hr
  by_cases hid : r.id = row.id
  · obtain rfl := s.eq_of_id_eq hr hmem hid
    have hserved : (r.claimed now).marked true error now' = r.completed now' := rfl
    have hdone : ¬ (r.completed now').Claimable := fun hc => hc.not_completed rfl
    rw [Function.comp_apply, if_pos rfl, hserved, if_neg hdone, if_pos hclaimable,
      Function.update_self]
  · rw [Function.comp_apply, if_neg hid, Function.update_of_ne hid]

/-- A pass whose requests all succeed completes the rows that can be claimed, and changes
no other. -/
theorem rows_flushLoop (hnet : Answers net (fun _ => true) R) {n k : ℕ} {p : FlushPass σ}
    (hR : R k p.store p.backend) (hn : p.store.queue.length ≤ n) :
    ∃ doneAt : String → ℕ, (flushLoop net n p).store.rows =
      p.store.rows.map fun r => if r.Claimable then r.completed (doneAt r.id) else r := by
  revert hn
  refine flushLoop_induct hnet (P := fun n k p => p.store.queue.length ≤ n →
    ∃ doneAt : String → ℕ, (flushLoop net n p).store.rows =
      p.store.rows.map fun r => if r.Claimable then r.completed (doneAt r.id) else r)
    ?_ ?_ ?_ hR
  · intro n k p _ hnone hloop _
    refine ⟨fun _ => 0, ?_⟩
    have hrows : p.store.rows.map (fun r => if r.Claimable then r.completed 0 else r) =
        p.store.rows.map fun r => r :=
      List.map_congr_left fun r hr => if_neg (claimNext_eq_none.mp hnone r hr)
    rw [hloop, hrows, List.map_id']
  · intro k p c s _ hclaim _ hn
    obtain ⟨row, hrow, -, -⟩ := claimNext_eq_some hclaim
    obtain ⟨q, hq⟩ := queue_eq_cons hrow
    rw [hq] at hn
    exact absurd hn (Nat.not_succ_le_zero _)
  · intro n k p c s now' w _ hclaim p' hloop ih hn
    obtain ⟨row, hrow, rfl, hrows⟩ := claim_mark_rows true deliveryFailed now' hclaim
    obtain ⟨hmem, hclaimable, -⟩ := findClaimable_eq_some hrow
    obtain ⟨q, hq⟩ := queue_eq_cons hrow
    have hqueue : p'.store.queue = requeue Ticket.retry true p.store.queue := queue_mark hclaim
    rw [hq, requeue_true] at hqueue
    rw [hq] at hn
    obtain ⟨doneAt, hdone⟩ := ih (hqueue ▸ Nat.le_of_succ_le_succ hn)
    have hrows' : p'.store.rows = _ := hrows
    refine ⟨Function.update doneAt row.id now', ?_⟩
    rw [hloop, hdone, hrows']
    exact completed_claim_mark hmem hclaimable _ _ _ _

/-! ## The order -/

/-- A pass that may deliver all of its queue and fails nowhere posts the rows of the queue. -/
theorem attempts_of_ok {β : Type*} {f : OfflineActionRecord → β} {g : Ticket → β}
    (hfg : ∀ (row : OfflineActionRecord) now, f (row.claimed now) = g row.ticket)
    (hnet : Answers net (fun _ => true) R) {n k : ℕ} {s : OfflineActionStore} {w : σ}
    (hR : R k s w) (hn : s.queue.length ≤ n) :
    (flushLoop net n ⟨s, w, 0, [], []⟩).attempts.map f = s.queue.map g := by
  rw [attempts_flushLoop hfg hnet (p := ⟨s, w, 0, [], []⟩) hR, served_of_all_ok fun _ => rfl,
    List.take_of_length_le hn]
  rfl

theorem length_queue (s : OfflineActionStore) :
    s.queue.length = (s.rows.filter Claimable).length := by
  rw [OfflineActionStore.queue, List.length_insertionSort, List.length_map]

/-- The ids of the queue are those of the claimable rows. -/
theorem ids_queue_perm (s : OfflineActionStore) :
    (s.queue.map Ticket.id).Perm ((s.rows.filter Claimable).map (·.id)) := by
  have hperm :=
    (List.perm_insertionSort (· ≤ ·) ((s.rows.filter Claimable).map ticket)).map Ticket.id
  rwa [List.map_map] at hperm

/-- While only `PENDING` rows can be claimed, the queue is in the order of creation. -/
theorem queue_created_order {s : OfflineActionStore}
    (hpending : ∀ r ∈ s.rows, r.Claimable → r.status = .pending) :
    (s.queue.map Ticket.createdAt).Pairwise (· ≤ ·) := by
  have hrank : ∀ t ∈ s.queue, t.rank = 0 := by
    intro t ht
    obtain ⟨r, hr, hc, rfl⟩ := mem_queue.mp ht
    show r.rank = 0
    rw [rank, hpending r hr hc]
  rw [List.pairwise_map]
  refine s.isQueue_queue.increasing.imp_of_mem ?_
  intro t u ht hu hlt
  rw [Ticket.lt_iff, hrank t ht, hrank u hu] at hlt
  omega

/-- The postings of a pass are those of the claimable rows, if their ids are. -/
theorem postings_perm {s : OfflineActionStore} {attempts : List OfflineActionRecord}
    (hids : (attempts.map (·.id)).Perm ((s.rows.filter Claimable).map (·.id)))
    (hcontents : ∀ c ∈ attempts, ∃ r ∈ s.rows, r.contents = c.contents) :
    (attempts.map posting).Perm ((s.rows.filter Claimable).map posting) := by
  have hrows : ((s.rows.filter Claimable).map (·.id)).Nodup :=
    (List.filter_sublist.map _).nodup s.nodup_ids
  -- the record of an id and the row of that id are posted alike
  have hsame : ∀ c ∈ attempts, ∀ r ∈ s.rows, c.id = r.id → c.posting = r.posting := by
    intro c hc r hr hid
    obtain ⟨r', hr', h⟩ := hcontents c hc
    have hid' : r'.id = c.id := congrArg Prod.fst h
    rw [← s.eq_of_id_eq hr' hr (hid'.trans hid)]
    exact (posting_of_contents h).symm
  have hnodup {l : List OfflineActionRecord} (h : (l.map (·.id)).Nodup) : (l.map posting).Nodup :=
    List.Nodup.of_map Prod.fst (by rwa [List.map_map])
  rw [List.perm_ext_iff_of_nodup (hnodup (hids.nodup_iff.mpr hrows)) (hnodup hrows)]
  intro x
  rw [List.mem_map, List.mem_map]
  constructor
  · rintro ⟨c, hc, rfl⟩
    obtain ⟨r, hr, hid⟩ := List.mem_map.mp (hids.mem_iff.mp (List.mem_map_of_mem hc))
    exact ⟨r, hr, (hsame c hc r (List.mem_filter.mp hr).1 hid.symm).symm⟩
  · rintro ⟨r, hr, rfl⟩
    obtain ⟨c, hc, hid⟩ := List.mem_map.mp (hids.mem_iff.mpr (List.mem_map_of_mem hr))
    exact ⟨c, hc, hsame c hc r (List.mem_filter.mp hr).1 hid⟩

end Loop

/-! ## The pass of `flush` -/

section Flush

variable {σ : Type*} (net : Backend σ) (e : SyncEngine) (b : σ)

theorem flush_pass : (flush net e b).2.2 =
    flushLoop net flushCeiling ⟨e.store, (net.health b).2, 0, [], []⟩ := by
  show flushLoop _ _ ⟨(e.probeOnline (net.health b).1).store, _, 0, [], []⟩ = _
  rw [e.probeOnline_store]

theorem flush_store : (flush net e b).1.store = (flush net e b).2.2.store := by
  rw [flush]
  dsimp only
  split <;> rfl

/-- While all rows that can be claimed are `PENDING` and not more than a pass may deliver, and
all of its requests are answered well: `flush` posts each of these rows once, in the order of
their creation, makes them `COMPLETED`, and leaves the other rows as they were. -/
theorem flush_in_order (hceiling : (e.store.rows.filter Claimable).length ≤ flushCeiling)
    (hpending : ∀ r ∈ e.store.rows, r.Claimable → r.status = .pending)
    (hdelivers : ∀ n, Delivers net n e.store (net.health b).2) :
    ((flush net e b).2.2.attempts.map posting).Perm
        ((e.store.rows.filter Claimable).map posting) ∧
      (flush net e b).2.2.attempts.Pairwise (fun c d => c.createdAt ≤ d.createdAt) ∧
      ∃ doneAt : String → ℕ, (flush net e b).1.store.rows =
        e.store.rows.map fun r => if r.Claimable then r.completed (doneAt r.id) else r := by
  have hnet := answers_delivers net
  have hlength : e.store.queue.length ≤ flushCeiling := (length_queue e.store).trans_le hceiling
  rw [flush_store, flush_pass]
  refine ⟨?_, ?_, rows_flushLoop (k := 0) hnet hdelivers hlength⟩
  · apply postings_perm
    · rw [attempts_of_ok (k := 0) (g := Ticket.id) (fun _ _ => rfl) hnet hdelivers hlength]
      exact ids_queue_perm e.store
    · intro c hc
      have hrow := contents_attempts (k := 0) hnet hdelivers c hc
      exact hrow.resolve_left List.not_mem_nil
  · have hcreated := queue_created_order hpending
    rw [← attempts_of_ok (k := 0) (f := (·.createdAt)) (fun _ _ => rfl) hnet hdelivers hlength,
      List.pairwise_map] at hcreated
    exact hcreated

end Flush

theorem pending_of_mem_checkins {n : ℕ} (h : n ≤ 1000) {r : OfflineActionRecord}
    (hr : r ∈ (checkins n h).rows) : r.status = .pending := by
  obtain ⟨k, -, rfl⟩ := List.mem_map.mp hr
  rfl

/-- As many check-ins as a pass may deliver. -/
theorem flush_in_order_checkins :
    let net := scripted (some true) (fun _ => some 202) id
    let e : SyncEngine := ⟨checkins 500 (by decide), true, []⟩
    ((flush net e 0).2.2.attempts.map posting).Perm
        ((e.store.rows.filter Claimable).map posting) ∧
      (flush net e 0).2.2.attempts.Pairwise (fun c d => c.createdAt ≤ d.createdAt) ∧
      ∃ doneAt : String → ℕ, (flush net e 0).1.store.rows =
        e.store.rows.map fun r => if r.Claimable then r.completed (doneAt r.id) else r := by
  intro net e
  apply flush_in_order
  · show ((checkins 500 (by decide)).rows.filter Claimable).length ≤ 500
    rw [← length_queue, length_queue_checkins]
  · exact fun r hr _ => pending_of_mem_checkins (by decide) hr
  · exact fun n => delivers_of_post (fun _ _ => rfl) n _ _

end Hotelia.Offline
