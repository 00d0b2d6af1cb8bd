import Hotelia.Foundation.RetryRounds
import Hotelia.Offline.Store

/-!
# The claimable rows as a retry queue

The claimable rows of the store, in claim order, form a queue in the sense of
`Foundation.RetryQueue`: a pass that claims a row and then marks it serves the
head of that queue. What a pass does to the table follows from what the queue does.
-/

namespace Hotelia.Offline
open Foundation Foundation.RetryQueue OfflineActionRecord

namespace Ticket

/-- The ticket of a row after its delivery failed, if it is still claimable. -/
def retry (t : Ticket) : Option Ticket :=
  if t.retryCount + 1 < maxRetryCount then
    some { t with rank := max 1 t.rank, retryCount := t.retryCount + 1 }
  else none

/-- The tries left to a ticket. A `PENDING` row is claimed whatever its count. -/
def left (t : Ticket) : ℕ := max 1 (maxRetryCount - t.retryCount)

/-- The ticket of a `PENDING` row. -/
def Fresh (t : Ticket) : Prop := t.rank = 0

instance : DecidablePred Fresh := fun t => inferInstanceAs (Decidable (t.rank = 0))

theorem retry_eq_some {t u : Ticket} :
    t.retry = some u ↔ t.retryCount + 1 < maxRetryCount ∧
      u = { t with rank := max 1 t.rank, retryCount := t.retryCount + 1 } := by
  simp only [retry, Option.ite_none_right_eq_some, Option.some.injEq, eq_comm (a := u)]

theorem lawful_retry : Lawful retry Ticket.id where
  lt a b h := by
    obtain ⟨-, rfl⟩ := retry_eq_some.mp h
    rw [lt_iff]
    by_cases ha : a.rank = 0
    · left
      simp [ha]
    · right
      simp
      omega
  slot_eq a b h := by
    obtain ⟨-, rfl⟩ := retry_eq_some.mp h
    rfl

theorem inRounds_retry : InRounds retry Ticket.id Fresh where
  toLawful := lawful_retry
  fresh_lt a b ha hb := by
    rw [lt_iff]
    left
    simp only [Fresh] at ha hb
    omega
  not_fresh a b h := by
    obtain ⟨-, rfl⟩ := retry_eq_some.mp h
    simp only [Fresh]
    omega
  stays a b x ha h hx hid := by
    obtain ⟨-, rfl⟩ := retry_eq_some.mp h
    simp only [Fresh] at ha
    have hrank : max 1 a.rank = a.rank := by omega
    rw [lt_iff] at hx ⊢
    simp only [hrank]
    -- the rows differ in their ids, so the retry count does not decide the order
    grind

theorem budget_left : Budget retry left where
  pos a := by simp [left]
  last a h := by
    simp only [retry, ite_eq_right_iff, reduceCtorEq, imp_false] at h
    simp only [left]
    omega
  next a b h := by
    obtain ⟨hlt, rfl⟩ := retry_eq_some.mp h
    simp only [left]
    omega

end Ticket

namespace OfflineActionStore

/-- The tickets of the claimable rows, in claim order. -/
def queue (s : OfflineActionStore) : List Ticket :=
  ((s.rows.filter Claimable).map ticket).insertionSort (· ≤ ·)

/-- How many tries the claimable rows have left. -/
def triesLeft (s : OfflineActionStore) : ℕ := (s.queue.map Ticket.left).sum

theorem mem_queue {s : OfflineActionStore} {t : Ticket} :
    t ∈ s.queue ↔ ∃ r ∈ s.rows, r.Claimable ∧ r.ticket = t := by
  simp only [queue, List.mem_insertionSort, List.mem_map, List.mem_filter, decide_eq_true_eq,
    and_assoc]

theorem nodup_ids (s : OfflineActionStore) : (s.rows.map (·.id)).Nodup := by
  rw [List.Nodup, List.pairwise_map]
  exact s.distinct.imp fun h he => h (.inl he)

theorem isQueue_queue (s : OfflineActionStore) : IsQueue Ticket.id s.queue := by
  have hids : (((s.rows.filter Claimable).map ticket).map Ticket.id).Sublist
      (s.rows.map (·.id)) := by
    rw [List.map_map]
    exact List.Sublist.map _ List.filter_sublist
  have hslots : (s.queue.map Ticket.id).Nodup := by
    exact ((List.perm_insertionSort (· ≤ ·) _).map Ticket.id).nodup_iff.mpr (hids.nodup s.nodup_ids)
  refine ⟨?_, hslots⟩
  have hle : s.queue.Pairwise (· ≤ ·) := List.pairwise_insertionSort (· ≤ ·) _
  exact (hle.and hslots.of_map).imp fun h => lt_of_le_of_ne h.1 h.2

theorem queue_eq_nil {s : OfflineActionStore} : s.queue = [] ↔ s.findClaimable = none := by
  rw [findClaimable_eq_none, List.eq_nil_iff_forall_not_mem]
  refine ⟨fun h r hr hc => h _ (mem_queue.mpr ⟨r, hr, hc, rfl⟩), fun h t ht => ?_⟩
  obtain ⟨r, hr, hc, -⟩ := mem_queue.mp ht
  exact h r hr hc

/-- The row to be claimed next is at the head of the queue. -/
theorem queue_eq_cons {s : OfflineActionStore} {row : OfflineActionRecord}
    (h : s.findClaimable = some row) : ∃ q, s.queue = row.ticket :: q := by
  obtain ⟨hmem, hc, hle⟩ := findClaimable_eq_some h
  have hq := s.isQueue_queue
  cases hs : s.queue with
  | nil =>
    rw [queue_eq_nil.mp hs] at h
    cases h
  | cons t q =>
    rw [hs] at hq
    refine ⟨q, ?_⟩
    obtain ⟨r, hr, hrc, rfl⟩ := mem_queue.mp (hs ▸ List.mem_cons_self : t ∈ s.queue)
    have hrow : row.ticket ∈ r.ticket :: q := hs ▸ mem_queue.mpr ⟨row, hmem, hc, rfl⟩
    cases List.mem_cons.mp hrow with
    | inl he => rw [he]
    | inr hin => exact absurd (hle r hr hrc) (not_le.mpr (hq.head_lt hin))

/-- Rewriting the claimed row into `r'` serves the head of the queue: with success
if `r'` is not claimable, with failure if `r'` is claimable by a retry. -/
theorem queue_of_served {s s' : OfflineActionStore} {row : OfflineActionRecord}
    (h : s.findClaimable = some row) (f : OfflineActionRecord → OfflineActionRecord)
    (hrows : s'.rows = s.rows.map fun r => if r.id = row.id then f r else r) (success : Bool)
    (hserved : ∀ t, ((f row).Claimable ∧ (f row).ticket = t) ↔
      (success = false ∧ row.ticket.retry = some t)) :
    s'.queue = requeue Ticket.retry success s.queue := by
  obtain ⟨hmem, hc, -⟩ := findClaimable_eq_some h
  obtain ⟨q, hq⟩ := queue_eq_cons h
  have hqueue := s.isQueue_queue
  refine s'.isQueue_queue.eq_of_mem_iff (hqueue.requeue Ticket.lawful_retry success) fun t => ?_
  rw [hq] at hqueue
  rw [hq, mem_requeue, ← hserved, mem_queue, hrows]
  -- a row of the new table is the rewritten row, or an old row with another id
  refine ⟨?_, ?_⟩
  · rintro ⟨r', hr', hc', rfl⟩
    obtain ⟨r, hr, rfl⟩ := List.mem_map.mp hr'
    by_cases hri : r.id = row.id
    · have hrr := s.eq_of_id_eq hr hmem hri
      rw [if_pos hri, hrr] at hc' ⊢
      exact .inr ⟨hc', rfl⟩
    · rw [if_neg hri] at hc' ⊢
      left
      have hin : r.ticket ∈ row.ticket :: q := hq ▸ mem_queue.mpr ⟨r, hr, hc', rfl⟩
      cases List.mem_cons.mp hin with
      | inl he => exact absurd (congrArg Ticket.id he) hri
      | inr hin => exact hin
  · rintro (hin | ⟨hc', rfl⟩)
    · obtain ⟨r, hr, hrc, rfl⟩ := mem_queue.mp (hq ▸ List.mem_cons_of_mem _ hin : t ∈ s.queue)
      have hri : r.id ≠ row.id := hqueue.slot_ne hin
      exact ⟨r, List.mem_map.mpr ⟨r, hr, if_neg hri⟩, hrc, rfl⟩
    · exact ⟨f row, List.mem_map.mpr ⟨row, hmem, if_pos rfl⟩, hc', rfl⟩

/-- The rows after a claim and a mark of the claimed row. -/
theorem rows_of_claim_mark {s s₁ : OfflineActionStore} {c row : OfflineActionRecord} {now : ℕ}
    (hrow : s.findClaimable = some row) (h : s.claimNext now = some (c, s₁))
    (f : OfflineActionRecord → OfflineActionRecord) (hf : KeepsKeys f) :
    (s₁.setWhere (·.id = c.id) f hf).rows =
      s.rows.map fun r => if r.id = row.id then f (r.claimed now) else r := by
  obtain ⟨row', hrow', rfl, hrows⟩ := claimNext_eq_some h
  obtain rfl : row = row' := Option.some.inj (hrow.symm.trans hrow')
  rw [setWhere_rows, hrows, List.map_map]
  apply List.map_congr_left
  intro r _
  by_cases hr : r.id = row.id <;> simp [hr, claimed]

/-- A claim followed by `markComplete` serves the head of the queue with success. -/
theorem queue_markComplete {s s₁ : OfflineActionStore} {c : OfflineActionRecord} {now now' : ℕ}
    (h : s.claimNext now = some (c, s₁)) :
    (s₁.markComplete c.id now').queue = requeue Ticket.retry true s.queue := by
  obtain ⟨row, hrow, rfl, -⟩ := claimNext_eq_some h
  refine queue_of_served hrow (fun r => (r.claimed now).completed now')
    (rows_of_claim_mark hrow h _ _) true fun t => ?_
  simp [Claimable, claimed, completed]

/-- A claim followed by `markFailed` serves it with failure. -/
theorem queue_markFailed {s s₁ : OfflineActionStore} {c : OfflineActionRecord} {now now' : ℕ}
    {error : String} (h : s.claimNext now = some (c, s₁)) :
    (s₁.markFailed c.id error now').queue = requeue Ticket.retry false s.queue := by
  obtain ⟨row, hrow, rfl, -⟩ := claimNext_eq_some h
  obtain ⟨-, hc, -⟩ := findClaimable_eq_some hrow
  refine queue_of_served hrow (fun r => (r.claimed now).failed error now')
    (rows_of_claim_mark hrow h _ _) false fun t => ?_
  have hrank : max 1 row.rank = 1 := by
    cases hc with
    | inl hp => simp [rank, hp]
    | inr hf => simp [rank, hf.1]
  rw [Ticket.retry_eq_some]
  have hnext : ((row.claimed now).failed error now').ticket =
      { row.ticket with rank := max 1 row.ticket.rank, retryCount := row.retryCount + 1 } :=
    congrArg (Ticket.mk · row.createdAt row.rowid row.id (row.retryCount + 1)) hrank.symm
  have hclaimable : ((row.claimed now).failed error now').Claimable ↔
      row.retryCount + 1 < maxRetryCount := by
    simp [Claimable, failed, claimed]
  rw [hnext, hclaimable, eq_comm (b := t)]
  exact (and_iff_right rfl).symm

end OfflineActionStore

/-! ## A claim and a mark -/

/-- The row that `mark` makes of a row. -/
def OfflineActionRecord.marked (ok : Bool) (error : String) (now : ℕ) (r : OfflineActionRecord) :
    OfflineActionRecord :=
  if ok then r.completed now else r.failed error now

/-- `COMPLETED` or `FAILED`. -/
def OfflineActionRecord.Settled (r : OfflineActionRecord) : Prop :=
  r.status = .completed ∨ r.status = .failed

namespace OfflineActionRecord

variable (ok : Bool) (error : String) (now : ℕ) (r : OfflineActionRecord)

theorem settled_marked : (r.marked ok error now).Settled := by
  cases ok
  · exact .inr rfl
  · exact .inl rfl

@[simp] theorem marked_id : (r.marked ok error now).id = r.id := by
  cases ok <;> rfl

@[simp] theorem marked_actionType : (r.marked ok error now).actionType = r.actionType := by
  cases ok <;> rfl

theorem retryCount_le_marked : r.retryCount ≤ (r.marked ok error now).retryCount := by
  cases ok
  · exact Nat.le_succ _
  · exact le_rfl

theorem marked_retryCount_le : (r.marked ok error now).retryCount ≤ r.retryCount + 1 := by
  cases ok
  · exact le_rfl
  · exact Nat.le_succ _

end OfflineActionRecord

namespace OfflineActionStore

variable {s s₁ : OfflineActionStore} {c : OfflineActionRecord} {now now' : ℕ} {ok : Bool}
  {error : String}

/-- The rows after a mark. -/
theorem mark_rows (s : OfflineActionStore) (uuid : String) (ok : Bool) (error : String) (now : ℕ) :
    (s.mark uuid ok error now).rows =
      s.rows.map fun r => if r.id = uuid then r.marked ok error now else r := by
  cases ok <;> simp [mark, markComplete, markFailed, marked]

/-- A claim and a mark rewrite the first claimable row, and no other. -/
theorem claim_mark_rows (ok : Bool) (error : String) (now' : ℕ)
    (h : s.claimNext now = some (c, s₁)) :
    ∃ row, s.findClaimable = some row ∧ c = row.claimed now ∧
      (s₁.mark c.id ok error now').rows =
        s.rows.map fun r => if r.id = row.id then (r.claimed now).marked ok error now' else r := by
  obtain ⟨row, hrow, hc, -⟩ := claimNext_eq_some h
  refine ⟨row, hrow, hc, ?_⟩
  cases ok with
  | true => exact rows_of_claim_mark hrow h _ (keepsKeys_completed now')
  | false => exact rows_of_claim_mark hrow h _ (keepsKeys_failed error now')

/-- A claim and a mark serve the head of the queue. -/
theorem queue_mark (h : s.claimNext now = some (c, s₁)) :
    (s₁.mark c.id ok error now').queue = requeue Ticket.retry ok s.queue := by
  cases ok with
  | true => exact queue_markComplete h
  | false => exact queue_markFailed h

/-- A row after a claim and a mark is the marked row, or an old row with another id. -/
theorem mem_claim_mark (h : s.claimNext now = some (c, s₁)) {r' : OfflineActionRecord}
    (hr' : r' ∈ (s₁.mark c.id ok error now').rows) :
    (∃ row ∈ s.rows, c = row.claimed now ∧ r' = c.marked ok error now') ∨
      (r' ∈ s.rows ∧ r'.id ≠ c.id) := by
  obtain ⟨row, hrow, rfl, hrows⟩ := claim_mark_rows ok error now' h
  obtain ⟨hmem, -, -⟩ := findClaimable_eq_some hrow
  rw [hrows] at hr'
  obtain ⟨r, hr, rfl⟩ := List.mem_map.mp hr'
  by_cases hid : r.id = row.id
  · obtain rfl := s.eq_of_id_eq hr hmem hid
    rw [if_pos rfl]
    exact .inl ⟨r, hr, rfl, rfl⟩
  · rw [if_neg hid]
    exact .inr ⟨hr, hid⟩

/-- The first claimable row is marked. -/
theorem marked_mem_claim_mark (h : s.claimNext now = some (c, s₁)) :
    c.marked ok error now' ∈ (s₁.mark c.id ok error now').rows := by
  obtain ⟨row, hrow, rfl, hrows⟩ := claim_mark_rows ok error now' h
  rw [hrows]
  exact List.mem_map.mpr ⟨row, (findClaimable_eq_some hrow).1, if_pos rfl⟩

/-- A claim and a mark leave every other row alone. -/
theorem mem_claim_mark_of_ne (h : s.claimNext now = some (c, s₁)) {r : OfflineActionRecord}
    (hr : r ∈ s.rows) (hne : r.id ≠ c.id) : r ∈ (s₁.mark c.id ok error now').rows := by
  obtain ⟨row, hrow, rfl, hrows⟩ := claim_mark_rows ok error now' h
  rw [hrows]
  exact List.mem_map.mpr ⟨r, hr, if_neg hne⟩

/-- They leave the rows alone that cannot be claimed. -/
theorem mem_claim_mark_of_not_claimable (h : s.claimNext now = some (c, s₁))
    {r : OfflineActionRecord} (hr : r ∈ s.rows) (hc : ¬ r.Claimable) :
    r ∈ (s₁.mark c.id ok error now').rows := by
  obtain ⟨row, hrow, rfl, -⟩ := claimNext_eq_some h
  obtain ⟨hmem, hrc, -⟩ := findClaimable_eq_some hrow
  apply mem_claim_mark_of_ne h hr
  intro hid
  rw [s.eq_of_id_eq hr hmem hid] at hc
  exact hc hrc

end OfflineActionStore

/-! ## A store of check-ins -/

/-- The last three decimal digits of `n`. -/
def serial (n : ℕ) : String :=
  String.ofList [Nat.digitChar (n / 100 % 10), Nat.digitChar (n / 10 % 10), Nat.digitChar (n % 10)]

theorem digitChar_inj : ∀ a < 10, ∀ b < 10, Nat.digitChar a = Nat.digitChar b → a = b := by
  decide

theorem serial_inj {m n : ℕ} (hm : m < 1000) (hn : n < 1000) (h : serial m = serial n) : m = n := by
  simp only [serial, String.ofList_inj, List.cons.injEq, and_true] at h
  have h₁ := digitChar_inj _ (Nat.mod_lt _ (by decide)) _ (Nat.mod_lt _ (by decide)) h.1
  have h₂ := digitChar_inj _ (Nat.mod_lt _ (by decide)) _ (Nat.mod_lt _ (by decide)) h.2.1
  have h₃ := digitChar_inj _ (Nat.mod_lt _ (by decide)) _ (Nat.mod_lt _ (by decide)) h.2.2
  omega

/-- The `n`-th of a row of check-ins that were enqueued a millisecond apart. -/
def checkinRow (n : ℕ) : OfflineActionRecord where
  rowid := n + 1
  id := "00000000-0000-4000-8000-000000000" ++ serial n
  actionType := "checkin"
  payload := []
  idempotencyKey := "check-in-" ++ serial n
  status := .pending
  createdAt := n
  updatedAt := n
  retryCount := 0
  lastError := none

/-- The store after `n` check-ins were enqueued, none of them delivered yet. -/
def checkins (n : ℕ) (h : n ≤ 1000) : OfflineActionStore where
  rows := (List.range n).map checkinRow
  distinct := by
    rw [List.pairwise_map]
    apply List.pairwise_lt_range.imp_of_mem
    intro a b ha hb hlt hc
    rw [List.mem_range] at ha hb
    have hne : serial a ≠ serial b := fun he => by have := serial_inj (by omega) (by omega) he; omega
    have hkeys : (checkinRow a).rowid ≠ (checkinRow b).rowid := by simp [checkinRow]; omega
    simp only [Clash, checkinRow, String.append_right_inj, hne, false_or] at hc
    exact hkeys hc

theorem length_queue_checkins (n : ℕ) (h : n ≤ 1000) : (checkins n h).queue.length = n := by
  have hclaimable : ∀ r ∈ (checkins n h).rows, decide r.Claimable = true := by
    intro r hr
    obtain ⟨k, -, rfl⟩ := List.mem_map.mp hr
    exact decide_eq_true (.inl rfl)
  rw [OfflineActionStore.queue, List.length_insertionSort, List.length_map,
    List.filter_eq_self.mpr hclaimable]
  simp [checkins]

end Hotelia.Offline
