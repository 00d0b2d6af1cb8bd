import Mathlib.Algebra.GroupWithZero.Nat
import Mathlib.Data.List.Sort
import Mathlib.Data.List.Count
import Mathlib.Algebra.BigOperators.Group.List.Basic

/-!
# Priority queues with retries

A queue is a strictly increasing list of items; its head is served next. A
served item leaves on success. On failure `retry` says whether it has another
try, and then the item that stands for that try takes its place in the order.
Whether the `k`-th service succeeds is read off a sequence `ok : ℕ → Bool`.

## Main definitions

- `requeue` — the queue after its head has been served
- `served`, `rest` — what the first `n` services serve, and what they leave
- `clears` — the first `n` services empty the queue, each item by a success
- `ahead` — how many items of a queue come before an item
-/

namespace Foundation.RetryQueue

variable {α ι : Type*} [LinearOrder α] (retry : α → Option α)

/-- The queue after its head has been served. -/
def requeue (success : Bool) : List α → List α
  | [] => []
  | a :: q =>
    if success then q
    else match retry a with
      | none => q
      | some b => q.orderedInsert (· ≤ ·) b

variable (ok : ℕ → Bool)

/-- The items served by `n` services, the first of them being number `k`. -/
def served : ℕ → ℕ → List α → List α
  | 0, _, _ => []
  | _ + 1, _, [] => []
  | n + 1, k, a :: q => a :: served n (k + 1) (requeue retry (ok k) (a :: q))

/-- The queue left by `n` services, the first of them being number `k`. -/
def rest : ℕ → ℕ → List α → List α
  | 0, _, q => q
  | n + 1, k, q => rest n (k + 1) (requeue retry (ok k) q)

/-- `n` services from number `k` on empty the queue, and no item leaves it but
by a success. -/
def clears : ℕ → ℕ → List α → Prop
  | 0, _, q => q = []
  | _ + 1, _, [] => True
  | n + 1, k, a :: q =>
    (ok k = true ∨ retry a ≠ none) ∧ clears n (k + 1) (requeue retry (ok k) (a :: q))

variable {retry ok}

@[simp] theorem requeue_nil (success : Bool) : requeue retry success [] = [] := rfl

@[simp] theorem requeue_true (a : α) (q : List α) : requeue retry true (a :: q) = q := rfl

theorem requeue_false_none {a : α} (h : retry a = none) (q : List α) :
    requeue retry false (a :: q) = q := by
  simp [requeue, h]

theorem requeue_false_some {a b : α} (h : retry a = some b) (q : List α) :
    requeue retry false (a :: q) = q.orderedInsert (· ≤ ·) b := by
  simp [requeue, h]

@[simp] theorem rest_nil (n k : ℕ) : rest retry ok n k ([] : List α) = [] := by
  induction n generalizing k with
  | zero => rfl
  | succ n ih => simpa [rest] using ih (k + 1)

@[simp] theorem served_nil (n k : ℕ) : served retry ok n k ([] : List α) = [] := by
  cases n <;> rfl

/-- Services that all succeed serve the items from the front. -/
theorem served_of_all_ok (h : ∀ i, ok i = true) (n k : ℕ) (q : List α) :
    served retry ok n k q = q.take n := by
  induction n generalizing k q with
  | zero => rfl
  | succ n ih =>
    cases q with
    | nil => exact served_nil _ _
    | cons a q => rw [served, h k, requeue_true, ih, List.take_succ_cons]

/-- They leave the others. -/
theorem rest_of_all_ok (h : ∀ i, ok i = true) (n k : ℕ) (q : List α) :
    rest retry ok n k q = q.drop n := by
  induction n generalizing k q with
  | zero => rfl
  | succ n ih =>
    cases q with
    | nil => exact rest_nil _ _
    | cons a q => rw [rest, h k, requeue_true, ih, List.drop_succ_cons]

/-- A requeued item is an item that was behind the head, or the head's next try. -/
theorem mem_requeue {success : Bool} {a x : α} {q : List α} :
    x ∈ requeue retry success (a :: q) ↔
      x ∈ q ∨ (success = false ∧ retry a = some x) := by
  cases success with
  | true => simp
  | false =>
    cases h : retry a with
    | none => simp [requeue_false_none h]
    | some b =>
      rw [requeue_false_some h, List.mem_orderedInsert]
      simp only [Option.some.injEq, true_and, eq_comm (a := b)]
      exact or_comm

/-! ## Order -/

/-- A retry comes after its item and is an item of the same slot. -/
structure Lawful (retry : α → Option α) (slot : α → ι) : Prop where
  lt : ∀ a b, retry a = some b → a < b
  slot_eq : ∀ a b, retry a = some b → slot b = slot a

/-- A queue: strictly increasing, one item for each slot. -/
structure IsQueue (slot : α → ι) (q : List α) : Prop where
  increasing : q.Pairwise (· < ·)
  slots : (q.map slot).Nodup

variable {slot : α → ι}

theorem IsQueue.tail {a : α} {q : List α} (h : IsQueue slot (a :: q)) : IsQueue slot q :=
  ⟨(List.pairwise_cons.mp h.increasing).2, (List.nodup_cons.mp h.slots).2⟩

theorem IsQueue.head_lt {a x : α} {q : List α} (h : IsQueue slot (a :: q)) (hx : x ∈ q) : a < x :=
  (List.pairwise_cons.mp h.increasing).1 x hx

theorem IsQueue.slot_ne {a x : α} {q : List α} (h : IsQueue slot (a :: q)) (hx : x ∈ q) :
    slot x ≠ slot a := by
  intro he
  exact (List.nodup_cons.mp h.slots).1 (List.mem_map.mpr ⟨x, hx, he⟩)

theorem IsQueue.orderedInsert {b : α} {q : List α} (h : IsQueue slot q)
    (hb : ∀ x ∈ q, slot x ≠ slot b) : IsQueue slot (q.orderedInsert (· ≤ ·) b) := by
  constructor
  · have hle : (q.orderedInsert (· ≤ ·) b).Pairwise (· ≤ ·) :=
      (h.increasing.imp le_of_lt).orderedInsert b q
    have hnd : (q.orderedInsert (· ≤ ·) b).Nodup := by
      rw [(List.perm_orderedInsert (· ≤ ·) b q).nodup_iff, List.nodup_cons]
      exact ⟨fun hm => hb b hm rfl, h.slots.of_map⟩
    exact (hle.and hnd).imp fun hxy => lt_of_le_of_ne hxy.1 hxy.2
  · rw [((List.perm_orderedInsert (· ≤ ·) b q).map slot).nodup_iff, List.map_cons, List.nodup_cons]
    refine ⟨fun hm => ?_, h.slots⟩
    obtain ⟨x, hx, he⟩ := List.mem_map.mp hm
    exact hb x hx he

theorem IsQueue.requeue (hl : Lawful retry slot) {q : List α} (h : IsQueue slot q)
    (success : Bool) : IsQueue slot (requeue retry success q) := by
  cases q with
  | nil => exact h
  | cons a q =>
    cases success with
    | true => exact h.tail
    | false =>
      cases hr : retry a with
      | none => rw [requeue_false_none hr]; exact h.tail
      | some b =>
        rw [requeue_false_some hr]
        exact h.tail.orderedInsert fun x hx => hl.slot_eq a b hr ▸ h.slot_ne hx

/-- Two queues with the same items are the same queue. -/
theorem IsQueue.eq_of_mem_iff {q q' : List α} (h : IsQueue slot q) (h' : IsQueue slot q')
    (hm : ∀ x, x ∈ q ↔ x ∈ q') : q = q' :=
  List.Pairwise.eq_of_mem_iff h.increasing h'.increasing hm

/-! ## How long a queue lasts -/

section Left

variable {left : α → ℕ}

/-- If `left` falls with each retry and is never zero, every service lowers the
total number of tries that are left. -/
theorem sum_left_requeue_lt (hpos : ∀ a, 0 < left a)
    (hleft : ∀ a b, retry a = some b → left b < left a) (success : Bool) (a : α) (q : List α) :
    ((requeue retry success (a :: q)).map left).sum < ((a :: q).map left).sum := by
  rw [List.map_cons, List.sum_cons]
  cases success with
  | true => have := hpos a; simp only [requeue_true]; omega
  | false =>
    cases hr : retry a with
    | none => have := hpos a; rw [requeue_false_none hr]; omega
    | some b =>
      have hlt := hleft a b hr
      rw [requeue_false_some hr,
        ((List.perm_orderedInsert (· ≤ ·) b q).map left).sum_eq, List.map_cons, List.sum_cons]
      omega

end Left

/-! ## Items served twice -/

/-- The number of items of `q` that come before `x`. -/
def ahead (q : List α) (x : α) : ℕ := q.countP (· < x)

theorem ahead_cons_of_lt {a x : α} (q : List α) (h : a < x) : ahead (a :: q) x = ahead q x + 1 := by
  simp [ahead, h]

theorem ahead_mono (q : List α) {x y : α} (h : x ≤ y) : ahead q x ≤ ahead q y :=
  List.countP_mono_left fun z _ hz => by
    simp only [decide_eq_true_eq] at hz ⊢
    exact lt_of_lt_of_le hz h

theorem IsQueue.ahead_head {a : α} {q : List α} (h : IsQueue slot (a :: q)) :
    ahead (a :: q) a = 0 := by
  rw [ahead, List.countP_eq_zero]
  intro x hx
  rcases List.mem_cons.mp hx with rfl | hx
  · simp
  · simpa using (h.head_lt hx).le

theorem ahead_orderedInsert (q : List α) (b x : α) :
    ahead (q.orderedInsert (· ≤ ·) b) x = ahead q x + if b < x then 1 else 0 := by
  rw [ahead, (List.perm_orderedInsert (· ≤ ·) b q).countP_eq, List.countP_cons]
  simp [ahead]

/-- An item that comes in behind `n` others is not ahead of anything among the first `n`. -/
theorem ahead_orderedInsert_of_lt {q : List α} {n : ℕ} {b x : α} (hb : n ≤ ahead q b)
    (hx : ahead q x < n) : ahead (q.orderedInsert (· ≤ ·) b) x = ahead q x := by
  have hbx : ¬ b < x := fun h => absurd (hb.trans (ahead_mono q h.le)) (not_le.mpr hx)
  rw [ahead_orderedInsert, if_neg hbx, Nat.add_zero]

theorem le_ahead_orderedInsert_iff {q : List α} {n : ℕ} {b : α} (hb : n ≤ ahead q b) (x : α) :
    n ≤ ahead (q.orderedInsert (· ≤ ·) b) x ↔ n ≤ ahead q x := by
  refine ⟨fun h => ?_, fun h => ?_⟩
  · by_contra hx
    rw [ahead_orderedInsert_of_lt hb (not_le.mp hx)] at h
    exact hx h
  · rw [ahead_orderedInsert]
    exact Nat.le_add_right_of_le h

/-- Nothing comes up twice within `n` services: items of the used-up slots `M`
have `n` items ahead of them, and so has the next try of every other item whose
turn comes within the `n` services and whose service fails. -/
def ComesLate (retry : α → Option α) (ok : ℕ → Bool) (slot : α → ι) (M : Set ι) (n k : ℕ)
    (q : List α) : Prop :=
  (∀ x ∈ q, slot x ∈ M → n ≤ ahead q x) ∧
  ∀ a ∈ q, slot a ∉ M → ahead q a < n → ok (k + ahead q a) = false →
    ∀ b, retry a = some b → n ≤ ahead q b

/-- Serving the head moves everything else up by one, and uses up its slot. -/
theorem comesLate_cons_iff (hl : Lawful retry slot) {M : Set ι} {n k : ℕ} {a : α} {q : List α}
    (hq : IsQueue slot (a :: q)) (ha : slot a ∉ M) :
    ComesLate retry ok slot M (n + 1) k (a :: q) ↔
      (ok k = false → ∀ b, retry a = some b → n ≤ ahead q b) ∧
        ComesLate retry ok slot (insert (slot a) M) n (k + 1) q := by
  have hcons : ∀ x, a < x → ahead (a :: q) x = ahead q x + 1 := fun x => ahead_cons_of_lt q
  constructor
  · rintro ⟨hused, hnext⟩
    refine ⟨fun hok b hb => ?_, fun x hx hm => ?_, fun x hx hm hlt hok b hb => ?_⟩
    · have h := hnext a List.mem_cons_self ha (by rw [hq.ahead_head]; omega)
        (by rwa [hq.ahead_head]) b hb
      rw [hcons b (hl.lt a b hb)] at h
      omega
    · have h := hused x (List.mem_cons_of_mem _ hx) (hm.resolve_left (hq.slot_ne hx))
      rw [hcons x (hq.head_lt hx)] at h
      omega
    · have hax := hq.head_lt hx
      have h := hnext x (List.mem_cons_of_mem _ hx) (fun hx' => hm (.inr hx'))
      rw [hcons x hax] at h
      have hb' := h (by omega) (by rwa [← Nat.add_assoc, Nat.add_right_comm]) b hb
      rw [hcons b (hax.trans (hl.lt x b hb))] at hb'
      omega
  · rintro ⟨hhead, hused, hnext⟩
    refine ⟨fun x hx hm => ?_, fun x hx hm hlt hok b hb => ?_⟩
    · rcases List.mem_cons.mp hx with rfl | hx
      · exact absurd hm ha
      · have h := hused x hx (.inr hm)
        rw [hcons x (hq.head_lt hx)]
        omega
    · rcases List.mem_cons.mp hx with rfl | hx
      · rw [hq.ahead_head, Nat.add_zero] at hok
        rw [hcons b (hl.lt x b hb)]
        exact Nat.succ_le_succ (hhead hok b hb)
      · have hax := hq.head_lt hx
        rw [hcons x hax] at hlt hok
        have hm' : slot x ∉ insert (slot a) M := fun h => h.elim (hq.slot_ne hx) hm
        have h := hnext x hx hm' (by omega) (by rwa [Nat.add_right_comm, Nat.add_assoc]) b hb
        rw [hcons b (hax.trans (hl.lt x b hb))]
        omega

/-- An item of a used-up slot disturbs nothing as long as it has the `n` services
ahead of it. -/
theorem comesLate_orderedInsert {M : Set ι} {n k : ℕ} {b : α} {q : List α} (hb : slot b ∈ M) :
    ComesLate retry ok slot M n k (q.orderedInsert (· ≤ ·) b) ↔
      n ≤ ahead q b ∧ ComesLate retry ok slot M n k q := by
  have hself : b ∈ q.orderedInsert (· ≤ ·) b := (List.mem_orderedInsert (· ≤ ·)).mpr (.inl rfl)
  have hmem : ∀ x ∈ q, x ∈ q.orderedInsert (· ≤ ·) b := fun x hx =>
    (List.mem_orderedInsert (· ≤ ·)).mpr (.inr hx)
  constructor
  · rintro ⟨hused, hnext⟩
    have hlate := hused b hself hb
    rw [ahead_orderedInsert, if_neg (lt_irrefl b), Nat.add_zero] at hlate
    refine ⟨hlate, fun x hx hm => ?_, fun x hx hm hlt hok c hc => ?_⟩
    · exact (le_ahead_orderedInsert_iff hlate x).mp (hused x (hmem x hx) hm)
    · have h := hnext x (hmem x hx) hm
      rw [ahead_orderedInsert_of_lt hlate hlt] at h
      exact (le_ahead_orderedInsert_iff hlate c).mp (h hlt hok c hc)
  · rintro ⟨hlate, hused, hnext⟩
    refine ⟨fun x hx hm => ?_, fun x hx hm hlt hok c hc => ?_⟩
    · apply (le_ahead_orderedInsert_iff hlate x).mpr
      rcases (List.mem_orderedInsert (· ≤ ·)).mp hx with rfl | hx
      · exact hlate
      · exact hused x hx hm
    · rcases (List.mem_orderedInsert (· ≤ ·)).mp hx with rfl | hx
      · exact absurd hb hm
      · have hxn : ahead q x < n := by
          rwa [← not_le, ← le_ahead_orderedInsert_iff hlate, not_le]
        rw [ahead_orderedInsert_of_lt hlate hxn] at hok
        exact (le_ahead_orderedInsert_iff hlate c).mpr (hnext x hx hm hxn hok c hc)

theorem comesLate_cons (hl : Lawful retry slot) {M : Set ι} {n k : ℕ} {a : α} {q : List α}
    (hq : IsQueue slot (a :: q)) (ha : slot a ∉ M) :
    ComesLate retry ok slot M (n + 1) k (a :: q) ↔
      ComesLate retry ok slot (insert (slot a) M) n (k + 1) (requeue retry (ok k) (a :: q)) := by
  rw [comesLate_cons_iff hl hq ha]
  cases hok : ok k with
  | true => simp
  | false =>
    cases hr : retry a with
    | none => simp [requeue_false_none hr]
    | some b =>
      rw [requeue_false_some hr, comesLate_orderedInsert (.inl (hl.slot_eq a b hr))]
      simp

/-- `n` services serve no slot twice, and none of `M` at all, exactly if every
return is late. -/
theorem served_nodup_iff_comesLate (hl : Lawful retry slot) {n k : ℕ} {q : List α}
    (hq : IsQueue slot q) (M : Set ι) :
    (((served retry ok n k q).map slot).Nodup ∧ ∀ x ∈ served retry ok n k q, slot x ∉ M) ↔
      ComesLate retry ok slot M n k q := by
  induction n generalizing k q M with
  | zero => simp [served, ComesLate]
  | succ n ih =>
    cases q with
    | nil => simp [ComesLate]
    | cons a q =>
      by_cases ha : slot a ∈ M
      · refine iff_of_false (fun h => h.2 a List.mem_cons_self ha) fun h => ?_
        have := h.1 a List.mem_cons_self ha
        rw [hq.ahead_head] at this
        omega
      · rw [comesLate_cons hl hq ha, ← ih (hq.requeue hl _)]
        simp only [served, List.map_cons, List.nodup_cons, List.mem_cons, forall_eq_or_imp, ha,
          not_false_eq_true, true_and, Set.mem_insert_iff, not_or, List.mem_map, not_exists,
          not_and]
        constructor
        · rintro ⟨⟨hna, hnd⟩, hM⟩
          exact ⟨hnd, fun x hx => ⟨fun he => hna x hx he, hM x hx⟩⟩
        · rintro ⟨hnd, hM⟩
          exact ⟨⟨fun x hx => (hM x hx).1, hnd⟩, fun x hx => (hM x hx).2⟩

/-- `n` services of a queue serve no slot twice exactly if every item that fails
in its turn would come back with `n` items of the queue ahead of it. -/
theorem served_nodup_iff (hl : Lawful retry slot) {n k : ℕ} {q : List α} (hq : IsQueue slot q) :
    ((served retry ok n k q).map slot).Nodup ↔
      ∀ a ∈ q, ahead q a < n → ok (k + ahead q a) = false →
        ∀ b, retry a = some b → n ≤ ahead q b := by
  have h : _ ↔ ComesLate retry ok slot ∅ n k q := served_nodup_iff_comesLate hl hq ∅
  simpa [ComesLate] using h

end Foundation.RetryQueue
