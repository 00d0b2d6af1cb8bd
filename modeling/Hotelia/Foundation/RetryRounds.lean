import Hotelia.Foundation.RetryQueue
import Mathlib.Order.Nat
import Mathlib.Data.Nat.Count

/-!
# Retry queues that are served in rounds

Often a failed item goes behind every item that has not been tried yet, and is
then tried again and again before the next one gets its turn. Such a queue is
served in a first round over its fresh items, followed by the tries of each
remaining item in a row, and how long it lasts can be written down.

## Main results

- `rest_eq_nil_iff_demand_le`: `n` services empty the queue exactly if `n` is at
  least its `demand`.
- `clears_iff_exists_count`: fresh items with one budget all succeed exactly if
  there are enough successes, with no long row of failures after the first round.
-/

namespace Foundation.RetryQueue

variable {α ι : Type*} [LinearOrder α]

/-- The order of a queue that is served in rounds: fresh items come first, no
retry is fresh, and a retry of an item that is not fresh stays ahead of all that
the item was ahead of. -/
structure InRounds (retry : α → Option α) (slot : α → ι) (fresh : α → Prop) : Prop
    extends Lawful retry slot where
  fresh_lt : ∀ a b, fresh a → ¬ fresh b → a < b
  not_fresh : ∀ a b, retry a = some b → ¬ fresh b
  stays : ∀ a b x, ¬ fresh a → retry a = some b → a < x → slot x ≠ slot a → b < x

/-- `left` counts the tries of an item, the present one included. -/
structure Budget (retry : α → Option α) (left : α → ℕ) : Prop where
  pos : ∀ a, 0 < left a
  last : ∀ a, retry a = none → left a = 1
  next : ∀ a b, retry a = some b → left a = left b + 1

variable {retry : α → Option α} {slot : α → ι} {fresh : α → Prop} {left : α → ℕ}

omit [LinearOrder α] in
theorem Budget.lt (hb : Budget retry left) (a b : α) (h : retry a = some b) : left b < left a := by
  have := hb.next a b h
  omega

section Tries

variable (ok : ℕ → Bool)

/-- The services that an item with `l` tries left takes in a row. -/
def tries : ℕ → ℕ → ℕ
  | 0, _ => 0
  | l + 1, k => if ok k then 1 else 1 + tries l (k + 1)

/-- The services that items with these tries left take one after the other. -/
def triesAll : List ℕ → ℕ → ℕ
  | [], _ => 0
  | l :: ls, k => tries ok l k + triesAll ls (k + tries ok l k)

/-- The services that the fresh items `ps` and the items `q` take: one for each
of `ps`, and then the tries of what is in the queue. -/
def demand (retry : α → Option α) (left : α → ℕ) : List α → List α → ℕ → ℕ
  | [], q, k => triesAll ok (q.map left) k
  | p :: ps, q, k => 1 + demand retry left ps (requeue retry (ok k) (p :: q)) (k + 1)

end Tries

variable {ok : ℕ → Bool}

theorem tries_pos (ok : ℕ → Bool) {l : ℕ} (h : 0 < l) (k : ℕ) : 0 < tries ok l k := by
  cases l with
  | zero => omega
  | succ l => simp only [tries]; split <;> omega

/-- A retry of the head goes back to the head of a queue without fresh items. -/
theorem orderedInsert_retry (hr : InRounds retry slot fresh) {a b : α} {q : List α}
    (hq : IsQueue slot (a :: q)) (ha : ¬ fresh a) (hb : retry a = some b) :
    q.orderedInsert (· ≤ ·) b = b :: q := by
  cases q with
  | nil => rfl
  | cons x q =>
    refine List.orderedInsert_cons_of_le _ _ (hr.stays a b x ha hb ?_ ?_).le
    · exact hq.head_lt List.mem_cons_self
    · exact hq.slot_ne List.mem_cons_self

/-- A retry goes behind all fresh items. -/
theorem orderedInsert_append_fresh (hr : InRounds retry slot fresh) {b : α} (hb : ¬ fresh b)
    {ps q : List α} (hps : ∀ p ∈ ps, fresh p) :
    (ps ++ q).orderedInsert (· ≤ ·) b = ps ++ q.orderedInsert (· ≤ ·) b := by
  induction ps with
  | nil => rfl
  | cons p ps ih =>
    have hp : p < b := hr.fresh_lt p b (hps p List.mem_cons_self) hb
    rw [List.cons_append, List.orderedInsert_of_not_le _ _ (not_le.mpr hp),
      ih fun x hx => hps x (List.mem_cons_of_mem _ hx), List.cons_append]

theorem requeue_append_fresh (hr : InRounds retry slot fresh) (success : Bool) {p : α}
    {ps q : List α} (hps : ∀ x ∈ ps, fresh x) :
    requeue retry success (p :: (ps ++ q)) = ps ++ requeue retry success (p :: q) := by
  cases success with
  | true => rfl
  | false =>
    cases hb : retry p with
    | none => rw [requeue_false_none hb, requeue_false_none hb]
    | some b =>
      rw [requeue_false_some hb, requeue_false_some hb,
        orderedInsert_append_fresh hr (hr.not_fresh p b hb) hps]

/-- Serving the first of the fresh items keeps the rest of them fresh and in
front, and what is behind them not fresh. -/
theorem not_fresh_of_mem_requeue (hr : InRounds retry slot fresh) {success : Bool} {p x : α}
    {q : List α} (hq : ∀ y ∈ q, ¬ fresh y) (hx : x ∈ requeue retry success (p :: q)) :
    ¬ fresh x := by
  rcases mem_requeue.mp hx with hx | ⟨_, hx⟩
  · exact hq x hx
  · exact hr.not_fresh p x hx

/-- A queue holds its fresh items first. -/
theorem filter_append_filter_fresh (hr : InRounds retry slot fresh) [DecidablePred fresh]
    {q : List α} (hq : IsQueue slot q) :
    q.filter (fresh ·) ++ q.filter (¬ fresh ·) = q := by
  induction q with
  | nil => rfl
  | cons a q ih =>
    by_cases ha : fresh a
    · simpa [ha] using ih hq.tail
    · -- a fresh item behind `a` would come before it
      have hnone : ∀ x ∈ q, ¬ fresh x := fun x hx hf =>
        lt_asymm (hq.head_lt hx) (hr.fresh_lt x a hf ha)
      have hnil : q.filter (fresh ·) = [] := by simpa [List.filter_eq_nil_iff] using hnone
      have hall : q.filter (¬ fresh ·) = q := by simpa [List.filter_eq_self] using hnone
      simpa [ha, hnil] using hall

/-! ## The demand of a queue -/

theorem rest_eq_nil_iff_triesAll_le (hr : InRounds retry slot fresh) (hb : Budget retry left)
    {n k : ℕ} {q : List α} (hq : IsQueue slot q) (hf : ∀ x ∈ q, ¬ fresh x) :
    rest retry ok n k q = [] ↔ triesAll ok (q.map left) k ≤ n := by
  induction n generalizing k q with
  | zero =>
    cases q with
    | nil => simp [rest, triesAll]
    | cons a q =>
      have := tries_pos ok (hb.pos a) k
      simp only [rest, List.map_cons, triesAll, reduceCtorEq, false_iff]
      omega
  | succ n ih =>
    cases q with
    | nil => simp [triesAll]
    | cons a q =>
      have hq' : IsQueue slot (requeue retry (ok k) (a :: q)) := hq.requeue hr.toLawful _
      have hf' : ∀ x ∈ requeue retry (ok k) (a :: q), ¬ fresh x := fun x hx =>
        not_fresh_of_mem_requeue hr (fun y hy => hf y (List.mem_cons_of_mem _ hy)) hx
      rw [rest, ih hq' hf', List.map_cons, triesAll]
      -- the head's first try, and what it leaves of its own tries
      cases hok : ok k with
      | true =>
        obtain ⟨l, hl⟩ := Nat.exists_eq_succ_of_ne_zero (hb.pos a).ne'
        have ht : tries ok (left a) k = 1 := by simp [hl, tries, hok]
        rw [requeue_true, ht]
        omega
      | false =>
        cases hra : retry a with
        | none =>
          have ht : tries ok (left a) k = 1 := by simp [hb.last a hra, tries, hok]
          rw [requeue_false_none hra, ht]
          omega
        | some b =>
          have ht : tries ok (left a) k = 1 + tries ok (left b) (k + 1) := by
            simp [hb.next a b hra, tries, hok]
          rw [requeue_false_some hra,
            orderedInsert_retry hr hq (hf a List.mem_cons_self) hra, List.map_cons, triesAll, ht,
            show k + (1 + tries ok (left b) (k + 1)) = k + 1 + tries ok (left b) (k + 1) by omega]
          omega

/-- `n` services empty a queue exactly if they cover its demand. -/
theorem rest_eq_nil_iff_demand_le (hr : InRounds retry slot fresh) (hb : Budget retry left)
    {n k : ℕ} {ps q : List α} (hq : IsQueue slot (ps ++ q)) (hps : ∀ p ∈ ps, fresh p)
    (hf : ∀ x ∈ q, ¬ fresh x) :
    rest retry ok n k (ps ++ q) = [] ↔ demand ok retry left ps q k ≤ n := by
  induction ps generalizing n k q with
  | nil => exact rest_eq_nil_iff_triesAll_le hr hb hq hf
  | cons p ps ih =>
    cases n with
    | zero =>
      simp only [rest, List.cons_append, reduceCtorEq, demand, false_iff]
      omega
    | succ n =>
      have hps' : ∀ x ∈ ps, fresh x := fun x hx => hps x (List.mem_cons_of_mem _ hx)
      have hq' := hq.requeue hr.toLawful (ok k)
      rw [List.cons_append, requeue_append_fresh hr (ok k) hps'] at hq'
      rw [List.cons_append, rest, requeue_append_fresh hr (ok k) hps',
        ih hq' hps' fun x hx => not_fresh_of_mem_requeue hr hf hx, demand]
      omega

/-! ## Queues that clear -/

@[simp] theorem clears_nil (n k : ℕ) : clears retry ok n k ([] : List α) := by
  cases n with
  | zero => rfl
  | succ n => trivial

/-- The successes among `M + 1` services, counted from the second one on. -/
theorem count_succ_services (ok : ℕ → Bool) (k M : ℕ) :
    Nat.count (fun i => ok (k + i) = true) (M + 1) =
      Nat.count (fun i => ok (k + 1 + i) = true) M + if ok k = true then 1 else 0 := by
  rw [Nat.count_succ']
  simp only [Nat.add_zero, Nat.add_right_comm k 1, Nat.add_assoc]

/-- From service `s` on, no `L` of the `M` services that follow number `k` fail in a row. -/
def NoDrought (ok : ℕ → Bool) (L s k M : ℕ) : Prop :=
  ∀ i, s ≤ i → i + L ≤ M → ∃ t < L, ok (k + i + t) = true

/-- One of the first `m` of the `M` services from number `k` on succeeds. -/
def EarlySuccess (ok : ℕ → Bool) (m k M : ℕ) : Prop := ∃ i < m, i < M ∧ ok (k + i) = true

theorem noDrought_succ (ok : ℕ → Bool) (L s k M : ℕ) :
    NoDrought ok L (s + 1) k (M + 1) ↔ NoDrought ok L s (k + 1) M := by
  refine ⟨fun h i hs hi => ?_, fun h i hs hi => ?_⟩
  · obtain ⟨t, ht, htk⟩ := h (i + 1) (by omega) (by omega)
    exact ⟨t, ht, by rwa [show k + 1 + i = k + (i + 1) by omega]⟩
  · obtain ⟨t, ht, htk⟩ := h (i - 1) (by omega) (by omega)
    exact ⟨t, ht, by rwa [show k + 1 + (i - 1) = k + i by omega] at htk⟩

/-- Services without a drought: the first `L` of them, and those from the second one on. -/
theorem noDrought_zero_succ (ok : ℕ → Bool) (L k M : ℕ) :
    NoDrought ok L 0 k (M + 1) ↔
      (L ≤ M + 1 → ∃ t < L, ok (k + t) = true) ∧ NoDrought ok L 0 (k + 1) M := by
  rw [← noDrought_succ]
  refine ⟨fun h => ⟨fun hL => h 0 le_rfl (by omega), fun i _ hi => h i (by omega) hi⟩, ?_⟩
  rintro ⟨hfirst, hrest⟩ i _ hi
  cases i with
  | zero => exact hfirst (by omega)
  | succ i => exact hrest (i + 1) (by omega) hi

theorem earlySuccess_succ_of_false {ok : ℕ → Bool} {k : ℕ} (hok : ok k = false) (m M : ℕ) :
    EarlySuccess ok (m + 1) k (M + 1) ↔ EarlySuccess ok m (k + 1) M := by
  refine ⟨?_, ?_⟩
  · rintro ⟨i, hi, hM, hik⟩
    cases i with
    | zero => simp [hok] at hik
    | succ i => exact ⟨i, by omega, by omega, by rwa [show k + 1 + i = k + (i + 1) by omega]⟩
  · rintro ⟨i, hi, hM, hik⟩
    exact ⟨i + 1, by omega, by omega, by rwa [show k + (i + 1) = k + 1 + i by omega]⟩

/-- A first service that fails takes one try, and is no drought if a success comes early. -/
theorem earlySuccess_and_noDrought_succ_of_false {ok : ℕ → Bool} {k m L : ℕ} (hok : ok k = false)
    (hm : m < L) (M : ℕ) :
    EarlySuccess ok (m + 1) k (M + 1) ∧ NoDrought ok L 0 k (M + 1) ↔
      EarlySuccess ok m (k + 1) M ∧ NoDrought ok L 0 (k + 1) M := by
  rw [earlySuccess_succ_of_false hok, noDrought_zero_succ]
  refine and_congr_right fun hearly => and_iff_right fun _ => ?_
  obtain ⟨i, hi, -, hik⟩ := hearly
  exact ⟨i + 1, by omega, by rwa [show k + (i + 1) = k + 1 + i by omega]⟩

/-- If there is a success at all and no drought, then there is one early. -/
theorem NoDrought.earlySuccess {ok : ℕ → Bool} {L k M : ℕ} (h : NoDrought ok L 0 k M)
    (hcount : Nat.count (fun i => ok (k + i) = true) M ≠ 0) : EarlySuccess ok L k M := by
  by_cases hLM : L ≤ M
  · obtain ⟨t, ht, htk⟩ := h 0 le_rfl (by omega)
    exact ⟨t, ht, by omega, by simpa using htk⟩
  · obtain ⟨i, hi, hik⟩ := Nat.count_ne_iff_exists.mp hcount
    exact ⟨i, by omega, hi, hik⟩

theorem exists_le_succ_iff {P : ℕ → Prop} (hzero : ¬ P 0) {n : ℕ} :
    (∃ M ≤ n + 1, P M) ↔ ∃ M ≤ n, P (M + 1) := by
  refine ⟨?_, fun ⟨M, hM, hP⟩ => ⟨M + 1, by omega, hP⟩⟩
  rintro ⟨M, hM, hP⟩
  cases M with
  | zero => exact absurd hP hzero
  | succ M => exact ⟨M, by omega, hP⟩

/-- Where the head of the items has `L` tries, as every other item, its success
within them is no condition of its own. -/
theorem clears_iff_of_cons {L n k : ℕ} {q : List α} (hL : ∀ x ∈ q, left x = L) (hL0 : 0 < L)
    (hcons : ∀ c q', q = c :: q' → (clears retry ok n k (c :: q') ↔
      ∃ M ≤ n, Nat.count (fun i => ok (k + i) = true) M = q'.length + 1 ∧
        EarlySuccess ok (left c) k M ∧ NoDrought ok L 0 k M)) :
    clears retry ok n k q ↔
      ∃ M ≤ n, Nat.count (fun i => ok (k + i) = true) M = q.length ∧ NoDrought ok L 0 k M := by
  cases q with
  | nil =>
    refine iff_of_true (clears_nil _ _) ⟨0, Nat.zero_le _, rfl, fun i _ hi => ?_⟩
    omega
  | cons c q =>
    rw [hcons c q rfl, hL c List.mem_cons_self]
    apply exists_congr
    intro M
    apply and_congr_right
    intro _
    apply and_congr_right
    intro hcount
    exact and_iff_right_of_imp fun h => h.earlySuccess (by rw [hcount]; simp)

/-- Items without fresh ones all succeed exactly if there are enough successes,
the head has one within its tries, and no `L` services in a row fail. -/
theorem clears_cons_iff (hr : InRounds retry slot fresh) (hb : Budget retry left) {L n k : ℕ}
    {a : α} {q : List α} (hq : IsQueue slot (a :: q)) (hf : ∀ x ∈ a :: q, ¬ fresh x)
    (hL : ∀ x ∈ q, left x = L) (ha : left a ≤ L) :
    clears retry ok n k (a :: q) ↔
      ∃ M ≤ n, Nat.count (fun i => ok (k + i) = true) M = q.length + 1 ∧
        EarlySuccess ok (left a) k M ∧ NoDrought ok L 0 k M := by
  have hL0 : 0 < L := (hb.pos a).trans_le ha
  induction n generalizing k a q with
  | zero =>
    simp only [clears, reduceCtorEq, false_iff, not_exists, not_and]
    intro M hM hcount
    obtain rfl : M = 0 := by omega
    simp at hcount
  | succ n ih =>
    have hpos := hb.pos a
    rw [exists_le_succ_iff (by simp)]
    -- what the first service does shifts everything that is said of the others by one
    cases hok : ok k with
    | true =>
      simp only [clears, hok, true_or, true_and, requeue_true, count_succ_services, if_pos,
        Nat.add_right_cancel_iff]
      have hearly : ∀ M, EarlySuccess ok (left a) k (M + 1) := fun M => ⟨0, hpos, by omega, hok⟩
      have hrow : ∀ M, NoDrought ok L 0 k (M + 1) ↔ NoDrought ok L 0 (k + 1) M := fun M =>
        (noDrought_zero_succ ok L k M).trans (and_iff_right fun _ => ⟨0, hL0, hok⟩)
      simp only [hearly, hrow, true_and]
      apply clears_iff_of_cons hL hL0
      rintro c q' rfl
      exact ih hq.tail (fun x hx => hf x (List.mem_cons_of_mem _ hx))
        (fun x hx => hL x (List.mem_cons_of_mem _ hx)) (hL c List.mem_cons_self).le
    | false =>
      cases hra : retry a with
      | none =>
        refine iff_of_false (by simp [clears, hok, hra]) ?_
        rintro ⟨M, -, -, hearly, -⟩
        rw [hb.last a hra, earlySuccess_succ_of_false hok] at hearly
        obtain ⟨i, hi, -⟩ := hearly
        omega
      | some b =>
        have hab := hb.next a b hra
        have hq' := hq.requeue hr.toLawful false
        have hins := orderedInsert_retry hr hq (hf a List.mem_cons_self) hra
        rw [requeue_false_some hra, hins] at hq'
        have hf' : ∀ x ∈ b :: q, ¬ fresh x := List.forall_mem_cons.mpr
          ⟨hr.not_fresh a b hra, fun x hx => hf x (List.mem_cons_of_mem _ hx)⟩
        simp only [clears, hok, hra, ne_eq, reduceCtorEq, not_false_eq_true, or_true, true_and,
          requeue_false_some hra, hins, count_succ_services, if_false, Nat.add_zero]
        refine (ih hq' hf' hL (by omega)).trans ?_
        rw [hab]
        apply exists_congr
        intro M
        rw [earlySuccess_and_noDrought_succ_of_false hok (by omega)]

/-- An item with `L + 1` tries that fails comes again with `L`, as the others have. -/
theorem left_requeue (hb : Budget retry left) {L : ℕ} (hL0 : 0 < L) {p : α} {q : List α}
    (hp : left p = L + 1) (hLq : ∀ x ∈ q, left x = L) (done : Bool) :
    (∀ x ∈ requeue retry done (p :: q), left x = L) ∧
      (requeue retry done (p :: q)).length = q.length + if done = true then 0 else 1 := by
  cases done with
  | true => exact ⟨hLq, rfl⟩
  | false =>
    have hnone : retry p ≠ none := by
      intro h
      have := hb.last p h
      omega
    obtain ⟨b, hpb⟩ := Option.ne_none_iff_exists'.mp hnone
    have hbL : left b = L := by have := hb.next p b hpb; omega
    rw [requeue_false_some hpb]
    refine ⟨fun x hx => ?_, by simp [List.orderedInsert_length]⟩
    cases (List.mem_orderedInsert (· ≤ ·)).mp hx with
    | inl h => exact h ▸ hbL
    | inr h => exact hLq x h

/-- Fresh items with `L + 1` tries before items with `L` tries all succeed exactly
if there are as many successes as items, and after the first round no `L`
services in a row fail before that. -/
theorem clears_append_iff (hr : InRounds retry slot fresh) (hb : Budget retry left) {L n k : ℕ}
    (hL0 : 0 < L) {ps q : List α} (hq : IsQueue slot (ps ++ q)) (hps : ∀ p ∈ ps, fresh p)
    (hf : ∀ x ∈ q, ¬ fresh x) (hLps : ∀ p ∈ ps, left p = L + 1) (hLq : ∀ x ∈ q, left x = L) :
    clears retry ok n k (ps ++ q) ↔
      ∃ M ≤ n, Nat.count (fun i => ok (k + i) = true) M = ps.length + q.length ∧
        NoDrought ok L ps.length k M := by
  induction ps generalizing n k q with
  | nil =>
    simp only [List.nil_append, List.length_nil, Nat.zero_add]
    apply clears_iff_of_cons hLq hL0
    rintro c q' rfl
    exact clears_cons_iff hr hb hq hf (fun x hx => hLq x (List.mem_cons_of_mem _ hx))
      (hLq c List.mem_cons_self).le
  | cons p ps ih =>
    cases n with
    | zero =>
      simp only [List.cons_append, clears, reduceCtorEq, false_iff, not_exists, not_and]
      intro M hM hcount
      obtain rfl : M = 0 := by omega
      simp at hcount
      omega
    | succ n =>
      have hps' : ∀ x ∈ ps, fresh x := fun x hx => hps x (List.mem_cons_of_mem _ hx)
      have hpL : left p = L + 1 := hLps p List.mem_cons_self
      have hq' := hq.requeue hr.toLawful (ok k)
      rw [List.cons_append, requeue_append_fresh hr (ok k) hps'] at hq'
      have hnone : retry p ≠ none := by
        intro h
        have := hb.last p h
        omega
      have hstep := left_requeue hb hL0 hpL hLq (ok k)
      rw [List.cons_append, clears, requeue_append_fresh hr (ok k) hps',
        ih hq' hps' (fun x hx => not_fresh_of_mem_requeue hr hf hx)
          (fun x hx => hLps x (List.mem_cons_of_mem _ hx)) hstep.1, hstep.2, List.length_cons,
        and_iff_right (.inr hnone), exists_le_succ_iff (by simp; omega)]
      apply exists_congr
      intro M
      apply and_congr_right
      intro _
      rw [noDrought_succ, count_succ_services]
      apply and_congr_left
      intro _
      split <;> omega

/-- A first round over fresh items with `L + 1` tries each, and everything after
it: all items succeed within `n` services exactly if some `M ≤ n` services hold as
many successes as there are items, and from the end of the first round on no `L`
of them fail in a row. -/
theorem clears_iff_exists_count (hr : InRounds retry slot fresh) (hb : Budget retry left)
    {L n : ℕ} (hL0 : 0 < L) {ps : List α} (hq : IsQueue slot ps) (hps : ∀ p ∈ ps, fresh p)
    (hLps : ∀ p ∈ ps, left p = L + 1) :
    clears retry ok n 0 ps ↔
      ∃ M ≤ n, Nat.count (fun i => ok i = true) M = ps.length ∧
        ∀ i, ps.length ≤ i → i + L ≤ M → ∃ t < L, ok (i + t) = true := by
  have h : clears retry ok n 0 (ps ++ []) ↔ _ :=
    clears_append_iff hr hb hL0 (by rwa [List.append_nil]) hps (by simp) hLps (by simp)
  simpa only [NoDrought, List.append_nil, Nat.zero_add, List.length_nil, Nat.add_zero] using h

end Foundation.RetryQueue
