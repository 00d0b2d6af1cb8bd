import Hotelia.Offline.ClaimQueue
import Hotelia.Offline.Sync

/-!
# One flush pass

A pass of `flush` serves the queue of claimable rows, at most `flushCeiling`
times. What one turn of its loop does to the rows is stated once; the deliveries
of a pass, the rows it leaves behind and the tries it takes follow by induction
on the turns.
-/

namespace Hotelia.Offline
open Foundation Foundation.RetryQueue OfflineActionRecord OfflineActionStore

section Loop

variable {σ : Type*} {net : Backend σ}

theorem flushLoop_of_none {n : ℕ} {p : FlushPass σ}
    (h : p.store.claimNext (net.now p.backend) = none) : flushLoop net n p = p := by
  rw [flushLoop, h]

theorem flushLoop_zero {p : FlushPass σ} {c : OfflineActionRecord} {s : OfflineActionStore}
    (h : p.store.claimNext (net.now p.backend) = some (c, s)) :
    flushLoop net 0 p = { p with store := s, claims := p.claims ++ [c] } := by
  rw [flushLoop, h]

theorem flushLoop_succ {n : ℕ} {p : FlushPass σ} {c : OfflineActionRecord}
    {s : OfflineActionStore} (h : p.store.claimNext (net.now p.backend) = some (c, s)) :
    flushLoop net (n + 1) p =
      flushLoop net n ({ p with store := s, claims := p.claims ++ [c] }.serve net c) := by
  rw [flushLoop, h]

/-- What the last claim keeps, and each turn with one less to go, the pass keeps. -/
theorem flushLoop_keeps {P : ℕ → OfflineActionStore → σ → Prop}
    (hclaim : ∀ s w c s₁, P 0 s w → s.claimNext (net.now w) = some (c, s₁) → P 0 s₁ w)
    (hturn : ∀ n s w c s₁, P (n + 1) s w → s.claimNext (net.now w) = some (c, s₁) →
      let (answer, w') := net.post c.packet w
      P n (s₁.settle c.id (deliverOk answer) (net.now w')) w')
    {n : ℕ} {p : FlushPass σ} (hp : P n p.store p.backend) :
    ∃ m, P m (flushLoop net n p).store (flushLoop net n p).backend := by
  induction n generalizing p with
  | zero =>
    cases h : p.store.claimNext (net.now p.backend) with
    | none => exact ⟨0, (flushLoop_of_none h).symm ▸ hp⟩
    | some cs =>
      rw [flushLoop_zero h]
      exact ⟨0, hclaim _ _ _ _ hp h⟩
  | succ n ih =>
    cases h : p.store.claimNext (net.now p.backend) with
    | none => exact ⟨n + 1, (flushLoop_of_none h).symm ▸ hp⟩
    | some cs =>
      rw [flushLoop_succ h]
      exact ih (hturn n _ _ _ _ hp h)

/-- While `R` holds, the `k`-th request of a pass gets an answer that counts as
delivered exactly if `ok k`. -/
def Answers (net : Backend σ) (ok : ℕ → Bool) (R : ℕ → OfflineActionStore → σ → Prop) : Prop :=
  ∀ k s w c s₁, R k s w → s.claimNext (net.now w) = some (c, s₁) →
    let (answer, w') := net.post c.packet w
    deliverOk answer = ok k ∧ R (k + 1) (s₁.settle c.id (ok k) (net.now w')) w'

theorem answers_scripted (health : Option Bool) (answers : ℕ → Option ℕ) (clock : ℕ → ℕ) :
    Answers (scripted health answers clock) (fun k => deliverOk (answers k))
      (fun k _ w => w = k) := by
  intro k s w c s₁ hw _
  subst hw
  exact ⟨rfl, rfl⟩

variable {ok : ℕ → Bool} {R : ℕ → OfflineActionStore → σ → Prop}

/-- The induction over the turns of a pass: `P n k p` holds of a pass with `n`
turns to go, the next request being number `k`, if it holds when nothing is left
to claim and at the ceiling, and if a turn passes it back. -/
theorem flushLoop_induct (hnet : Answers net ok R) {P : ℕ → ℕ → FlushPass σ → Prop}
    (hnone : ∀ n k p, R k p.store p.backend → p.store.claimNext (net.now p.backend) = none →
      flushLoop net n p = p → P n k p)
    (hzero : ∀ k p c s, R k p.store p.backend →
      p.store.claimNext (net.now p.backend) = some (c, s) →
      flushLoop net 0 p = { p with store := s, claims := p.claims ++ [c] } → P 0 k p)
    (hsucc : ∀ n k p c s now' w, R (k + 1) (s.settle c.id (ok k) now') w →
      p.store.claimNext (net.now p.backend) = some (c, s) →
      let p' : FlushPass σ := ⟨s.settle c.id (ok k) now', w, p.delivered + 1, p.claims ++ [c],
        p.attempts ++ [c]⟩
      flushLoop net (n + 1) p = flushLoop net n p' → P n (k + 1) p' → P (n + 1) k p)
    {n k : ℕ} {p : FlushPass σ} (hR : R k p.store p.backend) : P n k p := by
  induction n generalizing k p with
  | zero =>
    cases h : p.store.claimNext (net.now p.backend) with
    | none => exact hnone 0 k p hR h (flushLoop_of_none h)
    | some cs => exact hzero k p cs.1 cs.2 hR h (flushLoop_zero h)
  | succ n ih =>
    cases h : p.store.claimNext (net.now p.backend) with
    | none => exact hnone (n + 1) k p hR h (flushLoop_of_none h)
    | some cs =>
      obtain ⟨hok, hR'⟩ := hnet k p.store p.backend cs.1 cs.2 hR h
      have hloop := flushLoop_succ (n := n) h
      simp only [FlushPass.serve, hok] at hloop
      exact hsucc n k p cs.1 cs.2 _ _ hR' h hloop (ih hR')

/-- The rows that a pass delivers are those that its queue serves: `f` shows of a claimed
record what `g` shows of its ticket. -/
theorem attempts_flushLoop {β : Type*} {f : OfflineActionRecord → β} {g : Ticket → β}
    (hfg : ∀ (row : OfflineActionRecord) now, f (row.claimed now) = g row.ticket)
    (hnet : Answers net ok R) {n k : ℕ} {p : FlushPass σ} (hR : R k p.store p.backend) :
    (flushLoop net n p).attempts.map f =
      p.attempts.map f ++ (served Ticket.retry ok n k p.store.queue).map g := by
  refine flushLoop_induct hnet (P := fun n k p => (flushLoop net n p).attempts.map f =
    p.attempts.map f ++ (served Ticket.retry ok n k p.store.queue).map g) ?_ ?_ ?_ hR
  · intro n k p _ hnone hloop
    rw [hloop, queue_eq_nil.mpr (findClaimable_eq_none.mpr (claimNext_eq_none.mp hnone)), served_nil,
      List.map_nil, List.append_nil]
  · intro k p c s _ _ hloop
    rw [hloop, served, List.map_nil, List.append_nil]
  · intro n k p c s now' w _ hclaim p' hloop ih
    obtain ⟨row, hrow, rfl, -⟩ := claimNext_eq_some hclaim
    obtain ⟨q, hq⟩ := queue_eq_cons hrow
    have hqueue : p'.store.queue = requeue Ticket.retry (ok k) p.store.queue := queue_mark hclaim
    rw [hloop, ih, hqueue, hq, served, List.map_append, List.append_assoc, List.map_singleton, hfg]
    rfl

/-- A pass leaves the rows alone that cannot be claimed. -/
theorem mem_flushLoop_of_not_claimable (hnet : Answers net ok R) {n k : ℕ} {p : FlushPass σ}
    (hR : R k p.store p.backend) {r : OfflineActionRecord} (hr : r ∈ p.store.rows)
    (hc : ¬ r.Claimable) : r ∈ (flushLoop net n p).store.rows := by
  revert hr
  refine flushLoop_induct hnet (P := fun n k p => r ∈ p.store.rows →
    r ∈ (flushLoop net n p).store.rows) ?_ ?_ ?_ hR
  · intro n k p _ _ hloop hr
    rwa [hloop]
  · intro k p c s _ hclaim hloop hr
    rw [hloop]
    obtain ⟨row, hrow, -, hrows⟩ := claimNext_eq_some hclaim
    obtain ⟨hmem, hrc, -⟩ := findClaimable_eq_some hrow
    show r ∈ s.rows
    rw [hrows]
    refine List.mem_map.mpr ⟨r, hr, if_neg ?_⟩
    intro hid
    exact hc (p.store.eq_of_id_eq hr hmem hid ▸ hrc)
  · intro n k p c s now' w _ hclaim p' hloop ih hr
    rw [hloop]
    exact ih (mem_claim_mark_of_not_claimable hclaim hr hc)

/-- No row is retried more often than it is delivered. -/
theorem retryCount_flushLoop (hnet : Answers net ok R) {n k : ℕ} {p : FlushPass σ}
    (hR : R k p.store p.backend) :
    ∀ r' ∈ (flushLoop net n p).store.rows, ∃ r ∈ p.store.rows, r.id = r'.id ∧
      r'.retryCount + p.attempts.countP (·.id = r'.id) ≤
        r.retryCount + (flushLoop net n p).attempts.countP (·.id = r'.id) := by
  refine flushLoop_induct hnet (P := fun n k p => ∀ r' ∈ (flushLoop net n p).store.rows,
    ∃ r ∈ p.store.rows, r.id = r'.id ∧ r'.retryCount + p.attempts.countP (·.id = r'.id) ≤
      r.retryCount + (flushLoop net n p).attempts.countP (·.id = r'.id)) ?_ ?_ ?_ hR
  · intro n k p _ _ hloop r' hr'
    rw [hloop] at hr' ⊢
    exact ⟨r', hr', rfl, le_rfl⟩
  · intro k p c s _ hclaim hloop r' hr'
    rw [hloop] at hr' ⊢
    obtain ⟨row, hrow, -, hrows⟩ := claimNext_eq_some hclaim
    obtain ⟨r, hr, rfl⟩ := List.mem_map.mp (hrows ▸ hr' : r' ∈ List.map _ _)
    refine ⟨r, hr, ?_, ?_⟩ <;> split <;> rfl
  · intro n k p c s now' w _ hclaim p' hloop ih r' hr'
    rw [hloop] at hr' ⊢
    obtain ⟨r, hr, hid, hle⟩ := ih r' hr'
    have hcount : p'.attempts.countP (·.id = r'.id) =
        p.attempts.countP (·.id = r'.id) + if c.id = r'.id then 1 else 0 := by
      simp [p', List.countP_append, List.countP_singleton]
    cases mem_claim_mark hclaim hr with
    | inl hserved =>
      obtain ⟨row, hrow, hc, hr⟩ := hserved
      have hcr : c.id = r'.id := by rw [← hid, hr, marked_id]
      have hrc : r.retryCount ≤ row.retryCount + 1 := by
        rw [hr, hc]
        exact marked_retryCount_le _ _ _ _
      refine ⟨row, hrow, by rw [← hcr, hc]; rfl, ?_⟩
      rw [hcount, if_pos hcr] at hle
      omega
    | inr hold =>
      refine ⟨r, hold.1, hid, ?_⟩
      rw [hcount] at hle
      omega

/-- Every row that the pass has claimed so far is marked. -/
def SettledClaims (p : FlushPass σ) : Prop :=
  ∀ c ∈ p.claims, ∀ r ∈ p.store.rows, r.id = c.id → r.Settled

/-- A pass ends with its claims settled exactly if it empties the queue: at the
ceiling its guard claims one row more than it delivers. -/
theorem settledClaims_flushLoop_iff (hnet : Answers net ok R) {n k : ℕ} {p : FlushPass σ}
    (hR : R k p.store p.backend) (hp : SettledClaims p) :
    SettledClaims (flushLoop net n p) ↔ rest Ticket.retry ok n k p.store.queue = [] := by
  revert hp
  refine flushLoop_induct hnet (P := fun n k p => SettledClaims p →
    (SettledClaims (flushLoop net n p) ↔ rest Ticket.retry ok n k p.store.queue = []))
    ?_ ?_ ?_ hR
  · intro n k p _ hnone hloop hp
    rw [hloop, queue_eq_nil.mpr (findClaimable_eq_none.mpr (claimNext_eq_none.mp hnone))]
    exact iff_of_true hp (rest_nil _ _)
  · intro k p c s _ hclaim hloop _
    obtain ⟨row, hrow, rfl, hrows⟩ := claimNext_eq_some hclaim
    obtain ⟨q, hq⟩ := queue_eq_cons hrow
    rw [hloop, hq]
    refine iff_of_false ?_ (List.cons_ne_nil _ _)
    intro hsettled
    have hmem : row.claimed (net.now p.backend) ∈ s.rows := by
      rw [hrows]
      exact List.mem_map.mpr ⟨row, (findClaimable_eq_some hrow).1, if_pos rfl⟩
    have := hsettled _ (List.mem_append_right _ (List.mem_singleton_self _)) _ hmem rfl
    simp [OfflineActionRecord.Settled, claimed] at this
  · intro n k p c s now' w _ hclaim p' hloop ih hp
    have hqueue : p'.store.queue = requeue Ticket.retry (ok k) p.store.queue := queue_mark hclaim
    rw [hloop, rest, ← hqueue]
    apply ih
    intro d hd r hr hid
    cases mem_claim_mark hclaim hr with
    | inl hserved =>
      obtain ⟨_, _, _, hr⟩ := hserved
      exact hr ▸ settled_marked _ _ _ _
    | inr hold =>
      cases List.mem_append.mp hd with
      | inl hd => exact hp d hd r hold.1 hid
      | inr hd => exact absurd (List.mem_singleton.mp hd ▸ hid) hold.2

/-- A pass ends with nothing left to claim, or at the ceiling with a row `PROCESSING`. -/
theorem flushLoop_end (net : Backend σ) (n : ℕ) (p : FlushPass σ) :
    (∀ r ∈ (flushLoop net n p).store.rows, ¬ r.Claimable) ∨
      ∃ r ∈ (flushLoop net n p).store.rows, r.status = .processing := by
  induction n generalizing p with
  | zero =>
    cases h : p.store.claimNext (net.now p.backend) with
    | none =>
      rw [flushLoop_of_none h]
      exact .inl (claimNext_eq_none.mp h)
    | some cs =>
      obtain ⟨row, hrow, -, hrows⟩ := claimNext_eq_some h
      rw [flushLoop_zero h]
      refine .inr ⟨row.claimed (net.now p.backend), ?_, rfl⟩
      rw [hrows]
      exact List.mem_map.mpr ⟨row, (findClaimable_eq_some hrow).1, if_pos rfl⟩
  | succ n ih =>
    cases h : p.store.claimNext (net.now p.backend) with
    | none =>
      rw [flushLoop_of_none h]
      exact .inl (claimNext_eq_none.mp h)
    | some cs =>
      rw [flushLoop_succ h]
      exact ih _

/-- Every row is `COMPLETED` or can still be claimed. -/
def Undamaged (s : OfflineActionStore) : Prop :=
  ∀ r ∈ s.rows, r.status = .completed ∨ r.Claimable

/-- A served row is completed or claimable again exactly if it succeeded or has a retry. -/
theorem marked_iff_retry (row : OfflineActionRecord) (success : Bool) (error : String)
    (now now' : ℕ) :
    (((row.claimed now).marked success error now').status = .completed ∨
      ((row.claimed now).marked success error now').Claimable) ↔
        success = true ∨ row.ticket.retry ≠ none := by
  cases success with
  | true => exact iff_of_true (.inl rfl) (.inl rfl)
  | false =>
    have hretry : row.ticket.retry ≠ none ↔ row.retryCount + 1 < maxRetryCount := by
      rw [Option.ne_none_iff_exists']
      exact ⟨fun ⟨_, h⟩ => (Ticket.retry_eq_some.mp h).1,
        fun h => ⟨_, Ticket.retry_eq_some.mpr ⟨h, rfl⟩⟩⟩
    rw [hretry]
    simp [marked, claimed, failed, Claimable]

/-- A pass leaves every row `COMPLETED` or claimable exactly if it clears the
queue: a row that fails for the last time stays failed, and so does the row
claimed at the ceiling stay claimed. -/
theorem undamaged_flushLoop_iff (hnet : Answers net ok R) {n k : ℕ} {p : FlushPass σ}
    (hR : R k p.store p.backend) (hp : Undamaged p.store) :
    Undamaged (flushLoop net n p).store ↔ clears Ticket.retry ok n k p.store.queue := by
  revert hp
  refine flushLoop_induct hnet (P := fun n k p => Undamaged p.store →
    (Undamaged (flushLoop net n p).store ↔ clears Ticket.retry ok n k p.store.queue)) ?_ ?_ ?_ hR
  · intro n k p _ hnone hloop hp
    rw [hloop, queue_eq_nil.mpr (findClaimable_eq_none.mpr (claimNext_eq_none.mp hnone))]
    exact iff_of_true hp (clears_nil _ _)
  · intro k p c s _ hclaim hloop _
    obtain ⟨row, hrow, rfl, hrows⟩ := claimNext_eq_some hclaim
    obtain ⟨q, hq⟩ := queue_eq_cons hrow
    rw [hloop, hq]
    refine iff_of_false ?_ (List.cons_ne_nil _ _)
    intro hsafe
    have hmem : row.claimed (net.now p.backend) ∈ s.rows := by
      rw [hrows]
      exact List.mem_map.mpr ⟨row, (findClaimable_eq_some hrow).1, if_pos rfl⟩
    have := hsafe _ hmem
    simp [claimed, Claimable] at this
  · intro n k p c s now' w hR' hclaim p' hloop ih hp
    obtain ⟨row, hrow, rfl, -⟩ := claimNext_eq_some hclaim
    obtain ⟨q, hq⟩ := queue_eq_cons hrow
    have hqueue : p'.store.queue = requeue Ticket.retry (ok k) p.store.queue := queue_mark hclaim
    have hserved := marked_iff_retry row (ok k) deliveryFailed (net.now p.backend) now'
    rw [hq] at hqueue
    rw [hloop, hq, clears, ← hqueue, ← hserved]
    by_cases hfate : ((row.claimed (net.now p.backend)).marked (ok k) deliveryFailed now').status =
        .completed ∨ ((row.claimed (net.now p.backend)).marked (ok k) deliveryFailed now').Claimable
    · rw [and_iff_right hfate]
      apply ih
      intro r hr
      cases mem_claim_mark hclaim hr with
      | inl hmarked =>
        obtain ⟨_, _, _, rfl⟩ := hmarked
        exact hfate
      | inr hold => exact hp r hold.1
    · -- the served row is out of budget, and the rest of the pass leaves it so
      refine iff_of_false ?_ fun h => hfate h.1
      intro hsafe
      exact hfate (hsafe _ (mem_flushLoop_of_not_claimable hnet (n := n) (p := p') hR'
        (marked_mem_claim_mark hclaim) fun hclaimable => hfate (.inr hclaimable)))

end Loop

end Hotelia.Offline
