import Hotelia.Foundation.Run
import Hotelia.Payments.Ledger

/-!
# Matched payments come in pairs

When a link between an intent and a confirmation is mutual, and which calls keep
all links mutual. Both operations that write links write the two halves one after
the other, so one lemma about a rewritten link covers them.

## Main results

- `paired_link_iff`: when writing a link keeps the ledger paired.
- `paired_run_iff`: which runs keep it paired throughout.
-/

namespace Hotelia.Payments
open Foundation LedgerRow PaymentLedger

/-- An intent and a confirmation. -/
def Opposite (a b : PaymentKind) : Prop :=
  (a = .intent ∧ b = .confirmation) ∨ (a = .confirmation ∧ b = .intent)

instance (a b : PaymentKind) : Decidable (Opposite a b) :=
  inferInstanceAs (Decidable ((a = .intent ∧ b = .confirmation) ∨
    (a = .confirmation ∧ b = .intent)))

theorem not_opposite_self (a : PaymentKind) : ¬ Opposite a a := by
  cases a <;> decide

/-- Every `MATCHED` row names a `MATCHED` row of the other kind that names it back. -/
def Paired (l : PaymentLedger) : Prop :=
  ∀ a ∈ l.rows, a.status = .matched → ∃ b ∈ l.rows, a.matchedIntentId = some b.id ∧
    Opposite a.kind b.kind ∧ b.status = .matched ∧ b.matchedIntentId = some a.id

instance (l : PaymentLedger) : Decidable (Paired l) :=
  inferInstanceAs (Decidable (∀ a ∈ l.rows, a.status = .matched → ∃ b ∈ l.rows,
    a.matchedIntentId = some b.id ∧ Opposite a.kind b.kind ∧ b.status = .matched ∧
      b.matchedIntentId = some a.id))

/-- A row is determined by its id. -/
theorem eq_of_id_eq (l : PaymentLedger) {a b : LedgerRow} (ha : a ∈ l.rows) (hb : b ∈ l.rows)
    (h : a.id = b.id) : a = b :=
  l.eq_of_clash Clash.symm ha hb (.inl h)

theorem eq_of_key_eq (l : PaymentLedger) {a b : LedgerRow} (ha : a ∈ l.rows) (hb : b ∈ l.rows)
    (h : a.idempotencyKey = b.idempotencyKey) : a = b :=
  l.eq_of_clash Clash.symm ha hb (.inr (.inl h))

/-- A row that is not matched does no harm. -/
theorem Paired.insertOrIgnore {l : PaymentLedger} (h : Paired l) {r : LedgerRow}
    (hr : r.status ≠ .matched) : Paired (l.insertOrIgnore r) := by
  intro a ha hmatched
  cases l.mem_of_mem_insertOrIgnore r ha with
  | inl hold =>
    obtain ⟨b, hb, hlink⟩ := h a hold hmatched
    exact ⟨b, l.mem_insertOrIgnore_of_mem r hb, hlink⟩
  | inr hnew => exact absurd (hnew ▸ hmatched) hr

/-! ## Writing a link -/

section Link

variable {l : PaymentLedger} {a : LedgerRow} {y : String} {now : ℕ}
  {f : LedgerRow → LedgerRow} {hf : KeepsKeys f}

/-- The two halves of a link: the row `x` by `f`, and then the row `y` back to `x`. -/
def link (l : PaymentLedger) (x y : String) (now : ℕ) (f : LedgerRow → LedgerRow)
    (hf : KeepsKeys f) : PaymentLedger :=
  (l.setById x f hf).matchBoth now x y

/-- `f` links a row to `y`. -/
def LinksTo (f : LedgerRow → LedgerRow) (y : String) : Prop :=
  ∀ r, (f r).status = .matched ∧ (f r).matchedIntentId = some y

theorem mem_link_iff {r' : LedgerRow} {x : String} :
    r' ∈ (link l x y now f hf).rows ↔ ∃ r ∈ l.rows,
      r' = if r.id = y then linked now x (if r.id = x then f r else r)
        else if r.id = x then f r else r := by
  have hid (r : LedgerRow) : (if r.id = x then f r else r).id = r.id := by
    split
    · exact (hf r).1
    · rfl
  have hrows : (link l x y now f hf).rows = l.rows.map fun r =>
      if r.id = y then linked now x (if r.id = x then f r else r)
      else if r.id = x then f r else r := by
    rw [link, matchBoth, setById_rows, setById_rows, List.map_map]
    apply List.map_congr_left
    intro r _
    simp only [Function.comp_apply, hid]
  rw [hrows, List.mem_map]
  exact exists_congr fun r => and_congr_right fun _ => eq_comm

/-- The row of `y` after the link, if it is not that of `x`. -/
theorem target_mem_link {b : LedgerRow} (hb : b ∈ l.rows) (hy : b.id = y) (hne : y ≠ a.id) :
    linked now a.id b ∈ (link l a.id y now f hf).rows :=
  mem_link_iff.mpr ⟨b, hb, by rw [if_pos hy, if_neg (hy ▸ hne)]⟩

/-- The row of `x` after the link, if it is not that of `y`. -/
theorem source_mem_link (ha : a ∈ l.rows) (hne : y ≠ a.id) :
    f a ∈ (link l a.id y now f hf).rows :=
  mem_link_iff.mpr ⟨a, ha, by rw [if_neg hne.symm, if_pos rfl]⟩

/-- Every other row stays. -/
theorem other_mem_link {r : LedgerRow} {x : String} (hr : r ∈ l.rows) (hx : r.id ≠ x)
    (hy : r.id ≠ y) : r ∈ (link l x y now f hf).rows :=
  mem_link_iff.mpr ⟨r, hr, by rw [if_neg hy, if_neg hx]⟩

/-- A link that is mutual after it was written joins rows of opposite kinds. -/
theorem exists_target_of_paired (ha : a ∈ l.rows) (hlinks : LinksTo f y)
    (h : Paired (link l a.id y now f hf)) :
    ∃ b ∈ l.rows, b.id = y ∧ y ≠ a.id ∧ Opposite a.kind b.kind := by
  by_cases hy : y = a.id
  · -- the row would be its own partner
    subst hy
    have hself : linked now a.id (f a) ∈ (link l a.id a.id now f hf).rows :=
      mem_link_iff.mpr ⟨a, ha, by rw [if_pos rfl, if_pos rfl]⟩
    obtain ⟨b', hb', hid, hkind, -⟩ := h _ hself rfl
    have hsame : linked now a.id (f a) = b' := by
      refine eq_of_id_eq _ hself hb' (Eq.trans (hf a).1 ?_)
      simpa [linked] using hid
    exact absurd (hsame ▸ hkind) (not_opposite_self _)
  · obtain ⟨b', hb', hid, hkind, -⟩ := h _ (source_mem_link ha hy) (hlinks a).1
    obtain ⟨b, hb, rfl⟩ := mem_link_iff.mp hb'
    rw [(hlinks a).2, Option.some.injEq] at hid
    have hby : b.id = y := by
      rw [hid]
      split <;> split <;> first | rfl | exact (hf b).1.symm
    refine ⟨b, hb, hby, hy, ?_⟩
    rw [if_pos hby, if_neg (hby ▸ hy), (hf a).2.2.1] at hkind
    exact hkind

/-- The partner of a matched row stays linked to it. If the row is linked to `y` now,
then its partner is `y`. -/
theorem linked_of_paired_link (hp : Paired l) (ha : a ∈ l.rows) (hlinks : LinksTo f y)
    (hy : y ≠ a.id) (h : Paired (link l a.id y now f hf)) (hmatched : a.status = .matched) :
    a.matchedIntentId = some y := by
  obtain ⟨p, hpm, hap, hpk, hps, hpa⟩ := hp a ha hmatched
  by_contra hne
  have hpy : p.id ≠ y := fun he => hne (he ▸ hap)
  have hpx : p.id ≠ a.id := fun he => not_opposite_self _ (eq_of_id_eq l hpm ha he ▸ hpk)
  obtain ⟨q', hq', hpq, -, -, hback⟩ := h p (other_mem_link hpm hpx hpy) hps
  rw [hpa, Option.some.injEq] at hpq
  have hqa : q' = f a :=
    eq_of_id_eq _ hq' (source_mem_link ha hy) (hpq.symm.trans (hf a).1.symm)
  rw [hqa, (hlinks a).2, Option.some.injEq] at hback
  exact hpy hback.symm

/-- So does the partner of a matched row that becomes the target of a link. -/
theorem target_free_of_paired_link {b : LedgerRow} (hp : Paired l) (ha : a ∈ l.rows)
    (hb : b ∈ l.rows) (hby : b.id = y) (hy : y ≠ a.id) (h : Paired (link l a.id y now f hf))
    (hfree : a.status ≠ .matched) : b.status ≠ .matched := by
  intro hmatched
  obtain ⟨q, hq, hbq, hqk, hqs, hqb⟩ := hp b hb hmatched
  have hqx : q.id ≠ a.id := fun he => hfree (eq_of_id_eq l hq ha he ▸ hqs)
  have hqy : q.id ≠ y := fun he =>
    not_opposite_self _ (eq_of_id_eq l hq hb (he.trans hby.symm) ▸ hqk)
  obtain ⟨b', hb', hqb', -, -, hback⟩ := h q (other_mem_link hq hqx hqy) hqs
  rw [hqb, Option.some.injEq] at hqb'
  have hbb : b' = linked now a.id b :=
    eq_of_id_eq _ hb' (target_mem_link hb hby hy) hqb'.symm
  rw [hbb] at hback
  exact hqx (Option.some.inj hback).symm

/-- The rows `a` and `b` may be linked: both are free, or they are partners. -/
def Joinable (a b : LedgerRow) : Prop :=
  (a.status ≠ .matched ∧ b.status ≠ .matched) ∨
    (a.status = .matched ∧ a.matchedIntentId = some b.id)

/-- The partner of a third row is at neither end of a link between such rows. -/
theorem partner_ne_of_joinable {b r p : LedgerRow} (hp : Paired l) (ha : a ∈ l.rows)
    (hb : b ∈ l.rows) (hjoin : Joinable a b) (hrx : r.id ≠ a.id) (hry : r.id ≠ b.id)
    (hpm : p ∈ l.rows) (hps : p.status = .matched) (hpr : p.matchedIntentId = some r.id) :
    p.id ≠ a.id ∧ p.id ≠ b.id := by
  refine ⟨fun he => ?_, fun he => ?_⟩
  · have hpa : p = a := eq_of_id_eq l hpm ha he
    cases hjoin with
    | inl hfree => exact hfree.1 (hpa ▸ hps)
    | inr hlinked => exact hry (Option.some.inj ((hpa ▸ hpr).symm.trans hlinked.2))
  · have hpb : p = b := eq_of_id_eq l hpm hb he
    cases hjoin with
    | inl hfree => exact hfree.2 (hpb ▸ hps)
    | inr hlinked =>
      obtain ⟨q, hq, haq, -, -, hqa⟩ := hp a ha hlinked.1
      have hqb : q = b := eq_of_id_eq l hq hb (Option.some.inj (haq.symm.trans hlinked.2))
      exact hrx (Option.some.inj ((hpb ▸ hpr).symm.trans (hqb ▸ hqa)))

/-- A link between such rows of opposite kinds keeps all pairs. -/
theorem paired_link_of_joinable {b : LedgerRow} (hp : Paired l) (ha : a ∈ l.rows)
    (hb : b ∈ l.rows) (hlinks : LinksTo f b.id) (hkind : Opposite a.kind b.kind)
    (hjoin : Joinable a b) : Paired (link l a.id b.id now f hf) := by
  intro r' hr' hmatched
  have hy : b.id ≠ a.id := fun he => not_opposite_self _ (eq_of_id_eq l hb ha he ▸ hkind)
  obtain ⟨r, hr, rfl⟩ := mem_link_iff.mp hr'
  by_cases hry : r.id = b.id
  · -- the target names the source, which names it back
    rw [if_pos hry, if_neg (hry ▸ hy), eq_of_id_eq l hr hb hry]
    refine ⟨f a, source_mem_link ha hy, congrArg some (hf a).1.symm, ?_, (hlinks a).1, (hlinks a).2⟩
    rw [(hf a).2.2.1]
    exact hkind.symm.imp And.symm And.symm
  · rw [if_neg hry] at hmatched ⊢
    by_cases hrx : r.id = a.id
    · rw [if_pos hrx, eq_of_id_eq l hr ha hrx]
      refine ⟨linked now a.id b, target_mem_link hb rfl hy, (hlinks a).2, ?_, rfl, ?_⟩
      · rw [(hf a).2.2.1]
        exact hkind
      · rw [(hf a).1]
        rfl
    · -- any other matched row keeps its partner
      rw [if_neg hrx] at hmatched ⊢
      obtain ⟨p, hpm, hrp, hpk, hps, hpr⟩ := hp r hr hmatched
      obtain ⟨hpx, hpy⟩ := partner_ne_of_joinable hp ha hb hjoin hrx hry hpm hps hpr
      exact ⟨p, other_mem_link hpm hpx hpy, hrp, hpk, hps, hpr⟩

/-- Writing a link keeps a paired ledger paired exactly if it joins rows of opposite
kinds that are both free, or that are linked already. -/
theorem paired_link_iff (hp : Paired l) (ha : a ∈ l.rows) (hlinks : LinksTo f y) :
    Paired (link l a.id y now f hf) ↔
      ∃ b ∈ l.rows, b.id = y ∧ Opposite a.kind b.kind ∧ Joinable a b := by
  refine ⟨fun h => ?_, ?_⟩
  · obtain ⟨b, hb, rfl, hy, hkind⟩ := exists_target_of_paired ha hlinks h
    refine ⟨b, hb, rfl, hkind, ?_⟩
    by_cases hma : a.status = .matched
    · exact .inr ⟨hma, linked_of_paired_link hp ha hlinks hy h hma⟩
    · exact .inl ⟨hma, target_free_of_paired_link hp ha hb rfl hy h hma⟩
  · rintro ⟨b, hb, rfl, hkind, hjoin⟩
    exact paired_link_of_joinable hp ha hb hlinks hkind hjoin

end Link

/-! ## The calls -/

section Calls

variable {l : PaymentLedger}

theorem linksTo_linked (now : ℕ) (y : String) : LinksTo (linked now y) y := fun _ => ⟨rfl, rfl⟩

theorem linksTo_linkedBy (now : ℕ) (y : String) (operatorId : Option String) :
    LinksTo (linkedBy now y operatorId) y :=
  fun _ => ⟨rfl, rfl⟩

/-- `recordIntent` keeps all pairs. -/
theorem paired_recordIntent (hp : Paired l) (input : PaymentRecordInput) (uuid : String) (now : ℕ) :
    Paired (l.recordIntent input uuid now).2 :=
  hp.insertOrIgnore (fun h => nomatch h)

theorem selectByKey_eq_some {key : String} {r : LedgerRow} :
    l.selectByKey key = some r ↔ r ∈ l.rows ∧ r.idempotencyKey = key := by
  refine ⟨fun h => ⟨List.mem_of_find?_eq_some h, by simpa using List.find?_some h⟩, ?_⟩
  rintro ⟨hr, hkey⟩
  cases hs : l.selectByKey key with
  | none =>
    have := List.find?_eq_none.mp hs r hr
    simp [hkey] at this
  | some r' =>
    have hkey' : r'.idempotencyKey = key := by simpa using List.find?_some hs
    rw [eq_of_key_eq l (List.mem_of_find?_eq_some hs) hr (hkey'.trans hkey.symm)]

theorem selectById_eq_some {uuid : String} {r : LedgerRow} :
    l.selectById uuid = some r ↔ r ∈ l.rows ∧ r.id = uuid := by
  refine ⟨fun h => ⟨List.mem_of_find?_eq_some h, by simpa using List.find?_some h⟩, ?_⟩
  rintro ⟨hr, hid⟩
  cases hs : l.selectById uuid with
  | none =>
    have := List.find?_eq_none.mp hs r hr
    simp [hid] at this
  | some r' =>
    have hid' : r'.id = uuid := by simpa using List.find?_some hs
    rw [eq_of_id_eq l (List.mem_of_find?_eq_some hs) hr (hid'.trans hid.symm)]

theorem mem_findIntent {method : PaymentMethod} {amountMinor : ℤ} {r : LedgerRow}
    (h : r ∈ l.findIntent method amountMinor) : r ∈ l.rows ∧ Candidate method amountMinor r := by
  have hsorted := List.mem_of_mem_take h
  rw [List.mem_insertionSort, List.mem_filter, decide_eq_true_eq] at hsorted
  exact hsorted

/-- A new confirmation is no candidate. -/
theorem findIntent_insertOrIgnore (input : PaymentConfirmationInput) (uuid : String) (now : ℕ)
    (method : PaymentMethod) (amountMinor : ℤ) :
    PaymentLedger.findIntent (l.insertOrIgnore (confirmationRow input uuid now)) method
      amountMinor = l.findIntent method amountMinor := by
  have hnone : ¬ Candidate method amountMinor (confirmationRow input uuid now) :=
    fun h => nomatch h.1
  cases l.insertOrIgnore_cases (confirmationRow input uuid now) with
  | inl h => rw [h.1]
  | inr h =>
    rw [PaymentLedger.findIntent, h.1, List.filter_append]
    simp [PaymentLedger.findIntent, hnone]

/-- What `recordConfirmation` does, by the row it finds and the candidates for it. -/
theorem recordConfirmation_cases (l : PaymentLedger) (input : PaymentConfirmationInput)
    (uuid : String) (now : ℕ) :
    (l.recordConfirmation input uuid now = (none, l) ∧
        (∀ r ∈ l.rows, r.idempotencyKey ≠ input.idempotencyKey) ∧
        ∃ r ∈ l.rows, Clash r (confirmationRow input uuid now)) ∨
    (∃ row ∈ (l.insertOrIgnore (confirmationRow input uuid now)).rows,
      row.idempotencyKey = input.idempotencyKey ∧
      (l.findIntent input.method (toMinor input.amount)).length ≠ 1 ∧
      l.recordConfirmation input uuid now =
        (some (rowToPayment row), l.insertOrIgnore (confirmationRow input uuid now))) ∨
    ∃ row ∈ (l.insertOrIgnore (confirmationRow input uuid now)).rows,
      row.idempotencyKey = input.idempotencyKey ∧
      ∃ candidate, l.findIntent input.method (toMinor input.amount) = [candidate] ∧
        l.recordConfirmation input uuid now =
          (some (rowToPayment (row.linked now row.id)),
            link (l.insertOrIgnore (confirmationRow input uuid now)) row.id candidate.id now
              (linked now candidate.id) (keepsKeys_linked now candidate.id)) := by
  cases hs : PaymentLedger.selectByKey (l.insertOrIgnore (confirmationRow input uuid now))
      input.idempotencyKey with
  | none =>
    have hmissing : ∀ r ∈ (l.insertOrIgnore (confirmationRow input uuid now)).rows,
        r.idempotencyKey ≠ input.idempotencyKey := by
      intro r hr hkey
      rw [selectByKey_eq_some.mpr ⟨hr, hkey⟩] at hs
      cases hs
    refine .inl ⟨by simp only [recordConfirmation, hs],
      fun r hr => hmissing r (l.mem_insertOrIgnore_of_mem _ hr), ?_⟩
    -- a row that was inserted would be found
    by_contra hfresh
    have hrows := l.insertOrIgnore_rows_of_fresh _ hfresh
    exact hmissing (confirmationRow input uuid now)
      (hrows ▸ List.mem_append_right _ (List.mem_singleton_self _)) rfl
  | some row =>
    obtain ⟨hmem, hkey⟩ := selectByKey_eq_some.mp hs
    have hfind := findIntent_insertOrIgnore (l := l) input uuid now input.method
      (toMinor input.amount)
    by_cases hlen : (l.findIntent input.method (toMinor input.amount)).length = 1
    · obtain ⟨candidate, hone⟩ := List.length_eq_one_iff.mp hlen
      refine .inr (.inr ⟨row, hmem, hkey, candidate, hone, ?_⟩)
      simp only [recordConfirmation, hs, hfind, hone]
      rfl
    · refine .inr (.inl ⟨row, hmem, hkey, hlen, ?_⟩)
      simp only [recordConfirmation, hs, hfind]
      split
      · next candidate hone => exact absurd (hone ▸ rfl) hlen
      · rfl

/-- What `matchConfirmation` does, by the row of the id. -/
theorem matchConfirmation_cases (l : PaymentLedger) (input : PaymentMatchInput) (now : ℕ) :
    (l.matchConfirmation input.confirmationId input.intentId input.operatorId now = (none, l) ∧
        ∀ r ∈ l.rows, r.id = input.confirmationId → r.kind ≠ .confirmation) ∨
    ∃ row ∈ l.rows, row.id = input.confirmationId ∧ row.kind = .confirmation ∧
      l.matchConfirmation input.confirmationId input.intentId input.operatorId now =
        (some (rowToPayment row), link l row.id input.intentId now
          (linkedBy now input.intentId input.operatorId)
          (keepsKeys_linkedBy now input.intentId input.operatorId)) := by
  cases hs : l.selectById input.confirmationId with
  | none =>
    refine .inl ⟨by simp only [matchConfirmation, hs], fun r hr hid => ?_⟩
    rw [selectById_eq_some.mpr ⟨hr, hid⟩] at hs
    cases hs
  | some row =>
    obtain ⟨hmem, hid⟩ := selectById_eq_some.mp hs
    by_cases hkind : row.kind = .confirmation
    · refine .inr ⟨row, hmem, hid, hkind, ?_⟩
      simp only [matchConfirmation, hs, hkind, hid]
      rfl
    · refine .inl ⟨by simp only [matchConfirmation, hs, ne_eq, hkind, not_false_eq_true, if_true],
        fun r hr hrid => ?_⟩
      rwa [eq_of_id_eq l hr hmem (hrid.trans hid.symm)]

/-- `recordConfirmation` keeps all pairs exactly if it does not match anew, under a
key that is in the ledger, anything but a confirmation that is still free. -/
theorem paired_recordConfirmation_iff (hp : Paired l) (input : PaymentConfirmationInput)
    (uuid : String) (now : ℕ) :
    Paired (l.recordConfirmation input uuid now).2 ↔
      ∀ r ∈ l.rows, r.idempotencyKey = input.idempotencyKey →
        (l.findIntent input.method (toMinor input.amount)).length = 1 →
          r.kind = .confirmation ∧ r.status ≠ .matched := by
  have hp' : Paired (l.insertOrIgnore (confirmationRow input uuid now)) :=
    hp.insertOrIgnore (fun h => nomatch h)
  -- only a match writes a link, and its target is a free intent
  cases recordConfirmation_cases l input uuid now with
  | inl h =>
    rw [h.1]
    exact iff_of_true hp fun r hr hkey => absurd hkey (h.2.1 r hr)
  | inr h =>
    cases h with
    | inl h =>
      obtain ⟨row, -, -, hlen, heq⟩ := h
      rw [heq]
      exact iff_of_true hp' fun r _ _ hone => absurd hone hlen
    | inr h =>
      obtain ⟨row, hmem, hkey, candidate, hone, heq⟩ := h
      obtain ⟨hcm, hkind, hpending, -⟩ := mem_findIntent (hone ▸ List.mem_singleton_self candidate)
      have hcm' := l.mem_insertOrIgnore_of_mem (confirmationRow input uuid now) hcm
      have hunmatched : candidate.status ≠ .matched := by
        rw [hpending]
        exact PaymentStatus.noConfusion
      have hlink := congrArg Prod.snd heq
      rw [hlink, paired_link_iff hp' hmem (linksTo_linked now candidate.id), hone]
      refine ⟨?_, ?_⟩
      · rintro ⟨b, hb, hid, hopp, hlink⟩ r hr hrkey _
        have hrow : row = r := eq_of_key_eq _ hmem
          (l.mem_insertOrIgnore_of_mem _ hr) (hkey.trans hrkey.symm)
        rw [eq_of_id_eq _ hb hcm' hid, hkind] at hopp
        rw [← hrow]
        refine ⟨hopp.elim (fun h => nomatch h.2) And.left, fun hmatched => ?_⟩
        -- a matched row's partner is matched, and the candidate is not
        obtain ⟨p, hpm, hpid, -, hps, -⟩ := hp' row hmem hmatched
        cases hlink with
        | inl hfree => exact hfree.1 hmatched
        | inr hlinked =>
          have hpc : p = candidate := eq_of_id_eq _ hpm hcm'
            ((Option.some.inj (hpid.symm.trans hlinked.2)).trans hid)
          exact hunmatched (hpc ▸ hps)
      · intro hall
        have hrow : row.kind = .confirmation ∧ row.status ≠ .matched := by
          cases l.mem_of_mem_insertOrIgnore _ hmem with
          | inl hold => exact hall row hold hkey rfl
          | inr hnew => rw [hnew]; exact ⟨rfl, fun h => nomatch h⟩
        exact ⟨candidate, hcm', rfl, .inr ⟨hrow.1, hkind⟩, .inl ⟨hrow.2, hunmatched⟩⟩

/-- `matchConfirmation` keeps all pairs exactly if it joins a confirmation to an intent
while both are free, or while they are each other's partners. -/
theorem paired_matchConfirmation_iff (hp : Paired l) (input : PaymentMatchInput) (now : ℕ) :
    Paired (l.matchConfirmation input.confirmationId input.intentId input.operatorId now).2 ↔
      ∀ a ∈ l.rows, a.id = input.confirmationId → a.kind = .confirmation →
        ∃ b ∈ l.rows, b.id = input.intentId ∧ b.kind = .intent ∧ Joinable a b := by
  cases matchConfirmation_cases l input now with
  | inl h =>
    rw [h.1]
    exact iff_of_true hp fun a ha hid hkind => absurd hkind (h.2 a ha hid)
  | inr h =>
    obtain ⟨row, hmem, hid, hkind, heq⟩ := h
    have hlink := congrArg Prod.snd heq
    rw [hlink, paired_link_iff hp hmem (linksTo_linkedBy now input.intentId input.operatorId)]
    constructor
    · rintro ⟨b, hb, hbid, hopp, hjoin⟩ a ha haid _
      rw [eq_of_id_eq l ha hmem (haid.trans hid.symm)]
      rw [hkind] at hopp
      exact ⟨b, hb, hbid, hopp.elim (fun h => nomatch h.1) And.right, hjoin⟩
    · intro hall
      obtain ⟨b, hb, hbid, hbk, hjoin⟩ := hall row hmem hid hkind
      exact ⟨b, hb, hbid, .inr ⟨hkind, hbk⟩, hjoin⟩

end Calls

/-! ## Runs -/

/-- The calls that keep the pairs of a ledger. A confirmation under a key that is in
the ledger already finds no unique intent, unless the key is that of a free
confirmation; a confirmation is matched by hand to an intent, with both free or
linked to each other. -/
def KeepsPairs (l : PaymentLedger) : PaymentCall → Prop
  | .recordIntent _ _ _ => True
  | .recordConfirmation input _ _ =>
    ∀ r ∈ l.rows, r.idempotencyKey = input.idempotencyKey →
      (l.findIntent input.method (toMinor input.amount)).length = 1 →
        r.kind = .confirmation ∧ r.status ≠ .matched
  | .matchConfirmation input _ =>
    ∀ a ∈ l.rows, a.id = input.confirmationId → a.kind = .confirmation →
      ∃ b ∈ l.rows, b.id = input.intentId ∧ b.kind = .intent ∧ Joinable a b

theorem paired_step_iff {l l' : PaymentLedger} {call : PaymentCall} (hp : Paired l)
    (h : step l call = some l') : Paired l' ↔ KeepsPairs l call := by
  have happly : l' = call.apply l := by
    rw [step] at h
    split at h
    · exact (Option.some.inj h).symm
    · cases h
  rw [happly]
  cases call with
  | recordIntent input uuid now => exact iff_of_true (paired_recordIntent hp input uuid now) trivial
  | recordConfirmation input uuid now => exact paired_recordConfirmation_iff hp input uuid now
  | matchConfirmation input now => exact paired_matchConfirmation_iff hp input now

/-- A run of calls on a new ledger keeps all matched payments paired, in every
state it reaches, exactly if each of its calls keeps the pairs it finds. -/
theorem paired_run_iff {calls : List PaymentCall} {l : PaymentLedger}
    (hr : run step Table.empty calls = some l) :
    (∀ pre l', pre <+: calls → run step Table.empty pre = some l' → Paired l') ↔
      Along step KeepsPairs Table.empty calls :=
  forall_prefix_iff_along (J := fun _ => True) (fun _ _ _ _ _ => trivial)
    (fun _ _ _ _ hp h => paired_step_iff hp h) trivial (fun _ ha => nomatch ha) hr

/-- A payment of 1500 shillings is expected, and lands. -/
def paidOnce : List PaymentCall :=
  [.recordIntent ⟨.mpesaTill, 1500, "KES", "Achieng", "204", none, none, none, "intent-0001", none⟩
      "11111111-1111-4111-8111-111111111111" 0,
    .recordConfirmation ⟨"QJK7XYZ12", 1500, "KES", .mpesaTill, none, none, "receipt-0001"⟩
      "22222222-2222-4222-8222-222222222222" 1000]

/-- The run of `paidOnce` on a new ledger. -/
def paidOnceLedger : PaymentLedger := (run step Table.empty paidOnce).get (by decide +kernel)

theorem run_paidOnce : run step Table.empty paidOnce = some paidOnceLedger :=
  (Option.some_get _).symm

theorem paired_run_paidOnce :
    (∀ pre l', pre <+: paidOnce → run step Table.empty pre = some l' → Paired l') ↔
      Along step KeepsPairs Table.empty paidOnce :=
  paired_run_iff run_paidOnce

/-- A confirmation that is matched by hand to an intent that is not there names no row. -/
theorem not_paired_unknownIntent :
    ¬ ∀ calls l, run step Table.empty calls = some l → Paired l := by
  intro h
  have hbroken : ∃ l, run step Table.empty
      [.recordConfirmation ⟨"QJK7XYZ12", 1500, "KES", .mpesaTill, none, none, "receipt-0001"⟩
          "22222222-2222-4222-8222-222222222222" 0,
        .matchConfirmation ⟨"22222222-2222-4222-8222-222222222222",
          "33333333-3333-4333-8333-333333333333", none⟩ 1000] = some l ∧ ¬ Paired l := by
    refine ⟨Option.get _ (by decide +kernel), (Option.some_get _).symm, ?_⟩
    decide +kernel
  obtain ⟨l, hrun, hnot⟩ := hbroken
  exact hnot (h _ l hrun)

end Hotelia.Payments
