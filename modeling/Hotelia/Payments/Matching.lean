import Hotelia.Payments.Receipts

/-!
# The match of a new confirmation

What `recordConfirmation` does with money that the ledger has not seen. The search for an
intent compares the method and the minor units. It never asks for the currency.

## Main results

- `recordConfirmation_of_one`, `recordConfirmation_of_other`: the two things it does.
- `joined_recordConfirmation_iff`: which intent the confirmation is joined to, if any.
-/

namespace Hotelia.Payments
open Foundation LedgerRow PaymentLedger

/-- Neither the key, nor the receipt, nor the new id is in the ledger. -/
structure Fresh (l : PaymentLedger) (input : PaymentConfirmationInput) (uuid : String) : Prop where
  key : ∀ r ∈ l.rows, r.idempotencyKey ≠ input.idempotencyKey
  receipt : ∀ r ∈ l.rows, ¬ Confirms r input.receipt
  id : ∀ r ∈ l.rows, r.id ≠ uuid

/-- The confirmation under the key and the intent of the id are matched to each other. -/
def JoinedTo (l : PaymentLedger) (key intentId : String) : Prop :=
  ∃ c ∈ l.rows, c.idempotencyKey = key ∧ c.kind = .confirmation ∧ c.status = .matched ∧
    c.matchedIntentId = some intentId ∧
    ∃ i ∈ l.rows, i.id = intentId ∧ i.kind = .intent ∧ i.status = .matched ∧
      i.matchedIntentId = some c.id

instance (l : PaymentLedger) (key intentId : String) : Decidable (JoinedTo l key intentId) :=
  inferInstanceAs (Decidable (∃ c ∈ l.rows, c.idempotencyKey = key ∧ c.kind = .confirmation ∧
    c.status = .matched ∧ c.matchedIntentId = some intentId ∧
    ∃ i ∈ l.rows, i.id = intentId ∧ i.kind = .intent ∧ i.status = .matched ∧
      i.matchedIntentId = some c.id))

section Matching

variable {l : PaymentLedger} {input : PaymentConfirmationInput} {uuid : String} {now : ℕ}

/-- `LIMIT 2` finds one row exactly if there is one row to find. -/
theorem findIntent_eq_singleton_iff {method : PaymentMethod} {amountMinor : ℤ} {i : LedgerRow} :
    l.findIntent method amountMinor = [i] ↔ l.rows.filter (Candidate method amountMinor) = [i] := by
  constructor
  · intro h
    have hcount : (l.rows.filter (Candidate method amountMinor)).length = 1 := by
      rw [← List.countP_eq_length_filter, ← length_findIntent_eq_one_iff, h, List.length_singleton]
    obtain ⟨x, hx⟩ := List.length_eq_one_iff.mp hcount
    have hmem : i ∈ l.rows.filter (Candidate method amountMinor) := by
      rw [List.mem_filter, decide_eq_true_eq]
      exact mem_findIntent (h ▸ List.mem_singleton_self i)
    rw [hx, List.mem_singleton] at hmem
    rw [hx, hmem]
  · intro h
    rw [findIntent, h]
    rfl

/-- The only candidate is in the ledger, and it is one. -/
theorem candidate_of_filter {method : PaymentMethod} {amountMinor : ℤ} {i : LedgerRow}
    (h : l.rows.filter (Candidate method amountMinor) = [i]) :
    i ∈ l.rows ∧ Candidate method amountMinor i := by
  have hmem : i ∈ l.rows.filter (Candidate method amountMinor) := h ▸ List.mem_singleton_self i
  rwa [List.mem_filter, decide_eq_true_eq] at hmem

theorem Fresh.not_clash (hf : Fresh l input uuid) (now : ℕ) :
    ¬ ∃ x ∈ l.rows, Clash x (confirmationRow input uuid now) := by
  rintro ⟨x, hx, hid | hkey | ⟨hkind, -, -, hreceipt⟩⟩
  · exact hf.id x hx hid
  · exact hf.key x hx hkey
  · exact hf.receipt x hx ⟨hkind, hreceipt⟩

/-- The confirmation becomes the last row. -/
theorem Fresh.insert_rows (hf : Fresh l input uuid) (now : ℕ) :
    (l.insertOrIgnore (confirmationRow input uuid now)).rows =
      l.rows ++ [confirmationRow input uuid now] :=
  l.insertOrIgnore_rows_of_fresh _ (hf.not_clash now)

theorem Fresh.mem_insert (hf : Fresh l input uuid) (now : ℕ) :
    confirmationRow input uuid now ∈ (l.insertOrIgnore (confirmationRow input uuid now)).rows := by
  rw [hf.insert_rows]
  exact List.mem_append_right _ (List.mem_singleton_self _)

/-- It is the row under the key. -/
theorem Fresh.eq_of_key {row : LedgerRow} (hf : Fresh l input uuid)
    (hrow : row ∈ (l.insertOrIgnore (confirmationRow input uuid now)).rows)
    (hkey : row.idempotencyKey = input.idempotencyKey) : row = confirmationRow input uuid now :=
  eq_of_key_eq _ hrow (hf.mem_insert now) hkey

/-- One intent is there to be matched, and it is matched. -/
theorem recordConfirmation_of_one {i : LedgerRow} (hf : Fresh l input uuid)
    (hone : l.rows.filter (Candidate input.method (toMinor input.amount)) = [i]) :
    (l.recordConfirmation input uuid now).2 =
      link (l.insertOrIgnore (confirmationRow input uuid now)) uuid i.id now (linked now i.id)
        (keepsKeys_linked now i.id) := by
  have hfind := findIntent_eq_singleton_iff.mpr hone
  obtain ⟨-, -, hclash⟩ | ⟨row, -, -, hlen, -⟩ | ⟨row, hrow, hkey, candidate, hcandidate, heq⟩ :=
    recordConfirmation_cases l input uuid now
  · exact absurd hclash (hf.not_clash now)
  · rw [hfind] at hlen
    exact absurd rfl hlen
  · rw [hfind] at hcandidate
    cases hcandidate
    obtain rfl := hf.eq_of_key hrow hkey
    rw [heq]
    rfl

/-- Otherwise the confirmation is stored, and that is all. -/
theorem recordConfirmation_of_other (hf : Fresh l input uuid)
    (hother : ∀ i, l.rows.filter (Candidate input.method (toMinor input.amount)) ≠ [i]) :
    (l.recordConfirmation input uuid now).2.rows =
      l.rows ++ [confirmationRow input uuid now] := by
  obtain ⟨-, -, hclash⟩ | ⟨row, -, -, -, heq⟩ | ⟨row, -, -, candidate, hone, -⟩ :=
    recordConfirmation_cases l input uuid now
  · exact absurd hclash (hf.not_clash now)
  · rw [heq]
    exact hf.insert_rows now
  · exact absurd (findIntent_eq_singleton_iff.mp hone) (hother candidate)

/-- A match joins the new confirmation to the intent. -/
theorem joined_link {i : LedgerRow} (hf : Fresh l input uuid) (hi : i ∈ l.rows)
    (hkind : i.kind = .intent) :
    JoinedTo (link (l.insertOrIgnore (confirmationRow input uuid now)) uuid i.id now
      (linked now i.id) (keepsKeys_linked now i.id)) input.idempotencyKey i.id := by
  have hne : i.id ≠ (confirmationRow input uuid now).id := hf.id i hi
  have hold : i ∈ (l.insertOrIgnore (confirmationRow input uuid now)).rows :=
    l.mem_insertOrIgnore_of_mem (confirmationRow input uuid now) hi
  refine ⟨linked now i.id (confirmationRow input uuid now), ?_, rfl, rfl, rfl, rfl,
    linked now uuid i, ?_, rfl, hkind, rfl, rfl⟩
  · exact source_mem_link (hf.mem_insert now) hne
  · exact target_mem_link hold rfl hne

/-- So the only intent there is to be matched is the partner. -/
theorem joined_recordConfirmation_of_one {i : LedgerRow} (hf : Fresh l input uuid)
    (hone : l.rows.filter (Candidate input.method (toMinor input.amount)) = [i]) :
    JoinedTo (l.recordConfirmation input uuid now).2 input.idempotencyKey i.id := by
  obtain ⟨hmem, hkind, -⟩ := candidate_of_filter hone
  rw [recordConfirmation_of_one hf hone]
  exact joined_link hf hmem hkind

/-- The row under the key names one partner. -/
theorem JoinedTo.unique {key x y : String} (hx : JoinedTo l key x) (hy : JoinedTo l key y) :
    x = y := by
  obtain ⟨c, hc, hckey, -, -, hcx, -⟩ := hx
  obtain ⟨d, hd, hdkey, -, -, hdy, -⟩ := hy
  obtain rfl : c = d := eq_of_key_eq l hc hd (hckey.trans hdkey.symm)
  exact Option.some.inj (hcx.symm.trans hdy)

/-- A confirmation that was only stored is joined to nothing. -/
theorem not_joined_of_rows {l' : PaymentLedger} {x : String} (hf : Fresh l input uuid)
    (hrows : l'.rows = l.rows ++ [confirmationRow input uuid now]) :
    ¬ JoinedTo l' input.idempotencyKey x := by
  rintro ⟨c, hc, hkey, -, hmatched, -⟩
  rw [hrows, List.mem_append, List.mem_singleton] at hc
  obtain hold | rfl := hc
  · exact hf.key c hold hkey
  · cases hmatched

end Matching

/-- A confirmation whose key and receipt the ledger has not seen is joined to an intent if and
only if the intent is the only pending one of its method and its minor units, in whatever
currency; otherwise it is appended, and no row changes. -/
theorem joined_recordConfirmation_iff {l : PaymentLedger} {input : PaymentConfirmationInput}
    {uuid : String} {now : ℕ} (hf : Fresh l input uuid) :
    (∀ intentId, JoinedTo (l.recordConfirmation input uuid now).2 input.idempotencyKey intentId ↔
      ∃ i, l.rows.filter (Candidate input.method (toMinor input.amount)) = [i] ∧
        i.id = intentId) ∧
    ((∀ i, l.rows.filter (Candidate input.method (toMinor input.amount)) ≠ [i]) →
      (l.recordConfirmation input uuid now).2.rows =
        l.rows ++ [confirmationRow input uuid now]) := by
  refine ⟨fun intentId => ⟨fun hjoined => ?_, ?_⟩, recordConfirmation_of_other hf⟩
  · by_cases hone : ∃ i, l.rows.filter (Candidate input.method (toMinor input.amount)) = [i]
    · obtain ⟨i, hi⟩ := hone
      exact ⟨i, hi, (joined_recordConfirmation_of_one hf hi).unique hjoined⟩
    · refine absurd hjoined (not_joined_of_rows hf (recordConfirmation_of_other hf ?_))
      intro i hi
      exact hone ⟨i, hi⟩
  · rintro ⟨i, hi, rfl⟩
    exact joined_recordConfirmation_of_one hf hi

/-- A dollar intent of 1500 is pending. -/
def dollarIntent : PaymentCall :=
  .recordIntent ⟨.mpesaTill, 1500, "USD", "Achieng", "204", none, none, none, "intent-0001", none⟩
    "a1" 0

theorem joined_recordConfirmation_dollarIntent :
    ∃ l, run step Table.empty [dollarIntent] = some l ∧
      (∀ intentId, JoinedTo (l.recordConfirmation landed204 "b1" 1000).2
        landed204.idempotencyKey intentId ↔
          ∃ i, l.rows.filter (Candidate .mpesaTill (toMinor 1500)) = [i] ∧ i.id = intentId) ∧
      ((∀ i, l.rows.filter (Candidate .mpesaTill (toMinor 1500)) ≠ [i]) →
        (l.recordConfirmation landed204 "b1" 1000).2.rows =
          l.rows ++ [confirmationRow landed204 "b1" 1000]) := by
  have hsome : (run step Table.empty [dollarIntent]).isSome = true := by decide +kernel
  have hfacts : ∀ l ∈ run step Table.empty [dollarIntent],
      (∀ r ∈ l.rows, r.idempotencyKey ≠ landed204.idempotencyKey) ∧
        (∀ r ∈ l.rows, ¬ Confirms r landed204.receipt) ∧ ∀ r ∈ l.rows, r.id ≠ "b1" := by
    decide +kernel
  obtain ⟨l, hl⟩ := Option.isSome_iff_exists.mp hsome
  obtain ⟨hkey, hreceipt, hid⟩ := hfacts l hl
  exact ⟨l, hl, joined_recordConfirmation_iff ⟨hkey, hreceipt, hid⟩⟩

/-- 1500 shillings are taken for the 1500 dollars of the only pending intent. -/
theorem not_joined_in_one_currency :
    ¬ ∀ calls l input uuid now, run step Table.empty calls = some l →
      paymentConfirmationSchema input = true → Fresh l input uuid →
      ∀ intentId, JoinedTo (l.recordConfirmation input uuid now).2 input.idempotencyKey intentId ↔
        ∃ i, l.rows.filter (fun r => Candidate input.method (toMinor input.amount) r ∧
          r.currency = input.currency) = [i] ∧ i.id = intentId := by
  intro h
  have hsome : (run step Table.empty [dollarIntent]).isSome = true := by decide +kernel
  have hfacts : ∀ l ∈ run step Table.empty [dollarIntent],
      ((∀ r ∈ l.rows, r.idempotencyKey ≠ landed204.idempotencyKey) ∧
        (∀ r ∈ l.rows, ¬ Confirms r landed204.receipt) ∧ ∀ r ∈ l.rows, r.id ≠ "b1") ∧
      JoinedTo (l.recordConfirmation landed204 "b1" 1000).2 landed204.idempotencyKey "a1" ∧
      l.rows.filter (fun r => Candidate landed204.method (toMinor landed204.amount) r ∧
        r.currency = landed204.currency) = [] := by
    decide +kernel
  have hvalid : paymentConfirmationSchema landed204 = true := by decide +kernel
  obtain ⟨l, hl⟩ := Option.isSome_iff_exists.mp hsome
  obtain ⟨⟨hkey, hreceipt, hid⟩, hjoined, hnone⟩ := hfacts l hl
  obtain ⟨i, hi, -⟩ :=
    (h [dollarIntent] l landed204 "b1" 1000 hl hvalid ⟨hkey, hreceipt, hid⟩ "a1").mp hjoined
  rw [hnone] at hi
  cases hi

end Hotelia.Payments
