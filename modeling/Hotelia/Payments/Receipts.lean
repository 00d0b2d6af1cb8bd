import Hotelia.Payments.Replay

/-!
# A receipt that is recorded under another key

A confirmation may clash with the ledger by its receipt as well as by its idempotency key.
Either way the insert is ignored, but the row is then looked up by the key alone.

## Main results

- `recordConfirmation_of_new_key`: a known receipt under a new key is thrown out.
- `returnsReceipt_iff`: when a known receipt is answered with its row and changes nothing.
- `not_returnsReceipt`: never under a new key.
-/

namespace Hotelia.Payments
open Foundation LedgerRow PaymentLedger

/-- The row is the confirmation of the receipt. -/
def Confirms (r : LedgerRow) (receipt : String) : Prop :=
  r.kind = .confirmation ∧ r.receipt = some receipt

instance (r : LedgerRow) (receipt : String) : Decidable (Confirms r receipt) :=
  inferInstanceAs (Decidable (r.kind = .confirmation ∧ r.receipt = some receipt))

/-- `recordConfirmation` returns the row and changes none. -/
def ReturnsReceipt (l : PaymentLedger) (r : LedgerRow) (input : PaymentConfirmationInput)
    (uuid : String) (now : ℕ) : Prop :=
  (l.recordConfirmation input uuid now).1 = some (rowToPayment r) ∧
    (l.recordConfirmation input uuid now).2.rows = l.rows

section Receipts

variable {l : PaymentLedger} {r : LedgerRow} {input : PaymentConfirmationInput} {uuid : String}
  {now : ℕ}

/-- A receipt that the ledger holds is not inserted again. -/
theorem insertOrIgnore_of_receipt (hr : r ∈ l.rows) (hreceipt : Confirms r input.receipt)
    (uuid : String) (now : ℕ) : l.insertOrIgnore (confirmationRow input uuid now) = l := by
  refine l.insertOrIgnore_of_clash _ ⟨r, hr, .inr (.inr ⟨hreceipt.1, rfl, ?_, hreceipt.2⟩)⟩
  rw [hreceipt.2]
  rfl

/-- Under a key that is new the call throws, and the ledger stays as it is. -/
theorem recordConfirmation_of_new_key (hr : r ∈ l.rows) (hreceipt : Confirms r input.receipt)
    (hnew : ∀ x ∈ l.rows, x.idempotencyKey ≠ input.idempotencyKey) :
    l.recordConfirmation input uuid now = (none, l) := by
  obtain ⟨heq, -⟩ | ⟨row, hrow, hkey, -⟩ | ⟨row, hrow, hkey, -⟩ :=
    recordConfirmation_cases l input uuid now
  · exact heq
  · rw [insertOrIgnore_of_receipt hr hreceipt] at hrow
    exact absurd hkey (hnew row hrow)
  · rw [insertOrIgnore_of_receipt hr hreceipt] at hrow
    exact absurd hkey (hnew row hrow)

/-- Under a key that is not new the row of the key is returned. -/
theorem id_of_recordConfirmation {x : LedgerRow} {shown : PaymentLedgerRow} (hr : r ∈ l.rows)
    (hreceipt : Confirms r input.receipt) (hx : x ∈ l.rows)
    (hkey : x.idempotencyKey = input.idempotencyKey)
    (hshown : (l.recordConfirmation input uuid now).1 = some shown) : shown.id = x.id := by
  have hsame (row : LedgerRow) (hrow : row ∈ (l.insertOrIgnore (confirmationRow input uuid now)).rows)
      (hrowkey : row.idempotencyKey = input.idempotencyKey) : row = x := by
    rw [insertOrIgnore_of_receipt hr hreceipt] at hrow
    exact eq_of_key_eq l hrow hx (hrowkey.trans hkey.symm)
  obtain ⟨heq, -⟩ | ⟨row, hrow, hrowkey, -, heq⟩ | ⟨row, hrow, hrowkey, candidate, -, heq⟩ :=
    recordConfirmation_cases l input uuid now
  · rw [heq] at hshown
    cases hshown
  · rw [heq] at hshown
    cases hshown
    exact congrArg LedgerRow.id (hsame row hrow hrowkey)
  · rw [heq] at hshown
    cases hshown
    show row.id = x.id
    rw [hsame row hrow hrowkey]

/-- A receipt that the ledger holds is answered with its row and changes nothing exactly if it
comes under the key of that row, and no single intent is there to be matched. -/
theorem returnsReceipt_iff (hr : r ∈ l.rows) (hreceipt : Confirms r input.receipt) :
    ReturnsReceipt l r input uuid now ↔
      r.idempotencyKey = input.idempotencyKey ∧
        l.rows.countP (Candidate input.method (toMinor input.amount)) ≠ 1 := by
  constructor
  · rintro ⟨hreturned, hsame⟩
    have hknown : ∃ x ∈ l.rows, x.idempotencyKey = input.idempotencyKey := by
      by_contra hnone
      have hnew : ∀ x ∈ l.rows, x.idempotencyKey ≠ input.idempotencyKey := fun x hx hkey =>
        hnone ⟨x, hx, hkey⟩
      rw [recordConfirmation_of_new_key hr hreceipt hnew] at hreturned
      exact nomatch hreturned
    obtain ⟨x, hx, hkey⟩ := hknown
    have hid : r.id = x.id := id_of_recordConfirmation hr hreceipt hx hkey hreturned
    obtain rfl : r = x := eq_of_id_eq l hr hx hid
    exact ⟨hkey, (recordConfirmation_eq_iff ⟨r, hr, hkey⟩ uuid now).mp hsame⟩
  · rintro ⟨hkey, hcount⟩
    refine ⟨?_, (recordConfirmation_eq_iff ⟨r, hr, hkey⟩ uuid now).mpr hcount⟩
    obtain ⟨-, hnone, -⟩ | ⟨row, hrow, hrowkey, -, heq⟩ | ⟨row, -, -, candidate, hone, -⟩ :=
      recordConfirmation_cases l input uuid now
    · exact absurd hkey (hnone r hr)
    · rw [insertOrIgnore_of_receipt hr hreceipt] at hrow
      rw [heq, eq_of_key_eq l hrow hr (hrowkey.trans hkey.symm)]
    · refine absurd (length_findIntent_eq_one_iff.mp ?_) hcount
      rw [hone, List.length_singleton]

/-- A receipt that the ledger holds is never answered with its row under a new key. -/
theorem not_returnsReceipt (hr : r ∈ l.rows) (hreceipt : Confirms r input.receipt)
    (hnew : ∀ x ∈ l.rows, x.idempotencyKey ≠ input.idempotencyKey) (uuid : String) (now : ℕ) :
    ¬ ReturnsReceipt l r input uuid now := by
  rw [returnsReceipt_iff hr hreceipt]
  rintro ⟨hkey, -⟩
  exact hnew r hr hkey

end Receipts

/-- The receipt of `landed204`, sent again under a key of its own. -/
def landedAgain : PaymentConfirmationInput := { landed204 with idempotencyKey := "receipt-0002" }

/-- A receipt has landed. -/
def landedOnce : List PaymentCall := [.recordConfirmation landed204 "b1" 1000]

theorem not_returnsReceipt_landedAgain :
    ∃ l, run step Table.empty landedOnce = some l ∧ ∃ r ∈ l.rows,
      ¬ ReturnsReceipt l r landedAgain "b2" 2000 := by
  have hsome : (run step Table.empty landedOnce).isSome = true := by decide +kernel
  have hfacts : ∀ l ∈ run step Table.empty landedOnce,
      (∃ r ∈ l.rows, Confirms r landedAgain.receipt) ∧
        ∀ x ∈ l.rows, x.idempotencyKey ≠ landedAgain.idempotencyKey := by
    decide +kernel
  obtain ⟨l, hl⟩ := Option.isSome_iff_exists.mp hsome
  obtain ⟨⟨r, hr, hreceipt⟩, hnew⟩ := hfacts l hl
  exact ⟨l, hl, r, hr, not_returnsReceipt hr hreceipt hnew "b2" 2000⟩

/-- The second call throws. -/
theorem not_receipt_idempotent :
    ¬ ∀ calls l r input uuid now, run step Table.empty calls = some l → r ∈ l.rows →
      Confirms r input.receipt → paymentConfirmationSchema input = true →
      (∀ x ∈ l.rows, x.idempotencyKey ≠ input.idempotencyKey) →
      ReturnsReceipt l r input uuid now := by
  intro h
  have hsome : (run step Table.empty landedOnce).isSome = true := by decide +kernel
  have hfacts : ∀ l ∈ run step Table.empty landedOnce,
      (∃ r ∈ l.rows, Confirms r landedAgain.receipt) ∧
      (∀ x ∈ l.rows, x.idempotencyKey ≠ landedAgain.idempotencyKey) ∧
      (l.recordConfirmation landedAgain "b2" 2000).1.isSome = false := by
    decide +kernel
  obtain ⟨l, hl⟩ := Option.isSome_iff_exists.mp hsome
  obtain ⟨⟨r, hr, hreceipt⟩, hnew, hthrown⟩ := hfacts l hl
  have hvalid : paymentConfirmationSchema landedAgain = true := by decide +kernel
  obtain ⟨hreturned, -⟩ := h landedOnce l r landedAgain "b2" 2000 hl hr hreceipt hvalid hnew
  rw [hreturned] at hthrown
  exact nomatch hthrown

end Hotelia.Payments
