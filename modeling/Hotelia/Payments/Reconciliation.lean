import Hotelia.Payments.Matching

/-!
# The Match button

What a press does in `apps/console/src/renderer/views/Reconciliation.tsx`, from the rows that
the view lists to the ledger: the search for an intent among them, the request, the schema of
`payments:match`, and `matchConfirmation`.

## Main results

- `paymentMatchSchema_matchRequest`: the schema refuses every request of the view.
- `not_reconciles`: no press reconciles anything.
-/

namespace Hotelia.Payments
open Foundation LedgerRow PaymentLedger

namespace PaymentLedger

/-- `ORDER BY recorded_at DESC LIMIT ?`. The index on `recorded_at` is read from its end, so that
of the rows of one time the last comes first. -/
def newest (l : PaymentLedger) (limit : ℕ) : List LedgerRow :=
  (l.rows.reverse.insertionSort fun a b => b.recordedAt ≤ a.recordedAt).take limit

/-- `listLedger(limit)`. -/
def listLedger (l : PaymentLedger) (limit : ℕ) : List PaymentLedgerRow :=
  (l.newest limit).map rowToPayment

end PaymentLedger

/-- `CommandResult`, without the text of the issues. -/
inductive CommandResult (α : Type) where
  | ok (data : α)
  | validationFailed

/-- The channel `payments:match`: the schema, and then the store. -/
def paymentsMatch (l : PaymentLedger) (input : PaymentMatchInput) (now : ℕ) :
    CommandResult (Option PaymentLedgerRow) × PaymentLedger :=
  if paymentMatchSchema input then
    let result := l.matchConfirmation input.confirmationId input.intentId input.operatorId now
    (.ok result.1, result.2)
  else (.validationFailed, l)

/-- What the view tells the operator. -/
inductive Toast where
  | matched | matchFailed | noMatchingIntent
  deriving DecidableEq

/-- The request that `matchIntent(confirmationId, intentId)` sends. -/
def matchRequest (confirmationId intentId : String) : PaymentMatchInput :=
  ⟨confirmationId, intentId, some "manual"⟩

/-- `matchIntent(confirmationId, intentId)`. -/
def matchIntent (l : PaymentLedger) (confirmationId intentId : String) (now : ℕ) :
    Toast × PaymentLedger :=
  let (result, l') := paymentsMatch l (matchRequest confirmationId intentId) now
  match result with
  -- no row is an answer too
  | .ok _ => (.matched, l')
  | .validationFailed => (.matchFailed, l')

/-- What `ledger.find` looks for. -/
def Suits (row r : PaymentLedgerRow) : Prop :=
  r.kind = .intent ∧ r.status = .pending ∧ r.method = row.method ∧ r.amount = row.amount

instance (row : PaymentLedgerRow) : DecidablePred (Suits row) := fun r =>
  inferInstanceAs (Decidable (r.kind = .intent ∧ r.status = .pending ∧ r.method = row.method ∧
    r.amount = row.amount))

/-- A press of the button of `row` while the view shows `ledger`. -/
def pressMatch (l : PaymentLedger) (ledger : List PaymentLedgerRow) (row : PaymentLedgerRow)
    (now : ℕ) : Toast × PaymentLedger :=
  match ledger.find? (Suits row) with
  | some intent => matchIntent l row.id intent.id now
  | none => (.noMatchingIntent, l)

/-- The press joins the confirmation to a pending intent of its method and amount. -/
def Reconciles (l : PaymentLedger) (c : LedgerRow) (now : ℕ) : Prop :=
  ∃ i ∈ l.rows, Candidate c.method c.amountMinor i ∧
    JoinedTo (pressMatch l (l.listLedger 100) (rowToPayment c) now).2 c.idempotencyKey i.id

section Press

variable {l : PaymentLedger} {now : ℕ}

/-- The operator of the view has no id. -/
theorem paymentMatchSchema_matchRequest (confirmationId intentId : String) :
    paymentMatchSchema (matchRequest confirmationId intentId) = false := by
  have hmanual : isUuid "manual" = false := by decide +kernel
  rw [paymentMatchSchema, matchRequest, Option.all_some, hmanual, Bool.and_false]

theorem matchIntent_eq (confirmationId intentId : String) :
    matchIntent l confirmationId intentId now = (.matchFailed, l) := by
  rw [matchIntent, paymentsMatch, paymentMatchSchema_matchRequest, if_neg Bool.false_ne_true]

/-- Whatever the view shows, a press leaves the ledger as it is. -/
theorem pressMatch_ledger (ledger : List PaymentLedgerRow) (row : PaymentLedgerRow) :
    (pressMatch l ledger row now).2 = l := by
  rw [pressMatch]
  split
  · rw [matchIntent_eq]
  · rfl

/-- A confirmation that is not matched is joined to nothing. -/
theorem not_joined_of_unmatched {c : LedgerRow} (hc : c ∈ l.rows) (hstatus : c.status = .unmatched)
    (intentId : String) : ¬ JoinedTo l c.idempotencyKey intentId := by
  rintro ⟨d, hd, hkey, -, hmatched, -⟩
  rw [eq_of_key_eq l hd hc hkey, hstatus] at hmatched
  cases hmatched

end Press

/-- No unmatched confirmation is reconciled by a press of its button, whatever the ledger. -/
theorem not_reconciles {l : PaymentLedger} {c : LedgerRow} (hc : c ∈ l.rows)
    (hstatus : c.status = .unmatched) (now : ℕ) : ¬ Reconciles l c now := by
  rintro ⟨i, -, -, hjoined⟩
  rw [pressMatch_ledger] at hjoined
  exact not_joined_of_unmatched hc hstatus i.id hjoined

/-- 1500 shillings land for room 204 before the intent is entered. -/
def landedFirst : List PaymentCall :=
  [.recordConfirmation landed204 "22222222-2222-4222-8222-222222222222" 0,
    intent1500 "204" "intent-0001" "11111111-1111-4111-8111-111111111111"]

/-- What `landedFirst` leaves for the button of the confirmation. -/
theorem landedFirst_listed :
    ∃ l, run step Table.empty landedFirst = some l ∧ ∃ c ∈ l.rows, c.kind = .confirmation ∧
      c.status = .unmatched ∧ rowToPayment c ∈ l.listLedger 100 ∧
      ∃ i ∈ l.rows, Candidate c.method c.amountMinor i := by
  have hsome : (run step Table.empty landedFirst).isSome = true := by decide +kernel
  have hfacts : ∀ l ∈ run step Table.empty landedFirst, ∃ c ∈ l.rows, c.kind = .confirmation ∧
      c.status = .unmatched ∧ c ∈ l.newest 100 ∧
      ∃ i ∈ l.rows, Candidate c.method c.amountMinor i := by
    decide +kernel
  obtain ⟨l, hl⟩ := Option.isSome_iff_exists.mp hsome
  obtain ⟨c, hc, hkind, hstatus, hnewest, hintent⟩ := hfacts l hl
  exact ⟨l, hl, c, hc, hkind, hstatus, List.mem_map_of_mem hnewest, hintent⟩

theorem not_reconciles_landedFirst :
    ∃ l, run step Table.empty landedFirst = some l ∧ ∃ c ∈ l.rows,
      rowToPayment c ∈ l.listLedger 100 ∧ ¬ Reconciles l c 1000 := by
  obtain ⟨l, hl, c, hc, -, hstatus, hlisted, -⟩ := landedFirst_listed
  exact ⟨l, hl, c, hc, hlisted, not_reconciles hc hstatus 1000⟩

/-- The press fails, though the intent is in the list. -/
theorem not_reconciles_listed :
    ¬ ∀ calls l c now, run step Table.empty calls = some l → c ∈ l.rows →
      c.kind = .confirmation → c.status = .unmatched → rowToPayment c ∈ l.listLedger 100 →
      (∃ i ∈ l.rows, Candidate c.method c.amountMinor i) → Reconciles l c now := by
  intro h
  obtain ⟨l, hl, c, hc, hkind, hstatus, hlisted, hintent⟩ := landedFirst_listed
  obtain ⟨i, -, -, hjoined⟩ := h landedFirst l c 1000 hl hc hkind hstatus hlisted hintent
  rw [pressMatch_ledger] at hjoined
  exact not_joined_of_unmatched hc hstatus i.id hjoined

end Hotelia.Payments
