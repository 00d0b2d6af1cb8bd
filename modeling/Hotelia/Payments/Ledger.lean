import Hotelia.Foundation.Table
import Hotelia.Shared.Binary64
import Hotelia.Shared.Validators
import Mathlib.Data.List.Sort

/-!
# The payment reconciliation ledger

The `mpesa_ledger` table of `apps/console/src/main/offline/store.ts` and the three
operations that pair what was expected with what landed. Each operation is one
transaction; the id of a new row is the value of `randomUUID()`, and a call that
throws has rolled back.

## Main definitions

- `PaymentLedger` — the table with its unique columns
- `recordIntent`, `recordConfirmation`, `matchConfirmation`
- `rowToPayment` — a row as the console shows it
-/

namespace Hotelia.Payments
open Foundation

inductive PaymentKind where
  | intent | confirmation | reversal
  deriving DecidableEq, Repr

inductive PaymentStatus where
  | pending | matched | unmatched | reversed
  deriving DecidableEq, Repr

inductive EtimsState where
  | notApplicable | queued | transmitted
  deriving DecidableEq, Repr

/-- A row of `mpesa_ledger`. -/
structure LedgerRow where
  id : String
  kind : PaymentKind
  status : PaymentStatus
  method : PaymentMethod
  amountMinor : ℤ
  currency : String
  reference : Option String
  receipt : Option String
  phoneTail : Option String
  guestName : String
  roomNumber : String
  folioId : Option String
  reservationId : Option String
  operatorId : Option String
  etimsState : EtimsState
  idempotencyKey : String
  recordedAt : ℕ
  matchedAt : Option ℕ
  matchedIntentId : Option String
  deriving DecidableEq

namespace LedgerRow

/-- The primary key, the unique key, and `uq_ledger_receipt` among confirmations. -/
def Clash (a b : LedgerRow) : Prop :=
  a.id = b.id ∨ a.idempotencyKey = b.idempotencyKey ∨
    (a.kind = .confirmation ∧ b.kind = .confirmation ∧ a.receipt.isSome ∧ a.receipt = b.receipt)

instance : DecidableRel Clash := fun a b =>
  inferInstanceAs (Decidable (a.id = b.id ∨ a.idempotencyKey = b.idempotencyKey ∨
    (a.kind = .confirmation ∧ b.kind = .confirmation ∧ a.receipt.isSome ∧ a.receipt = b.receipt)))

theorem Clash.symm (a b : LedgerRow) (h : Clash a b) : Clash b a := by
  cases h with
  | inl hid => exact .inl hid.symm
  | inr h =>
    cases h with
    | inl hkey => exact .inr (.inl hkey.symm)
    | inr h => exact .inr (.inr ⟨h.2.1, h.1, h.2.2.2 ▸ h.2.2.1, h.2.2.2.symm⟩)

/-- `SET status='MATCHED', matched_at=?, matched_intent_id=?`. -/
def linked (now : ℕ) (partner : String) (r : LedgerRow) : LedgerRow :=
  { r with status := .matched, matchedAt := some now, matchedIntentId := some partner }

/-- The same with `operator_id=COALESCE(?, operator_id)`. -/
def linkedBy (now : ℕ) (partner : String) (operatorId : Option String) (r : LedgerRow) :
    LedgerRow :=
  { r.linked now partner with operatorId := operatorId <|> r.operatorId }

end LedgerRow

open LedgerRow

/-- The `mpesa_ledger` table. -/
abbrev PaymentLedger := Table LedgerRow Clash

/-- `PaymentLedgerRow`: a row as the console shows it. -/
structure PaymentLedgerRow where
  id : String
  kind : PaymentKind
  status : PaymentStatus
  etimsState : EtimsState
  method : PaymentMethod
  amount : ℚ
  currency : String
  guestName : String
  roomNumber : String
  reference : Option String
  receipt : Option String
  folioId : Option String
  reservationId : Option String
  operatorId : Option String
  idempotencyKey : String
  recordedAt : ℕ
  matchedAt : Option ℕ
  matchedIntentId : Option String

/-- `column ? String(column) : undefined`. -/
def textOrNone (column : Option String) : Option String := column.filter (· ≠ "")

/-- `rowToPayment`. -/
def rowToPayment (r : LedgerRow) : PaymentLedgerRow where
  id := r.id
  kind := r.kind
  status := r.status
  etimsState := r.etimsState
  method := r.method
  amount := binary64 (r.amountMinor / 100)
  currency := r.currency
  guestName := r.guestName
  roomNumber := r.roomNumber
  reference := textOrNone r.reference
  receipt := textOrNone r.receipt
  folioId := textOrNone r.folioId
  reservationId := textOrNone r.reservationId
  operatorId := textOrNone r.operatorId
  idempotencyKey := r.idempotencyKey
  recordedAt := r.recordedAt
  matchedAt := r.matchedAt
  matchedIntentId := textOrNone r.matchedIntentId

/-- `toMinor(amount)`. -/
def toMinor (amount : ℚ) : ℤ := mathRound (binary64 (amount * 100))

/-- An `UPDATE` of the ledger may set any column but the keys. -/
def KeepsKeys (f : LedgerRow → LedgerRow) : Prop :=
  ∀ r, (f r).id = r.id ∧ (f r).idempotencyKey = r.idempotencyKey ∧ (f r).kind = r.kind ∧
    (f r).receipt = r.receipt

theorem keepsKeys_linked (now : ℕ) (partner : String) : KeepsKeys (linked now partner) :=
  fun _ => ⟨rfl, rfl, rfl, rfl⟩

theorem keepsKeys_linkedBy (now : ℕ) (partner : String) (operatorId : Option String) :
    KeepsKeys (linkedBy now partner operatorId) :=
  fun _ => ⟨rfl, rfl, rfl, rfl⟩

namespace PaymentLedger

/-- `UPDATE mpesa_ledger SET f WHERE id=?`. -/
def setById (l : PaymentLedger) (id : String) (f : LedgerRow → LedgerRow) (hf : KeepsKeys f) :
    PaymentLedger :=
  l.update (fun r => if r.id = id then f r else r) <| by
    have hkeys : KeepsKeys fun r => if r.id = id then f r else r := by
      intro r
      dsimp only
      split
      · exact hf r
      · exact ⟨rfl, rfl, rfl, rfl⟩
    intro a b hc
    simpa only [Clash, hkeys a, hkeys b] using hc

@[simp] theorem setById_rows (l : PaymentLedger) (id : String) (f : LedgerRow → LedgerRow) (hf) :
    (l.setById id f hf).rows = l.rows.map fun r => if r.id = id then f r else r := rfl

/-- `SELECT * FROM mpesa_ledger WHERE idempotency_key = ?`. -/
def selectByKey (l : PaymentLedger) (key : String) : Option LedgerRow :=
  l.rows.find? fun r => r.idempotencyKey = key

/-- `SELECT * FROM mpesa_ledger WHERE id=?`. -/
def selectById (l : PaymentLedger) (id : String) : Option LedgerRow :=
  l.rows.find? fun r => r.id = id

/-- `recordIntent(input, now)`. -/
def recordIntent (l : PaymentLedger) (input : PaymentRecordInput) (id : String) (now : ℕ) :
    Option PaymentLedgerRow × PaymentLedger :=
  let l : PaymentLedger := l.insertOrIgnore
    { id, kind := .intent, status := .pending, method := input.method,
      amountMinor := toMinor input.amount, currency := input.currency,
      reference := input.reference, receipt := none, phoneTail := none,
      guestName := input.guestName, roomNumber := input.roomNumber, folioId := input.folioId,
      reservationId := input.reservationId, operatorId := input.operatorId,
      etimsState := .notApplicable, idempotencyKey := input.idempotencyKey, recordedAt := now,
      matchedAt := none, matchedIntentId := none }
  ((l.selectByKey input.idempotencyKey).map rowToPayment, l)

/-- A row that `findIntent` selects. -/
def Candidate (method : PaymentMethod) (amountMinor : ℤ) (r : LedgerRow) : Prop :=
  r.kind = .intent ∧ r.status = .pending ∧ r.method = method ∧ r.amountMinor = amountMinor

instance (method : PaymentMethod) (amountMinor : ℤ) : DecidablePred (Candidate method amountMinor) :=
  fun r => inferInstanceAs (Decidable (r.kind = .intent ∧ r.status = .pending ∧ r.method = method ∧
    r.amountMinor = amountMinor))

/-- `findIntent.all(method, amountMinor)`: the oldest two. -/
def findIntent (l : PaymentLedger) (method : PaymentMethod) (amountMinor : ℤ) : List LedgerRow :=
  ((l.rows.filter (Candidate method amountMinor)).insertionSort
    fun a b => a.recordedAt ≤ b.recordedAt).take 2

/-- The row that `recordConfirmation` inserts. -/
def confirmationRow (input : PaymentConfirmationInput) (id : String) (now : ℕ) : LedgerRow where
  id := id
  kind := .confirmation
  status := .unmatched
  method := input.method
  amountMinor := toMinor input.amount
  currency := input.currency
  reference := input.reference
  receipt := some input.receipt
  phoneTail := input.phoneTail
  guestName := ""
  roomNumber := ""
  folioId := none
  reservationId := none
  operatorId := none
  etimsState := .notApplicable
  idempotencyKey := input.idempotencyKey
  recordedAt := now
  matchedAt := none
  matchedIntentId := none

/-- `matchBoth.run(now, partner, id)`. -/
def matchBoth (l : PaymentLedger) (now : ℕ) (partner id : String) : PaymentLedger :=
  l.setById id (linked now partner) (keepsKeys_linked now partner)

/-- `recordConfirmation(input, now)`. Without a row for the key it throws. -/
def recordConfirmation (l : PaymentLedger) (input : PaymentConfirmationInput) (id : String)
    (now : ℕ) : Option PaymentLedgerRow × PaymentLedger :=
  let l' : PaymentLedger := l.insertOrIgnore (confirmationRow input id now)
  match l'.selectByKey input.idempotencyKey with
  | none => (none, l)
  | some row =>
    match l'.findIntent input.method (toMinor input.amount) with
    -- the row that is returned names itself as its partner
    | [candidate] =>
      (some (rowToPayment (row.linked now row.id)),
        (l'.matchBoth now candidate.id row.id).matchBoth now row.id candidate.id)
    | _ => (some (rowToPayment row), l')

/-- `matchConfirmation(confirmationId, intentId, operatorId, now)`. -/
def matchConfirmation (l : PaymentLedger) (confirmationId intentId : String)
    (operatorId : Option String) (now : ℕ) : Option PaymentLedgerRow × PaymentLedger :=
  match l.selectById confirmationId with
  | none => (none, l)
  | some row =>
    if row.kind ≠ .confirmation then (none, l)
    -- nothing is asked of the intent, and the row is returned as it was
    else
      (some (rowToPayment row),
        (l.setById confirmationId (linkedBy now intentId operatorId)
          (keepsKeys_linkedBy now intentId operatorId)).matchBoth now confirmationId intentId)

end PaymentLedger

/-- A call of the payment channels. The id of a new row comes with the call. -/
inductive PaymentCall where
  | recordIntent (input : PaymentRecordInput) (uuid : String) (now : ℕ)
  | recordConfirmation (input : PaymentConfirmationInput) (uuid : String) (now : ℕ)
  | matchConfirmation (input : PaymentMatchInput) (now : ℕ)

namespace PaymentCall

/-- Whether the schema of the channel lets the input through. -/
def valid : PaymentCall → Bool
  | .recordIntent input _ _ => paymentRecordSchema input
  | .recordConfirmation input _ _ => paymentConfirmationSchema input
  | .matchConfirmation input _ => paymentMatchSchema input

/-- The ledger after the call. -/
def apply (l : PaymentLedger) : PaymentCall → PaymentLedger
  | .recordIntent input uuid now => (l.recordIntent input uuid now).2
  | .recordConfirmation input uuid now => (l.recordConfirmation input uuid now).2
  | .matchConfirmation input now =>
    (l.matchConfirmation input.confirmationId input.intentId input.operatorId now).2

end PaymentCall

/-- A call that the channel accepts. -/
def step (l : PaymentLedger) (call : PaymentCall) : Option PaymentLedger :=
  if call.valid then some (call.apply l) else none

end Hotelia.Payments
