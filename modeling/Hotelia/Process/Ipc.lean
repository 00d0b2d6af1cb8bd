import Hotelia.Channels.Adapters
import Hotelia.Foundation.Answers
import Hotelia.Payments.Evidence
import Hotelia.Payments.Reconciliation

/-!
# From the renderer to the ledger

A call of the preload bridge, the wrapper that checks its payload in the main process, the handler
over the payment ledger, and what `unwrap` makes of the answer. Any value may come over any of the
payment channels.

## Main definitions

- `wrapIpc`, `unwrap` — the two ends of a call
- `paymentRecord`, `paymentConfirmation`, `paymentMatch` — the schemas, over values as they come
- `serve` — the payment channels of `registerIpc`

## Main results

- `ledger_guarded`: only what a schema accepts reaches the ledger.
- `intent_shown`: an expected payment is shown as it was sent, whatever is sent after it.
-/

namespace Hotelia.Ipc
open Channels (Value)
open Payments Foundation PaymentLedger

/-! ## The wrapper -/

/-- An issue of `parsed.error.issues`. -/
structure Issue where
  path : List String
  message : String

/-- The path of an issue, or `(root)`, and its message. -/
def Issue.detail (i : Issue) : String :=
  let path := ".".intercalate i.path
  (if path = "" then "(root)" else path) ++ ": " ++ i.message

structure CommandResult (α : Type) where
  success : Bool
  data : Option α
  error : Option String

section Wrapper

variable {ι σ α : Type}

def CommandResult.ok (data : α) : CommandResult α := ⟨true, some data, none⟩

def CommandResult.fail (error : String) : CommandResult α := ⟨false, none, some error⟩

/-- The error of a payload with these issues. -/
def validationFailed (issues : List Issue) : String :=
  let detail := "; ".intercalate ((issues.take 3).map Issue.detail)
  "VALIDATION_FAILED: " ++ if detail = "" then "malformed payload" else detail

/-- `wrapIpc(ctx, schema, run)`. What `run` throws is an `Error` with a message. -/
def wrapIpc (issues : Value → List Issue) (schema : Value → Option ι)
    (run : σ → ι → Except String α × σ) (s : σ) (raw : Value) : CommandResult α × σ :=
  match schema raw with
  | none => (.fail (validationFailed (issues raw)), s)
  | some input =>
    match run s input with
    | (.ok data, s') => (.ok data, s')
    | (.error message, s') =>
      (.fail (if message = "" then "UNKNOWN_HANDLER_ERROR" else message), s')

/-- `unwrap(call)`: what it returns, or the message it throws. -/
def unwrap (res : CommandResult α) : Except String α :=
  match res.success, res.data with
  | true, some data => .ok data
  | _, _ => .error (res.error.getD "IPC call failed")

end Wrapper

/-! ## The schemas -/

/-- `input[key]`. -/
def field (fields : List (String × Value)) (key : String) : Value :=
  (fields.lookup key).getD .undefined

/-- `z.string()`. -/
def string? : Value → Option String
  | .string s => some s
  | _ => none

/-- `.optional()`. -/
def optional? {α : Type} (read : Value → Option α) : Value → Option (Option α)
  | .undefined => some none
  | v => (read v).map some

/-- `.default(d)`. -/
def default? {α : Type} (d : α) (read : Value → Option α) : Value → Option α
  | .undefined => some d
  | v => read v

def methodText : PaymentMethod → String
  | .cash => "CASH"
  | .mpesaTill => "MPESA_TILL"
  | .mpesaPaybill => "MPESA_PAYBILL"
  | .card => "CARD"

/-- `paymentMethodSchema`. -/
def method? (v : Value) : Option PaymentMethod :=
  (string? v).bind fun s =>
    [.cash, .mpesaTill, .mpesaPaybill, .card].find? fun method => methodText method = s

/-- The fields of `paymentRecordSchema`, without their bounds. -/
def readPaymentRecord : Value → Option PaymentRecordInput
  | .object fields => do
    let method ← method? (field fields "method")
    let amount ← (field fields "amount").number?
    let currency ← default? "KES" string? (field fields "currency")
    let guestName ← string? (field fields "guestName")
    let roomNumber ← string? (field fields "roomNumber")
    let reference ← optional? string? (field fields "reference")
    let folioId ← optional? string? (field fields "folioId")
    let reservationId ← optional? string? (field fields "reservationId")
    let idempotencyKey ← string? (field fields "idempotencyKey")
    let operatorId ← optional? string? (field fields "operatorId")
    some { method, amount, currency, guestName, roomNumber, reference, folioId, reservationId,
           idempotencyKey, operatorId }
  | _ => none

/-- `paymentRecordSchema.safeParse`. -/
def paymentRecord (raw : Value) : Option PaymentRecordInput :=
  (readPaymentRecord raw).filter (paymentRecordSchema ·)

/-- The fields of `paymentConfirmationSchema`, without their bounds. -/
def readPaymentConfirmation : Value → Option PaymentConfirmationInput
  | .object fields => do
    let receipt ← string? (field fields "receipt")
    let amount ← (field fields "amount").number?
    let currency ← default? "KES" string? (field fields "currency")
    let method ← method? (field fields "method")
    let reference ← optional? string? (field fields "reference")
    let phoneTail ← optional? string? (field fields "phoneTail")
    let idempotencyKey ← string? (field fields "idempotencyKey")
    some { receipt, amount, currency, method, reference, phoneTail, idempotencyKey }
  | _ => none

/-- `paymentConfirmationSchema.safeParse`. -/
def paymentConfirmation (raw : Value) : Option PaymentConfirmationInput :=
  (readPaymentConfirmation raw).filter (paymentConfirmationSchema ·)

/-- The fields of `paymentMatchSchema`, without their bounds. -/
def readPaymentMatch : Value → Option PaymentMatchInput
  | .object fields => do
    let confirmationId ← string? (field fields "confirmationId")
    let intentId ← string? (field fields "intentId")
    let operatorId ← optional? string? (field fields "operatorId")
    some { confirmationId, intentId, operatorId }
  | _ => none

/-- `paymentMatchSchema.safeParse`. -/
def paymentMatch (raw : Value) : Option PaymentMatchInput :=
  (readPaymentMatch raw).filter (paymentMatchSchema ·)

/-- `ipcNoArgsSchema.safeParse`. -/
def noArgs : Value → Option Unit
  | .undefined => some ()
  | .object _ => some ()
  | _ => none

/-! ## The channels -/

inductive Channel where
  | recordIntent | recordConfirmation | matchConfirmation | list | summary
  deriving DecidableEq

/-- An invocation of a payment channel, with the clock and the id of a row that it may make. -/
structure Message where
  channel : Channel
  raw : Value
  uuid : String
  now : ℕ

/-- What the channels answer. -/
inductive Data where
  | row (row : PaymentLedgerRow)
  | rowOrNull (row : Option PaymentLedgerRow)
  | rows (rows : List PaymentLedgerRow)
  | summary (summary : MpesaLedgerSummary)

/-- What a handler returns that throws where there is no row for its key: the error is that of
`rowToPayment(undefined)`. -/
def rowOrThrow : Option PaymentLedgerRow × PaymentLedger → Except String Data × PaymentLedger
  | (some row, l) => (.ok (.row row), l)
  | (none, l) => (.error "Cannot read properties of undefined (reading 'id')", l)

section Channels

variable (issues : Channel → Value → List Issue)

/-- The payment channels that `registerIpc` registers. -/
def serve (l : PaymentLedger) (m : Message) : CommandResult Data × PaymentLedger :=
  match m.channel with
  | .recordIntent =>
    wrapIpc (issues .recordIntent) paymentRecord
      (fun l input => rowOrThrow (l.recordIntent input m.uuid m.now)) l m.raw
  | .recordConfirmation =>
    wrapIpc (issues .recordConfirmation) paymentConfirmation
      (fun l input => rowOrThrow (l.recordConfirmation input m.uuid m.now)) l m.raw
  | .matchConfirmation =>
    wrapIpc (issues .matchConfirmation) paymentMatch
      (fun l input =>
        let result := l.matchConfirmation input.confirmationId input.intentId input.operatorId m.now
        (.ok (.rowOrNull result.1), result.2)) l m.raw
  | .list =>
    wrapIpc (issues .list) noArgs (fun l _ => (.ok (.rows (l.listLedger 100)), l)) l m.raw
  | .summary =>
    wrapIpc (issues .summary) noArgs (fun l _ => (.ok (.summary (l.ledgerSummary m.now)), l)) l
      m.raw

end Channels

namespace Message

/-- Whether the schema of the channel accepts the payload. -/
def accepted (m : Message) : Bool :=
  match m.channel with
  | .recordIntent => (paymentRecord m.raw).isSome
  | .recordConfirmation => (paymentConfirmation m.raw).isSome
  | .matchConfirmation => (paymentMatch m.raw).isSome
  | .list => (noArgs m.raw).isSome
  | .summary => (noArgs m.raw).isSome

/-- The call of the ledger that the handler makes. -/
def call? (m : Message) : Option PaymentCall :=
  match m.channel with
  | .recordIntent => (paymentRecord m.raw).map fun input => .recordIntent input m.uuid m.now
  | .recordConfirmation =>
    (paymentConfirmation m.raw).map fun input => .recordConfirmation input m.uuid m.now
  | .matchConfirmation => (paymentMatch m.raw).map fun input => .matchConfirmation input m.now
  | .list => none
  | .summary => none

end Message

/-! ## What reaches the ledger -/

section Guarded

variable {ι σ α : Type} {zodIssues : Value → List Issue} {schema : Value → Option ι}
  {handler : σ → ι → Except String α × σ} {s : σ} {raw : Value}

theorem wrapIpc_of_refused (h : (schema raw).isSome = false) :
    wrapIpc zodIssues schema handler s raw = (.fail (validationFailed (zodIssues raw)), s) := by
  rw [Option.isSome_eq_false_iff, Option.isNone_iff_eq_none] at h
  rw [wrapIpc, h]

theorem wrapIpc_state {input : ι} (h : schema raw = some input) :
    (wrapIpc zodIssues schema handler s raw).2 = (handler s input).2 := by
  rw [wrapIpc, h]
  dsimp only
  split
  · next heq => rw [heq]
  · next heq => rw [heq]

/-- A handler that only reads leaves the state, and so does a payload that is refused. -/
theorem wrapIpc_of_reads (h : ∀ s input, (handler s input).2 = s) :
    (wrapIpc zodIssues schema handler s raw).2 = s := by
  cases hinput : schema raw with
  | none => rw [wrapIpc_of_refused (by rw [hinput]; rfl)]
  | some input => rw [wrapIpc_state hinput, h]

theorem rowOrThrow_ledger (result : Option PaymentLedgerRow × PaymentLedger) :
    (rowOrThrow result).2 = result.2 := by
  obtain ⟨row, l⟩ := result
  cases row with
  | none => rfl
  | some row => rfl

variable {issues : Channel → Value → List Issue} {l : PaymentLedger} {m : Message}

/-- A channel whose handler makes a call of the ledger. -/
theorem wrapIpc_call {read : Value → Option ι} {rules : ι → Bool} {f : ι → PaymentCall}
    {handler : PaymentLedger → ι → Except String Data × PaymentLedger}
    (hvalid : ∀ input, (f input).valid = rules input)
    (happly : ∀ l input, (handler l input).2 = (f input).apply l) :
    let schema (raw : Value) := (read raw).filter (rules ·)
    (∃ call, (schema raw).map f = some call ∧
        step l call = some (wrapIpc zodIssues schema handler l raw).2) ∨
      (schema raw).map f = none ∧ (wrapIpc zodIssues schema handler l raw).2 = l := by
  intro schema
  cases hinput : schema raw with
  | none =>
    refine .inr ⟨rfl, ?_⟩
    rw [wrapIpc_of_refused (by rw [hinput]; rfl)]
  | some input =>
    have hrules : rules input = true := (Option.filter_eq_some_iff.mp hinput).2
    refine .inl ⟨f input, rfl, ?_⟩
    rw [step, if_pos (hvalid input ▸ hrules), wrapIpc_state hinput, happly]

theorem serve_of_refused (h : m.accepted = false) :
    serve issues l m = (.fail (validationFailed (issues m.channel m.raw)), l) := by
  obtain ⟨channel, raw, uuid, now⟩ := m
  cases channel
  all_goals
    rw [serve]
    exact wrapIpc_of_refused h

/-- A message is a call of the ledger that its schema lets through, or changes nothing. -/
theorem serve_ledger (issues : Channel → Value → List Issue) (l : PaymentLedger) (m : Message) :
    (∃ call, m.call? = some call ∧ step l call = some (serve issues l m).2) ∨
      m.call? = none ∧ (serve issues l m).2 = l := by
  obtain ⟨channel, raw, uuid, now⟩ := m
  cases channel with
  | recordIntent =>
    exact wrapIpc_call (f := fun input => .recordIntent input uuid now) (fun _ => rfl)
      fun _ _ => rowOrThrow_ledger _
  | recordConfirmation =>
    exact wrapIpc_call (f := fun input => .recordConfirmation input uuid now) (fun _ => rfl)
      fun _ _ => rowOrThrow_ledger _
  | matchConfirmation =>
    exact wrapIpc_call (f := fun input => .matchConfirmation input now) (fun _ => rfl)
      fun _ _ => rfl
  | list =>
    refine .inr ⟨rfl, ?_⟩
    rw [serve]
    exact wrapIpc_of_reads fun _ _ => rfl
  | summary =>
    refine .inr ⟨rfl, ?_⟩
    rw [serve]
    exact wrapIpc_of_reads fun _ _ => rfl

theorem run_serve (l : PaymentLedger) (ms : List Message) :
    run step l (ms.filterMap Message.call?) = some (after (serve issues) l ms) := by
  induction ms generalizing l with
  | nil => rfl
  | cons m ms ih =>
    obtain ⟨call, hcall, hstep⟩ | ⟨hcall, hsame⟩ := serve_ledger issues l m
    · rw [List.filterMap_cons, hcall]
      exact run_cons_eq_some.mpr ⟨_, hstep, ih _⟩
    · rw [List.filterMap_cons, hcall]
      have hafter : after (serve issues) l (m :: ms) = after (serve issues) l ms := by
        rw [after, List.foldl_cons, hsame, ← after]
      rw [hafter]
      exact ih l

/-- The ledger through any messages is one of the runs of its calls. -/
theorem run_ledgerCalls (l : PaymentLedger) (ms : List Message) :
    run LedgerCall.step l ((ms.filterMap Message.call?).map .payment) =
      some (after (serve issues) l ms) :=
  (run_map (fun _ _ => rfl) l _).trans (run_serve l ms)

end Guarded

/-! ### Rows -/

/-- What the schemas promise about a row: its amount in cents, its currency and its key, the guest
and the room that a payment is expected from, and the receipt of one that has landed. -/
structure WellFormed (r : LedgerRow) : Prop where
  amount : 0 ≤ r.amountMinor ∧ r.amountMinor ≤ 1000000000
  currency : lengthBetween 3 3 r.currency
  idempotencyKey : lengthBetween 8 128 r.idempotencyKey
  intent : r.kind = .intent → lengthBetween 1 200 r.guestName ∧ lengthBetween 1 10 r.roomNumber
  confirmation : r.kind = .confirmation →
    ∃ receipt ∈ r.receipt, lengthBetween 1 64 receipt ∧ receipt.toList.all Char.isAlphanum

theorem WellFormed.later {r r' : LedgerRow} (h : WellFormed r) (hlater : LedgerRow.Later r r') :
    WellFormed r' := by
  have hsame := hlater.recorded
  simp only [LedgerRow.recorded, LedgerRow.mk.injEq] at hsame
  obtain ⟨-, hkind, -, -, hamount, hcurrency, -, hreceipt, -, hguest, hroom, -, -, -, -, hkey, -, -, -⟩ :=
    hsame
  exact ⟨hamount ▸ h.amount, hcurrency ▸ h.currency, hkey ▸ h.idempotencyKey,
    by rw [hkind, hguest, hroom]; exact h.intent, by rw [hkind, hreceipt]; exact h.confirmation⟩

theorem toMinor_bounds {amount : ℚ} (h : isAmount amount = true) :
    0 ≤ toMinor amount ∧ toMinor amount ≤ 1000000000 := by
  refine ⟨toMinor_nonneg h, ?_⟩
  rw [isAmount, Bool.and_eq_true, decide_eq_true_eq, decide_eq_true_eq] at h
  exact mathRound_binary64_le (by linarith) (by linarith)

theorem wellFormed_of_newRow {l l' : PaymentLedger} {call : LedgerCall} {r : LedgerRow}
    (hs : call.step l = some l') (h : call.newRow = some r) : WellFormed r := by
  cases call with
  | markEtims row state => cases h
  | payment call =>
    have hvalid : call.valid = true := by
      rw [LedgerCall.step, step] at hs
      by_contra hinvalid
      rw [if_neg hinvalid] at hs
      cases hs
    cases call with
    | recordIntent input uuid now =>
      obtain rfl := Option.some.inj h
      simp only [PaymentCall.valid, paymentRecordSchema, Bool.and_eq_true] at hvalid
      obtain ⟨⟨⟨⟨⟨⟨⟨⟨hamount, hcurrency⟩, hguest⟩, hroom⟩, -⟩, -⟩, -⟩, hkey⟩, -⟩ := hvalid
      exact ⟨toMinor_bounds hamount, hcurrency, hkey, fun _ => ⟨hguest, hroom⟩,
        fun hkind => PaymentKind.noConfusion hkind⟩
    | recordConfirmation input uuid now =>
      obtain rfl := Option.some.inj h
      simp only [PaymentCall.valid, paymentConfirmationSchema, Bool.and_eq_true] at hvalid
      obtain ⟨⟨⟨⟨⟨⟨hreceipt, hletters⟩, hamount⟩, hcurrency⟩, -⟩, -⟩, hkey⟩ := hvalid
      exact ⟨toMinor_bounds hamount, hcurrency, hkey, fun hkind => PaymentKind.noConfusion hkind,
        fun _ => ⟨input.receipt, rfl, hreceipt, hletters⟩⟩
    | matchConfirmation input now => cases h

/-! ### Runs -/

section Runs

variable {issues : Channel → Value → List Issue}

/-- Whatever values come over the payment channels, in whatever order: the ledger is what the calls
make of it that the schemas let through; they are answered as if nothing else had been sent; what
is refused throws in the renderer; and every row is as the schemas promise. -/
theorem ledger_guarded (ms : List Message) :
    run step Table.empty (ms.filterMap Message.call?) =
        some (after (serve issues) Table.empty ms) ∧
      (((ms.zip (answers (serve issues) Table.empty ms)).filter (·.1.accepted)).map (·.2)) =
        answers (serve issues) Table.empty (ms.filter (·.accepted)) ∧
      (∀ pair ∈ ms.zip (answers (serve issues) Table.empty ms), pair.1.accepted = false →
        unwrap pair.2 = .error (validationFailed (issues pair.1.channel pair.1.raw))) ∧
      ∀ r ∈ (after (serve issues) Table.empty ms).rows, WellFormed r := by
  have hunseen (l : PaymentLedger) (m : Message) (h : m.accepted = false) :
      (serve issues l m).2 = l := by
    rw [serve_of_refused h]
  refine ⟨run_serve _ ms, answers_filter hunseen _ ms, ?_, ?_⟩
  · refine forall_mem_zip_answers (Q := fun m res => m.accepted = false →
      unwrap res = .error (validationFailed (issues m.channel m.raw))) (fun l m h => ?_) _ ms
    rw [serve_of_refused h]
    rfl
  · exact forall_rows_of_run (fun _ _ hlater h => h.later hlater)
      (fun _ _ _ _ => wellFormed_of_newRow) (fun r hr => absurd hr List.not_mem_nil)
      (run_ledgerCalls Table.empty ms)

end Runs

/-! ## An expected payment, from the view and back -/

section Intents

variable {issues : Channel → Value → List Issue}

/-- The value of a field that may be left out. -/
def optionalValue : Option String → Value
  | none => .undefined
  | some s => .string s

/-- A `PaymentRecordInput` as it is sent. -/
def recordValue (input : PaymentRecordInput) : Value :=
  .object [("method", .string (methodText input.method)), ("amount", .number input.amount),
    ("currency", .string input.currency), ("guestName", .string input.guestName),
    ("roomNumber", .string input.roomNumber), ("reference", optionalValue input.reference),
    ("folioId", optionalValue input.folioId),
    ("reservationId", optionalValue input.reservationId),
    ("idempotencyKey", .string input.idempotencyKey),
    ("operatorId", optionalValue input.operatorId)]

theorem method?_methodText (method : PaymentMethod) :
    method? (.string (methodText method)) = some method := by
  cases method <;> rfl

theorem optional?_optionalValue (s : Option String) :
    optional? string? (optionalValue s) = some s := by
  cases s <;> rfl

theorem readPaymentRecord_recordValue (input : PaymentRecordInput) :
    readPaymentRecord (recordValue input) = some input := by
  simp only [readPaymentRecord, recordValue, field, List.lookup_cons, String.reduceBEq,
    beq_self_eq_true, Option.getD_some, method?_methodText, optional?_optionalValue, Value.number?,
    default?, string?, Option.bind_eq_bind, Option.bind_some]

/-- The input that a row says it was recorded from. -/
def sent (row : PaymentLedgerRow) : PaymentRecordInput where
  method := row.method
  amount := row.amount
  currency := row.currency
  guestName := row.guestName
  roomNumber := row.roomNumber
  reference := row.reference
  folioId := row.folioId
  reservationId := row.reservationId
  idempotencyKey := row.idempotencyKey
  operatorId := row.operatorId

/-- A text that is not empty is not taken for a missing one. -/
theorem textOrNone_of_all {p : String → Bool} (hp : p "" = false) {s : Option String}
    (h : s.all p = true) : textOrNone s = s := by
  cases s with
  | none => rfl
  | some s =>
    have hne : s ≠ "" := by
      rintro rfl
      exact Bool.false_ne_true (hp.symm.trans h)
    exact Option.filter_some_pos (by simpa using hne)

theorem amount_of_cents {input : PaymentRecordInput} (hvalid : paymentRecordSchema input = true)
    {cents : ℤ} (hcents : input.amount = binary64 (cents / 100)) :
    toMinor input.amount = cents := by
  simp only [paymentRecordSchema, Bool.and_eq_true, isAmount, decide_eq_true_eq] at hvalid
  obtain ⟨⟨⟨⟨⟨⟨⟨⟨⟨hpos, hmax⟩, -⟩, -⟩, -⟩, -⟩, -⟩, -⟩, -⟩, -⟩ := hvalid
  rw [hcents] at hpos hmax
  obtain ⟨h0, hk⟩ := cents_of_binary64 hpos hmax
  rw [hcents, toMinor, mathRound_binary64_cents h0 hk]

theorem sent_intentRow {input : PaymentRecordInput} (hvalid : paymentRecordSchema input = true)
    {cents : ℤ} (hcents : input.amount = binary64 (cents / 100)) (uuid : String) (now : ℕ) :
    sent (rowToPayment (intentRow input uuid now)) = input := by
  have hamount := amount_of_cents hvalid hcents
  have hshort : lengthBetween 1 128 "" = false := by decide
  have huuid : isUuid "" = false := by decide +kernel
  simp only [paymentRecordSchema, Bool.and_eq_true] at hvalid
  obtain ⟨⟨⟨⟨⟨-, hreference⟩, hfolio⟩, hreservation⟩, -⟩, hoperator⟩ := hvalid
  rw [sent, rowToPayment, intentRow, hamount, ← hcents, textOrNone_of_all hshort hreference,
    textOrNone_of_all huuid hfolio, textOrNone_of_all huuid hreservation,
    textOrNone_of_all huuid hoperator]

theorem sent_of_later {r r' : LedgerRow} (h : LedgerRow.Later r r') (hkind : r.kind = .intent) :
    sent (rowToPayment r') = sent (rowToPayment r) := by
  have hsame := h.recorded
  simp only [LedgerRow.recorded, LedgerRow.mk.injEq] at hsame
  obtain ⟨-, -, -, hmethod, hamount, hcurrency, hreference, -, -, hguest, hroom, hfolio,
    hreservation, -, -, hkey, -, -, -⟩ := hsame
  simp only [sent, rowToPayment, hmethod, hamount, hcurrency, hreference, hguest, hroom, hfolio,
    hreservation, hkey, h.operatorId hkind]

/-- A payment whose key and id are new is in the ledger. -/
theorem recordIntent_of_new {l : PaymentLedger} {input : PaymentRecordInput} {uuid : String}
    (hnew : ∀ r ∈ l.rows, r.id ≠ uuid ∧ r.idempotencyKey ≠ input.idempotencyKey) (now : ℕ) :
    (l.recordIntent input uuid now).1 = some (rowToPayment (intentRow input uuid now)) ∧
      intentRow input uuid now ∈ (l.recordIntent input uuid now).2.rows := by
  have hfresh : ¬ ∃ r ∈ l.rows, LedgerRow.Clash r (intentRow input uuid now) := by
    rintro ⟨r, hr, hid | hkey | ⟨-, hkind, -⟩⟩
    · exact (hnew r hr).1 hid
    · exact (hnew r hr).2 hkey
    · exact PaymentKind.noConfusion hkind
  have hmem : intentRow input uuid now ∈ (l.insertOrIgnore (intentRow input uuid now)).rows := by
    rw [l.insertOrIgnore_rows_of_fresh _ hfresh]
    exact List.mem_append_right _ List.mem_cons_self
  have hselect : PaymentLedger.selectByKey (l.insertOrIgnore (intentRow input uuid now))
      input.idempotencyKey = some (intentRow input uuid now) :=
    selectByKey_eq_some.mpr ⟨hmem, rfl⟩
  exact ⟨congrArg (Option.map rowToPayment) hselect, hmem⟩

/-- A list has every row, if a hundred are enough. -/
theorem mem_listLedger {l : PaymentLedger} (h : l.rows.length ≤ 100) {r : LedgerRow}
    (hr : r ∈ l.rows) : rowToPayment r ∈ l.listLedger 100 := by
  refine List.mem_map_of_mem ?_
  rw [newest, List.take_of_length_le (by rwa [List.length_insertionSort, List.length_reverse])]
  exact (List.perm_insertionSort _ _).mem_iff.mpr (List.mem_reverse.mpr hr)

/-- An expected payment in whole cents is shown as it was sent: in the answer, and in every list of
the ledger as long as a hundred rows are enough for it, whatever is sent in between. -/
theorem intent_shown {l : PaymentLedger} {input : PaymentRecordInput}
    (hvalid : paymentRecordSchema input = true) {cents : ℤ}
    (hcents : input.amount = binary64 (cents / 100)) {uuid : String}
    (hnew : ∀ r ∈ l.rows, r.id ≠ uuid ∧ r.idempotencyKey ≠ input.idempotencyKey) (now : ℕ)
    (later : List Message) (uuid' : String) (now' : ℕ) :
    ∃ row l', serve issues l ⟨.recordIntent, recordValue input, uuid, now⟩ = (.ok (.row row), l') ∧
      sent row = input ∧ row.status = .pending ∧
      ((after (serve issues) l' later).rows.length ≤ 100 →
        ∃ rows, unwrap (serve issues (after (serve issues) l' later)
            ⟨.list, .undefined, uuid', now'⟩).1 = .ok (.rows rows) ∧
          ∃ shown ∈ rows, shown.id = row.id ∧ sent shown = input) := by
  obtain ⟨hanswer, hmem⟩ := recordIntent_of_new hnew now
  have hread : paymentRecord (recordValue input) = some input := by
    rw [paymentRecord, readPaymentRecord_recordValue, Option.filter_some_pos hvalid]
  refine ⟨rowToPayment (intentRow input uuid now), (l.recordIntent input uuid now).2, ?_,
    sent_intentRow hvalid hcents uuid now, rfl, fun hlength => ?_⟩
  · rw [serve, wrapIpc, hread]
    dsimp only
    rw [← Prod.mk.eta (p := l.recordIntent input uuid now), hanswer]
    rfl
  · generalize (l.recordIntent input uuid now).2 = l' at hmem hlength
    have hgrows : Table.Grows LedgerRow.Later l' (after (serve issues) l' later) :=
      run_rel (Table.Grows.refl LedgerRow.Later.refl)
        (fun _ _ _ => Table.Grows.trans LedgerRow.Later.trans) (fun _ _ _ => grows_step)
        (run_ledgerCalls l' later)
    obtain ⟨r, hr, hlater⟩ := hgrows.exists_mem hmem
    refine ⟨_, rfl, rowToPayment r, mem_listLedger hlength hr, hlater.id_eq, ?_⟩
    rw [sent_of_later hlater rfl, sent_intentRow hvalid hcents]

end Intents

/-- What a guest is to pay for a night. -/
def nightPayment : PaymentRecordInput where
  method := .mpesaTill
  amount := 150
  currency := "KES"
  guestName := "Guest"
  roomNumber := "204"
  reference := some "stay-204"
  folioId := none
  reservationId := none
  idempotencyKey := "intent-night-204"
  operatorId := none

theorem intent_shown_nightPayment :
    ∃ row l', serve (fun _ _ => []) Table.empty
        ⟨.recordIntent, recordValue nightPayment, "33333333-3333-4333-8333-333333333333", 1000⟩ =
          (.ok (.row row), l') ∧ sent row = nightPayment := by
  have hvalid : paymentRecordSchema nightPayment = true := by decide +kernel
  have hcents : nightPayment.amount = binary64 ((15000 : ℤ) / 100) := by decide +kernel
  have hnew : ∀ r ∈ (Table.empty : PaymentLedger).rows,
      r.id ≠ "33333333-3333-4333-8333-333333333333" ∧
        r.idempotencyKey ≠ nightPayment.idempotencyKey :=
    fun r hr => absurd hr List.not_mem_nil
  obtain ⟨row, l', hserve, hsent, -⟩ := intent_shown hvalid hcents hnew 1000 [] "" 2000
  exact ⟨row, l', hserve, hsent⟩

end Hotelia.Ipc
