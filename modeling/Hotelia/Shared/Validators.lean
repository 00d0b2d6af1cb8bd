import Hotelia.Shared.Json
import Mathlib.Algebra.Order.Field.Rat

/-!
# Shapes accepted at the process boundary

The schemas of `packages/shared/src/validators` that the console checks its
input against.
-/

namespace Hotelia

/-- `z.string().min(lo).max(hi)`, which counts code points. -/
def lengthBetween (lo hi : ℕ) (s : String) : Bool := lo ≤ s.length && s.length ≤ hi

/-- `z.record(z.string(), z.unknown())`: a copy of the record, without a key `__proto__`. -/
def zodRecord (record : JsonRecord) : JsonRecord := record.filter (·.1 ≠ "__proto__")

/-- `syncActionSchema`. -/
def syncActions : List String :=
  ["checkin", "checkout", "roomKeyGenerate", "posOrder", "folioTransfer", "maintenanceOrder",
    "etimsInvoice"]

/-- `SyncEnqueueInput`. -/
structure SyncEnqueueInput where
  idempotencyKey : String
  actionType : String
  payload : JsonRecord

/-- `syncEnqueueSchema.parse`. -/
def syncEnqueueSchema (input : SyncEnqueueInput) : Option SyncEnqueueInput :=
  if lengthBetween 8 128 input.idempotencyKey && syncActions.contains input.actionType then
    some { input with payload := zodRecord input.payload }
  else none

/-- `PacketInput`. -/
structure PacketInput where
  type : String
  payload : JsonRecord

/-- `packetSchema.safeParse`: the body has a `type` of 1 to 255 code points and a
record as `payload`; other fields are dropped. -/
def packetSchema : Json → Option PacketInput
  | .obj fields =>
    match fields.lookup "type", fields.lookup "payload" with
    | some (.str type), some (.obj payload) =>
      if lengthBetween 1 255 type then some ⟨type, zodRecord payload⟩ else none
    | _, _ => none
  | _ => none

/-- A request to `POST /packet`: the `Idempotency-Key` header and the body. -/
structure PacketRequest where
  idempotencyKey : String
  body : Json

/-! ## The header on its way -/

/-- HTTP whitespace. -/
def isHttpWhitespace (c : Char) : Bool := ['\t', '\n', '\r', ' '].contains c

/-- Whether a letter may stand in a header: a tab, or what is visible in Latin-1. -/
def isHeaderChar (c : Char) : Bool :=
  c == '\t' || (0x20 ≤ c.val && c.val ≤ 0x7e) || (0x80 ≤ c.val && c.val ≤ 0xff)

/-- The value of a header as `fetch` sends it: without whitespace at its ends. `fetch`
throws if a letter is left that no header may have. -/
def headerValue (value : String) : Option String :=
  let start := value.toList.dropWhile isHttpWhitespace
  let trimmed := (start.reverse.dropWhile isHttpWhitespace).reverse
  if trimmed.all isHeaderChar then some (String.ofList trimmed) else none

/-- What arrives at the server of a request that is given to `fetch`, if `fetch` does not throw. -/
def PacketRequest.fetched (req : PacketRequest) : Option PacketRequest :=
  (headerValue req.idempotencyKey).map fun idempotencyKey => { req with idempotencyKey }

/-! ## Payments -/

/-- `paymentMethodSchema`. -/
inductive PaymentMethod where
  | cash | mpesaTill | mpesaPaybill | card
  deriving DecidableEq, Repr

/-- Whether the characters of a string are in the given classes, one for each. -/
def inClasses (classes : List (Char → Bool)) (s : String) : Bool :=
  s.toList.length = classes.length && (List.zipWith (fun p c => p c) classes s.toList).all id

def isHexDigit (c : Char) : Bool :=
  c.isDigit || ('a' ≤ c && c ≤ 'f') || ('A' ≤ c && c ≤ 'F')

/-- `z.string().uuid()`: versions 1 to 8 of the usual variant, and the two constant ids. -/
def isUuid (s : String) : Bool :=
  let hex (n : ℕ) : List (Char → Bool) := List.replicate n isHexDigit
  let dash : List (Char → Bool) := [(· == '-')]
  let version : List (Char → Bool) := [fun c => '1' ≤ c && c ≤ '8']
  let variant : List (Char → Bool) := [fun c => ['8', '9', 'a', 'b', 'A', 'B'].contains c]
  inClasses (hex 8 ++ dash ++ hex 4 ++ dash ++ version ++ hex 3 ++ dash ++ variant ++ hex 3 ++ dash ++
      hex 12) s ||
    s == "00000000-0000-0000-0000-000000000000" || s == "ffffffff-ffff-ffff-ffff-ffffffffffff"

/-- `z.number().positive().max(10_000_000)`. -/
def isAmount (amount : ℚ) : Bool := 0 < amount && amount ≤ 10000000

/-- `PaymentRecordInput`. -/
structure PaymentRecordInput where
  method : PaymentMethod
  amount : ℚ
  currency : String
  guestName : String
  roomNumber : String
  reference : Option String
  folioId : Option String
  reservationId : Option String
  idempotencyKey : String
  operatorId : Option String

/-- `paymentRecordSchema`. -/
def paymentRecordSchema (input : PaymentRecordInput) : Bool :=
  isAmount input.amount && lengthBetween 3 3 input.currency &&
    lengthBetween 1 200 input.guestName && lengthBetween 1 10 input.roomNumber &&
    input.reference.all (lengthBetween 1 128) && input.folioId.all isUuid &&
    input.reservationId.all isUuid && lengthBetween 8 128 input.idempotencyKey &&
    input.operatorId.all isUuid

/-- `PaymentConfirmationInput`. -/
structure PaymentConfirmationInput where
  receipt : String
  amount : ℚ
  currency : String
  method : PaymentMethod
  reference : Option String
  phoneTail : Option String
  idempotencyKey : String

/-- `paymentConfirmationSchema`. -/
def paymentConfirmationSchema (input : PaymentConfirmationInput) : Bool :=
  lengthBetween 1 64 input.receipt && input.receipt.toList.all Char.isAlphanum &&
    isAmount input.amount && lengthBetween 3 3 input.currency &&
    input.reference.all (lengthBetween 1 128) && input.phoneTail.all (lengthBetween 0 4) &&
    lengthBetween 8 128 input.idempotencyKey

/-- `PaymentMatchInput`. -/
structure PaymentMatchInput where
  confirmationId : String
  intentId : String
  operatorId : Option String

/-- `paymentMatchSchema`. -/
def paymentMatchSchema (input : PaymentMatchInput) : Bool :=
  isUuid input.confirmationId && isUuid input.intentId && input.operatorId.all isUuid

end Hotelia
