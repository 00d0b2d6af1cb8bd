import Hotelia.Database.Ledger

/-!
# Charges from the point of sale

`posPostCharge` of `apps/console/src/main/pms.ts`: the barrier of room and last name,
the choice of a folio, and a line item of its own, which asks for no business day.

## Main definitions

- `findStay`, `pickOpenFolio` — what the charge is posted to
- `posPostCharge` — the whole transaction
-/

namespace Hotelia
open Foundation

namespace Database

structure PosChargeInput where
  propertyId : String
  roomNumber : String
  lastName : String
  description : String
  amount : ℚ

/-- `new PosBarrierError(barrier, message)`. -/
def posBarrierError (barrier : PosBarrier) (message : String) : Failure :=
  .barrier barrier ("POS_BARRIER_" ++ barrier.text ++ ": " ++ message)

/-- `lowestRate(propertyConfig)`. -/
def lowestRate (taxRate : Option ℚ) : ℚ := min (max (taxRate.getD (18 / 100)) 0) 1

/-- The words that make a description one of a drink. -/
def beverageWords : List String :=
  ["wine", "beer", "champagne", "spirit", "coffee", "juice", "tea"]

def occursIn (word : List Char) : List Char → Bool
  | [] => word.isEmpty
  | c :: text => word.isPrefixOf (c :: text) || occursIn word text

/-- `sourceModuleFor(description)`. The case of ASCII letters is ignored, and of no others. -/
def sourceModuleFor (description : String) : LineItemSource :=
  let text := description.toList.map Char.toLower
  if beverageWords.any fun word => occursIn word.toList text then .posBeverage else .posFood

/-- The room of a reservation. -/
def roomOf (db : Database) (r : Reservation) : Option Room :=
  r.roomId.bind fun id => db.rooms.find? fun room => room.id = id

/-- `reservation.findFirst`: a checked-in stay in the room. -/
def findStay (db : Database) (propertyId roomNumber : String) : Option Reservation :=
  db.reservations.find? fun r => r.propertyId = propertyId ∧ r.status = .checkedIn ∧
    (db.roomOf r).any fun room => room.propertyId = propertyId ∧ room.number = roomNumber

/-- `folios: { where: { status: 'OPEN' } }` of a stay. -/
def openFolios (db : Database) (stay : Reservation) : List Folio :=
  db.folios.rows.filter fun f => f.reservationId = stay.id ∧ f.status = .opened

/-- `pickOpenFolio(folios)`. -/
def pickOpenFolio (folios : List Folio) : Option Folio :=
  folios.find? (·.type = .personal) <|> folios.find? (·.type = .master) <|> folios.head?

/-- The folio that a stay without an open one is given. -/
def newFolio (stay : Reservation) (propertyId id : String) : Folio where
  id := id
  reservationId := stay.id
  guestId := stay.guestId
  propertyId := propertyId
  type := .master
  status := .opened
  currency := stay.currency
  balance := 0

/-- The folio of the charge, which is created if there is none. -/
def chargedFolio (db : Database) (stay : Reservation) (propertyId folioId : String) :
    Except Failure (Folio × Database) := do
  match pickOpenFolio (db.openFolios stay) with
  | some folio => pure (folio, db)
  | none =>
    let folio := newFolio stay propertyId folioId
    let db ← db.createFolio folio
    pure (folio, db)

section

variable (rt : Runtime)

namespace PosChargeInput

variable (input : PosChargeInput)

/-- The amount in whole cents; there is no discount. -/
def gross : ℚ := rt.round2 input.amount

def taxAmount (taxRate : ℚ) : ℚ := rt.round2 (rt.num (input.gross rt * taxRate))

def total (taxRate : ℚ) : ℚ := rt.round2 (rt.num (input.gross rt + input.taxAmount rt taxRate))

def data (folioId : String) (taxRate : ℚ) (now : ℤ) : LineItemData where
  folioId := folioId
  kind := .charge
  sourceModule := sourceModuleFor input.description
  description := input.description
  quantity := 1
  unitPrice := rt.decimal (input.gross rt)
  taxRate := rt.decimal taxRate
  taxAmount := rt.decimal (input.taxAmount rt taxRate)
  discountAmount := 0
  total := rt.decimal (input.total rt taxRate)
  businessDate := now
  reversesItemId := none

end PosChargeInput

/-- `posPostCharge(input)`, with `id` for the item and `folioId` for a new folio. -/
def posPostCharge (db : Database) (input : PosChargeInput) (id folioId : String) (now : ℤ) :
    Except Failure Database := do
  match db.findStay input.propertyId input.roomNumber with
  | none =>
    throw (posBarrierError .noActiveStay ("no CHECKED_IN stay on room " ++ input.roomNumber))
  | some stay =>
    match db.guests.find? fun g => g.id = stay.guestId with
    -- a required relation without a row
    | none => throw .refused
    | some guest =>
      if rt.toLowerCase guest.lastName ≠ rt.toLowerCase input.lastName then
        throw (posBarrierError .lastNameMismatch ("last name \"" ++ input.lastName ++
          "\" does not match active guest \"" ++ guest.lastName ++ "\" on room " ++ input.roomNumber))
      else
        let (folio, db) ← db.chargedFolio stay input.propertyId folioId
        let taxRate := lowestRate
          ((db.properties.find? fun p => p.id = input.propertyId).bind Property.taxRate)
        let db ← db.createLineItem ((input.data rt folio.id taxRate now).store id)
        db.incrementBalance folio.id (rt.decimal (input.total rt taxRate))

end

end Database

end Hotelia
