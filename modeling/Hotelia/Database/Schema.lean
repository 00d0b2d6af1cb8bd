import Hotelia.Foundation.Calendar
import Hotelia.Foundation.Numeric
import Hotelia.Foundation.Table
import Hotelia.Shared.Runtime

/-!
# The tables of the property database

The part of `packages/database/prisma/schema.prisma` that postings, transfers, bookings
and the night audit read and write, and the statements that they issue on folios. A
statement that the database refuses ends its transaction.

## Main definitions

- `Folio`, `FolioLineItem`, `FolioTransfer`, `BusinessDay` — rows of the ledger
- `Room`, `Reservation`, `ChannelInventory` — rows of what is booked
- `Database` — the tables
- `createLineItem`, `createTransfer`, `incrementBalance` — the writes
-/

namespace Hotelia.Database
open Foundation

inductive FolioType where
  | master | company | personal | split
  deriving DecidableEq, Repr

inductive FolioStatus where
  | opened | closed | disputed | writtenOff
  deriving DecidableEq, Repr

inductive LineItemKind where
  | charge | payment | reversal | void
  deriving DecidableEq, Repr

inductive LineItemSource where
  | room | posFood | posBeverage | posRetail | minibar | spa | laundry | parking | tax | discount
  | adjustment | payment | refund
  deriving DecidableEq, Repr

inductive BusinessDayStatus where
  | opened | closed
  deriving DecidableEq, Repr

inductive ReservationStatus where
  | pending | confirmed | checkedIn | checkedOut | cancelled | noShow
  deriving DecidableEq, Repr

inductive ReservationSource where
  | direct | bookingCom | expedia | airbnb | phone | walkIn
  deriving DecidableEq, Repr

def ReservationSource.text : ReservationSource → String
  | .direct => "DIRECT"
  | .bookingCom => "BOOKING_COM"
  | .expedia => "EXPEDIA"
  | .airbnb => "AIRBNB"
  | .phone => "PHONE"
  | .walkIn => "WALK_IN"

inductive RoomStatus where
  | vacantDirty | vacantClean | vacantInspected | occupiedDirty | occupiedClean | outOfOrder
  | outOfService
  deriving DecidableEq, Repr

inductive RoomType where
  | standard | superior | deluxe | suite | penthouse | villa
  deriving DecidableEq, Repr

def RoomType.text : RoomType → String
  | .standard => "STANDARD"
  | .superior => "SUPERIOR"
  | .deluxe => "DELUXE"
  | .suite => "SUITE"
  | .penthouse => "PENTHOUSE"
  | .villa => "VILLA"

/-- `taxRate` is the number of that name in the `config` of the property. -/
structure Property where
  id : String
  taxRate : Option ℚ

structure Room where
  id : String
  propertyId : String
  number : String
  status : RoomStatus
  isActive : Bool
  deriving DecidableEq

structure Guest where
  id : String
  firstName : String
  lastName : String

structure Reservation where
  id : String
  propertyId : String
  guestId : String
  roomId : Option String
  confirmationNo : String
  source : ReservationSource
  status : ReservationStatus
  checkInDate : ℤ
  checkOutDate : ℤ
  adults : ℤ
  children : ℤ
  roomType : RoomType
  ratePlan : Option String
  nightlyRate : Numeric 10 2
  totalAmount : Numeric 12 2
  currency : String
  otaReservationId : Option String
  deriving DecidableEq

structure RoomStatusLog where
  roomId : String
  previousStatus : RoomStatus
  newStatus : RoomStatus
  source : String
  notes : String
  deriving DecidableEq

structure ChannelInventory where
  id : String
  propertyId : String
  roomType : RoomType
  channel : String
  date : ℤ
  available : ℤ
  lastSyncedAt : ℤ
  deriving DecidableEq

structure Folio where
  id : String
  reservationId : String
  guestId : String
  propertyId : String
  type : FolioType
  status : FolioStatus
  currency : String
  balance : Numeric 12 2
  deriving DecidableEq

structure FolioLineItem where
  id : String
  folioId : String
  kind : LineItemKind
  sourceModule : LineItemSource
  description : String
  quantity : Numeric 8 2
  unitPrice : Numeric 10 2
  taxRate : Numeric 5 4
  taxAmount : Numeric 10 2
  discountAmount : Numeric 10 2
  total : Numeric 10 2
  businessDate : ℤ
  reversesItemId : Option String
  deriving DecidableEq

structure FolioTransfer where
  id : String
  fromFolioId : String
  toFolioId : String
  lineItemId : String
  amount : Numeric 12 2
  reason : String
  deriving DecidableEq

/-- `reportSnapshot` of a closed day. -/
structure ReportSnapshot where
  lineItemCount : ℕ
  charges : ℕ
  reversals : ℕ
  closedAt : ℤ
  deriving DecidableEq

structure BusinessDay where
  id : String
  propertyId : String
  businessDate : ℤ
  status : BusinessDayStatus
  cutoffTime : String
  closedAt : Option ℤ
  closedBy : Option String
  netRevenue : Option (Numeric 14 2)
  roomRevenue : Option (Numeric 14 2)
  taxCollected : Option (Numeric 14 2)
  reportSnapshot : Option ReportSnapshot
  deriving DecidableEq

/-! ## Constraints -/

def Folio.Clash (a b : Folio) : Prop := a.id = b.id

instance : DecidableRel Folio.Clash := fun a b => inferInstanceAs (Decidable (a.id = b.id))

def FolioLineItem.Clash (a b : FolioLineItem) : Prop := a.id = b.id

instance : DecidableRel FolioLineItem.Clash := fun a b => inferInstanceAs (Decidable (a.id = b.id))

def FolioTransfer.Clash (a b : FolioTransfer) : Prop := a.id = b.id

instance : DecidableRel FolioTransfer.Clash := fun a b => inferInstanceAs (Decidable (a.id = b.id))

/-- The primary key, and `@@unique([propertyId, roomType, channel, date])`. -/
def ChannelInventory.Clash (a b : ChannelInventory) : Prop :=
  a.id = b.id ∨ (a.propertyId = b.propertyId ∧ a.roomType = b.roomType ∧ a.channel = b.channel ∧
    a.date = b.date)

instance : DecidableRel ChannelInventory.Clash := fun a b =>
  inferInstanceAs (Decidable (a.id = b.id ∨
    (a.propertyId = b.propertyId ∧ a.roomType = b.roomType ∧ a.channel = b.channel ∧
      a.date = b.date)))

/-- The primary key, and `@@unique([propertyId, businessDate])`. -/
def BusinessDay.Clash (a b : BusinessDay) : Prop :=
  a.id = b.id ∨ (a.propertyId = b.propertyId ∧ a.businessDate = b.businessDate)

instance : DecidableRel BusinessDay.Clash := fun a b =>
  inferInstanceAs (Decidable (a.id = b.id ∨
    (a.propertyId = b.propertyId ∧ a.businessDate = b.businessDate)))

end Hotelia.Database

namespace Hotelia
open Foundation Database

/-- The tables. -/
structure Database where
  properties : List Property
  rooms : List Room
  guests : List Guest
  reservations : List Reservation
  folios : Table Folio Folio.Clash
  lineItems : Table FolioLineItem FolioLineItem.Clash
  transfers : Table FolioTransfer FolioTransfer.Clash
  businessDays : Table BusinessDay BusinessDay.Clash
  roomStatusLogs : List RoomStatusLog
  channelInventory : Table ChannelInventory ChannelInventory.Clash

/-- `LedgerError.code`. -/
inductive LedgerErrorCode where
  | businessDayClosed | folioClosed | itemNotFound | itemAlreadyReversed | folioMismatch
  deriving DecidableEq, Repr

/-- `PosBarrierError.barrier`. -/
inductive PosBarrier where
  | noActiveStay | lastNameMismatch | folioCreateFailed
  deriving DecidableEq, Repr

def PosBarrier.text : PosBarrier → String
  | .noActiveStay => "NO_ACTIVE_STAY"
  | .lastNameMismatch => "LASTNAME_MISMATCH"
  | .folioCreateFailed => "FOLIO_CREATE_FAILED"

/-- Why a transaction was rolled back. -/
inductive Failure where
  | ledger (code : LedgerErrorCode) (message : String)
  | barrier (barrier : PosBarrier) (message : String)
  /-- The database refuses a statement. -/
  | refused
  deriving DecidableEq, Repr

namespace Database

variable (db : Database)

def findFolio (id : String) : Option Folio := db.folios.rows.find? fun f => f.id = id

def findLineItem (id : String) : Option FolioLineItem := db.lineItems.rows.find? fun i => i.id = id

/-- `businessDay.findFirst({ where: { propertyId, businessDate } })`, for the date of a day. -/
def findBusinessDay (propertyId : String) (date : ℤ) : Option BusinessDay :=
  db.businessDays.rows.find? fun d => d.propertyId = propertyId ∧ d.businessDate = date

/-- `folioLineItem.create`, for a row whose columns have all been stored. -/
def createLineItem (item : Option FolioLineItem) : Except Failure Database :=
  match item.bind db.lineItems.create with
  | some lineItems => .ok { db with lineItems }
  | none => .error .refused

/-- `folioTransfer.create`. -/
def createTransfer (transfer : Option FolioTransfer) : Except Failure Database :=
  match transfer.bind db.transfers.create with
  | some transfers => .ok { db with transfers }
  | none => .error .refused

/-- `folio.create`. -/
def createFolio (folio : Folio) : Except Failure Database :=
  match db.folios.create folio with
  | some folios => .ok { db with folios }
  | none => .error .refused

/-- Give a folio another balance. -/
def setBalance (id : String) (balance : Numeric 12 2) : Database :=
  { db with
    folios := db.folios.update (fun f => if f.id = id then { f with balance } else f) <| by
      intro a b h
      simp only [Folio.Clash] at h ⊢
      split at h <;> split at h <;> exact h }

/-- `folio.update({ data: { balance: { increment } } })`. -/
def incrementBalance (id : String) (increment : ℚ) : Except Failure Database :=
  match db.findFolio id with
  | none => .error .refused
  | some folio =>
    match Numeric.store 12 2 (folio.balance.toRat + increment) with
    | none => .error .refused
    | some balance => .ok (db.setBalance id balance)

end Database

end Hotelia
