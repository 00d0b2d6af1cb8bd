import Hotelia.Database.Schema

/-!
# Rooms that are booked, and rooms that a channel may sell

`packages/database/src/inventory.ts`. Each call is one transaction: it returns the
database that it commits, or the failure after which everything is as before.

## Main definitions

- `atomicReserveRoom` — book a room by its id
- `lockChannelInventory` — take one room of a channel's count
-/

namespace Hotelia
open Foundation

namespace Database

/-- `InventoryError.code`. -/
inductive InventoryErrorCode where
  | roomNotFound | roomUnavailable | soldOut | inventoryNotFound
  deriving DecidableEq, Repr

/-- Why a booking was rolled back. -/
inductive InventoryFailure where
  | inventory (code : InventoryErrorCode) (message : String)
  /-- The database refuses a statement. -/
  | refused
  deriving DecidableEq, Repr

structure AtomicReserveInput where
  propertyId : String
  guestId : String
  roomId : String
  confirmationNo : String
  source : ReservationSource
  checkInDate : ℤ
  checkOutDate : ℤ
  adults : ℚ
  children : ℚ
  roomType : RoomType
  ratePlan : Option String
  nightlyRate : ℚ
  totalAmount : ℚ
  currency : String
  otaReservationId : Option String

structure LockChannelInventoryInput where
  propertyId : String
  channel : String
  date : ℤ
  roomType : RoomType

/-! ## Bookings -/

/-- `OCCUPIED_STATUSES`. -/
def occupiedStatuses : List RoomStatus := [.occupiedDirty, .occupiedClean]

/-- A number on its way into an integer column. -/
def storeInt (q : ℚ) : Option ℤ :=
  if q.den = 1 ∧ -2 ^ 31 ≤ q.num ∧ q.num < 2 ^ 31 then some q.num else none

/-- The row of a booking, unless a column refuses it. -/
def AtomicReserveInput.row (rt : Runtime) (input : AtomicReserveInput) (id : String) :
    Option Reservation := do
  let adults ← storeInt input.adults
  let children ← storeInt input.children
  let nightlyRate ← Numeric.store 10 2 (rt.decimal input.nightlyRate)
  let totalAmount ← Numeric.store 12 2 (rt.decimal input.totalAmount)
  if 20 < input.confirmationNo.length ∨ 100 < (input.ratePlan.getD "").length ∨
      3 < input.currency.length then none
  else some {
    id, propertyId := input.propertyId, guestId := input.guestId, roomId := some input.roomId,
    confirmationNo := input.confirmationNo, source := input.source, status := .confirmed,
    checkInDate := utcDay input.checkInDate, checkOutDate := utcDay input.checkOutDate,
    adults, children, roomType := input.roomType, ratePlan := input.ratePlan, nightlyRate,
    totalAmount, currency := input.currency, otaReservationId := input.otaReservationId }

section

variable (db : Database)

/-- The keys of the reservation are new, and its property and its guest are there. -/
def Takes (r : Reservation) : Prop :=
  (∀ other ∈ db.reservations, other.id ≠ r.id ∧ other.confirmationNo ≠ r.confirmationNo) ∧
    (∃ p ∈ db.properties, p.id = r.propertyId) ∧ ∃ g ∈ db.guests, g.id = r.guestId

instance (r : Reservation) : Decidable (db.Takes r) := inferInstanceAs (Decidable (_ ∧ _ ∧ _))

/-- `reservation.create`, for a row whose columns have all been stored. -/
def createReservation (row : Option Reservation) : Except InventoryFailure Database :=
  match row with
  | none => .error .refused
  | some r =>
    if db.Takes r then .ok { db with reservations := db.reservations ++ [r] } else .error .refused

/-- `room.update({ data: { status } })`. -/
def setRoomStatus (roomId : String) (status : RoomStatus) : Database :=
  { db with rooms := db.rooms.map fun room => if room.id = roomId then { room with status } else room }

/-- `roomStatusLog.create`. -/
def createRoomStatusLog (log : RoomStatusLog) : Database :=
  { db with roomStatusLogs := db.roomStatusLogs ++ [log] }

def findRoom (roomId : String) : Option Room := db.rooms.find? fun room => room.id = roomId

/-- `atomicReserveRoom(input)`, with `id` for the reservation. -/
def atomicReserveRoom (rt : Runtime) (input : AtomicReserveInput) (id : String) :
    Except InventoryFailure Database := do
  match db.findRoom input.roomId with
  | none => throw (.inventory .roomNotFound ("Room " ++ input.roomId ++ " does not exist"))
  | some room =>
    -- the status of today is all that is asked for, whatever the dates of the stay
    if room.status ∈ occupiedStatuses then
      throw (.inventory .roomUnavailable ("Room " ++ input.roomId ++ " is occupied"))
    else
      let db ← db.createReservation (input.row rt id)
      pure ((db.setRoomStatus input.roomId .occupiedDirty).createRoomStatusLog
        { roomId := input.roomId, previousStatus := room.status, newStatus := .occupiedDirty,
          source := input.source.text,
          notes := "Reservation " ++ input.confirmationNo ++ " via " ++ input.source.text })

/-! ## Channels -/

/-- `SELECT id, available … FOR UPDATE`. An instant is the date of a row at midnight only. -/
def findInventory (input : LockChannelInventoryInput) : Option ChannelInventory :=
  db.channelInventory.rows.find? fun row =>
    row.propertyId = input.propertyId ∧ row.roomType = input.roomType ∧
      row.channel = input.channel ∧ midnight row.date = input.date

/-- `UPDATE channel_inventory SET available, last_synced_at`. -/
def setAvailable (id : String) (available now : ℤ) : Database :=
  { db with
    channelInventory := db.channelInventory.update
      (fun row => if row.id = id then { row with available, lastSyncedAt := now } else row) <| by
        intro a b h
        simp only [ChannelInventory.Clash] at h ⊢
        split at h <;> split at h <;> exact h }

/-- `lockChannelInventory(input)`, with the count that it returns. -/
def lockChannelInventory (input : LockChannelInventoryInput) (now : ℤ) :
    Except InventoryFailure (Database × ℤ) :=
  match db.findInventory input with
  | none => .error (.inventory .inventoryNotFound
      ("No inventory row for " ++ input.roomType.text ++ " on " ++ input.channel))
  | some row =>
    if row.available ≤ 0 then
      .error (.inventory .soldOut ("Sold out: " ++ input.roomType.text ++ " on " ++ input.channel))
    else .ok (db.setAvailable row.id (row.available - 1) now, row.available - 1)

end

theorem ChannelInventory.Clash.symm (a b : ChannelInventory) (h : ChannelInventory.Clash a b) :
    ChannelInventory.Clash b a := by
  rcases h with hid | ⟨hproperty, htype, hchannel, hdate⟩
  · exact .inl hid.symm
  · exact .inr ⟨hproperty.symm, htype.symm, hchannel.symm, hdate.symm⟩

/-! ## What a call that goes through has done -/

variable {rt : Runtime} {db db' : Database}

theorem createReservation_eq_ok {row : Option Reservation} (h : db.createReservation row = .ok db') :
    ∃ r, row = some r ∧ db.Takes r ∧ db' = { db with reservations := db.reservations ++ [r] } := by
  unfold createReservation at h
  split at h
  · cases h
  · next r =>
    split at h
    · next htakes =>
      cases h
      exact ⟨r, rfl, htakes, rfl⟩
    · cases h

/-- What a reservation keeps of its input. -/
structure AtomicReserveInput.Stored (input : AtomicReserveInput) (r : Reservation) : Prop where
  propertyId : r.propertyId = input.propertyId
  roomId : r.roomId = some input.roomId
  status : r.status = .confirmed
  checkInDate : r.checkInDate = utcDay input.checkInDate
  checkOutDate : r.checkOutDate = utcDay input.checkOutDate

theorem AtomicReserveInput.stored {input : AtomicReserveInput} {id : String} {r : Reservation}
    (h : input.row rt id = some r) : input.Stored r := by
  simp only [row, Option.bind_eq_bind, Option.bind_eq_some_iff] at h
  obtain ⟨_, -, _, -, _, -, _, -, h⟩ := h
  split at h
  · cases h
  · cases h
    exact ⟨rfl, rfl, rfl, rfl, rfl⟩

/-- The room is there, and not occupied, and the tables take the reservation. -/
structure Bookable (rt : Runtime) (db : Database) (input : AtomicReserveInput) (id : String)
    (room : Room) (r : Reservation) : Prop where
  found : db.findRoom input.roomId = some room
  vacant : room.status ∉ occupiedStatuses
  row : input.row rt id = some r
  takes : db.Takes r

/-- What a booking that goes through makes of the tables. -/
structure Booked (db : Database) (input : AtomicReserveInput) (r : Reservation) (db' : Database) :
    Prop where
  reservations : db'.reservations = db.reservations ++ [r]
  rooms : db'.rooms = (db.setRoomStatus input.roomId .occupiedDirty).rooms
  folios : db'.folios = db.folios
  lineItems : db'.lineItems = db.lineItems
  transfers : db'.transfers = db.transfers
  businessDays : db'.businessDays = db.businessDays
  channelInventory : db'.channelInventory = db.channelInventory

theorem atomicReserveRoom_eq_ok {input : AtomicReserveInput} {id : String}
    (h : db.atomicReserveRoom rt input id = .ok db') :
    ∃ room r, Bookable rt db input id room r ∧ db.Booked input r db' := by
  rw [atomicReserveRoom] at h
  split at h
  · cases h
  · next room hroom =>
    split at h
    · cases h
    · next hvacant =>
      cases hc : db.createReservation (input.row rt id) with
      | error e =>
        rw [hc] at h
        cases h
      | ok mid =>
        rw [hc] at h
        cases h
        obtain ⟨r, hrow, htakes, rfl⟩ := createReservation_eq_ok hc
        exact ⟨room, r, ⟨hroom, hvacant, hrow, htakes⟩, ⟨rfl, rfl, rfl, rfl, rfl, rfl, rfl⟩⟩

/-- A booking goes through whenever the room and the tables allow it. -/
theorem Bookable.exists_ok {input : AtomicReserveInput} {id : String} {room : Room}
    {r : Reservation} (h : Bookable rt db input id room r) :
    ∃ db', db.atomicReserveRoom rt input id = .ok db' := by
  have hcreate : db.createReservation (input.row rt id) =
      .ok { db with reservations := db.reservations ++ [r] } := by
    rw [h.row]
    exact if_pos h.takes
  simp only [atomicReserveRoom, h.found, if_neg h.vacant, hcreate]
  exact ⟨_, rfl⟩

theorem lockChannelInventory_eq_ok {input : LockChannelInventoryInput} {now after : ℤ}
    (h : db.lockChannelInventory input now = .ok (db', after)) :
    ∃ row, db.findInventory input = some row ∧ 0 < row.available ∧
      after = row.available - 1 ∧ db' = db.setAvailable row.id after now := by
  rw [lockChannelInventory] at h
  split at h
  · cases h
  · next row hrow =>
    split at h
    · cases h
    · next havailable =>
      cases h
      exact ⟨row, hrow, by omega, rfl, rfl⟩

end Database

end Hotelia
