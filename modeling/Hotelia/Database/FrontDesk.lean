import Hotelia.Database.Housekeeping
import Hotelia.Foundation.Decimals
import Hotelia.Foundation.Summation

/-!
# The front desk board

`frontDeskBoard` of `apps/console/src/main/pms.ts`: the rooms of a property with their guests and
with what their open folios come to, and who arrives and leaves today. The balances are columns of
whole cents, and are added up as numbers.

## Main definitions

- `todayDateOnly` — the midnight that the board asks for
- `frontDeskBoard` — the board of a property
- `owed` — the cents on the open folios of a room

## Main results

- `roundedSum_cents_lt`: how far numbers that stand for cents are from their sum.
- `utcDay_todayDateOnly`: which day the database makes of that midnight.
- `frontDesk_shows`: the board has each active room once, and its balance to the cent.
-/

namespace Hotelia.Database
open Foundation

/-- A number of cents, with its decimals. -/
def centsText (n : ℕ) : String := toString (n / 100) ++ "." ++ String.ofList (padded 2 (n % 100))

/-- `x.toFixed(2)`. -/
def toFixed2 (x : ℚ) : String :=
  (if x < 0 then "-" else "") ++ centsText (mathRound (|x| * 100)).toNat

structure GuestName where
  firstName : String
  lastName : String
  deriving DecidableEq

structure FrontDeskRoom where
  id : String
  number : String
  status : RoomStatus
  occupancy : List GuestName
  balance : Option String
  deriving DecidableEq

structure ReservationRow where
  id : String
  confirmationNo : String
  roomNumber : Option String
  guest : Option GuestName
  status : ReservationStatus
  checkInDate : String
  checkOutDate : String
  deriving DecidableEq

structure FrontDeskBoard where
  propertyId : String
  rooms : List FrontDeskRoom
  arrivals : List ReservationRow
  departures : List ReservationRow

/-! ## Today -/

/-- `todayDateOnly()` at `now`: the midnight of the server's day. -/
def todayDateOnly (rt : Runtime) (now : ℤ) : ℤ := rt.startOfDay (rt.localDay now)

/-- The column of a date keeps the day of an instant in UTC, so that east of it the board asks for
the day before. -/
theorem utcDay_todayDateOnly {offset : ℤ} (h : |offset| < dayMs) (toLowerCase : String → String)
    (now : ℤ) : utcDay (todayDateOnly (Runtime.exact offset toLowerCase) now) =
      (now + offset) / dayMs - if 0 < offset then 1 else 0 := by
  obtain ⟨hlo, hhi⟩ := abs_lt.mp h
  simp only [todayDateOnly, Runtime.exact, utcDay]
  rw [dayMs] at hlo hhi ⊢
  split <;> omega

/-! ## The board -/

section Board

variable (db : Database)

/-- `guest: { select: { firstName: true, lastName: true } }`. -/
def guestName (stay : Reservation) : Option GuestName :=
  (db.guests.find? fun g => g.id = stay.guestId).map fun g => ⟨g.firstName, g.lastName⟩

/-- `reservations: { where: { status: 'CHECKED_IN' } }` of a room. -/
def staysIn (r : Room) : List Reservation :=
  db.reservations.filter fun stay => stay.roomId = some r.id ∧ stay.status = .checkedIn

/-- The open folios of the stays in a room. -/
def foliosIn (r : Room) : List Folio := (staysIn db r).flatMap fun stay => db.openFolios stay

/-- `Number(f.balance)`, added up. -/
def roomBalance (folios : List Folio) : ℚ :=
  roundedSum binary64 (folios.map fun f => binary64 f.balance.toRat)

/-- `balance === 0 ? null : balance.toFixed(2)`. -/
def balanceText (balance : ℚ) : Option String :=
  if balance = 0 then none else some (toFixed2 balance)

def frontDeskRoom (r : Room) : FrontDeskRoom where
  id := r.id
  number := r.number
  status := r.status
  occupancy := (staysIn db r).filterMap (guestName db)
  balance := balanceText (roomBalance (foliosIn db r))

/-- The stays that begin on a day. -/
def arriving (propertyId : String) (day : ℤ) : List Reservation :=
  db.reservations.filter fun r =>
    r.propertyId = propertyId ∧ r.status = .confirmed ∧ r.checkInDate = day

/-- The stays that end on a day. -/
def departing (propertyId : String) (day : ℤ) : List Reservation :=
  db.reservations.filter fun r =>
    r.propertyId = propertyId ∧ r.status = .checkedIn ∧ r.checkOutDate = day

def toRow (r : Reservation) : ReservationRow where
  id := r.id
  confirmationNo := r.confirmationNo
  roomNumber := (db.roomOf r).map (·.number)
  guest := guestName db r
  status := r.status
  checkInDate := isoDay r.checkInDate
  checkOutDate := isoDay r.checkOutDate

/-- `frontDeskBoard(propertyId)` at `now`. The database sorts the rooms by `floor` and `number`,
which `sorted` stands for, and the stays by a date that they all have, which leaves them in an
order of its own, `ordered`. A column of a date keeps the day of an instant in UTC. -/
def frontDeskBoard (rt : Runtime) (sorted : List Room → List Room)
    (ordered : List Reservation → List Reservation) (propertyId : String) (now : ℤ) :
    FrontDeskBoard :=
  let today := utcDay (todayDateOnly rt now)
  { propertyId
    rooms := (sorted (activeRooms db propertyId)).map (frontDeskRoom db)
    arrivals := ((ordered (arriving db propertyId today)).take 25).map (toRow db)
    departures := ((ordered (departing db propertyId today)).take 25).map (toRow db) }

/-- What the open folios of a room come to, in cents. -/
def owed (r : Room) : ℤ := ((foliosIn db r).map (·.balance.unscaled)).sum

end Board

/-! ## Numbers that stand for cents -/

section Cents

theorem sum_map_cents (cs : List ℤ) :
    (cs.map fun c : ℤ => (c : ℚ) / 100).sum = (cs.sum : ℚ) / 100 := by
  induction cs with
  | nil => simp
  | cons c cs ih =>
    rw [List.map_cons, List.sum_cons, ih, List.sum_cons]
    push_cast
    ring

theorem sum_abs_cents (cs : List ℤ) :
    ((cs.map fun c : ℤ => (c : ℚ) / 100).map (|·|)).sum =
      ((cs.map Int.natAbs).sum : ℚ) / 100 := by
  induction cs with
  | nil => simp
  | cons c cs ih =>
    simp only [List.map_cons, List.sum_cons]
    rw [ih, abs_div, abs_of_pos (by norm_num : (0 : ℚ) < 100)]
    push_cast
    rw [Nat.cast_natAbs]
    push_cast
    ring

theorem rounding_lt {n total η : ℚ} (hn0 : 0 ≤ n) (hn : n ≤ 10 ^ 13) (htotal : total ≤ 10 ^ 15)
    (hproduct : n * total ≤ 10 ^ 15) (hη0 : 0 ≤ η) (hη : η ≤ 1 / 2 ^ 200) :
    2 * n * (1 / 2 ^ 53 * ((1 + 1 / 2 ^ 53) * (total / 100) + n * η) + η) +
      (1 / 2 ^ 53 * (total / 100) + n * η) < 1 / 200 := by
  have hone : n * η ≤ 10 ^ 13 * (1 / 2 ^ 200) := by gcongr
  have htwo : n * (n * η) ≤ 10 ^ 13 * (10 ^ 13 * (1 / 2 ^ 200)) := by gcongr
  calc _ = 2 / 2 ^ 53 * (1 + 1 / 2 ^ 53) / 100 * (n * total) + 2 / 2 ^ 53 * (n * (n * η)) +
        3 * (n * η) + 1 / 2 ^ 53 / 100 * total := by ring
    _ < 1 / 200 := by
      norm_num at htotal hproduct hone htwo ⊢
      linarith

/-- The cents as numbers, added up as numbers, are closer to their sum than half a cent. -/
theorem roundedSum_cents_lt {cs : List ℤ}
    (h : cs.length * ((cs.map Int.natAbs).sum + 100) ≤ 10 ^ 15) :
    |roundedSum binary64 (cs.map fun c : ℤ => binary64 (c / 100)) - (cs.sum : ℚ) / 100| <
      1 / 200 := by
  have hlength : cs.length ≤ 10 ^ 13 := by
    have hmul : cs.length * 100 ≤ cs.length * ((cs.map Int.natAbs).sum + 100) := by
      gcongr
      omega
    omega
  have htotal : (cs.map Int.natAbs).sum ≤ 10 ^ 15 := by
    cases cs with
    | nil => exact Nat.zero_le _
    | cons c cs => exact (Nat.le_add_right _ 100).trans ((Nat.le_mul_of_pos_left _ (by simp)).trans h)
  have hproduct : cs.length * (cs.map Int.natAbs).sum ≤ 10 ^ 15 :=
    le_trans (by gcongr; omega) h
  have hn : (cs.length : ℚ) ≤ 10 ^ 13 := mod_cast hlength
  have htiny : (2 : ℚ) ^ (-1075 : ℤ) ≤ 1 / 2 ^ 200 :=
    calc (2 : ℚ) ^ (-1075 : ℤ) ≤ 2 ^ (-200 : ℤ) := zpow_le_zpow_right₀ (by norm_num) (by norm_num)
      _ ≤ 1 / 2 ^ 200 := by norm_num
  have hη : (0 : ℚ) ≤ 2 ^ (-1075 : ℤ) := zpow_nonneg (by norm_num) _
  have herror := abs_roundedSum_map_sub_le abs_binary64_sub_le_add (by norm_num) hη
    (cs.map fun c : ℤ => (c : ℚ) / 100) (by rw [List.length_map]; linarith)
  rw [sum_abs_cents, sum_map_cents, List.map_map, List.length_map] at herror
  have htotal' : ((cs.map Int.natAbs).sum : ℚ) ≤ 10 ^ 15 := mod_cast htotal
  have hproduct' : (cs.length : ℚ) * (cs.map Int.natAbs).sum ≤ 10 ^ 15 := mod_cast hproduct
  exact herror.trans_lt (rounding_lt (Nat.cast_nonneg _) hn htotal' hproduct' hη htiny)

theorem mathRound_abs_cents {x : ℚ} {k : ℤ} (h : |x - k / 100| < 1 / 200) :
    mathRound (|x| * 100) = k.natAbs := by
  have habs := (abs_abs_sub_abs_le_abs_sub x (k / 100)).trans_lt h
  rw [abs_div, abs_of_pos (by norm_num : (0 : ℚ) < 100), abs_lt] at habs
  refine mathRound_eq ?_
  rw [Int.cast_natCast, Nat.cast_natAbs, Int.cast_abs, abs_lt]
  constructor
  · linarith
  · linarith

/-- What is shown for an amount in cents; of nothing, the sign and the point may be left. -/
def ShowsCents (shown : Option String) (k : ℤ) : Prop :=
  (0 < k ∧ shown = some (centsText k.natAbs)) ∨
    (k < 0 ∧ shown = some ("-" ++ centsText k.natAbs)) ∨
    (k = 0 ∧ (shown = none ∨ shown = some "0.00" ∨ shown = some "-0.00"))

theorem showsCents_balanceText {x : ℚ} {k : ℤ} (h : |x - k / 100| < 1 / 200) :
    ShowsCents (balanceText x) k := by
  have hcents := mathRound_abs_cents h
  rw [abs_lt] at h
  rcases lt_trichotomy k 0 with hneg | rfl | hpos
  · have hk : (k : ℚ) ≤ -1 := mod_cast (by omega : k ≤ -1)
    have hx : x < 0 := by linarith
    refine .inr (.inl ⟨hneg, ?_⟩)
    rw [balanceText, if_neg hx.ne, toFixed2, if_pos hx, hcents, Int.toNat_natCast]
  · refine .inr (.inr ⟨rfl, ?_⟩)
    rw [balanceText, toFixed2, hcents]
    by_cases hx : x = 0
    · exact .inl (if_pos hx)
    · rw [if_neg hx]
      by_cases hneg : x < 0
      · rw [if_pos hneg]
        exact .inr (.inr (by decide))
      · rw [if_neg hneg]
        exact .inr (.inl (by decide))
  · have hk : (1 : ℚ) ≤ k := mod_cast (by omega : 1 ≤ k)
    have hx : 0 < x := by linarith
    refine .inl ⟨hpos, ?_⟩
    rw [balanceText, if_neg hx.ne', toFixed2, if_neg hx.le.not_gt, hcents, Int.toNat_natCast,
      String.empty_append]

end Cents

/-! ## What the board shows -/

/-- The folios are few, or their balances are small. -/
def Moderate (folios : List Folio) : Prop :=
  folios.length * ((folios.map (·.balance.unscaled.natAbs)).sum + 100) ≤ 10 ^ 15

/-- Thirty folios always are. -/
theorem moderate_of_length {folios : List Folio} (h : folios.length ≤ 30) : Moderate folios := by
  have hsum : (folios.map (·.balance.unscaled.natAbs)).sum ≤ folios.length * 10 ^ 12 := by
    have hall : ∀ cents ∈ folios.map (·.balance.unscaled.natAbs), cents ≤ 10 ^ 12 := by
      intro cents hcents
      obtain ⟨f, -, rfl⟩ := List.mem_map.mp hcents
      exact f.balance.fits.le
    simpa using List.sum_le_card_nsmul _ _ hall
  have htotal : (folios.map (·.balance.unscaled.natAbs)).sum ≤ 30 * 10 ^ 12 :=
    hsum.trans (Nat.mul_le_mul_right _ h)
  have hproduct := Nat.mul_le_mul h (Nat.add_le_add_right htotal 100)
  exact hproduct.trans (by norm_num)

theorem showsCents_room {db : Database} {r : Room} (h : Moderate (foliosIn db r)) :
    ShowsCents (frontDeskRoom db r).balance (owed db r) := by
  refine showsCents_balanceText ?_
  have hcents : roomBalance (foliosIn db r) = roundedSum binary64
      (((foliosIn db r).map (·.balance.unscaled)).map fun c : ℤ => binary64 (c / 100)) := by
    rw [roomBalance, List.map_map]
    refine congrArg _ (List.map_congr_left fun f _ => ?_)
    rw [Numeric.toRat, Function.comp_apply]
    norm_num
  rw [hcents]
  refine roundedSum_cents_lt ?_
  rw [List.length_map, List.map_map]
  exact h

section Shows

variable {sorted : List Room → List Room} (hsorted : ∀ rooms, (sorted rooms).Perm rooms)
  {ordered : List Reservation → List Reservation} (hordered : ∀ stays, (ordered stays).Perm stays)
  {db : Database}

include hordered in
/-- The first of some stays. -/
theorem exists_rest (stays : List Reservation) :
    ∃ rest, (((ordered stays).take 25).map (toRow db) ++ rest).Perm (stays.map (toRow db)) := by
  refine ⟨((ordered stays).drop 25).map (toRow db), ?_⟩
  rw [← List.map_append, List.take_append_drop]
  exact (hordered stays).map _

include hordered in
theorem length_first (stays : List Reservation) :
    (((ordered stays).take 25).map (toRow db)).length = min 25 stays.length := by
  rw [List.length_map, List.length_take, (hordered stays).length_eq]

include hsorted hordered in
/-- The board has each active room of the property once, with what its open folios come to, to the
cent, unless they are many and large; and of the stays that begin or end on the day on which the
server's midnight falls in UTC it has all, or twenty-five. -/
theorem frontDesk_shows (rt : Runtime) (hdistinct : RoomsDistinct db) (propertyId : String)
    (now : ℤ) :
    let board := frontDeskBoard db rt sorted ordered propertyId now
    let today := utcDay (rt.startOfDay (rt.localDay now))
    (board.rooms.map (·.id)).Nodup ∧
      (board.rooms.map (·.id)).Perm ((activeRooms db propertyId).map (·.id)) ∧
      (∀ room ∈ board.rooms, ∃ r ∈ activeRooms db propertyId, room.id = r.id ∧
        (Moderate (foliosIn db r) → ShowsCents room.balance (owed db r))) ∧
      (∃ rest, (board.arrivals ++ rest).Perm ((arriving db propertyId today).map (toRow db))) ∧
      board.arrivals.length = min 25 (arriving db propertyId today).length ∧
      (∃ rest, (board.departures ++ rest).Perm ((departing db propertyId today).map (toRow db))) ∧
      board.departures.length = min 25 (departing db propertyId today).length := by
  intro board today
  have hperm : (board.rooms.map (·.id)).Perm ((activeRooms db propertyId).map (·.id)) := by
    have hids : board.rooms.map (·.id) = (sorted (activeRooms db propertyId)).map (·.id) :=
      List.map_map
    rw [hids]
    exact (hsorted _).map _
  refine ⟨?_, hperm, ?_, exists_rest hordered _, length_first hordered _, exists_rest hordered _,
    length_first hordered _⟩
  · rw [hperm.nodup_iff]
    exact nodup_activeRooms hdistinct propertyId
  · intro room hroom
    obtain ⟨r, hr, rfl⟩ := List.mem_map.mp hroom
    exact ⟨r, (hsorted _).mem_iff.mp hr, rfl, showsCents_room⟩

end Shows

/-- A room whose open folios are thirty cents owed, and thirty cents paid in two parts. -/
def settledRoom : Database where
  properties := []
  rooms := [⟨"r1", "p1", "101", .occupiedClean, true⟩]
  guests := [⟨"g1", "Ada", "Guest"⟩]
  reservations := [
    { id := "s1", propertyId := "p1", guestId := "g1", roomId := some "r1", confirmationNo := "C1"
      source := .direct, status := .checkedIn, checkInDate := 0, checkOutDate := 2, adults := 1
      children := 0, roomType := .standard, ratePlan := none, nightlyRate := 0, totalAmount := 0
      currency := "KES", otaReservationId := none }]
  folios := [30, -10, -20].foldl (fun t cents => t.insertOrIgnore
    { id := toString t.rows.length, reservationId := "s1", guestId := "g1", propertyId := "p1"
      type := .personal, status := .opened, currency := "KES"
      balance := (Numeric.store 12 2 (cents / 100)).getD 0 }) Table.empty
  lineItems := Table.empty
  transfers := Table.empty
  businessDays := Table.empty
  roomStatusLogs := []
  channelInventory := Table.empty

/-- The board of the room's property in the morning of the first day, three hours ahead of UTC. -/
def settledBoard : FrontDeskBoard :=
  frontDeskBoard settledRoom (.exact 10800000 fun text => text) (fun rooms => rooms)
    (fun stays => stays) "p1" (dayMs + 21600000)

theorem frontDesk_shows_settledRoom :
    (settledBoard.rooms.map (·.id)).Nodup ∧
      ∀ room ∈ settledBoard.rooms, ShowsCents room.balance 0 := by
  have hdistinct : RoomsDistinct settledRoom := List.pairwise_singleton _ _
  obtain ⟨hnodup, -, hrooms, -⟩ := frontDesk_shows (fun rooms => List.Perm.refl rooms)
    (fun stays => List.Perm.refl stays) (.exact 10800000 fun text => text) hdistinct "p1"
    (dayMs + 21600000)
  refine ⟨hnodup, fun room hroom => ?_⟩
  obtain ⟨r, hr, -, hshows⟩ := hrooms room hroom
  have hfew : ∀ r ∈ activeRooms settledRoom "p1", (foliosIn settledRoom r).length ≤ 30 := by
    decide +kernel
  have hsettled : ∀ r ∈ activeRooms settledRoom "p1", owed settledRoom r = 0 := by
    decide +kernel
  have hbalance := hshows (moderate_of_length (hfew r hr))
  rwa [hsettled r hr] at hbalance

/-- The tenths that numbers cannot hold leave less than nothing. -/
example : settledBoard.rooms.map (·.balance) = [some "-0.00"] := by decide +kernel

end Hotelia.Database
