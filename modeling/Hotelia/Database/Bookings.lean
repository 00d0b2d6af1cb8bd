import Hotelia.Database.Inventory
import Hotelia.Database.References

/-!
# Bookings of a room

Calls of `atomicReserveRoom`, which the lock on the row of the room puts in order, among
changes of `room.status` by others. A booking asks whether the room is occupied now, and
never for which days it is booked.

## Main definitions

- `BookingEvent`, `booking` — the bookings, whatever becomes of them, and the changes
- `SingleBooked` — no two confirmed reservations of the room share a night
- `FreeDays` — a booking that goes through is for days that are free
- `FreedForFreeDays` — the first request after a change that frees the room is for such days
- `OrderFree` — two bookings go through in either order

## Main results

- `freeDays_of_kept`: as long as nobody else frees the room, each booking is for free days.
- `singleBooked_iff`: rooms are booked once exactly if, whenever one has been freed, the first
  request for it is for days on which nobody had it then.
- `reserve_after`: after a booking the room is refused, whatever the days.
- `not_orderFree`: no two bookings of a room go through one after the other.
-/

namespace Hotelia
open Foundation

namespace Database

inductive BookingEvent where
  /-- `atomicReserveRoom(input)`, with `id` for the reservation -/
  | reserve (input : AtomicReserveInput) (id : String)
  /-- Housekeeping, a check-out or the front desk -/
  | setStatus (roomId : String) (status : RoomStatus)

/-- A booking that is refused leaves everything as it is. -/
def booking (rt : Runtime) (db : Database) : BookingEvent → Option Database
  | .reserve input id =>
    match db.atomicReserveRoom rt input id with
    | .ok db' => some db'
    | .error _ => some db
  | .setStatus roomId status => some (db.setRoomStatus roomId status)

/-! ## Nights -/

/-- A night that both reservations have, of the half-open intervals of their dates. -/
def Overlaps (a b : Reservation) : Prop :=
  max a.checkInDate b.checkInDate < min a.checkOutDate b.checkOutDate

instance (a b : Reservation) : Decidable (Overlaps a b) := inferInstanceAs (Decidable (_ < _))

theorem overlaps_iff_exists {a b : Reservation} :
    Overlaps a b ↔ ∃ day, (a.checkInDate ≤ day ∧ day < a.checkOutDate) ∧
      b.checkInDate ≤ day ∧ day < b.checkOutDate := by
  rw [Overlaps]
  constructor
  · intro h
    exact ⟨max a.checkInDate b.checkInDate, by omega⟩
  · rintro ⟨day, ha, hb⟩
    omega

variable {rt : Runtime} {db db' : Database} {roomId : String}

/-- The `CONFIRMED` reservations of a room. -/
def confirmedOf (db : Database) (roomId : String) : List Reservation :=
  db.reservations.filter fun r => r.roomId = some roomId ∧ r.status = .confirmed

def SingleBooked (roomId : String) (db : Database) : Prop :=
  (db.confirmedOf roomId).Pairwise fun a b => ¬ Overlaps a b

/-- A booking that finds the room unoccupied, and that the tables take, is for nights that no
confirmed reservation of the room has. -/
def FreeDays (rt : Runtime) (roomId : String) (db : Database) : BookingEvent → Prop
  | .reserve input id => input.roomId = roomId → ∀ room r, Bookable rt db input id room r →
      ∀ other ∈ db.confirmedOf roomId, ¬ Overlaps other r
  | .setStatus _ _ => True

theorem confirmedOf_booked {input : AtomicReserveInput} {r : Reservation}
    (hstored : input.Stored r) (h : db.Booked input r db') :
    db'.confirmedOf roomId =
      db.confirmedOf roomId ++ if input.roomId = roomId then [r] else [] := by
  rw [confirmedOf, h.reservations, List.filter_append, confirmedOf]
  congr 1
  split
  · next hroom => simp [hstored.roomId, hstored.status, hroom]
  · next hroom => simp [hstored.roomId, hroom]

/-- A booking goes through, or leaves everything as it is. -/
theorem booking_reserve_cases {input : AtomicReserveInput} {id : String}
    (h : booking rt db (.reserve input id) = some db') :
    (∃ room r, Bookable rt db input id room r ∧ db.Booked input r db') ∨
      db' = db ∧ ∀ room r, ¬ Bookable rt db input id room r := by
  simp only [booking] at h
  split at h
  · next hok =>
    cases h
    exact .inl (atomicReserveRoom_eq_ok hok)
  · next hrefused =>
    cases h
    refine .inr ⟨rfl, fun room r hbookable => ?_⟩
    obtain ⟨db', hok⟩ := hbookable.exists_ok
    simp [hrefused] at hok

/-- A booking leaves rooms booked once exactly if it is for free days. -/
theorem singleBooked_step_iff {e : BookingEvent} (h : SingleBooked roomId db)
    (hstep : booking rt db e = some db') : SingleBooked roomId db' ↔ FreeDays rt roomId db e := by
  cases e with
  | setStatus id status =>
    cases hstep
    exact iff_of_true h trivial
  | reserve input id =>
    obtain ⟨room, r, hbookable, hbooked⟩ | ⟨rfl, hrefused⟩ := booking_reserve_cases hstep
    · rw [SingleBooked, confirmedOf_booked (AtomicReserveInput.stored hbookable.row) hbooked]
      by_cases hroom : input.roomId = roomId
      · rw [if_pos hroom, List.pairwise_append]
        constructor
        · rintro ⟨-, -, hfree⟩ _ room' r' hbookable' other hother
          obtain rfl : r = r' := Option.some.inj (hbookable.row.symm.trans hbookable'.row)
          exact hfree other hother r List.mem_cons_self
        · intro hfree
          refine ⟨h, List.pairwise_singleton _ _, fun other hother r' hr' => ?_⟩
          rw [List.mem_singleton.mp hr']
          exact hfree hroom room r hbookable other hother
      · rw [if_neg hroom, List.append_nil]
        exact iff_of_true h fun hsame => absurd hsame hroom
    · exact iff_of_true h fun _ room r hbookable => absurd hbookable (hrefused room r)

/-! ## What the status does stand for -/

/-- Nobody else makes the room one that is not occupied. -/
def KeepsOccupied (roomId : String) (_ : Database) : BookingEvent → Prop
  | .reserve _ _ => True
  | .setStatus id status => id = roomId → status ∈ occupiedStatuses

/-- The room is occupied, unless it has no confirmed reservation yet. -/
def Guarded (roomId : String) (db : Database) : Prop :=
  (∀ room, db.findRoom roomId = some room → room.status ∈ occupiedStatuses) ∨
    db.confirmedOf roomId = []

theorem findRoom_setRoomStatus (db : Database) (id : String) (status : RoomStatus) :
    (db.setRoomStatus id status).findRoom roomId =
      (db.findRoom roomId).map fun room => if room.id = id then { room with status } else room := by
  show (db.rooms.map _).find? _ = _
  rw [List.find?_map, findRoom]
  congr 2
  funext room
  show decide ((if room.id = id then { room with status } else room).id = roomId) =
    decide (room.id = roomId)
  split <;> rfl

theorem id_of_findRoom {room : Room} (h : db.findRoom roomId = some room) : room.id = roomId := by
  simpa using List.find?_some h

/-- A room that is set to an occupied status is occupied. -/
theorem occupied_setRoomStatus {status : RoomStatus} (h : status ∈ occupiedStatuses) (room : Room)
    (hroom : (db.setRoomStatus roomId status).findRoom roomId = some room) :
    room.status ∈ occupiedStatuses := by
  rw [findRoom_setRoomStatus, Option.map_eq_some_iff] at hroom
  obtain ⟨before, hbefore, rfl⟩ := hroom
  rw [if_pos (id_of_findRoom hbefore)]
  exact h

/-- The status of another room is not that of the room. -/
theorem findRoom_setRoomStatus_of_ne {id : String} (status : RoomStatus) (h : id ≠ roomId) :
    (db.setRoomStatus id status).findRoom roomId = db.findRoom roomId := by
  rw [findRoom_setRoomStatus]
  cases hroom : db.findRoom roomId with
  | none => rfl
  | some room =>
    have hne : room.id ≠ id := fun he => h (he ▸ id_of_findRoom hroom)
    rw [Option.map_some, if_neg hne]

/-- What a booking does to the status of a room. -/
theorem Booked.findRoom {input : AtomicReserveInput} {r : Reservation}
    (h : db.Booked input r db') :
    db'.findRoom roomId = (db.setRoomStatus input.roomId .occupiedDirty).findRoom roomId := by
  rw [Database.findRoom, h.rooms, Database.findRoom]

theorem Guarded.freeDays {e : BookingEvent} (h : Guarded roomId db) : FreeDays rt roomId db e := by
  cases e with
  | setStatus id status => trivial
  | reserve input id =>
    rintro rfl room r hbookable other hother
    rcases h with hoccupied | hnone
    · exact absurd (hoccupied room hbookable.found) hbookable.vacant
    · simp [hnone] at hother

theorem Guarded.step {e : BookingEvent} (h : Guarded roomId db) (hkeeps : KeepsOccupied roomId db e)
    (hstep : booking rt db e = some db') : Guarded roomId db' := by
  cases e with
  | setStatus id status =>
    cases hstep
    by_cases hid : id = roomId
    · subst hid
      exact .inl (occupied_setRoomStatus (hkeeps rfl))
    · rw [Guarded, findRoom_setRoomStatus_of_ne status hid]
      exact h
  | reserve input id =>
    obtain ⟨room, r, hbookable, hbooked⟩ | ⟨rfl, -⟩ := booking_reserve_cases hstep
    · rw [Guarded, hbooked.findRoom,
        confirmedOf_booked (AtomicReserveInput.stored hbookable.row) hbooked]
      by_cases hid : input.roomId = roomId
      · subst hid
        exact .inl (occupied_setRoomStatus (by decide))
      · rw [findRoom_setRoomStatus_of_ne _ hid, if_neg hid, List.append_nil]
        exact h
    · exact h

/-- As long as nobody else frees the room, each booking of it is for free days. -/
theorem freeDays_of_kept {es : List BookingEvent} (h : Guarded roomId db)
    (hkeeps : Along (booking rt) (KeepsOccupied roomId) db es) :
    Along (booking rt) (FreeDays rt roomId) db es := by
  induction es generalizing db with
  | nil => trivial
  | cons e es ih =>
    obtain ⟨he, hes⟩ := hkeeps
    exact ⟨h.freeDays, fun t ht => ih (h.step he ht) (hes t ht)⟩

/-! ## After the room has been freed -/

/-- The room is there, and not occupied. -/
def Vacant (roomId : String) (db : Database) : Prop :=
  ∃ room, db.findRoom roomId = some room ∧ room.status ∉ occupiedStatuses

/-- Nobody sets the status of the room, and what is asked for it the tables refuse. -/
def LeavesAlone (rt : Runtime) (roomId : String) (db : Database) : BookingEvent → Prop
  | .reserve input id => input.roomId = roomId → ∀ r, input.row rt id = some r → ¬ db.Takes r
  | .setStatus id _ => id ≠ roomId

/-- Nothing has been asked for yet, or the status of the room has just been set. -/
def JustSet (roomId : String) (es : List BookingEvent) : Prop :=
  es = [] ∨ ∃ past status, es = past ++ [.setStatus roomId status]

/-- Whenever the room is not occupied, be it at the start or after its status has been set, the
first request for it that the tables take is for nights that no confirmed reservation of the room
has at that time, unless the status is set again before. The requests after that one may be for
any nights. -/
def FreedForFreeDays (rt : Runtime) (roomId : String) (db : Database) (es : List BookingEvent) :
    Prop :=
  ∀ set alone input id freed u, set ++ alone ++ [.reserve input id] <+: es → JustSet roomId set →
    run (booking rt) db set = some freed → Vacant roomId freed →
    Along (booking rt) (LeavesAlone rt roomId) freed alone → run (booking rt) freed alone = some u →
    input.roomId = roomId → ∀ r, input.row rt id = some r → u.Takes r →
    ∀ other ∈ freed.confirmedOf roomId, ¬ Overlaps other r

/-- A room that is left alone keeps its status and its reservations. -/
theorem LeavesAlone.keeps {e : BookingEvent} (h : LeavesAlone rt roomId db e)
    (hstep : booking rt db e = some db') :
    db'.findRoom roomId = db.findRoom roomId ∧ db'.confirmedOf roomId = db.confirmedOf roomId := by
  cases e with
  | setStatus id status =>
    cases hstep
    exact ⟨findRoom_setRoomStatus_of_ne status h, rfl⟩
  | reserve input id =>
    obtain ⟨room, r, hbookable, hbooked⟩ | ⟨rfl, -⟩ := booking_reserve_cases hstep
    · have hother : input.roomId ≠ roomId := fun hroom => h hroom r hbookable.row hbookable.takes
      rw [hbooked.findRoom, findRoom_setRoomStatus_of_ne _ hother,
        confirmedOf_booked (AtomicReserveInput.stored hbookable.row) hbooked, if_neg hother,
        List.append_nil]
      exact ⟨rfl, rfl⟩
    · exact ⟨rfl, rfl⟩

theorem keeps_of_leftAlone {es : List BookingEvent}
    (h : Along (booking rt) (LeavesAlone rt roomId) db es)
    (hrun : run (booking rt) db es = some db') :
    db'.findRoom roomId = db.findRoom roomId ∧ db'.confirmedOf roomId = db.confirmedOf roomId := by
  refine Along.rel (J := fun _ => True)
    (R := fun s t => t.findRoom roomId = s.findRoom roomId ∧
      t.confirmedOf roomId = s.confirmedOf roomId)
    (fun _ _ _ _ _ => trivial) (fun _ => ⟨rfl, rfl⟩) ?_ ?_ trivial h hrun
  · intro s t u _ hst htu
    exact ⟨htu.1.trans hst.1, htu.2.trans hst.2⟩
  · intro s e t _ hstep halone
    exact halone.keeps hstep

/-- A step after which the room is vacant sets its status, or leaves it alone: the booking of a
vacant room occupies it. -/
theorem vacant_step {e : BookingEvent} (hstep : booking rt db e = some db')
    (hvacant : Vacant roomId db') :
    (∃ status, e = .setStatus roomId status) ∨ Vacant roomId db ∧ LeavesAlone rt roomId db e := by
  have hbefore (h : LeavesAlone rt roomId db e) : Vacant roomId db := by
    rwa [Vacant, (h.keeps hstep).1] at hvacant
  cases e with
  | setStatus id status =>
    by_cases hid : id = roomId
    · exact .inl ⟨status, by rw [hid]⟩
    · exact .inr ⟨hbefore hid, hid⟩
  | reserve input id =>
    refine .inr ?_
    by_cases hroom : input.roomId = roomId
    · obtain ⟨room, r, hbookable, hbooked⟩ | ⟨rfl, hrefused⟩ := booking_reserve_cases hstep
      -- a booking that goes through has occupied the room
      · obtain ⟨after, hafter, hfree⟩ := hvacant
        rw [hbooked.findRoom, hroom] at hafter
        exact absurd (occupied_setRoomStatus (by decide) after hafter) hfree
      -- and a vacant room is refused by the tables only
      · obtain ⟨room, hfound, hfree⟩ := hvacant
        refine ⟨⟨room, hfound, hfree⟩, fun _ r hrow htakes => ?_⟩
        exact hrefused room r ⟨hroom ▸ hfound, hfree, hrow, htakes⟩
    · have halone : LeavesAlone rt roomId db (.reserve input id) := fun hsame =>
        absurd hsame hroom
      exact ⟨hbefore halone, halone⟩

/-- A vacant room has been left alone since its status was set, or since the start. -/
def Opened (rt : Runtime) (roomId : String) (db : Database) (past : List BookingEvent)
    (s : Database) : Prop :=
  ∃ set alone freed, past = set ++ alone ∧ JustSet roomId set ∧
    run (booking rt) db set = some freed ∧
    Along (booking rt) (LeavesAlone rt roomId) freed alone ∧ run (booking rt) freed alone = some s

theorem opened_of_vacant {es : List BookingEvent} {s : Database}
    (hrun : run (booking rt) db es = some s) (hvacant : Vacant roomId s) :
    Opened rt roomId db es s := by
  induction es using List.reverseRecOn generalizing s with
  | nil => exact ⟨[], [], db, rfl, .inl rfl, rfl, trivial, hrun⟩
  | append_singleton es e ih =>
    obtain ⟨t, ht, hstep⟩ := run_concat_eq_some.mp hrun
    obtain ⟨status, rfl⟩ | ⟨hbefore, halone⟩ := vacant_step hstep hvacant
    · exact ⟨_, [], s, (List.append_nil _).symm, .inr ⟨es, status, rfl⟩, hrun, trivial, rfl⟩
    · obtain ⟨set, alone, freed, rfl, hset, hfreed, hkept, hleft⟩ := ih ht hbefore
      exact ⟨set, alone ++ [e], freed, List.append_assoc _ _ _, hset, hfreed,
        hkept.concat hleft halone, run_concat_eq_some.mpr ⟨t, hleft, hstep⟩⟩

/-- The guard refuses every request but the first one after the room has been freed. -/
theorem freeDays_iff_freed {es : List BookingEvent} :
    Along (booking rt) (FreeDays rt roomId) db es ↔ FreedForFreeDays rt roomId db es := by
  rw [along_iff_forall]
  constructor
  · intro hall set alone input id freed u hprefix _ hfreed hvacant hkept hleft hroom r hrow htakes
    obtain ⟨hsame, hconfirmed⟩ := keeps_of_leftAlone hkept hleft
    obtain ⟨room, hfound, hfree⟩ := hvacant
    have hu : run (booking rt) db (set ++ alone) = some u := by
      rw [run_append, hfreed]
      exact hleft
    rw [← hconfirmed]
    exact hall (set ++ alone) (.reserve input id) u hprefix hu hroom room r
      ⟨by rw [hroom, hsame, hfound], hfree, hrow, htakes⟩
  · intro hfreed bs e u hprefix hu
    cases e with
    | setStatus id status => trivial
    | reserve input id =>
      intro hroom room r hbookable
      have hvacant : Vacant roomId u := ⟨room, hroom ▸ hbookable.found, hbookable.vacant⟩
      obtain ⟨set, alone, v, rfl, hset, hv, hkept, hleft⟩ := opened_of_vacant hu hvacant
      obtain ⟨hsame, hconfirmed⟩ := keeps_of_leftAlone hkept hleft
      have hopen : Vacant roomId v := by rwa [Vacant, hsame] at hvacant
      rw [hconfirmed]
      exact hfreed set alone input id v u hprefix hset hv hopen hkept hleft hroom r hbookable.row
        hbookable.takes

/-- A room is booked once in every state exactly if, whenever it has been freed, the first request
for it that the tables take is for days on which no confirmed reservation had it then. -/
theorem singleBooked_iff {es : List BookingEvent} {t : Database} (h : SingleBooked roomId db)
    (hrun : run (booking rt) db es = some t) :
    (∀ bs u, bs <+: es → run (booking rt) db bs = some u → SingleBooked roomId u) ↔
      FreedForFreeDays rt roomId db es := by
  rw [← freeDays_iff_freed]
  exact forall_prefix_iff_along (I := SingleBooked roomId) (J := fun _ => True)
    (fun _ _ _ _ _ => trivial) (fun _ _ _ _ h hstep => singleBooked_step_iff h hstep) trivial h hrun

/-- A booking of the room for the days from `first` to `last`. -/
def sampleReserve (confirmationNo : String) (first last : ℤ) : AtomicReserveInput where
  propertyId := "hotel"
  guestId := "guest"
  roomId := "room"
  confirmationNo := confirmationNo
  source := .direct
  checkInDate := midnight first
  checkOutDate := midnight last
  adults := 1
  children := 0
  roomType := .standard
  ratePlan := none
  nightlyRate := 100
  totalAmount := 200
  currency := "KES"
  otaReservationId := none

/-- The room is cleaned after it has been booked, and then booked again. -/
def cleanedBetween : List BookingEvent :=
  [.setStatus "room" .vacantClean, .reserve (sampleReserve "HTL-2" 10 12) "first",
    .setStatus "room" .vacantClean, .reserve (sampleReserve "HTL-3" 11 13) "second"]

theorem singleBooked_sample : SingleBooked "room" sample := by
  have hnone : sample.confirmedOf "room" = [] := by decide
  rw [SingleBooked, hnone]
  exact .nil

theorem singleBooked_iff_cleaned :
    ∃ t, run (booking (.exact 0 id)) sample cleanedBetween = some t ∧
      ((∀ bs u, bs <+: cleanedBetween → run (booking (.exact 0 id)) sample bs = some u →
          SingleBooked "room" u) ↔
        FreedForFreeDays (.exact 0 id) "room" sample cleanedBetween) := by
  have hsome : (run (booking (.exact 0 id)) sample cleanedBetween).isSome = true := by
    decide +kernel
  obtain ⟨t, ht⟩ := Option.isSome_iff_exists.mp hsome
  exact ⟨t, ht, singleBooked_iff singleBooked_sample ht⟩

/-- Two guests have the room in the eleventh night. -/
theorem not_singleBooked :
    ¬ ∀ es t, run (booking (.exact 0 id)) sample es = some t → SingleBooked "room" t := by
  intro h
  have hsome : (run (booking (.exact 0 id)) sample cleanedBetween).isSome = true := by
    decide +kernel
  have htwice : ∀ t ∈ run (booking (.exact 0 id)) sample cleanedBetween,
      ¬ (t.confirmedOf "room").Pairwise fun a b => ¬ Overlaps a b := by
    decide +kernel
  obtain ⟨t, ht⟩ := Option.isSome_iff_exists.mp hsome
  exact htwice t ht (h cleanedBetween t ht)

/-! ## Two bookings of a room -/

/-- The stays have no night in common, of the half-open intervals of their dates. -/
def DisjointStays (a b : AtomicReserveInput) : Prop :=
  min (utcDay a.checkOutDate) (utcDay b.checkOutDate) ≤
    max (utcDay a.checkInDate) (utcDay b.checkInDate)

instance (a b : AtomicReserveInput) : Decidable (DisjointStays a b) :=
  inferInstanceAs (Decidable (_ ≤ _))

/-- The bookings go through in either order, and leave the same reservations. -/
def OrderFree (rt : Runtime) (db : Database) (a b : AtomicReserveInput) (idA idB : String) : Prop :=
  ∃ first both other both', db.atomicReserveRoom rt a idA = .ok first ∧
    first.atomicReserveRoom rt b idB = .ok both ∧ db.atomicReserveRoom rt b idB = .ok other ∧
    other.atomicReserveRoom rt a idA = .ok both' ∧ both.reservations.Perm both'.reservations

/-- The room of a booking is occupied from then on. -/
theorem occupied_of_reserve {a : AtomicReserveInput} {id : String}
    (h : db.atomicReserveRoom rt a id = .ok db') :
    ∃ room, db'.findRoom a.roomId = some room ∧ room.status ∈ occupiedStatuses := by
  obtain ⟨room, r, hbookable, hbooked⟩ := atomicReserveRoom_eq_ok h
  rw [hbooked.findRoom, findRoom_setRoomStatus, hbookable.found, Option.map_some,
    if_pos (id_of_findRoom hbookable.found)]
  exact ⟨_, rfl, List.mem_cons_self⟩

/-- After a booking the room is refused, whatever the days. -/
theorem reserve_after {a b : AtomicReserveInput} {idA : String}
    (h : db.atomicReserveRoom rt a idA = .ok db') (hroom : b.roomId = a.roomId) (idB : String) :
    db'.atomicReserveRoom rt b idB =
      .error (.inventory .roomUnavailable ("Room " ++ b.roomId ++ " is occupied")) := by
  obtain ⟨room, hfound, hoccupied⟩ := occupied_of_reserve h
  rw [← hroom] at hfound
  simp only [atomicReserveRoom, hfound, if_pos hoccupied]
  rfl

/-- No two bookings of a room go through one after the other, whatever the state and the days. -/
theorem not_orderFree {rt : Runtime} {db : Database} {a b : AtomicReserveInput}
    (hroom : b.roomId = a.roomId) (idA idB : String) : ¬ OrderFree rt db a b idA idB := by
  rintro ⟨first, both, _, _, hfirst, hboth, -⟩
  rw [reserve_after hfirst hroom] at hboth
  cases hboth

/-- A room that is vacant, and that nobody has booked. -/
def vacantSample : Database :=
  { sample with rooms := [⟨"room", "hotel", "101", .vacantClean, true⟩], reservations := [] }

/-- Each guest could have the room alone. -/
theorem exists_ok_vacantSample {input : AtomicReserveInput} {resId : String}
    (hroom : input.roomId = "room")
    (htakes : ∃ r ∈ input.row (.exact 0 id) resId, vacantSample.Takes r) :
    ∃ t, vacantSample.atomicReserveRoom (.exact 0 id) input resId = .ok t := by
  obtain ⟨r, hrow, htakes⟩ := htakes
  have hfound : vacantSample.findRoom input.roomId =
      some ⟨"room", "hotel", "101", .vacantClean, true⟩ := by
    rw [hroom]
    rfl
  have hvacant : RoomStatus.vacantClean ∉ occupiedStatuses := by decide
  exact Bookable.exists_ok ⟨hfound, hvacant, hrow, htakes⟩

theorem not_orderFree_vacantSample :
    DisjointStays (sampleReserve "HTL-2" 10 12) (sampleReserve "HTL-3" 12 14) ∧
      ¬ OrderFree (.exact 0 id) vacantSample (sampleReserve "HTL-2" 10 12)
        (sampleReserve "HTL-3" 12 14) "first" "second" :=
  ⟨by decide +kernel, not_orderFree (a := sampleReserve "HTL-2" 10 12)
    (b := sampleReserve "HTL-3" 12 14) rfl "first" "second"⟩

/-- A week in May keeps a guest of June out. -/
theorem not_disjoint_bookings :
    ¬ ∀ (rt : Runtime) (db : Database) a b idA idB room, b.roomId = a.roomId → DisjointStays a b →
      db.findRoom a.roomId = some room → room.status = .vacantClean →
      (∀ r ∈ db.reservations, r.roomId ≠ some a.roomId) →
      (∃ t, db.atomicReserveRoom rt a idA = .ok t) → (∃ t, db.atomicReserveRoom rt b idB = .ok t) →
      OrderFree rt db a b idA idB := by
  intro h
  have hfree := h (.exact 0 id) vacantSample (sampleReserve "HTL-2" 10 12)
    (sampleReserve "HTL-3" 12 14) "first" "second" _ rfl (by decide +kernel) rfl rfl
    (List.forall_mem_nil _) (exists_ok_vacantSample rfl (by decide +kernel))
    (exists_ok_vacantSample rfl (by decide +kernel))
  obtain ⟨first, both, _, _, hfirst, hboth, -⟩ := hfree
  rw [reserve_after (b := sampleReserve "HTL-3" 12 14) hfirst rfl] at hboth
  cases hboth

end Database

end Hotelia
