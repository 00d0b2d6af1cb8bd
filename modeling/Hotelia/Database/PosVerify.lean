import Hotelia.Database.References

/-!
# The check before a charge

`posVerifyGuest` of `apps/console/src/main/pms.ts`, which the till asks before it charges
a room, and which looks for the stay by a query of its own. It leaves out rooms that are
not active; the charge does not.

## Main definitions

- `activeStay`, `posVerifyGuest` — the check
- `Accepts` — the tables take the folio, the line item and the balance of a charge

## Main results

- `activeStay_eq`: the check finds the stay that the charge finds, if its room is active.
- `posPostCharge_goes_through_iff`: when a charge goes through.
- `agree_iff`: when the check and the charge agree.
-/

namespace Hotelia
open Foundation

namespace Database

structure PosVerifyInput where
  propertyId : String
  roomNumber : String
  lastName : String

inductive PosVerifyReason where
  | noActiveStay | lastNameMismatch | verified
  deriving DecidableEq, Repr

structure PosReservationInfo where
  id : String
  confirmationNo : String
  status : ReservationStatus
  checkInDate : String
  checkOutDate : String

structure PosVerification where
  verified : Bool
  reason : PosVerifyReason
  guest : Option Guest
  reservation : Option PosReservationInfo

/-- `reservation.findFirst` of `activeStay`: a checked-in stay in the room, which is active. -/
def activeStay (db : Database) (propertyId roomNumber : String) : Option Reservation :=
  db.reservations.find? fun r => r.propertyId = propertyId ∧ r.status = .checkedIn ∧
    (db.roomOf r).any fun room =>
      room.propertyId = propertyId ∧ room.number = roomNumber ∧ room.isActive

def PosReservationInfo.of (stay : Reservation) : PosReservationInfo where
  id := stay.id
  confirmationNo := stay.confirmationNo
  status := stay.status
  checkInDate := isoDay stay.checkInDate
  checkOutDate := isoDay stay.checkOutDate

/-- `posVerifyGuest(input)`. -/
def posVerifyGuest (rt : Runtime) (db : Database) (input : PosVerifyInput) :
    Except Failure PosVerification :=
  match db.activeStay input.propertyId input.roomNumber with
  | none => .ok { verified := false, reason := .noActiveStay, guest := none, reservation := none }
  | some stay =>
    match db.guests.find? fun g => g.id = stay.guestId with
    -- a required relation without a row
    | none => .error .refused
    | some guest =>
      if rt.toLowerCase guest.lastName ≠ rt.toLowerCase input.lastName then
        .ok { verified := false, reason := .lastNameMismatch, guest := some guest,
              reservation := some (.of stay) }
      else
        .ok { verified := true, reason := .verified, guest := some guest,
              reservation := some (.of stay) }

/-- The primary key of a room, and `@@unique([propertyId, number])`. -/
def Room.Clash (a b : Room) : Prop :=
  a.id = b.id ∨ (a.propertyId = b.propertyId ∧ a.number = b.number)

instance : DecidableRel Room.Clash := fun a b =>
  inferInstanceAs (Decidable (a.id = b.id ∨ (a.propertyId = b.propertyId ∧ a.number = b.number)))

/-- The keys of the rooms are unique. -/
def RoomsDistinct (db : Database) : Prop := db.rooms.Pairwise fun a b => ¬ Room.Clash a b

variable {rt : Runtime} {db : Database} {propertyId roomNumber : String}

/-! ## The two queries -/

/-- The room is the one of the number. -/
def Numbered (propertyId roomNumber : String) (room : Room) : Prop :=
  room.propertyId = propertyId ∧ room.number = roomNumber

theorem mem_of_roomOf {stay : Reservation} {room : Room} (h : db.roomOf stay = some room) :
    room ∈ db.rooms := by
  obtain ⟨id, -, hfind⟩ := Option.bind_eq_some_iff.mp h
  exact List.mem_of_find?_eq_some hfind

/-- A property has one room of a number. -/
theorem RoomsDistinct.eq_of_numbered (h : db.RoomsDistinct) {a b : Room} (ha : a ∈ db.rooms)
    (hb : b ∈ db.rooms) (hna : Numbered propertyId roomNumber a)
    (hnb : Numbered propertyId roomNumber b) : a = b := by
  by_contra hne
  have hsymm : Std.Symm fun a b => ¬ Room.Clash a b := by
    refine ⟨fun a b hab hba => hab ?_⟩
    rcases hba with hid | ⟨hp, hn⟩
    · exact .inl hid.symm
    · exact .inr ⟨hp.symm, hn.symm⟩
  exact h.forall ha hb hne (.inr ⟨hna.1.trans hnb.1.symm, hna.2.trans hnb.2.symm⟩)

theorem room_of_findStay {stay : Reservation} (h : db.findStay propertyId roomNumber = some stay) :
    ∃ room, db.roomOf stay = some room ∧ Numbered propertyId roomNumber room := by
  have hkey := List.find?_some h
  rw [decide_eq_true_iff, Option.any_eq_true] at hkey
  obtain ⟨-, -, room, hroom, hnumbered⟩ := hkey
  exact ⟨room, hroom, (decide_eq_true_iff.mp hnumbered :)⟩

/-- The check finds the stay that the charge finds, if the room is active, and else none. -/
theorem activeStay_eq (hrooms : db.RoomsDistinct) {room : Room} (hmem : room ∈ db.rooms)
    (hroom : Numbered propertyId roomNumber room) :
    db.activeStay propertyId roomNumber =
      if room.isActive then db.findStay propertyId roomNumber else none := by
  have hany : ∀ r : Reservation,
      ((db.roomOf r).any fun other =>
          other.propertyId = propertyId ∧ other.number = roomNumber ∧ other.isActive) =
        (((db.roomOf r).any fun other =>
          other.propertyId = propertyId ∧ other.number = roomNumber) && room.isActive) := by
    intro r
    cases hr : db.roomOf r with
    | none => rfl
    | some other =>
      rw [Option.any_some, Option.any_some]
      by_cases hother : Numbered propertyId roomNumber other
      · obtain rfl := hrooms.eq_of_numbered (mem_of_roomOf hr) hmem hother hroom
        simp [hother.1, hother.2]
      · have hnot : ¬ (other.propertyId = propertyId ∧ other.number = roomNumber) := hother
        rw [decide_eq_false hnot, Bool.false_and, decide_eq_false]
        rintro ⟨hp, hn, -⟩
        exact hnot ⟨hp, hn⟩
  simp only [activeStay, hany]
  cases room.isActive with
  | true => simp [findStay]
  | false => simp

/-- Without a room of the number there is no stay in it. -/
theorem activeStay_of_findStay_none (h : db.findStay propertyId roomNumber = none) :
    db.activeStay propertyId roomNumber = none := by
  refine List.find?_eq_none.mpr fun r hr hactive => List.find?_eq_none.mp h r hr ?_
  rw [decide_eq_true_iff] at hactive ⊢
  obtain ⟨hp, hs, hany⟩ := hactive
  refine ⟨hp, hs, ?_⟩
  rw [Option.any_eq_true] at hany ⊢
  obtain ⟨room, hroom, hkey⟩ := hany
  rw [decide_eq_true_iff] at hkey
  exact ⟨room, hroom, decide_eq_true ⟨hkey.1, hkey.2.1⟩⟩

/-! ## The charge -/

/-- The tax rate of the property. -/
def taxRateOf (db : Database) (propertyId : String) : ℚ :=
  lowestRate ((db.properties.find? fun p => p.id = propertyId).bind Property.taxRate)

/-- The folio that a charge goes to. -/
def folioOf (db : Database) (stay : Reservation) (propertyId folioId : String) : Folio :=
  (pickOpenFolio (db.openFolios stay)).getD (newFolio stay propertyId folioId)

/-- The tables take what a charge to the stay writes. -/
structure Accepts (rt : Runtime) (db : Database) (stay : Reservation) (input : PosChargeInput)
    (id folioId : String) (now : ℤ) : Prop where
  folio : pickOpenFolio (db.openFolios stay) = none → ∀ f ∈ db.folios.rows, f.id ≠ folioId
  item : ((input.data rt (db.folioOf stay input.propertyId folioId).id
    (db.taxRateOf input.propertyId) now).store id).isSome
  fresh : ∀ i ∈ db.lineItems.rows, i.id ≠ id
  balance : (Numeric.store 12 2 ((db.folioOf stay input.propertyId folioId).balance.toRat +
    rt.decimal (input.total rt (db.taxRateOf input.propertyId)))).isSome

theorem exists_create_iff {ρ : Type*} {Clash : ρ → ρ → Prop} [DecidableRel Clash]
    {table : Table ρ Clash} {row : ρ} :
    (∃ table', table.create row = some table') ↔ ∀ r ∈ table.rows, ¬ Clash r row := by
  constructor
  · rintro ⟨table', h⟩
    exact (Table.create_eq_some h).2
  · intro h
    exact ⟨table.insertOrIgnore row, if_neg fun ⟨r, hr, hc⟩ => h r hr hc⟩

/-- The line item and the balance are written exactly if the columns take them and the id of the
item is new. -/
theorem exists_charge_iff {data : LineItemData} {folio : Folio} {id : String} {increment : ℚ}
    (hfolio : db.findFolio folio.id = some folio) :
    (∃ mid db', db.createLineItem (data.store id) = .ok mid ∧
        mid.incrementBalance folio.id increment = .ok db') ↔
      (data.store id).isSome ∧ (∀ i ∈ db.lineItems.rows, i.id ≠ id) ∧
        (Numeric.store 12 2 (folio.balance.toRat + increment)).isSome := by
  constructor
  · rintro ⟨mid, db', hcreate, hbalance⟩
    obtain ⟨item, lineItems, hitem, hlineItems, rfl⟩ := createLineItem_eq_ok hcreate
    obtain ⟨found, balance, hfound, hstore, -⟩ := incrementBalance_eq_ok hbalance
    obtain rfl : folio = found := Option.some.inj (hfolio.symm.trans hfound)
    refine ⟨by rw [hitem]; rfl, fun i hi hid => ?_, by rw [hstore]; rfl⟩
    exact (Table.create_eq_some hlineItems).2 i hi (hid.trans (LineItemData.stored hitem).id.symm)
  · rintro ⟨hitem, hfresh, hbalance⟩
    obtain ⟨item, hitem⟩ := Option.isSome_iff_exists.mp hitem
    obtain ⟨balance, hbalance⟩ := Option.isSome_iff_exists.mp hbalance
    obtain ⟨lineItems, hlineItems⟩ := exists_create_iff.mpr fun i hi hc =>
      hfresh i hi (hc.trans (LineItemData.stored hitem).id)
    have hcreate : db.createLineItem (data.store id) = .ok { db with lineItems } := by
      rw [hitem]
      simp only [createLineItem, Option.bind_some, hlineItems]
    refine ⟨_, setBalance { db with lineItems } folio.id balance, hcreate, ?_⟩
    have hfound : findFolio { db with lineItems } folio.id = some folio := hfolio
    simp only [incrementBalance, hfound, hbalance]

/-- The folio of a charge is there when the line item is written. -/
theorem chargedFolio_eq_ok_iff {stay : Reservation} {folioId : String} :
    (∃ folio base, db.chargedFolio stay propertyId folioId = .ok (folio, base)) ↔
      (pickOpenFolio (db.openFolios stay) = none → ∀ f ∈ db.folios.rows, f.id ≠ folioId) := by
  rw [chargedFolio]
  split
  · next folio hpick => exact iff_of_true ⟨folio, db, rfl⟩ fun h => by simp [hpick] at h
  · next hpick =>
    constructor
    · rintro ⟨folio, base, h⟩ _
      obtain ⟨mid, hcreate, -⟩ := bind_eq_ok h
      obtain ⟨folios, hfolios, -⟩ := createFolio_eq_ok hcreate
      exact (Table.create_eq_some hfolios).2
    · intro hfresh
      have hfree : ∀ f ∈ db.folios.rows, ¬ Folio.Clash f (newFolio stay propertyId folioId) :=
        hfresh hpick
      obtain ⟨folios, hfolios⟩ := exists_create_iff.mpr hfree
      refine ⟨newFolio stay propertyId folioId, { db with folios }, ?_⟩
      simp only [createFolio, hfolios]
      rfl

/-- What the charge knows of its folio. -/
theorem chargedFolio_eq {stay folio folioId} {base : Database}
    (h : db.chargedFolio stay propertyId folioId = .ok (folio, base)) :
    folio = db.folioOf stay propertyId folioId ∧ base.findFolio folio.id = some folio ∧
      base.lineItems = db.lineItems ∧ base.properties = db.properties := by
  rw [chargedFolio] at h
  split at h
  · next picked hpick =>
    cases h
    have hmem : folio ∈ db.folios.rows := (List.mem_filter.mp (mem_of_pickOpenFolio hpick)).1
    exact ⟨by rw [folioOf, hpick, Option.getD_some], findFolio_of_mem hmem, rfl, rfl⟩
  · next hpick =>
    obtain ⟨mid, hcreate, hpure⟩ := bind_eq_ok h
    obtain ⟨folios, hfolios, rfl⟩ := createFolio_eq_ok hcreate
    cases hpure
    refine ⟨by rw [folioOf, hpick, Option.getD_none], findFolio_of_mem ?_, rfl, rfl⟩
    show newFolio stay propertyId folioId ∈ folios.rows
    rw [(Table.create_eq_some hfolios).1]
    exact List.mem_append_right _ List.mem_cons_self

/-- A charge goes through exactly if there is a stay in the room, its guest has the name, and
the tables take the writes. -/
theorem posPostCharge_goes_through_iff {input : PosChargeInput} {id folioId : String} {now : ℤ} :
    (∃ db', db.posPostCharge rt input id folioId now = .ok db') ↔
      ∃ stay guest, db.findStay input.propertyId input.roomNumber = some stay ∧
        (db.guests.find? fun g => g.id = stay.guestId) = some guest ∧
        rt.toLowerCase guest.lastName = rt.toLowerCase input.lastName ∧
        Accepts rt db stay input id folioId now := by
  constructor
  · rintro ⟨db', h⟩
    rw [posPostCharge] at h
    split at h
    · cases h
    · next stay hstay =>
      split at h
      · cases h
      · next guest hguest =>
        split at h
        · cases h
        · next hname =>
          obtain ⟨⟨folio, base⟩, hchosen, hwrites⟩ := bind_eq_ok h
          obtain ⟨mid, hcreate, hbalance⟩ := bind_eq_ok hwrites
          obtain ⟨rfl, hfolio, hlineItems, hproperties⟩ := chargedFolio_eq hchosen
          simp only [hproperties] at hcreate hbalance
          obtain ⟨hitem, hfresh, hstore⟩ := (exists_charge_iff hfolio).mp ⟨mid, db', hcreate, hbalance⟩
          refine ⟨stay, guest, hstay, hguest, not_not.mp hname, ?_, hitem, hlineItems ▸ hfresh, hstore⟩
          exact chargedFolio_eq_ok_iff.mp ⟨_, _, hchosen⟩
  · rintro ⟨stay, guest, hstay, hguest, hname, hfolio, hitem, hfresh, hstore⟩
    obtain ⟨folio, base, hchosen⟩ := chargedFolio_eq_ok_iff.mpr hfolio
    obtain ⟨rfl, hfound, hlineItems, hproperties⟩ := chargedFolio_eq hchosen
    rw [← hlineItems] at hfresh
    obtain ⟨mid, db', hcreate, hbalance⟩ := (exists_charge_iff hfound).mpr ⟨hitem, hfresh, hstore⟩
    refine ⟨db', ?_⟩
    simp only [taxRateOf, ← hproperties] at hcreate hbalance
    simp only [posPostCharge, hstay, hguest, if_neg (not_not.mpr hname), hchosen]
    show (base.createLineItem _ >>= fun mid => mid.incrementBalance _ _) = _
    rw [hcreate]
    exact hbalance

/-! ## Check and charge -/

/-- The check before the charge. -/
@[simps]
def PosChargeInput.verify (input : PosChargeInput) : PosVerifyInput where
  propertyId := input.propertyId
  roomNumber := input.roomNumber
  lastName := input.lastName

/-- The check says that the guest is verified. -/
def Verified (rt : Runtime) (db : Database) (input : PosVerifyInput) : Prop :=
  ∃ v, db.posVerifyGuest rt input = .ok v ∧ v.verified = true

/-- The charge passes its barrier and creates a line item. -/
def Charged (rt : Runtime) (db : Database) (input : PosChargeInput) (id folioId : String)
    (now : ℤ) : Prop :=
  ∃ db' item, db.posPostCharge rt input id folioId now = .ok db' ∧
    db'.lineItems.rows = db.lineItems.rows ++ [item]

theorem verified_iff {input : PosVerifyInput} :
    Verified rt db input ↔ ∃ stay guest,
      db.activeStay input.propertyId input.roomNumber = some stay ∧
        (db.guests.find? fun g => g.id = stay.guestId) = some guest ∧
        rt.toLowerCase guest.lastName = rt.toLowerCase input.lastName := by
  constructor
  · rintro ⟨v, h, hverified⟩
    rw [posVerifyGuest] at h
    split at h
    · cases h
      cases hverified
    · next stay hstay =>
      split at h
      · cases h
      · next guest hguest =>
        split at h
        · cases h
          cases hverified
        · next hname => exact ⟨stay, guest, hstay, hguest, not_not.mp hname⟩
  · rintro ⟨stay, guest, hstay, hguest, hname⟩
    simp only [Verified, posVerifyGuest, hstay, hguest, if_neg (not_not.mpr hname)]
    exact ⟨_, rfl, rfl⟩

/-- A charge that goes through has created a line item. -/
theorem charged_iff_goes_through {input : PosChargeInput} {id folioId : String} {now : ℤ} :
    Charged rt db input id folioId now ↔
      ∃ db', db.posPostCharge rt input id folioId now = .ok db' := by
  constructor
  · rintro ⟨db', -, h, -⟩
    exact ⟨db', h⟩
  · rintro ⟨db', h⟩
    cases effect_charge h with
    | charged _ _ _ _ _ _ folio base chosen _ item _ creates =>
      obtain ⟨-, -, hlineItems, -⟩ := chargedFolio_eq chosen
      exact ⟨db', item, h, by rw [creates.created.lineItems, hlineItems]⟩

/-- The check and the charge agree exactly if, whenever the guest of the room has the name, the
room is active exactly if the tables take the charge. -/
theorem agree_iff {input : PosChargeInput} {id folioId : String} {now : ℤ}
    (hrooms : db.RoomsDistinct) :
    (Verified rt db input.verify ↔ Charged rt db input id folioId now) ↔
      ∀ stay ∈ db.findStay input.propertyId input.roomNumber,
        ∀ guest ∈ db.guests.find? fun g => g.id = stay.guestId,
        rt.toLowerCase guest.lastName = rt.toLowerCase input.lastName →
        ∀ room ∈ db.roomOf stay,
        (room.isActive = true ↔ Accepts rt db stay input id folioId now) := by
  rw [charged_iff_goes_through, posPostCharge_goes_through_iff, verified_iff]
  simp only [PosChargeInput.verify_propertyId, PosChargeInput.verify_roomNumber,
    PosChargeInput.verify_lastName]
  cases hstay : db.findStay input.propertyId input.roomNumber with
  | none => simp [activeStay_of_findStay_none hstay]
  | some stay =>
    obtain ⟨room, hroom, hnumbered⟩ := room_of_findStay hstay
    rw [activeStay_eq hrooms (mem_of_roomOf hroom) hnumbered, hstay]
    cases hguest : db.guests.find? fun g => g.id = stay.guestId with
    | none => cases room.isActive <;> simp [hguest]
    | some guest =>
      by_cases hname : rt.toLowerCase guest.lastName = rt.toLowerCase input.lastName
      · cases hactive : room.isActive with
        | true => simp [hguest, hname, hroom, hactive]
        | false => simp [hguest, hname, hroom, hactive]
      · cases room.isActive <;> simp [hguest, hname]

/-- The room has been taken out of use with the guest still in it. -/
def inactiveRoom : Database :=
  { sample with rooms := [⟨"room", "hotel", "101", .occupiedClean, false⟩] }

theorem roomsDistinct_inactive : inactiveRoom.RoomsDistinct := List.pairwise_singleton _ _

theorem agree_iff_inactive :
    (Verified (.exact 0 id) inactiveRoom sampleCharge.verify ↔
        Charged (.exact 0 id) inactiveRoom sampleCharge "tea" "folio" 0) ↔
      ∀ stay ∈ inactiveRoom.findStay sampleCharge.propertyId sampleCharge.roomNumber,
        ∀ guest ∈ inactiveRoom.guests.find? fun g => g.id = stay.guestId,
        (Runtime.exact 0 id).toLowerCase guest.lastName =
          (Runtime.exact 0 id).toLowerCase sampleCharge.lastName →
        ∀ room ∈ inactiveRoom.roomOf stay,
        (room.isActive = true ↔ Accepts (.exact 0 id) inactiveRoom stay sampleCharge "tea" "folio" 0) :=
  agree_iff roomsDistinct_inactive

/-- The till says that nobody is there, and the charge goes through. -/
theorem not_agree :
    ¬ ∀ db input lineItemId folioId now, RoomsDistinct db →
      (Verified (.exact 0 id) db input.verify ↔
        Charged (.exact 0 id) db input lineItemId folioId now) := by
  intro h
  have hsome : (inactiveRoom.commit (.exact 0 id)
      (.charge sampleCharge "tea" "folio" 0)).isSome = true := by
    decide +kernel
  obtain ⟨db', hdb'⟩ := Option.isSome_iff_exists.mp hsome
  have hcharged : Charged (.exact 0 id) inactiveRoom sampleCharge "tea" "folio" 0 :=
    charged_iff_goes_through.mpr ⟨db', (commit_eq_some _).mp hdb'⟩
  have hnone : inactiveRoom.activeStay "hotel" "101" = none := by decide +kernel
  obtain ⟨stay, -, hstay, -⟩ :=
    verified_iff.mp ((h inactiveRoom sampleCharge "tea" "folio" 0 roomsDistinct_inactive).mpr hcharged)
  exact nomatch hnone.symm.trans hstay

end Database

end Hotelia
