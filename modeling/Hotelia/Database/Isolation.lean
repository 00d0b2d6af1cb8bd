import Hotelia.Database.Inventory
import Hotelia.Database.References

/-!
# One property among others

The tables hold the rows of many properties. Each call is made for one of them, and
most of the ids that it is given are looked up together with the property. Those of a
line item and of a room are not.

## Main definitions

- `PropertyCall`, `commitFor` — the calls, each for a property
- `Isolated` — the rows of other properties are as before, and nothing new leads to them
- `Owned` — what is looked up by its id alone belongs to the property

## Main results

- `isolated_iff`: a call that goes through is isolated exactly if what it found is owned.
-/

namespace Hotelia
open Foundation

namespace Database

/-- A call for a property. -/
inductive PropertyCall where
  | post (input : PostLineItemInput) (id : String) (now : ℤ)
  /-- The property of this input is written to the audit log, and not read. -/
  | reverse (propertyId : String) (input : ReverseLineItemInput) (id : String) (now : ℤ)
  | transfer (input : TransferItemInput) (id : String)
  | close (input : CloseBusinessDayInput) (id : String) (now : ℤ)
  | reserve (input : AtomicReserveInput) (id : String)
  | lock (input : LockChannelInventoryInput) (now : ℤ)
  | charge (input : PosChargeInput) (id folioId : String) (now : ℤ)

def PropertyCall.propertyId : PropertyCall → String
  | .post input _ _ => input.propertyId
  | .reverse propertyId _ _ _ => propertyId
  | .transfer input _ => input.propertyId
  | .close input _ _ => input.propertyId
  | .reserve input _ => input.propertyId
  | .lock input _ => input.propertyId
  | .charge input _ _ _ => input.propertyId

/-- A call that goes through. -/
def commitFor (rt : Runtime) (db : Database) : PropertyCall → Option Database
  | .post input id now => db.commit rt (.post input id now)
  | .reverse _ input id now => db.commit rt (.reverse input id now)
  | .transfer input id => db.commit rt (.transfer input id)
  | .close input id now => db.commit rt (.close input id now)
  | .reserve input id => (db.atomicReserveRoom rt input id).toOption
  | .lock input now => (db.lockChannelInventory input now).toOption.map (·.1)
  | .charge input id folioId now => db.commit rt (.charge input id folioId now)

/-! ## Rows of other properties -/

section

variable (db : Database) (propertyId : String)

/-- The folio is one of another property. -/
def FolioElsewhere (folioId : String) : Prop :=
  ∃ f ∈ db.folios.rows, f.id = folioId ∧ f.propertyId ≠ propertyId

instance (folioId : String) : Decidable (db.FolioElsewhere propertyId folioId) :=
  inferInstanceAs (Decidable (∃ f ∈ db.folios.rows, _))

/-- The room is one of another property. -/
def RoomElsewhere (roomId : String) : Prop :=
  ∃ room ∈ db.rooms, room.id = roomId ∧ room.propertyId ≠ propertyId

instance (roomId : String) : Decidable (db.RoomElsewhere propertyId roomId) :=
  inferInstanceAs (Decidable (∃ room ∈ db.rooms, _))

/-- The line item is on a folio of another property. -/
def ItemElsewhere (lineItemId : String) : Prop :=
  ∃ i ∈ db.lineItems.rows, i.id = lineItemId ∧ db.FolioElsewhere propertyId i.folioId

instance (lineItemId : String) : Decidable (db.ItemElsewhere propertyId lineItemId) :=
  inferInstanceAs (Decidable (∃ i ∈ db.lineItems.rows, _))

/-- The transfer leads to a folio of another property, by its id or by that of an item on it. -/
def TransferElsewhere (t : FolioTransfer) : Prop :=
  db.FolioElsewhere propertyId t.fromFolioId ∨ db.FolioElsewhere propertyId t.toFolioId ∨
    db.ItemElsewhere propertyId t.lineItemId

instance (t : FolioTransfer) : Decidable (db.TransferElsewhere propertyId t) :=
  inferInstanceAs (Decidable (_ ∨ _ ∨ _))

end

/-- The rows of other properties are those from before, and no new row leads to their folios and
rooms. -/
structure Isolated (propertyId : String) (db db' : Database) : Prop where
  folios : db'.folios.rows.filter (·.propertyId ≠ propertyId) =
    db.folios.rows.filter (·.propertyId ≠ propertyId)
  lineItems : db'.lineItems.rows.filter (fun i => db'.FolioElsewhere propertyId i.folioId) =
    db.lineItems.rows.filter (fun i => db.FolioElsewhere propertyId i.folioId)
  rooms : db'.rooms.filter (·.propertyId ≠ propertyId) =
    db.rooms.filter (·.propertyId ≠ propertyId)
  reservations : db'.reservations.filter (·.propertyId ≠ propertyId) =
    db.reservations.filter (·.propertyId ≠ propertyId)
  channelInventory : db'.channelInventory.rows.filter (·.propertyId ≠ propertyId) =
    db.channelInventory.rows.filter (·.propertyId ≠ propertyId)
  businessDays : db'.businessDays.rows.filter (·.propertyId ≠ propertyId) =
    db.businessDays.rows.filter (·.propertyId ≠ propertyId)
  newTransfers : ∀ t ∈ db'.transfers.rows, t ∉ db.transfers.rows →
    ¬ db'.TransferElsewhere propertyId t
  newReservations : ∀ r ∈ db'.reservations, r ∉ db.reservations → ∀ roomId ∈ r.roomId,
    ¬ db'.RoomElsewhere propertyId roomId

/-- What the call looks up by its id alone belongs to the property of the call. -/
def Owned (db : Database) : PropertyCall → Prop
  | .post _ _ _ => True
  | .reverse propertyId input _ _ => ¬ db.ItemElsewhere propertyId input.lineItemId
  | .transfer input _ => ¬ db.ItemElsewhere input.propertyId input.lineItemId
  | .close _ _ _ => True
  | .reserve input _ => ¬ db.RoomElsewhere input.propertyId input.roomId
  | .lock _ _ => True
  -- the open folios of the stay, which nothing but the data keep in its property
  | .charge input _ _ _ => ∀ stay ∈ db.findStay input.propertyId input.roomNumber,
      ∀ folio ∈ pickOpenFolio (db.openFolios stay), folio.propertyId = input.propertyId

variable {rt : Runtime} {db db' : Database} {propertyId : String}

/-- Other folios are seen only through the rows of other properties. -/
theorem folioElsewhere_congr
    (h : db'.folios.rows.filter (·.propertyId ≠ propertyId) =
      db.folios.rows.filter (·.propertyId ≠ propertyId)) (folioId : String) :
    db'.FolioElsewhere propertyId folioId ↔ db.FolioElsewhere propertyId folioId := by
  have hsel : ∀ d : Database, d.FolioElsewhere propertyId folioId ↔
      ∃ f ∈ d.folios.rows.filter (·.propertyId ≠ propertyId), f.id = folioId := by
    intro d
    simp only [FolioElsewhere, List.mem_filter, decide_eq_true_eq]
    constructor
    · rintro ⟨f, hf, hid, hp⟩
      exact ⟨f, ⟨hf, hp⟩, hid⟩
    · rintro ⟨f, ⟨hf, hp⟩, hid⟩
      exact ⟨f, hf, hid, hp⟩
  rw [hsel, hsel, h]

theorem itemElsewhere_congr
    (h : db'.folios.rows.filter (·.propertyId ≠ propertyId) =
      db.folios.rows.filter (·.propertyId ≠ propertyId))
    (hitems : db'.lineItems = db.lineItems) (lineItemId : String) :
    db'.ItemElsewhere propertyId lineItemId ↔ db.ItemElsewhere propertyId lineItemId := by
  simp only [ItemElsewhere, hitems, folioElsewhere_congr h]

/-- A folio of the property is none of another. -/
theorem OfProperty.not_elsewhere {folioId : String} (h : db.OfProperty folioId propertyId) :
    ¬ db.FolioElsewhere propertyId folioId := by
  rintro ⟨f, hf, hid, hne⟩
  exact hne (OfProperty.unique ⟨f, hf, hid, rfl⟩ h)

/-- The id of a line item finds one line item. -/
theorem itemElsewhere_iff {lineItemId : String} {item : FolioLineItem}
    (h : db.findLineItem lineItemId = some item) :
    db.ItemElsewhere propertyId lineItemId ↔ db.FolioElsewhere propertyId item.folioId := by
  obtain ⟨hmem, hid⟩ := mem_of_findLineItem h
  constructor
  · rintro ⟨i, hi, hiid, helsewhere⟩
    rwa [db.lineItems.eq_of_clash (fun _ _ => Eq.symm) hmem hi (hid.trans hiid.symm)]
  · intro helsewhere
    exact ⟨item, hmem, hid, helsewhere⟩

/-! ## What the statements do to other properties -/

/-- Appending a row of the property. -/
theorem filter_concat_of_own {α : Type*} {p : α → Bool} {rows : List α} {a : α} (h : p a = false) :
    (rows ++ [a]).filter p = rows.filter p := by
  rw [List.filter_append, List.filter_cons_of_neg (by simp [h]), List.filter_nil, List.append_nil]

theorem folios_setBalance {folioId : String} (balance : Numeric 12 2)
    (h : ¬ db.FolioElsewhere propertyId folioId) :
    (db.setBalance folioId balance).folios.rows.filter (·.propertyId ≠ propertyId) =
      db.folios.rows.filter (·.propertyId ≠ propertyId) := by
  refine Table.filter_map_of_fixed (fun f _ => ?_) fun f hf hne => ?_
  · split <;> rfl
  · have hid : f.id ≠ folioId := fun hid => h ⟨f, hf, hid, of_decide_eq_true hne⟩
    exact if_neg hid

theorem folios_incrementBalance {folioId : String} {increment : ℚ}
    (h : db.incrementBalance folioId increment = .ok db')
    (hown : ¬ db.FolioElsewhere propertyId folioId) :
    db'.folios.rows.filter (·.propertyId ≠ propertyId) =
      db.folios.rows.filter (·.propertyId ≠ propertyId) := by
  obtain ⟨_, balance, -, -, rfl⟩ := incrementBalance_eq_ok h
  exact folios_setBalance balance hown

/-- A line item is created in isolation exactly if its folio is not one of another property. -/
theorem isolated_creates_iff {item : FolioLineItem} {increment : ℚ}
    (h : db.Creates item increment db') :
    db.Isolated propertyId db' ↔ ¬ db.FolioElsewhere propertyId item.folioId := by
  have hrows := h.created.lineItems
  obtain ⟨mid, hcreate, hbalance⟩ := h
  obtain ⟨_, lineItems, hrow, hlineItems, rfl⟩ := createLineItem_eq_ok hcreate
  constructor
  · intro hisolated helsewhere
    have hsame := hisolated.lineItems
    simp only [folioElsewhere_congr hisolated.folios] at hsame
    rw [hrows, List.filter_append, List.filter_cons_of_pos (by simpa using helsewhere)] at hsame
    have hlength := congrArg List.length hsame
    simp at hlength
  · intro hown
    have hfolios : db'.folios.rows.filter (·.propertyId ≠ propertyId) =
        db.folios.rows.filter (·.propertyId ≠ propertyId) := (folios_incrementBalance hbalance hown :)
    obtain ⟨_, balance, -, -, rfl⟩ := incrementBalance_eq_ok hbalance
    refine ⟨hfolios, ?_, rfl, rfl, rfl, rfl, fun t ht hnew => absurd ht hnew,
      fun r hr hnew => absurd hr hnew⟩
    simp only [folioElsewhere_congr hfolios]
    rw [hrows]
    exact filter_concat_of_own (by simpa using hown)

/-- A transfer between folios of the property is isolated exactly if its line item is not on a
folio of another one. -/
theorem isolated_moves_iff {item : FolioLineItem} {row : FolioTransfer}
    (h : db.Moves item row db') (hfrom : ¬ db.FolioElsewhere propertyId row.fromFolioId)
    (hto : ¬ db.FolioElsewhere propertyId row.toFolioId) :
    db.Isolated propertyId db' ↔ ¬ db.ItemElsewhere propertyId row.lineItemId := by
  obtain ⟨mid, paid, hcreate, hout, hin⟩ := h
  obtain ⟨_, transfers, hrow, htransfers, rfl⟩ := createTransfer_eq_ok hcreate
  cases hrow
  obtain ⟨hrows, hfresh⟩ := Table.create_eq_some htransfers
  have hpaid : paid.folios.rows.filter (·.propertyId ≠ propertyId) =
      db.folios.rows.filter (·.propertyId ≠ propertyId) := (folios_incrementBalance hout hfrom :)
  have hfolios : db'.folios.rows.filter (·.propertyId ≠ propertyId) =
      db.folios.rows.filter (·.propertyId ≠ propertyId) := by
    rw [← hpaid]
    exact folios_incrementBalance hin fun helsewhere =>
      hto ((folioElsewhere_congr hpaid _).mp helsewhere)
  obtain ⟨_, _, -, -, rfl⟩ := incrementBalance_eq_ok hin
  obtain ⟨_, _, -, -, rfl⟩ := incrementBalance_eq_ok hout
  constructor
  · intro hisolated helsewhere
    have hmem : row ∈ transfers.rows := by
      rw [hrows]
      exact List.mem_append_right _ List.mem_cons_self
    exact hisolated.newTransfers row hmem (fun hold => hfresh row hold rfl)
      (.inr (.inr ((itemElsewhere_congr hfolios rfl _).mpr helsewhere)))
  · intro hown
    refine ⟨hfolios, ?_, rfl, rfl, rfl, rfl, ?_, fun r hr hnew => absurd hr hnew⟩
    · simp only [folioElsewhere_congr hfolios]
      rfl
    · intro t ht hnew
      replace ht : t ∈ transfers.rows := ht
      rw [hrows, List.mem_append, List.mem_singleton] at ht
      rcases ht with ht | rfl
      · exact absurd ht hnew
      · rintro (helsewhere | helsewhere | helsewhere)
        · exact hfrom ((folioElsewhere_congr hfolios _).mp helsewhere)
        · exact hto ((folioElsewhere_congr hfolios _).mp helsewhere)
        · exact hown ((itemElsewhere_congr hfolios rfl _).mp helsewhere)

theorem ofProperty_of_find {folioId : String} {folio : Folio}
    (h : (db.folios.rows.find? fun f => f.id = folioId ∧ f.propertyId = propertyId) = some folio) :
    db.OfProperty folioId propertyId := by
  have hkey := List.find?_some h
  rw [decide_eq_true_iff] at hkey
  exact ⟨folio, List.mem_of_find?_eq_some h, hkey⟩

/-- The folios of a transfer have been looked up with the property. -/
theorem ofProperty_of_transfer {input : TransferItemInput} {id : String}
    (h : db.transferFolioItem input id = .ok db') :
    db.OfProperty input.fromFolioId input.propertyId ∧
      db.OfProperty input.toFolioId input.propertyId := by
  rw [transferFolioItem] at h
  split at h
  · cases h
  · split at h
    · cases h
    · split at h
      · next hfrom hto => exact ⟨ofProperty_of_find hfrom, ofProperty_of_find hto⟩
      · cases h

/-! ## The calls -/

/-- A new folio of the property is not seen by others. -/
theorem isolated_of_folios {folios : Table Folio Folio.Clash}
    (h : folios.rows.filter (·.propertyId ≠ propertyId) =
      db.folios.rows.filter (·.propertyId ≠ propertyId)) :
    Isolated propertyId { db with folios } db' ↔ db.Isolated propertyId db' := by
  have hitems : db.lineItems.rows.filter
        (fun i => FolioElsewhere { db with folios } propertyId i.folioId) =
      db.lineItems.rows.filter (fun i => db.FolioElsewhere propertyId i.folioId) := by
    have hother : ∀ folioId, FolioElsewhere { db with folios } propertyId folioId ↔
        db.FolioElsewhere propertyId folioId := folioElsewhere_congr h
    simp only [hother]
  constructor
  · rintro ⟨hfolios, hlineItems, hrooms, hreservations, hinventory, hdays, htransfers, hnew⟩
    exact ⟨hfolios.trans h, hlineItems.trans hitems, hrooms, hreservations, hinventory, hdays,
      htransfers, hnew⟩
  · rintro ⟨hfolios, hlineItems, hrooms, hreservations, hinventory, hdays, htransfers, hnew⟩
    exact ⟨hfolios.trans h.symm, hlineItems.trans hitems.symm, hrooms, hreservations, hinventory,
      hdays, htransfers, hnew⟩

/-- The folio of a charge is one of another property exactly if the open folio of the stay is. -/
theorem charged_elsewhere_iff {stay : Reservation} {folioId : String} {folio : Folio}
    {base : Database} (h : db.chargedFolio stay propertyId folioId = .ok (folio, base)) :
    ∃ folios, base = { db with folios } ∧
      folios.rows.filter (·.propertyId ≠ propertyId) =
        db.folios.rows.filter (·.propertyId ≠ propertyId) ∧
      (¬ db.FolioElsewhere propertyId folio.id ↔
        ∀ picked ∈ pickOpenFolio (db.openFolios stay), picked.propertyId = propertyId) := by
  rw [chargedFolio] at h
  split at h
  · next picked hpick =>
    cases h
    have hmem : folio ∈ db.folios.rows := (List.mem_filter.mp (mem_of_pickOpenFolio hpick)).1
    refine ⟨db.folios, rfl, rfl, ?_⟩
    simp only [hpick, Option.mem_def, Option.some.injEq, forall_eq']
    constructor
    · intro hown
      by_contra hne
      exact hown ⟨folio, hmem, rfl, hne⟩
    · intro hproperty
      exact OfProperty.not_elsewhere ⟨folio, hmem, rfl, hproperty⟩
  · next hnone =>
    obtain ⟨mid, hcreate, hpure⟩ := bind_eq_ok h
    obtain ⟨folios, hfolios, rfl⟩ := createFolio_eq_ok hcreate
    cases hpure
    obtain ⟨hrows, hfresh⟩ := Table.create_eq_some hfolios
    refine ⟨folios, rfl, ?_, ?_⟩
    · rw [hrows]
      exact filter_concat_of_own (by simp [newFolio])
    · refine iff_of_true ?_ fun _ h => by simp [hnone] at h
      rintro ⟨f, hf, hid, -⟩
      exact hfresh f hf hid

theorem isolated_upsertClosed {items : List FolioLineItem} {input : CloseBusinessDayInput} {id : String}
    {now : ℤ} (h : db.upsertClosed rt items input id now = .ok db') :
    db.Isolated input.propertyId db' := by
  have hdays : ∃ businessDays, db' = { db with businessDays } ∧
      businessDays.rows.filter (·.propertyId ≠ input.propertyId) =
        db.businessDays.rows.filter (·.propertyId ≠ input.propertyId) := by
    rw [upsertClosed] at h
    split at h
    · next day hday =>
      have hkey := List.find?_some hday
      rw [decide_eq_true_iff] at hkey
      split at h
      · next closed hclosed =>
        cases h
        have hkeys := keys_closedDay rt hclosed
        refine ⟨_, rfl, Table.filter_map_of_fixed (fun d _ => ?_) fun d _ hne => ?_⟩
        · split
          · next he => rw [he, hkeys.2.1]
          · rfl
        · refine if_neg fun he => of_decide_eq_true hne ?_
          rw [he, hkey.1]
      · cases h
    · split at h
      · split at h
        · next businessDays hcreated =>
          cases h
          obtain ⟨row, hrow, hcreate⟩ := Option.bind_eq_some_iff.mp hcreated
          refine ⟨businessDays, rfl, ?_⟩
          rw [(Table.create_eq_some hcreate).1]
          have hproperty : row.propertyId = input.propertyId := (keys_closedDay rt hrow).2.1
          exact filter_concat_of_own (by simp [hproperty])
        · cases h
      · cases h
  obtain ⟨businessDays, rfl, hsame⟩ := hdays
  exact ⟨rfl, rfl, rfl, rfl, rfl, hsame, fun t ht hnew => absurd ht hnew,
    fun r hr hnew => absurd hr hnew⟩

theorem isolated_close {input : CloseBusinessDayInput} {id : String} {now : ℤ}
    (h : db.closeBusinessDay rt input id now = .ok db') : db.Isolated input.propertyId db' := by
  rw [closeBusinessDay] at h
  split at h
  · split at h
    · cases h
    · exact isolated_upsertClosed h
  · exact isolated_upsertClosed h

theorem roomElsewhere_setRoomStatus (id : String) (status : RoomStatus) (roomId : String) :
    (db.setRoomStatus id status).RoomElsewhere propertyId roomId ↔
      db.RoomElsewhere propertyId roomId := by
  have hkeys : ∀ room : Room, (if room.id = id then { room with status } else room).id = room.id ∧
      (if room.id = id then { room with status } else room).propertyId = room.propertyId := by
    intro room
    split <;> exact ⟨rfl, rfl⟩
  show (∃ room ∈ db.rooms.map _, _) ↔ _
  simp only [List.mem_map, exists_exists_and_eq_and, hkeys]
  exact Iff.rfl

theorem isolated_reserve_iff {input : AtomicReserveInput} {id : String}
    (h : db.atomicReserveRoom rt input id = .ok db') :
    db.Isolated input.propertyId db' ↔ ¬ db.RoomElsewhere input.propertyId input.roomId := by
  obtain ⟨room, r, hbookable, hbooked⟩ := atomicReserveRoom_eq_ok h
  have hstored := AtomicReserveInput.stored hbookable.row
  have hroom : db'.RoomElsewhere input.propertyId input.roomId ↔
      db.RoomElsewhere input.propertyId input.roomId := by
    rw [RoomElsewhere, hbooked.rooms]
    exact roomElsewhere_setRoomStatus _ _ _
  constructor
  · intro hisolated helsewhere
    have hmem : r ∈ db'.reservations := by
      rw [hbooked.reservations]
      exact List.mem_append_right _ List.mem_cons_self
    exact hisolated.newReservations r hmem (fun hold => (hbookable.takes.1 r hold).1 rfl) _
      hstored.roomId (hroom.mpr helsewhere)
  · intro hown
    have hfolios : db'.folios.rows.filter (·.propertyId ≠ input.propertyId) =
        db.folios.rows.filter (·.propertyId ≠ input.propertyId) := by
      rw [hbooked.folios]
    refine ⟨hfolios, ?_, ?_, ?_, ?_, ?_, fun t ht hnew => ?_, fun r' hr' hnew roomId hroomId => ?_⟩
    · simp only [folioElsewhere_congr hfolios]
      rw [hbooked.lineItems]
    · rw [hbooked.rooms]
      refine Table.filter_map_of_fixed (fun room _ => ?_) fun room hmem hne => if_neg fun hid => ?_
      · split <;> rfl
      · exact hown ⟨room, hmem, hid, of_decide_eq_true hne⟩
    · rw [hbooked.reservations]
      exact filter_concat_of_own (by simp [hstored.propertyId])
    · rw [hbooked.channelInventory]
    · rw [hbooked.businessDays]
    · exact absurd (hbooked.transfers ▸ ht) hnew
    · rw [hbooked.reservations, List.mem_append, List.mem_singleton] at hr'
      rcases hr' with hr' | rfl
      · exact absurd hr' hnew
      · obtain rfl : input.roomId = roomId := Option.some.inj (hstored.roomId.symm.trans hroomId)
        exact fun helsewhere => hown (hroom.mp helsewhere)

theorem isolated_lock {input : LockChannelInventoryInput} {now after : ℤ}
    (h : db.lockChannelInventory input now = .ok (db', after)) :
    db.Isolated input.propertyId db' := by
  obtain ⟨row, hrow, -, -, rfl⟩ := lockChannelInventory_eq_ok h
  have hmem := List.mem_of_find?_eq_some hrow
  have hkey := List.find?_some hrow
  rw [decide_eq_true_iff] at hkey
  refine ⟨rfl, rfl, rfl, rfl, ?_, rfl, fun t ht hnew => absurd ht hnew,
    fun r hr hnew => absurd hr hnew⟩
  refine Table.filter_map_of_fixed (fun other _ => ?_) fun other hother hne => if_neg fun hid => ?_
  · split <;> rfl
  · have hsame : other = row :=
      db.channelInventory.eq_of_clash ChannelInventory.Clash.symm hother hmem (.inl hid)
    exact of_decide_eq_true hne (hsame ▸ hkey.1)

theorem isolated_post {input : PostLineItemInput} {id : String} {now : ℤ}
    (h : db.commit rt (.post input id now) = some db') : db.Isolated input.propertyId db' := by
  cases effect_of_commit h with
  | posted _ _ _ folio found folioId property _ item stored creates =>
    have hown : db.OfProperty item.folioId input.propertyId :=
      ⟨folio, found, folioId.trans stored.folioId.symm, property⟩
    exact (isolated_creates_iff creates).mpr hown.not_elsewhere

theorem isolated_reverse_iff {input : ReverseLineItemInput} {id : String} {now : ℤ}
    (h : db.commit rt (.reverse input id now) = some db') :
    db.Isolated propertyId db' ↔ ¬ db.ItemElsewhere propertyId input.lineItemId := by
  cases effect_of_commit h with
  | reversed _ _ _ original found _ _ item stored creates =>
    rw [isolated_creates_iff creates, stored.folioId, itemElsewhere_iff found]
    exact Iff.rfl

theorem isolated_transfer_iff {input : TransferItemInput} {id : String}
    (h : db.commit rt (.transfer input id) = some db') :
    db.Isolated input.propertyId db' ↔ ¬ db.ItemElsewhere input.propertyId input.lineItemId := by
  obtain ⟨hfrom, hto⟩ := ofProperty_of_transfer ((commit_eq_some rt).mp h)
  cases effect_of_commit h with
  | transferred _ _ item found _ row stored moves =>
    obtain ⟨hrowfrom, hrowto, hrowitem, -⟩ := transferRow_eq_some stored
    have hid := (mem_of_findLineItem found).2
    rw [← hrowfrom] at hfrom
    rw [← hrowto] at hto
    rw [← hid, ← hrowitem]
    exact isolated_moves_iff moves hfrom.not_elsewhere hto.not_elsewhere

theorem isolated_charge_iff {input : PosChargeInput} {id folioId : String} {now : ℤ}
    (h : db.commit rt (.charge input id folioId now) = some db') :
    db.Isolated input.propertyId db' ↔ db.Owned (.charge input id folioId now) := by
  cases effect_of_commit h with
  | charged _ _ _ _ stay found folio base chosen taxRate item stored creates =>
    obtain ⟨folios, rfl, hfolios, hiff⟩ := charged_elsewhere_iff chosen
    have hother : FolioElsewhere { db with folios } input.propertyId folio.id ↔
        db.FolioElsewhere input.propertyId folio.id := folioElsewhere_congr hfolios folio.id
    rw [← isolated_of_folios hfolios, isolated_creates_iff creates, stored.folioId]
    show ¬ FolioElsewhere { db with folios } input.propertyId folio.id ↔ _
    rw [hother, hiff]
    simp only [Owned, found, Option.mem_def, Option.some.injEq, forall_eq']

theorem toOption_eq_some {ε α : Type*} {x : Except ε α} {a : α} :
    x.toOption = some a ↔ x = .ok a := by
  cases x with
  | ok b => simp [Except.toOption]
  | error e => simp [Except.toOption]

/-- A call that goes through leaves other properties alone exactly if what it has looked up by its
id alone belongs to its own. -/
theorem isolated_iff {call : PropertyCall} (h : db.commitFor rt call = some db') :
    db.Isolated call.propertyId db' ↔ db.Owned call := by
  cases call with
  | post input id now => exact iff_of_true (isolated_post h) trivial
  | reverse propertyId input id now => exact isolated_reverse_iff h
  | transfer input id => exact isolated_transfer_iff h
  | close input id now => exact iff_of_true (isolated_close ((commit_eq_some rt).mp h)) trivial
  | reserve input id => exact isolated_reserve_iff (toOption_eq_some.mp h)
  | lock input now =>
    obtain ⟨⟨t, after⟩, hlock, rfl⟩ := Option.map_eq_some_iff.mp h
    exact iff_of_true (isolated_lock (toOption_eq_some.mp hlock)) trivial
  | charge input id folioId now => exact isolated_charge_iff h

/-- The night of the hotel, in the database of two. -/
def neighbours : Database :=
  { nightPosted with properties := ⟨"lodge", none⟩ :: nightPosted.properties }

def sampleForeignReverse : PropertyCall := .reverse "lodge" ⟨"night"⟩ "reversal" 0

theorem exists_foreignReverse :
    ∃ db', neighbours.commitFor (.exact 0 id) sampleForeignReverse = some db' := by
  have hsome : (neighbours.commitFor (.exact 0 id) sampleForeignReverse).isSome = true := by
    decide +kernel
  exact Option.isSome_iff_exists.mp hsome

theorem isolated_iff_foreignReverse :
    ∃ db', neighbours.commitFor (.exact 0 id) sampleForeignReverse = some db' ∧
      (neighbours.Isolated sampleForeignReverse.propertyId db' ↔
        neighbours.Owned sampleForeignReverse) := by
  obtain ⟨db', h⟩ := exists_foreignReverse
  exact ⟨db', h, isolated_iff h⟩

/-- The lodge takes a night off the folio of the hotel. -/
theorem not_isolated :
    ¬ ∀ call db', neighbours.commitFor (.exact 0 id) call = some db' →
      neighbours.Isolated call.propertyId db' := by
  intro h
  obtain ⟨db', hdb'⟩ := exists_foreignReverse
  have hseen : ∀ t ∈ neighbours.commitFor (.exact 0 id) sampleForeignReverse,
      t.folios.rows.filter (·.propertyId ≠ "lodge") ≠
        neighbours.folios.rows.filter (·.propertyId ≠ "lodge") := by
    decide +kernel
  exact hseen db' hdb' (h _ db' hdb').folios

end Database

end Hotelia
