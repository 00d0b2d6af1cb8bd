import Hotelia.Database.Calls

/-!
# Rows and references

What the calls of the ledger do to the rows of the tables, apart from the balances of
the folios, and the foreign keys, which every call keeps.

## Main definitions

- `Created`, `Moved`, `Chosen` — what becomes of the rows
- `Referential` — the foreign keys of line items and transfers

## Main results

- `Referential.commit`: the references of the rows stay good.
-/

namespace Hotelia
open Foundation

namespace Database

variable {rt : Runtime} {db db' : Database}

/-! ## The rows of an effect -/

/-- There is a folio of the property with the id. -/
def OfProperty (db : Database) (folioId propertyId : String) : Prop :=
  ∃ f ∈ db.folios.rows, f.id = folioId ∧ f.propertyId = propertyId

def HasFolio (db : Database) (folioId : String) : Prop := ∃ f ∈ db.folios.rows, f.id = folioId

theorem OfProperty.hasFolio {folioId propertyId : String} (h : db.OfProperty folioId propertyId) :
    db.HasFolio folioId := by
  obtain ⟨f, hf, hid, -⟩ := h
  exact ⟨f, hf, hid⟩

theorem HasFolio.ofProperty {folioId : String} (h : db.HasFolio folioId) :
    ∃ propertyId, db.OfProperty folioId propertyId := by
  obtain ⟨f, hf, hid⟩ := h
  exact ⟨f.propertyId, f, hf, hid, rfl⟩

/-- Folios that stay with their property stay. -/
theorem HasFolio.mono (h : ∀ folioId propertyId, db.OfProperty folioId propertyId →
    db'.OfProperty folioId propertyId) {folioId : String} (hfolio : db.HasFolio folioId) :
    db'.HasFolio folioId := by
  obtain ⟨propertyId, hproperty⟩ := hfolio.ofProperty
  exact (h folioId propertyId hproperty).hasFolio

/-- A folio has one property. -/
theorem OfProperty.unique {folioId p q : String} (hp : db.OfProperty folioId p)
    (hq : db.OfProperty folioId q) : p = q := by
  obtain ⟨f, hf, hfid, rfl⟩ := hp
  obtain ⟨g, hg, hgid, rfl⟩ := hq
  rw [db.folios.eq_of_clash (fun _ _ => Eq.symm) hf hg (hfid.trans hgid.symm)]

theorem hasFolio_of_findFolio {id : String} {folio : Folio} (h : db.findFolio id = some folio) :
    db.HasFolio id := ⟨folio, mem_of_findFolio h⟩

/-- The balance is not what a folio is found by. -/
theorem ofProperty_incrementBalance {id : String} {increment : ℚ}
    (h : db.incrementBalance id increment = .ok db') (folioId propertyId : String) :
    db'.OfProperty folioId propertyId ↔ db.OfProperty folioId propertyId := by
  obtain ⟨folio, balance, -, -, rfl⟩ := incrementBalance_eq_ok h
  have hkeys : ∀ f : Folio, (if f.id = id then { f with balance } else f).id = f.id ∧
      (if f.id = id then { f with balance } else f).propertyId = f.propertyId := by
    intro f
    split <;> exact ⟨rfl, rfl⟩
  show (∃ f ∈ db.folios.rows.map _, _) ↔ _
  simp only [List.mem_map, exists_exists_and_eq_and, hkeys]
  exact Iff.rfl

/-- What `Creates` makes of the rows. -/
structure Created (db : Database) (item : FolioLineItem) (db' : Database) : Prop where
  lineItems : db'.lineItems.rows = db.lineItems.rows ++ [item]
  fresh : ∀ i ∈ db.lineItems.rows, i.id ≠ item.id
  transfers : db'.transfers = db.transfers
  businessDays : db'.businessDays = db.businessDays
  properties : ∀ folioId propertyId,
    db'.OfProperty folioId propertyId ↔ db.OfProperty folioId propertyId
  folio : db.HasFolio item.folioId

theorem Creates.created {item : FolioLineItem} {increment : ℚ}
    (h : db.Creates item increment db') : db.Created item db' := by
  obtain ⟨mid, hcreate, hbalance⟩ := h
  have hproperties := ofProperty_incrementBalance hbalance
  obtain ⟨folio, balance, hfolio, -, rfl⟩ := incrementBalance_eq_ok hbalance
  obtain ⟨row, lineItems, hrow, hlineItems, rfl⟩ := createLineItem_eq_ok hcreate
  cases hrow
  obtain ⟨hrows, hfresh⟩ := Table.create_eq_some hlineItems
  exact ⟨hrows, hfresh, rfl, rfl, hproperties, hasFolio_of_findFolio hfolio⟩

/-- What `Moves` makes of the rows. -/
structure Moved (db : Database) (row : FolioTransfer) (db' : Database) : Prop where
  lineItems : db'.lineItems = db.lineItems
  transfers : db'.transfers.rows = db.transfers.rows ++ [row]
  businessDays : db'.businessDays = db.businessDays
  properties : ∀ folioId propertyId,
    db'.OfProperty folioId propertyId ↔ db.OfProperty folioId propertyId
  fromFolio : db.HasFolio row.fromFolioId
  toFolio : db.HasFolio row.toFolioId

theorem Moves.moved {item : FolioLineItem} {row : FolioTransfer} (h : db.Moves item row db') :
    db.Moved row db' := by
  obtain ⟨mid, paid, hcreate, hout, hin⟩ := h
  have houtProperties := ofProperty_incrementBalance hout
  have hinProperties := ofProperty_incrementBalance hin
  obtain ⟨_, _, hto, -, rfl⟩ := incrementBalance_eq_ok hin
  obtain ⟨_, _, hfrom, -, rfl⟩ := incrementBalance_eq_ok hout
  obtain ⟨_, transfers, hrow, htransfers, rfl⟩ := createTransfer_eq_ok hcreate
  cases hrow
  refine ⟨rfl, (Table.create_eq_some htransfers).1, rfl, fun folioId propertyId => ?_,
    hasFolio_of_findFolio hfrom, ?_⟩
  · rw [hinProperties, houtProperties]
    exact Iff.rfl
  · exact (hasFolio_of_findFolio hto).mono fun f p => (houtProperties f p).mp

/-- The folio of a charge: one that is there, or a new one without anything on it. -/
inductive Chosen (db : Database) (folio : Folio) (base : Database) : Prop
  | found (mem : folio ∈ db.folios.rows) (same : base = db)
  | created (balance : folio.balance = 0) (fresh : ∀ f ∈ db.folios.rows, f.id ≠ folio.id)
      (folios : base.folios.rows = db.folios.rows ++ [folio])
      (lineItems : base.lineItems = db.lineItems) (transfers : base.transfers = db.transfers)
      (businessDays : base.businessDays = db.businessDays)

theorem mem_of_pickOpenFolio {folios : List Folio} {folio : Folio}
    (h : pickOpenFolio folios = some folio) : folio ∈ folios := by
  rw [pickOpenFolio] at h
  rcases (Option.orElse_eq_some _ _ _).mp h with h | ⟨-, h⟩
  · exact List.mem_of_find?_eq_some h
  · rcases (Option.orElse_eq_some _ _ _).mp h with h | ⟨-, h⟩
    · exact List.mem_of_find?_eq_some h
    · exact List.mem_of_head? h

theorem chosen_of_chargedFolio {stay : Reservation} {propertyId folioId : String} {folio : Folio}
    {base : Database} (h : db.chargedFolio stay propertyId folioId = .ok (folio, base)) :
    db.Chosen folio base := by
  rw [chargedFolio] at h
  split at h
  · next hpick =>
    cases h
    exact .found (List.mem_filter.mp (mem_of_pickOpenFolio hpick)).1 rfl
  · obtain ⟨mid, hcreate, hpure⟩ := bind_eq_ok h
    obtain ⟨folios, hfolios, rfl⟩ := createFolio_eq_ok hcreate
    cases hpure
    obtain ⟨hrows, hfresh⟩ := Table.create_eq_some hfolios
    exact .created rfl hfresh hrows rfl rfl rfl

theorem Chosen.ofProperty {folio : Folio} {base : Database} (h : db.Chosen folio base)
    {folioId propertyId : String} (hof : db.OfProperty folioId propertyId) :
    base.OfProperty folioId propertyId := by
  cases h with
  | found hmem hsame => rwa [hsame]
  | created _ _ hfolios _ _ _ =>
    obtain ⟨f, hf, hkeys⟩ := hof
    exact ⟨f, hfolios ▸ List.mem_append_left _ hf, hkeys⟩

/-! ## References -/

/-- The foreign keys of line items and transfers. -/
structure Referential (db : Database) : Prop where
  folio : ∀ i ∈ db.lineItems.rows, db.HasFolio i.folioId
  fromFolio : ∀ t ∈ db.transfers.rows, db.HasFolio t.fromFolioId
  toFolio : ∀ t ∈ db.transfers.rows, db.HasFolio t.toFolioId
  lineItem : ∀ t ∈ db.transfers.rows, ∃ i ∈ db.lineItems.rows, i.id = t.lineItemId

namespace Referential

theorem created {item : FolioLineItem} (h : db.Referential) (hc : db.Created item db') :
    db'.Referential := by
  have hkeep : ∀ {folioId}, db.HasFolio folioId → db'.HasFolio folioId :=
    HasFolio.mono fun f p => (hc.properties f p).mpr
  constructor
  · intro i hi
    rw [hc.lineItems, List.mem_append, List.mem_singleton] at hi
    rcases hi with hi | rfl
    · exact hkeep (h.folio i hi)
    · exact hkeep hc.folio
  · exact fun t ht => hkeep (h.fromFolio t (hc.transfers ▸ ht))
  · exact fun t ht => hkeep (h.toFolio t (hc.transfers ▸ ht))
  · intro t ht
    obtain ⟨i, hi, hid⟩ := h.lineItem t (hc.transfers ▸ ht)
    exact ⟨i, hc.lineItems ▸ List.mem_append_left _ hi, hid⟩

theorem moved {row : FolioTransfer} (h : db.Referential) (hm : db.Moved row db')
    (hitem : ∃ i ∈ db.lineItems.rows, i.id = row.lineItemId) : db'.Referential := by
  have hkeep : ∀ {folioId}, db.HasFolio folioId → db'.HasFolio folioId :=
    HasFolio.mono fun f p => (hm.properties f p).mpr
  have hmem : ∀ t ∈ db'.transfers.rows, t ∈ db.transfers.rows ∨ t = row := by
    intro t ht
    rwa [hm.transfers, List.mem_append, List.mem_singleton] at ht
  constructor
  · exact fun i hi => hkeep (h.folio i (hm.lineItems ▸ hi))
  · intro t ht
    rcases hmem t ht with ht | rfl
    · exact hkeep (h.fromFolio t ht)
    · exact hkeep hm.fromFolio
  · intro t ht
    rcases hmem t ht with ht | rfl
    · exact hkeep (h.toFolio t ht)
    · exact hkeep hm.toFolio
  · intro t ht
    rw [hm.lineItems]
    rcases hmem t ht with ht | rfl
    · exact h.lineItem t ht
    · exact hitem

theorem chosen {folio : Folio} {base : Database} (h : db.Referential) (hc : db.Chosen folio base) :
    base.Referential := by
  have hkeep : ∀ {folioId}, db.HasFolio folioId → base.HasFolio folioId :=
    HasFolio.mono fun _ _ => hc.ofProperty
  cases hc with
  | found _ hsame => rwa [hsame]
  | created _ _ _ hlineItems htransfers _ =>
    exact ⟨fun i hi => hkeep (h.folio i (hlineItems ▸ hi)),
      fun t ht => hkeep (h.fromFolio t (htransfers ▸ ht)),
      fun t ht => hkeep (h.toFolio t (htransfers ▸ ht)),
      fun t ht => hlineItems ▸ h.lineItem t (htransfers ▸ ht)⟩

/-- The references of the rows stay good. -/
theorem commit {call : LedgerCall} (h : db.Referential) (hstep : db.commit rt call = some db') :
    db'.Referential := by
  cases effect_of_commit hstep with
  | posted _ _ _ _ _ _ _ _ _ _ creates => exact h.created creates.created
  | reversed _ _ _ _ _ _ _ _ _ creates => exact h.created creates.created
  | transferred _ _ item found _ row stored moves =>
    obtain ⟨-, -, hitem, -⟩ := transferRow_eq_some stored
    exact h.moved moves.moved ⟨item, (mem_of_findLineItem found).1, hitem.symm⟩
  | charged _ _ _ _ _ _ _ _ chosen _ _ _ creates =>
    exact (h.chosen (chosen_of_chargedFolio chosen)).created creates.created
  | audited _ _ _ folios lineItems transfers _ =>
    have hkeep : ∀ {folioId}, db.HasFolio folioId → db'.HasFolio folioId := by
      intro folioId hfolio
      rwa [HasFolio, folios]
    exact ⟨fun i hi => hkeep (h.folio i (lineItems ▸ hi)),
      fun t ht => hkeep (h.fromFolio t (transfers ▸ ht)),
      fun t ht => hkeep (h.toFolio t (transfers ▸ ht)),
      fun t ht => lineItems ▸ h.lineItem t (transfers ▸ ht)⟩

end Referential

/-! ## A hotel with two folios -/

def sampleFolio (id : String) (type : FolioType) : Folio :=
  ⟨id, "stay", "guest", "hotel", type, .opened, "KES", 0⟩

def sampleStay : Reservation where
  id := "stay"
  propertyId := "hotel"
  guestId := "guest"
  roomId := some "room"
  confirmationNo := "HTL-1"
  source := .direct
  status := .checkedIn
  checkInDate := 0
  checkOutDate := 2
  adults := 1
  children := 0
  roomType := .standard
  ratePlan := none
  nightlyRate := 0
  totalAmount := 0
  currency := "KES"
  otaReservationId := none

/-- One stay, one room, and nothing charged yet. -/
def sample : Database where
  properties := [⟨"hotel", some (16 / 100)⟩]
  rooms := [⟨"room", "hotel", "101", .occupiedClean, true⟩]
  guests := [⟨"guest", "Achieng", "otieno"⟩]
  reservations := [sampleStay]
  folios := ⟨[sampleFolio "master" .master, sampleFolio "company" .company], by decide⟩
  lineItems := .empty
  transfers := .empty
  businessDays := .empty
  roomStatusLogs := []
  channelInventory := .empty

theorem referential_sample : sample.Referential :=
  ⟨List.forall_mem_nil _, List.forall_mem_nil _, List.forall_mem_nil _, List.forall_mem_nil _⟩

/-- A night of 100.00 with tax, less 2.50. -/
def samplePosting (businessDate : Option ℤ) : PostLineItemInput :=
  ⟨"master", "hotel", .room, "Night", none, 100, some (16 / 100), some (5 / 2), businessDate⟩

def sampleTransfer (fromFolioId toFolioId : String) : TransferItemInput :=
  ⟨"hotel", "night", fromFolioId, toFolioId, "split"⟩

/-- The hotel of one stay after the night has been posted. -/
def nightPosted : Database :=
  sample.attempt (.exact 0 id) (.post (samplePosting none) "night" 0)

def sampleCharge : PosChargeInput := ⟨"hotel", "101", "otieno", "Tea", 3⟩

end Database

end Hotelia
