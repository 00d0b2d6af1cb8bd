import Hotelia.Database.AuditScope
import Hotelia.Shared.Validators

/-!
# The audit log

Three calls end their transaction with a row of `audit_log`: `reverseLineItem` and
`closeBusinessDay` of `packages/database/src/ledger.ts`, and `posPostCharge` of
`apps/console/src/main/pms.ts`, whose row is the evidence that a guest was verified. If the row is
refused, so is the call.

## Main definitions

- `AuditLog`, `Audited` — the log, next to the tables
- `Audited.perform` — the calls, with the rows that they leave
- `Accounted` — what the log and the tables have to do with each other
- `Leaves` — the rows that one call leaves

## Main results

- `Leaves.accounted`: each call keeps the log in step with the tables.
- `log_accounts`: so does a run, which is one of the calls without the log.
-/

namespace Hotelia
open Foundation

namespace Database

/-- `action`: `VALIDATED_REVERSAL`, `NIGHT_AUDIT_CLOSED` or `POS_CHARGE_VALIDATED`. -/
inductive AuditAction where
  | validatedReversal | nightAuditClosed | posChargeValidated
  deriving DecidableEq

/-- `newValue` of a charge. -/
structure ChargeEvidence where
  barrier : String
  roomNumber : String
  verifiedLastName : String
  matchedGuestId : String
  reservationId : String
  description : String
  amount : ℚ
  deriving DecidableEq

/-- `newValue` of a row. -/
inductive AuditValue where
  | null
  | snapshot (snapshot : ReportSnapshot)
  | evidence (evidence : ChargeEvidence)
  deriving DecidableEq

structure AuditLog where
  propertyId : String
  userId : String
  action : AuditAction
  entityType : String
  entityId : String
  newValue : AuditValue
  deriving DecidableEq

/-- The tables and the log. -/
structure Audited where
  db : Database
  auditLog : List AuditLog

/-- The calls, with what only the log keeps of their inputs. -/
inductive AuditedCall where
  | post (input : PostLineItemInput) (id : String) (now : ℤ)
  | reverse (input : ReverseLineItemInput) (propertyId reversedBy id : String) (now : ℤ)
  | transfer (input : TransferItemInput) (id : String)
  | charge (input : PosChargeInput) (operatorId : Option String) (id folioId : String) (now : ℤ)
  | close (input : CloseBusinessDayInput) (id : String) (now : ℤ)

/-- The call without the log. -/
def AuditedCall.call : AuditedCall → LedgerCall
  | .post input id now => .post input id now
  | .reverse input _ _ id now => .reverse input id now
  | .transfer input id => .transfer input id
  | .charge input _ id folioId now => .charge input id folioId now
  | .close input id now => .close input id now

/-! ## Rows of the log -/

def reversalRow (propertyId reversedBy reversalId : String) : AuditLog where
  propertyId := propertyId
  userId := reversedBy
  action := .validatedReversal
  entityType := "folio_line_items"
  entityId := reversalId
  newValue := .null

def closingRow (input : CloseBusinessDayInput) (dayId : String) (snapshot : ReportSnapshot) :
    AuditLog where
  propertyId := input.propertyId
  userId := input.closedBy
  action := .nightAuditClosed
  entityType := "business_days"
  entityId := dayId
  newValue := .snapshot snapshot

section Perform

variable (rt : Runtime) (uuid : String → Prop) [DecidablePred uuid]

/-- `newValue` of a charge to the stay. -/
def PosChargeInput.evidence (input : PosChargeInput) (stay : Reservation) : ChargeEvidence where
  barrier := "GUEST_LASTNAME_ROOM"
  roomNumber := input.roomNumber
  verifiedLastName := input.lastName
  matchedGuestId := stay.guestId
  reservationId := stay.id
  description := input.description
  amount := input.gross rt

def chargeRow (input : PosChargeInput) (operatorId : Option String) (stay : Reservation)
    (itemId : String) : AuditLog where
  propertyId := input.propertyId
  userId := operatorId.getD input.propertyId
  action := .posChargeValidated
  entityType := "folio_line_items"
  entityId := itemId
  newValue := .evidence (input.evidence rt stay)

namespace Audited

/-- `auditLog.create`, by which the transaction is at `db`. The columns of the ids take what
`uuid` says. -/
def create (s : Audited) (db : Database) (row : AuditLog) : Except Failure Audited :=
  if uuid row.propertyId ∧ uuid row.userId ∧ uuid row.entityId then .ok ⟨db, s.auditLog ++ [row]⟩
  else .error .refused

def perform (s : Audited) : AuditedCall → Except Failure Audited
  | .post input id now => do
    let db ← s.db.postLineItem rt input id now
    pure { s with db }
  | .reverse input propertyId reversedBy id now => do
    let db ← s.db.reverseLineItem rt input id now
    s.create uuid db (reversalRow propertyId reversedBy id)
  | .transfer input id => do
    let db ← s.db.transferFolioItem input id
    pure { s with db }
  | .charge input operatorId id folioId now => do
    let db ← s.db.posPostCharge rt input id folioId now
    match s.db.findStay input.propertyId input.roomNumber with
    | some stay => s.create uuid db (chargeRow rt input operatorId stay id)
    -- the charge has failed before
    | none => throw .refused
  | .close input id now => do
    let db ← s.db.closeBusinessDay rt input id now
    let snapshot := reportSnapshot (s.db.auditedItems rt input.businessDate) now
    match db.findBusinessDay input.propertyId (utcDay input.businessDate) with
    | some day => s.create uuid db (closingRow input day.id snapshot)
    -- the day has just been written
    | none => throw .refused

/-- A call that goes through. -/
def commit (s : Audited) (call : AuditedCall) : Option Audited :=
  match s.perform rt uuid call with
  | .ok t => some t
  | .error _ => none

end Audited

end Perform

/-! ## What the log says -/

/-- The ids that the rows of an action are about. -/
def entityIds (action : AuditAction) (log : List AuditLog) : List String :=
  (log.filter (·.action = action)).map (·.entityId)

/-- The ids of the line items of a kind. -/
def itemIds (kind : LineItemKind) (db : Database) : List String :=
  (db.lineItems.rows.filter (·.kind = kind)).map (·.id)

def closedDays (db : Database) : List BusinessDay :=
  db.businessDays.rows.filter (·.status = .closed)

/-- What the row of a closed day says of it. -/
def BusinessDay.report (day : BusinessDay) : String × AuditValue :=
  (day.id, match day.reportSnapshot with
    | some snapshot => .snapshot snapshot
    | none => .null)

/-- The reports of the rows of the night audits. -/
def reports (log : List AuditLog) : List (String × AuditValue) :=
  (log.filter (·.action = .nightAuditClosed)).map fun row => (row.entityId, row.newValue)

/-- The folio is one of the stay. -/
def OfStay (db : Database) (folioId stayId : String) : Prop :=
  ∃ f ∈ db.folios.rows, f.id = folioId ∧ f.reservationId = stayId

/-- The evidence is true: of a guest of the name, who stays in the property, and of a line item on
a folio of that stay. -/
structure Evidenced (rt : Runtime) (db : Database) (row : AuditLog) (evidence : ChargeEvidence)
    (stay : Reservation) (guest : Guest) (item : FolioLineItem) : Prop where
  stay_mem : stay ∈ db.reservations
  stay_id : stay.id = evidence.reservationId
  property : stay.propertyId = row.propertyId
  status : stay.status = .checkedIn
  guest_mem : guest ∈ db.guests
  guest_id : guest.id = stay.guestId
  matched : guest.id = evidence.matchedGuestId
  name : rt.toLowerCase guest.lastName = rt.toLowerCase evidence.verifiedLastName
  item_mem : item ∈ db.lineItems.rows
  item_id : item.id = row.entityId
  folio : db.OfStay item.folioId stay.id
  description : item.description = evidence.description
  price : Numeric.store 10 2 (rt.decimal evidence.amount) = some item.unitPrice

/-- The reversals, the closed days and the charges behind the barrier are in the log: each
reversal and each closed day has one row, and each row of a charge is true of one line item. -/
structure Accounted (rt : Runtime) (db : Database) (log : List AuditLog) : Prop where
  reversals : entityIds .validatedReversal log = itemIds .reversal db
  closings : (reports log).Perm (db.closedDays.map BusinessDay.report)
  charges : (entityIds .posChargeValidated log).Sublist (itemIds .charge db)
  evidence : ∀ row ∈ log, row.action = .posChargeValidated →
    ∃ evidence stay guest item, row.newValue = .evidence evidence ∧
      Evidenced rt db row evidence stay guest item

variable {rt : Runtime} {db db' : Database}

/-! ## Closed days -/

section Closing

variable {input : CloseBusinessDayInput} {id : String} {now : ℤ}

theorem mem_closedDays {day : BusinessDay} :
    day ∈ db.closedDays ↔ day ∈ db.businessDays.rows ∧ day.status = .closed := by
  rw [closedDays, List.mem_filter, decide_eq_true_eq]

theorem nodup_closedDays (db : Database) : db.closedDays.Nodup :=
  (db.businessDays.distinct.imp fun h he => h (.inl (congrArg _ he))).filter _

theorem closedDays_congr (h : db'.businessDays = db.businessDays) :
    db'.closedDays = db.closedDays := by
  rw [closedDays, h, closedDays]

/-- A call that is no night audit leaves the days as they are. -/
theorem Effect.businessDays {call : LedgerCall} (h : Effect rt db db' call)
    (hcall : ∀ input id now, call ≠ .close input id now) : db'.businessDays = db.businessDays := by
  cases h with
  | posted _ _ _ _ _ _ _ _ _ _ creates => exact creates.created.businessDays
  | reversed _ _ _ _ _ _ _ _ _ creates => exact creates.created.businessDays
  | transferred _ _ _ _ _ _ _ moves => exact moves.moved.businessDays
  | charged _ _ _ _ _ _ _ _ chosen _ _ _ creates =>
    have hbase := creates.created.businessDays
    cases chosen_of_chargedFolio chosen with
    | found _ hsame => rw [hbase, hsame]
    | created _ _ _ _ _ hdays => rw [hbase, hdays]
  | audited input id now _ _ _ _ => exact absurd rfl (hcall input id now)

/-- A night audit writes a report of its day, and closes no other. -/
structure Closes (rt : Runtime) (db : Database) (input : CloseBusinessDayInput) (now : ℤ)
    (closed : BusinessDay) (db' : Database) : Prop where
  tables : ∃ businessDays, db' = { db with businessDays }
  found : db'.findBusinessDay input.propertyId (utcDay input.businessDate) = some closed
  snapshot : closed.reportSnapshot =
    some (reportSnapshot (db.auditedItems rt input.businessDate) now)
  days : db'.closedDays.Perm (closed :: db.closedDays)

theorem snapshot_closedDay {day closed : BusinessDay} {items : List FolioLineItem}
    (h : closedDay rt day items input now = some closed) :
    closed.reportSnapshot = some (reportSnapshot items now) := by
  simp only [closedDay, Option.bind_eq_bind, Option.bind_eq_some_iff] at h
  obtain ⟨_, -, _, -, _, -, h⟩ := h
  split at h
  · cases h
  · cases h
    rfl

/-- The row of a day that was open is the only one that is closed in addition. -/
theorem closedDays_replaceDay {day closed : BusinessDay} (hkeys) (hmem : day ∈ db.businessDays.rows)
    (hopen : day.status ≠ .closed) (hclosed : closed.status = .closed) :
    (db.replaceDay day closed hkeys).closedDays.Perm (closed :: db.closedDays) := by
  have hnew : closed ∉ db.closedDays := by
    intro h
    -- the two rows have one id
    have hsame := db.businessDays.eq_of_clash BusinessDay.Clash.symm (mem_closedDays.mp h).1 hmem
      (.inl hkeys.1)
    exact hopen (hsame ▸ hclosed)
  rw [List.perm_ext_iff_of_nodup (nodup_closedDays _)
    (List.nodup_cons.mpr ⟨hnew, nodup_closedDays db⟩)]
  intro d
  rw [mem_closedDays, List.mem_cons, mem_closedDays]
  show d ∈ db.businessDays.rows.map _ ∧ _ ↔ _
  rw [List.mem_map]
  constructor
  · rintro ⟨⟨e, he, rfl⟩, hstatus⟩
    by_cases hday : e = day
    · exact .inl (if_pos hday)
    · rw [if_neg hday] at hstatus ⊢
      exact .inr ⟨he, hstatus⟩
  · rintro (rfl | ⟨hd, hstatus⟩)
    · exact ⟨⟨day, hmem, if_pos rfl⟩, hclosed⟩
    · refine ⟨⟨d, hd, if_neg ?_⟩, hstatus⟩
      rintro rfl
      exact hopen hstatus

theorem closes_upsert (hopen : ∀ day ∈ db.findBusinessDay input.propertyId
      (utcDay input.businessDate), day.status ≠ .closed)
    (h : db.upsertClosed rt (db.auditedItems rt input.businessDate) input id now = .ok db') :
    ∃ closed, Closes rt db input now closed db' := by
  rw [upsertClosed] at h
  split at h
  · next day hday =>
    split at h
    · next closed hclosed =>
      cases h
      have hkeys := keys_closedDay rt hclosed
      exact ⟨closed, ⟨_, rfl⟩, findBusinessDay_replaceDay _ hday, snapshot_closedDay hclosed,
        closedDays_replaceDay _ (List.mem_of_find?_eq_some hday) (hopen day hday) hkeys.2.2.2⟩
    · cases h
  · next hnone =>
    split at h
    · split at h
      · next businessDays hdays =>
        cases h
        obtain ⟨closed, hclosed, hcreate⟩ := Option.bind_eq_some_iff.mp hdays
        have hkeys := keys_closedDay rt hclosed
        refine ⟨closed, ⟨_, rfl⟩, findBusinessDay_create ⟨hkeys.2.1, hkeys.2.2.1⟩ hnone hcreate,
          snapshot_closedDay hclosed, ?_⟩
        have hrows : closedDays { db with businessDays } = db.closedDays ++ [closed] := by
          rw [closedDays, (Table.create_eq_some hcreate).1, List.filter_append, closedDays,
            List.filter_singleton, decide_eq_true hkeys.2.2.2, cond_true]
        rw [hrows]
        exact List.perm_append_singleton _ _
      · cases h
    · cases h

theorem closes_of_closeBusinessDay (h : db.closeBusinessDay rt input id now = .ok db') :
    ∃ closed, Closes rt db input now closed db' := by
  rw [closeBusinessDay] at h
  split at h
  · next day hday =>
    split at h
    · cases h
    · next hopen =>
      refine closes_upsert (fun found hfound => ?_) h
      obtain rfl : day = found := Option.some.inj (hday.symm.trans hfound)
      exact hopen
  · next hnone =>
    refine closes_upsert (fun found hfound => ?_) h
    exact absurd (hnone.symm.trans hfound) (by simp)

end Closing

/-! ## Stays and their folios -/

/-- Guests and stays are as before, and folios stay with their stay. -/
structure KeepsStays (db db' : Database) : Prop where
  guests : db'.guests = db.guests
  reservations : db'.reservations = db.reservations
  folios : ∀ folioId stayId, db.OfStay folioId stayId → db'.OfStay folioId stayId

theorem KeepsStays.trans {mid : Database} (h : db.KeepsStays mid) (h' : mid.KeepsStays db') :
    db.KeepsStays db' :=
  ⟨h'.guests.trans h.guests, h'.reservations.trans h.reservations,
    fun f s hof => h'.folios f s (h.folios f s hof)⟩

theorem keepsStays_incrementBalance {id : String} {increment : ℚ}
    (h : db.incrementBalance id increment = .ok db') : db.KeepsStays db' := by
  obtain ⟨_, balance, -, -, rfl⟩ := incrementBalance_eq_ok h
  refine ⟨rfl, rfl, ?_⟩
  rintro folioId stayId ⟨f, hf, hid, hstay⟩
  refine ⟨_, List.mem_map_of_mem hf, ?_⟩
  split
  · exact ⟨hid, hstay⟩
  · exact ⟨hid, hstay⟩

theorem Creates.keepsStays {item : FolioLineItem} {increment : ℚ}
    (h : db.Creates item increment db') : db.KeepsStays db' := by
  obtain ⟨mid, hcreate, hbalance⟩ := h
  obtain ⟨_, lineItems, -, -, rfl⟩ := createLineItem_eq_ok hcreate
  have hcreated : db.KeepsStays { db with lineItems } := ⟨rfl, rfl, fun _ _ h => h⟩
  exact hcreated.trans (keepsStays_incrementBalance hbalance)

theorem Moves.keepsStays {item : FolioLineItem} {row : FolioTransfer} (h : db.Moves item row db') :
    db.KeepsStays db' := by
  obtain ⟨mid, paid, hcreate, hout, hin⟩ := h
  obtain ⟨_, transfers, -, -, rfl⟩ := createTransfer_eq_ok hcreate
  have hcreated : db.KeepsStays { db with transfers } := ⟨rfl, rfl, fun _ _ h => h⟩
  exact (hcreated.trans (keepsStays_incrementBalance hout)).trans (keepsStays_incrementBalance hin)

theorem Closes.keepsStays {input : CloseBusinessDayInput} {now : ℤ} {closed : BusinessDay}
    (h : Closes rt db input now closed db') : db.KeepsStays db' := by
  obtain ⟨_, rfl⟩ := h.tables
  exact ⟨rfl, rfl, fun _ _ h => h⟩

/-- The folio of a charge is one of the stay, before or by the charge. -/
theorem chargedFolio_ofStay {stay : Reservation} {propertyId folioId : String} {folio : Folio}
    {base : Database} (h : db.chargedFolio stay propertyId folioId = .ok (folio, base)) :
    db.KeepsStays base ∧ base.OfStay folio.id stay.id := by
  rw [chargedFolio] at h
  split at h
  · next hpick =>
    cases h
    obtain ⟨hmem, hstay⟩ := List.mem_filter.mp (mem_of_pickOpenFolio hpick)
    rw [decide_eq_true_eq] at hstay
    exact ⟨⟨rfl, rfl, fun _ _ h => h⟩, folio, hmem, rfl, hstay.1⟩
  · obtain ⟨mid, hcreate, hpure⟩ := bind_eq_ok h
    obtain ⟨folios, hfolios, rfl⟩ := createFolio_eq_ok hcreate
    cases hpure
    have hrows := (Table.create_eq_some hfolios).1
    refine ⟨⟨rfl, rfl, ?_⟩, _, hrows ▸ List.mem_append_right _ List.mem_cons_self, rfl, rfl⟩
    rintro folioId stayId ⟨f, hf, hof⟩
    exact ⟨f, hrows ▸ List.mem_append_left _ hf, hof⟩

/-! ## The charge -/

theorem LineItemData.stored_price {data : LineItemData} {id : String} {item : FolioLineItem}
    (h : data.store id = some item) : item.description = data.description ∧
      Numeric.store 10 2 data.unitPrice = some item.unitPrice := by
  simp only [store, Option.bind_eq_bind, Option.bind_eq_some_iff] at h
  obtain ⟨_, -, price, hprice, _, -, _, -, _, -, _, -, h⟩ := h
  split at h
  · cases h
  · cases h
    exact ⟨rfl, hprice⟩

theorem of_findStay {propertyId roomNumber : String} {stay : Reservation}
    (h : db.findStay propertyId roomNumber = some stay) :
    stay ∈ db.reservations ∧ stay.propertyId = propertyId ∧ stay.status = .checkedIn := by
  have hkey := List.find?_some h
  rw [decide_eq_true_iff] at hkey
  exact ⟨List.mem_of_find?_eq_some h, hkey.1, hkey.2.1⟩

/-- A charge that goes through creates its line item on a folio of the stay that it has found, and
the evidence for it is true. -/
theorem evidenced_of_charge {input : PosChargeInput} {id folioId : String} {now : ℤ}
    (operatorId : Option String) (h : db.posPostCharge rt input id folioId now = .ok db') :
    ∃ stay guest item, db.findStay input.propertyId input.roomNumber = some stay ∧
      Evidenced rt db' (chargeRow rt input operatorId stay id) (input.evidence rt stay) stay guest
        item ∧
      item.kind = .charge ∧ db'.lineItems.rows = db.lineItems.rows ++ [item] ∧
      db.KeepsStays db' := by
  rw [posPostCharge] at h
  split at h
  · cases h
  · next stay hstay =>
    obtain ⟨hmem, hproperty, hstatus⟩ := of_findStay hstay
    split at h
    · cases h
    · next guest hguest =>
      split at h
      · cases h
      · next hname =>
        obtain ⟨⟨folio, base⟩, hchosen, h⟩ := bind_eq_ok h
        obtain ⟨mid, hcreate, hbalance⟩ := bind_eq_ok h
        obtain ⟨item, _, hitem, -⟩ := createLineItem_eq_ok hcreate
        have hstored := LineItemData.stored hitem
        obtain ⟨hdescription, hprice⟩ := LineItemData.stored_price hitem
        have hfolioId : item.folioId = folio.id := hstored.folioId
        rw [hitem] at hcreate
        rw [← hfolioId] at hbalance
        have hcreates : base.Creates item _ db' := ⟨mid, hcreate, hbalance⟩
        obtain ⟨hkeep, hfolio⟩ := chargedFolio_ofStay hchosen
        have hkeeps := hkeep.trans hcreates.keepsStays
        have hbase : base.lineItems = db.lineItems := by
          cases chosen_of_chargedFolio hchosen with
          | found _ hsame => rw [hsame]
          | created _ _ _ hlineItems _ _ => exact hlineItems
        have hrows : db'.lineItems.rows = db.lineItems.rows ++ [item] := by
          rw [hcreates.created.lineItems, hbase]
        have hid : guest.id = stay.guestId := by simpa using List.find?_some hguest
        refine ⟨stay, guest, item, hstay, ?_, hstored.kind, hrows, hkeeps⟩
        exact {
          stay_mem := hkeeps.reservations ▸ hmem
          stay_id := rfl
          property := hproperty
          status := hstatus
          guest_mem := hkeeps.guests ▸ List.mem_of_find?_eq_some hguest
          guest_id := hid
          matched := hid
          name := not_not.mp hname
          item_mem := hrows ▸ List.mem_append_right _ List.mem_cons_self
          item_id := hstored.id
          folio := hstored.folioId ▸ hcreates.keepsStays.folios _ _ hfolio
          description := hdescription
          price := hprice }

theorem Evidenced.mono {row : AuditLog} {evidence : ChargeEvidence} {stay : Reservation}
    {guest : Guest} {item : FolioLineItem} (h : Evidenced rt db row evidence stay guest item)
    (hkeeps : db.KeepsStays db') (hitems : db.lineItems.rows ⊆ db'.lineItems.rows) :
    Evidenced rt db' row evidence stay guest item :=
  { h with
    stay_mem := hkeeps.reservations ▸ h.stay_mem
    guest_mem := hkeeps.guests ▸ h.guest_mem
    item_mem := hitems h.item_mem
    folio := hkeeps.folios _ _ h.folio }

/-! ## One call -/

section Concat

variable {α β : Type} {p : α → Bool} {f : α → β} {l : List α} {a : α}

theorem map_filter_concat_of_pos (h : p a = true) :
    ((l ++ [a]).filter p).map f = (l.filter p).map f ++ [f a] := by
  rw [List.filter_append, List.filter_singleton, h, cond_true, List.map_append, List.map_singleton]

theorem map_filter_concat_of_neg (h : p a = false) :
    ((l ++ [a]).filter p).map f = (l.filter p).map f := by
  rw [List.filter_append, List.filter_singleton, h, cond_false, List.append_nil]

end Concat

namespace Accounted

variable {log : List AuditLog}

/-- The evidence stays true of tables that keep it, and is true of a new row that has it. -/
theorem evidence_concat (h : Accounted rt db log) (hkeeps : db.KeepsStays db')
    (hitems : db.lineItems.rows ⊆ db'.lineItems.rows) {row : AuditLog}
    (hrow : row.action = .posChargeValidated → ∃ evidence stay guest item,
      row.newValue = .evidence evidence ∧ Evidenced rt db' row evidence stay guest item) :
    ∀ r ∈ log ++ [row], r.action = .posChargeValidated → ∃ evidence stay guest item,
      r.newValue = .evidence evidence ∧ Evidenced rt db' r evidence stay guest item := by
  refine forall_mem_concat (fun r hr haction => ?_) hrow
  obtain ⟨evidence, stay, guest, item, hvalue, htrue⟩ := h.evidence r hr haction
  exact ⟨evidence, stay, guest, item, hvalue, htrue.mono hkeeps hitems⟩

theorem post (h : Accounted rt db log) {input : PostLineItemInput} {id : String} {now : ℤ}
    (hpost : db.postLineItem rt input id now = .ok db') : Accounted rt db' log := by
  cases effect_post hpost with
  | posted _ _ _ _ _ _ _ _ item stored creates =>
    have hrows := creates.created.lineItems
    have hkind : item.kind = .charge := stored.kind
    refine ⟨?_, ?_, ?_, fun r hr haction => ?_⟩
    · rw [h.reversals, itemIds, itemIds, hrows, map_filter_concat_of_neg (by simp [hkind])]
    · rw [closedDays_congr creates.created.businessDays]
      exact h.closings
    · refine h.charges.trans ?_
      rw [itemIds, itemIds, hrows, map_filter_concat_of_pos (by simp [hkind])]
      exact List.sublist_append_left _ _
    · obtain ⟨evidence, stay, guest, item, hvalue, htrue⟩ := h.evidence r hr haction
      exact ⟨evidence, stay, guest, item, hvalue,
        htrue.mono creates.keepsStays (hrows ▸ List.subset_append_left _ _)⟩

theorem reverse (h : Accounted rt db log) {input : ReverseLineItemInput} {id : String} {now : ℤ}
    (hreverse : db.reverseLineItem rt input id now = .ok db') (propertyId reversedBy : String) :
    Accounted rt db' (log ++ [reversalRow propertyId reversedBy id]) := by
  cases effect_reverse hreverse with
  | reversed _ _ _ _ _ _ _ item stored creates =>
    have hrows := creates.created.lineItems
    have hkind : item.kind = .reversal := stored.kind
    refine ⟨?_, ?_, ?_, h.evidence_concat creates.keepsStays ?_ nofun⟩
    · rw [itemIds, hrows, entityIds, map_filter_concat_of_pos rfl,
        map_filter_concat_of_pos (by simp [hkind]), stored.id]
      exact congrArg (· ++ [id]) h.reversals
    · rw [reports, map_filter_concat_of_neg rfl, closedDays_congr creates.created.businessDays]
      exact h.closings
    · rw [entityIds, map_filter_concat_of_neg rfl, itemIds, hrows,
        map_filter_concat_of_neg (by simp [hkind])]
      exact h.charges
    · exact hrows ▸ List.subset_append_left _ _

theorem transfer (h : Accounted rt db log) {input : TransferItemInput} {id : String}
    (htransfer : db.transferFolioItem input id = .ok db') : Accounted rt db' log := by
  have heffect : Effect rt db db' (.transfer input id) := effect_transfer htransfer
  cases heffect with
  | transferred _ _ _ _ _ _ _ moves =>
    have hitems := moves.moved.lineItems
    refine ⟨?_, ?_, ?_, fun r hr haction => ?_⟩
    · rw [h.reversals, itemIds, itemIds, hitems]
    · rw [closedDays_congr moves.moved.businessDays]
      exact h.closings
    · rw [itemIds, hitems]
      exact h.charges
    · obtain ⟨evidence, stay, guest, item, hvalue, htrue⟩ := h.evidence r hr haction
      exact ⟨evidence, stay, guest, item, hvalue,
        htrue.mono moves.keepsStays (hitems ▸ List.Subset.refl _)⟩

theorem charge (h : Accounted rt db log) {input : PosChargeInput} {id folioId : String} {now : ℤ}
    (hcharge : db.posPostCharge rt input id folioId now = .ok db') (operatorId : Option String)
    {stay : Reservation} (hstay : db.findStay input.propertyId input.roomNumber = some stay) :
    Accounted rt db' (log ++ [chargeRow rt input operatorId stay id]) := by
  obtain ⟨found, guest, item, hfound, htrue, hkind, hrows, hkeeps⟩ :=
    evidenced_of_charge operatorId hcharge
  obtain rfl : stay = found := Option.some.inj (hstay.symm.trans hfound)
  refine ⟨?_, ?_, ?_, h.evidence_concat hkeeps ?_ fun _ => ⟨_, stay, guest, item, rfl, htrue⟩⟩
  · rw [entityIds, map_filter_concat_of_neg rfl, itemIds, hrows,
      map_filter_concat_of_neg (by simp [hkind])]
    exact h.reversals
  · rw [reports, map_filter_concat_of_neg rfl,
      closedDays_congr ((effect_charge hcharge).businessDays (by simp))]
    exact h.closings
  · rw [entityIds, map_filter_concat_of_pos rfl, itemIds, hrows,
      map_filter_concat_of_pos (by simp [hkind]), htrue.item_id]
    exact h.charges.append_right _
  · exact hrows ▸ List.subset_append_left _ _

theorem close (h : Accounted rt db log) {input : CloseBusinessDayInput} {id : String} {now : ℤ}
    (hclose : db.closeBusinessDay rt input id now = .ok db') {day : BusinessDay}
    (hday : db'.findBusinessDay input.propertyId (utcDay input.businessDate) = some day) :
    Accounted rt db' (log ++ [closingRow input day.id
      (reportSnapshot (db.auditedItems rt input.businessDate) now)]) := by
  obtain ⟨closed, hcloses⟩ := closes_of_closeBusinessDay hclose
  obtain rfl : closed = day := Option.some.inj (hcloses.found.symm.trans hday)
  obtain ⟨businessDays, hdb'⟩ := hcloses.tables
  have hitems : db'.lineItems = db.lineItems := by rw [hdb']
  refine ⟨?_, ?_, ?_, h.evidence_concat hcloses.keepsStays ?_ nofun⟩
  · rw [entityIds, map_filter_concat_of_neg rfl, itemIds, hitems]
    exact h.reversals
  · have hreport : closed.report =
        (closed.id, .snapshot (reportSnapshot (db.auditedItems rt input.businessDate) now)) := by
      rw [BusinessDay.report, hcloses.snapshot]
    rw [reports, map_filter_concat_of_pos rfl]
    refine ((List.perm_append_singleton _ _).trans ?_).trans (hcloses.days.map _).symm
    rw [List.map_cons, hreport]
    exact h.closings.cons _
  · rw [entityIds, map_filter_concat_of_neg rfl, itemIds, hitems]
    exact h.charges
  · exact hitems ▸ List.Subset.refl _

end Accounted

/-! ## Any calls -/

section Run

variable {uuid : String → Prop} [DecidablePred uuid] {s t : Audited} {call : AuditedCall}

theorem Audited.commit_eq_some : s.commit rt uuid call = some t ↔ s.perform rt uuid call = .ok t := by
  rw [Audited.commit]
  cases s.perform rt uuid call with
  | ok t => simp
  | error e => simp

theorem create_eq_ok {row : AuditLog} (h : s.create uuid db row = .ok t) :
    t = ⟨db, s.auditLog ++ [row]⟩ := by
  rw [Audited.create] at h
  split at h
  · cases h
    rfl
  · cases h

/-- A call that goes through without the log, and the rows that it leaves in it. -/
inductive Leaves (rt : Runtime) (db : Database) : AuditedCall → Database → List AuditLog → Prop
  | posted (input : PostLineItemInput) (id : String) (now : ℤ) (db' : Database)
      (through : db.postLineItem rt input id now = .ok db') :
      Leaves rt db (.post input id now) db' []
  | reversed (input : ReverseLineItemInput) (propertyId reversedBy id : String) (now : ℤ)
      (db' : Database) (through : db.reverseLineItem rt input id now = .ok db') :
      Leaves rt db (.reverse input propertyId reversedBy id now) db'
        [reversalRow propertyId reversedBy id]
  | transferred (input : TransferItemInput) (id : String) (db' : Database)
      (through : db.transferFolioItem input id = .ok db') :
      Leaves rt db (.transfer input id) db' []
  | charged (input : PosChargeInput) (operatorId : Option String) (id folioId : String) (now : ℤ)
      (stay : Reservation) (found : db.findStay input.propertyId input.roomNumber = some stay)
      (db' : Database) (through : db.posPostCharge rt input id folioId now = .ok db') :
      Leaves rt db (.charge input operatorId id folioId now) db'
        [chargeRow rt input operatorId stay id]
  | closed (input : CloseBusinessDayInput) (id : String) (now : ℤ) (db' : Database)
      (through : db.closeBusinessDay rt input id now = .ok db') (day : BusinessDay)
      (found : db'.findBusinessDay input.propertyId (utcDay input.businessDate) = some day) :
      Leaves rt db (.close input id now) db'
        [closingRow input day.id (reportSnapshot (db.auditedItems rt input.businessDate) now)]

theorem leaves_of_commit (h : s.commit rt uuid call = some t) :
    ∃ rows, t.auditLog = s.auditLog ++ rows ∧ Leaves rt s.db call t.db rows := by
  rw [Audited.commit_eq_some] at h
  cases call with
  | post input id now =>
    obtain ⟨db, hpost, hpure⟩ := bind_eq_ok h
    cases hpure
    exact ⟨[], (List.append_nil _).symm, .posted input id now db hpost⟩
  | reverse input propertyId reversedBy id now =>
    obtain ⟨db, hreverse, hcreate⟩ := bind_eq_ok h
    obtain rfl := create_eq_ok hcreate
    exact ⟨_, rfl, .reversed input propertyId reversedBy id now db hreverse⟩
  | transfer input id =>
    obtain ⟨db, htransfer, hpure⟩ := bind_eq_ok h
    cases hpure
    exact ⟨[], (List.append_nil _).symm, .transferred input id db htransfer⟩
  | charge input operatorId id folioId now =>
    obtain ⟨db, hcharge, hrow⟩ := bind_eq_ok h
    split at hrow
    · next stay hstay =>
      obtain rfl := create_eq_ok hrow
      exact ⟨_, rfl, .charged input operatorId id folioId now stay hstay db hcharge⟩
    · cases hrow
  | close input id now =>
    obtain ⟨db, hclose, hrow⟩ := bind_eq_ok h
    split at hrow
    · next day hday =>
      obtain rfl := create_eq_ok hrow
      exact ⟨_, rfl, .closed input id now db hclose day hday⟩
    · cases hrow

/-- The tables go through the call as they do without the log. -/
theorem Leaves.perform {rows : List AuditLog} (h : Leaves rt db call db' rows) :
    db.perform rt call.call = .ok db' := by
  cases h with
  | posted _ _ _ _ through => exact through
  | reversed _ _ _ _ _ _ through => exact through
  | transferred _ _ _ through => exact through
  | charged _ _ _ _ _ _ _ _ through => exact through
  | closed _ _ _ _ through _ _ => exact through

theorem Leaves.accounted {rows log : List AuditLog} (h : Leaves rt db call db' rows)
    (hlog : Accounted rt db log) : Accounted rt db' (log ++ rows) := by
  cases h with
  | posted _ _ _ _ through =>
    rw [List.append_nil]
    exact hlog.post through
  | reversed _ propertyId reversedBy _ _ _ through => exact hlog.reverse through propertyId reversedBy
  | transferred _ _ _ through =>
    rw [List.append_nil]
    exact hlog.transfer through
  | charged _ operatorId _ _ _ stay found _ through => exact hlog.charge through operatorId found
  | closed _ _ _ _ through day found => exact hlog.close through found

/-- The row of a closed day is not written again. -/
theorem Leaves.closedDays_subset {rows : List AuditLog} (h : Leaves rt db call db' rows) :
    db.closedDays ⊆ db'.closedDays := by
  have hkept {call : LedgerCall} (heffect : Effect rt db db' call)
      (hcall : ∀ input id now, call ≠ .close input id now) : db.closedDays ⊆ db'.closedDays := by
    rw [closedDays_congr (heffect.businessDays hcall)]
    exact List.Subset.refl _
  cases h with
  | posted _ _ _ _ through => exact hkept (effect_post through) (by simp)
  | reversed _ _ _ _ _ _ through => exact hkept (effect_reverse through) (by simp)
  | transferred _ _ _ through => exact hkept (effect_transfer through) (by simp)
  | charged _ _ _ _ _ _ _ _ through => exact hkept (effect_charge through) (by simp)
  | closed _ _ _ _ through _ _ =>
    obtain ⟨closed, hcloses⟩ := closes_of_closeBusinessDay through
    intro day hday
    exact hcloses.days.mem_iff.mpr (List.mem_cons_of_mem _ hday)

/-- A line item is there before, or a row is about it, or the call has posted it. -/
theorem Leaves.items {rows : List AuditLog} (h : Leaves rt db call db' rows) :
    ∀ item ∈ db'.lineItems.rows, item ∈ db.lineItems.rows ∨
      (∃ row ∈ rows, row.entityType = "folio_line_items" ∧ row.entityId = item.id) ∨
      ∃ input now, call = .post input item.id now := by
  intro i hi
  cases h with
  | posted input id now _ through =>
    cases effect_post through with
    | posted _ _ _ _ _ _ _ _ item stored creates =>
      rw [creates.created.lineItems, List.mem_append, List.mem_singleton] at hi
      rcases hi with hi | rfl
      · exact .inl hi
      · exact .inr (.inr ⟨input, now, by rw [stored.id]⟩)
  | reversed _ _ _ _ _ _ through =>
    cases effect_reverse through with
    | reversed _ _ _ _ _ _ _ item stored creates =>
      rw [creates.created.lineItems, List.mem_append, List.mem_singleton] at hi
      rcases hi with hi | rfl
      · exact .inl hi
      · exact .inr (.inl ⟨_, List.mem_cons_self, rfl, stored.id.symm⟩)
  | transferred input id _ through =>
    have heffect : Effect rt db db' (.transfer input id) := effect_transfer through
    cases heffect with
    | transferred _ _ _ _ _ _ _ moves => exact .inl (moves.moved.lineItems ▸ hi)
  | charged _ operatorId _ _ _ _ _ _ through =>
    obtain ⟨_, _, item, -, htrue, -, hrows, -⟩ := evidenced_of_charge operatorId through
    rw [hrows, List.mem_append, List.mem_singleton] at hi
    rcases hi with hi | rfl
    · exact .inl hi
    · exact .inr (.inl ⟨_, List.mem_cons_self, rfl, htrue.item_id.symm⟩)
  | closed _ _ _ _ through _ _ =>
    obtain ⟨_, hcloses⟩ := closes_of_closeBusinessDay through
    obtain ⟨_, hdb'⟩ := hcloses.tables
    rw [hdb'] at hi
    exact .inl hi

/-- What a run from `s` has come to: the log has only grown, closed days are as they were, and each
new line item is in the log, or one that a posting of the run has created. -/
structure Follows (rt : Runtime) (s : Audited) (past : List AuditedCall) (t : Audited) : Prop where
  accounted : Accounted rt t.db t.auditLog
  log : s.auditLog <+: t.auditLog
  closedDays : s.db.closedDays ⊆ t.db.closedDays
  items : ∀ item ∈ t.db.lineItems.rows, item ∈ s.db.lineItems.rows ∨
    (∃ row ∈ t.auditLog, row.entityType = "folio_line_items" ∧ row.entityId = item.id) ∨
    ∃ input now, .post input item.id now ∈ past

theorem Follows.step {past : List AuditedCall} {u : Audited} (h : Follows rt s past t)
    (hstep : t.commit rt uuid call = some u) : Follows rt s (past ++ [call]) u := by
  obtain ⟨rows, hlog, hleaves⟩ := leaves_of_commit hstep
  refine ⟨hlog ▸ hleaves.accounted h.accounted, ?_,
    List.Subset.trans h.closedDays hleaves.closedDays_subset, ?_⟩
  · rw [hlog]
    exact h.log.trans (List.prefix_append _ _)
  · intro item hitem
    rw [hlog]
    rcases hleaves.items item hitem with hold | ⟨row, hrow, habout⟩ | ⟨input, now, rfl⟩
    · rcases h.items item hold with hfirst | ⟨row, hrow, habout⟩ | ⟨input, now, hmem⟩
      · exact .inl hfirst
      · exact .inr (.inl ⟨row, List.mem_append_left _ hrow, habout⟩)
      · exact .inr (.inr ⟨input, now, List.mem_append_left _ hmem⟩)
    · exact .inr (.inl ⟨row, List.mem_append_right _ hrow, habout⟩)
    · exact .inr (.inr ⟨input, now, List.mem_append_right _ List.mem_cons_self⟩)

/-- Through any calls that go through, the tables are those of the calls without the log, and the
log accounts for them. -/
theorem log_accounts {calls : List AuditedCall} (h : Accounted rt s.db s.auditLog)
    (hrun : run (Audited.commit rt uuid) s calls = some t) :
    run (commit rt) s.db (calls.map AuditedCall.call) = some t.db ∧ Follows rt s calls t := by
  constructor
  · refine run_project (f := Audited.db) (fun u call v hstep => ?_) hrun
    obtain ⟨_, -, hleaves⟩ := leaves_of_commit hstep
    exact (commit_eq_some rt).mpr hleaves.perform
  · have hstart : Follows rt s [] s :=
      ⟨h, List.prefix_refl _, List.Subset.refl _, fun _ hitem => .inl hitem⟩
    have hfollows := run_history (I := Follows rt s) (fun past u call v => Follows.step) hstart hrun
    rwa [List.nil_append] at hfollows

end Run

/-- The hotel of one stay, under an id that the columns of the log take. -/
def loggedHotel : Audited where
  db := { sample with
    properties := [⟨"10000000-0000-4000-8000-000000000001", some (16 / 100)⟩]
    rooms := [⟨"room", "10000000-0000-4000-8000-000000000001", "101", .occupiedClean, true⟩]
    reservations := [{ sampleStay with propertyId := "10000000-0000-4000-8000-000000000001" }]
    folios := ⟨[{ sampleFolio "master" .master with
      propertyId := "10000000-0000-4000-8000-000000000001" }], by decide⟩ }
  auditLog := []

/-- A night is posted and reversed, with a tea in between, and the day is closed. -/
def loggedNight : List AuditedCall := [
  .post { samplePosting none with propertyId := "10000000-0000-4000-8000-000000000001" }
    "20000000-0000-4000-8000-000000000001" 0,
  .charge { sampleCharge with propertyId := "10000000-0000-4000-8000-000000000001" } none
    "20000000-0000-4000-8000-000000000002" "folio" 3600000,
  .reverse ⟨"20000000-0000-4000-8000-000000000001"⟩ "10000000-0000-4000-8000-000000000001"
    "30000000-0000-4000-8000-000000000001" "20000000-0000-4000-8000-000000000003" 7200000,
  .close ⟨"10000000-0000-4000-8000-000000000001", 0, "30000000-0000-4000-8000-000000000001", none⟩
    "40000000-0000-4000-8000-000000000001" 10800000]

theorem log_accounts_loggedNight :
    ∃ t, run (Audited.commit (.exact 0 id) (isUuid ·)) loggedHotel loggedNight = some t ∧
      run (commit (.exact 0 id)) loggedHotel.db (loggedNight.map AuditedCall.call) = some t.db ∧
      Follows (.exact 0 id) loggedHotel loggedNight t := by
  have hsome : (run (Audited.commit (.exact 0 id) (isUuid ·)) loggedHotel loggedNight).isSome =
      true := by decide +kernel
  obtain ⟨t, ht⟩ := Option.isSome_iff_exists.mp hsome
  have hempty : Accounted (.exact 0 id) loggedHotel.db loggedHotel.auditLog :=
    ⟨rfl, .refl _, .refl _, List.forall_mem_nil _⟩
  exact ⟨t, ht, log_accounts hempty ht⟩

/-- The posting leaves no row. -/
example : (run (Audited.commit (.exact 0 id) (isUuid ·)) loggedHotel loggedNight).map
    (fun t => t.auditLog.map (·.action)) =
      some [.posChargeValidated, .validatedReversal, .nightAuditClosed] := by decide +kernel

end Database

end Hotelia
