import Hotelia.Database.Schema

/-!
# The folio ledger

`packages/database/src/ledger.ts`. Each call is one transaction: it returns the
database that it commits, or the failure after which everything is as before. The
`metadata` of the items is left out, since nothing reads it, and the rows of the
audit log are added in `AuditLog`.

## Main definitions

- `postLineItem`, `reverseLineItem`, `transferFolioItem`
- `closeBusinessDay` — the night audit
-/

namespace Hotelia
open Foundation

namespace Database

structure PostLineItemInput where
  folioId : String
  propertyId : String
  sourceModule : LineItemSource
  description : String
  quantity : Option ℚ
  unitPrice : ℚ
  taxRate : Option ℚ
  discountAmount : Option ℚ
  businessDate : Option ℤ

structure ReverseLineItemInput where
  lineItemId : String

structure TransferItemInput where
  propertyId : String
  lineItemId : String
  fromFolioId : String
  toFolioId : String
  reason : String

structure CloseBusinessDayInput where
  propertyId : String
  businessDate : ℤ
  closedBy : String
  cutoffTime : Option String

/-! ## Columns -/

/-- What `folioLineItem.create` is given, before the columns round it. -/
structure LineItemData where
  folioId : String
  kind : LineItemKind
  sourceModule : LineItemSource
  description : String
  quantity : ℚ
  unitPrice : ℚ
  taxRate : ℚ
  taxAmount : ℚ
  discountAmount : ℚ
  total : ℚ
  businessDate : ℤ
  reversesItemId : Option String

/-- The row that the data are stored as, unless a column refuses them. -/
def LineItemData.store (data : LineItemData) (id : String) : Option FolioLineItem := do
  let quantity ← Numeric.store 8 2 data.quantity
  let unitPrice ← Numeric.store 10 2 data.unitPrice
  let taxRate ← Numeric.store 5 4 data.taxRate
  let taxAmount ← Numeric.store 10 2 data.taxAmount
  let discountAmount ← Numeric.store 10 2 data.discountAmount
  let total ← Numeric.store 10 2 data.total
  if 500 < data.description.length then none
  else some {
    id, folioId := data.folioId, kind := data.kind, sourceModule := data.sourceModule,
    description := data.description, quantity, unitPrice, taxRate, taxAmount, discountAmount, total,
    businessDate := utcDay data.businessDate, reversesItemId := data.reversesItemId }

/-! ## Business days -/

/-- `assertBusinessDayOpen(propertyId, businessDate)`. -/
def assertBusinessDayOpen (db : Database) (propertyId : String) (businessDate : ℤ) :
    Except Failure Unit :=
  match db.findBusinessDay propertyId (utcDay businessDate) with
  | some day =>
    if day.status = .closed then
      .error (.ledger .businessDayClosed ("Business day " ++ isoDay (utcDay businessDate) ++
        " is CLOSED — corrections must be posted as reversals on the active business date"))
    else .ok ()
  | none => .ok ()

/-- The later of two days. -/
def laterDay (best : Option BusinessDay) (day : BusinessDay) : Option BusinessDay :=
  match best with
  | some other => if other.businessDate < day.businessDate then some day else some other
  | none => some day

/-- `businessDay.findFirst` with the latest date first: the last `OPEN` day of the property. -/
def activeBusinessDay (db : Database) (propertyId : String) : Option BusinessDay :=
  (db.businessDays.rows.filter fun d => d.propertyId = propertyId ∧ d.status = .opened).foldl
    laterDay none

/-- The instant that an item without a `businessDate` is stamped with. Only the day of the
month is taken from the active business day; the month stays that of the clock. -/
def activeDate (rt : Runtime) (db : Database) (propertyId : String) (now : ℤ) : ℤ :=
  match db.activeBusinessDay propertyId with
  | some active =>
    let activeDay := rt.localDay (midnight active.businessDate)
    let today := rt.localDay now
    if activeDay ≠ today then rt.startOfDay (today - dayOfMonth today + dayOfMonth activeDay)
    else now
  | none => now

/-! ## Postings -/

section

variable (rt : Runtime)

namespace PostLineItemInput

variable (input : PostLineItemInput)

def gross : ℚ := rt.cents (rt.num (input.unitPrice * input.quantity.getD 1))

def discount : ℚ := input.discountAmount.getD 0

def taxAmount : ℚ :=
  rt.cents (rt.num (rt.num (input.gross rt - input.discount) * input.taxRate.getD 0))

/-- `gross - discount + taxAmount`, which is rounded only by the columns. -/
def total : ℚ := rt.num (rt.num (input.gross rt - input.discount) + input.taxAmount rt)

/-- The instant of the item, for a call at `now`. -/
def stampedDate (db : Database) (now : ℤ) : ℤ :=
  input.businessDate.getD (db.activeDate rt input.propertyId now)

/-- The data of the item. -/
def data (db : Database) (now : ℤ) : LineItemData where
  folioId := input.folioId
  kind := .charge
  sourceModule := input.sourceModule
  description := input.description
  quantity := rt.decimal (input.quantity.getD 1)
  unitPrice := rt.decimal input.unitPrice
  taxRate := rt.decimal (input.taxRate.getD 0)
  taxAmount := rt.decimal (input.taxAmount rt)
  discountAmount := rt.decimal input.discount
  total := rt.decimal (input.total rt)
  businessDate := input.stampedDate rt db now
  reversesItemId := none

end PostLineItemInput

/-- `postLineItem(input)`, with `id` for the item. -/
def postLineItem (db : Database) (input : PostLineItemInput) (id : String) (now : ℤ) :
    Except Failure Database := do
  match db.folios.rows.find? fun f => f.id = input.folioId ∧ f.propertyId = input.propertyId with
  | none => throw (.ledger .folioMismatch ("Folio " ++ input.folioId ++ " does not exist"))
  | some folio =>
    if folio.status ≠ .opened then
      throw (.ledger .folioClosed ("Folio " ++ input.folioId ++ " is not OPEN"))
    else
      -- without a date it is today that is checked, not the date that is stamped
      db.assertBusinessDayOpen input.propertyId (input.businessDate.getD now)
      let db ← db.createLineItem ((input.data rt db now).store id)
      db.incrementBalance input.folioId (rt.decimal (input.total rt))

/-- The data of a reversal. The signs are turned on numbers, the rest is copied. -/
def reversalData (original : FolioLineItem) (now : ℤ) : LineItemData where
  folioId := original.folioId
  kind := .reversal
  sourceModule := original.sourceModule
  description := "REVERSAL: " ++ original.description
  quantity := original.quantity.toRat
  unitPrice := original.unitPrice.toRat
  taxRate := original.taxRate.toRat
  taxAmount := rt.decimal (rt.num (-original.taxAmount.toRat))
  discountAmount := rt.decimal (rt.num (-original.discountAmount.toRat))
  total := rt.decimal (rt.num (-original.total.toRat))
  businessDate := now
  reversesItemId := some original.id

/-- `reverseLineItem(input)`, with `id` for the reversal. -/
def reverseLineItem (db : Database) (input : ReverseLineItemInput) (id : String) (now : ℤ) :
    Except Failure Database := do
  match db.findLineItem input.lineItemId with
  | none => throw (.ledger .itemNotFound ("Line item " ++ input.lineItemId ++ " not found"))
  | some original =>
    if original.kind = .reversal then
      throw (.ledger .itemAlreadyReversed
        ("Line item " ++ input.lineItemId ++ " is already a reversal"))
    else
      match db.lineItems.rows.find? fun i =>
        i.reversesItemId = some original.id ∧ i.kind = .reversal with
      | some reversal =>
        throw (.ledger .itemAlreadyReversed ("Line item already reversed (" ++ reversal.id ++ ")"))
      | none =>
        -- no business day is asked for, and the folio is that of the posting
        let db ← db.createLineItem ((reversalData rt original now).store id)
        db.incrementBalance original.folioId (rt.decimal (rt.num (-original.total.toRat)))

end

/-! ## Transfers -/

/-- The row of a transfer, unless a column refuses it. -/
def transferRow (input : TransferItemInput) (item : FolioLineItem) (id : String) :
    Option FolioTransfer := do
  let amount ← Numeric.store 12 2 item.total.toRat
  if 300 < input.reason.length then none
  else some {
    id, fromFolioId := input.fromFolioId, toFolioId := input.toFolioId, lineItemId := item.id, amount,
    reason := input.reason }

/-- `transferFolioItem(input)`, with `id` for the transfer. -/
def transferFolioItem (db : Database) (input : TransferItemInput) (id : String) :
    Except Failure Database := do
  match db.findLineItem input.lineItemId with
  | none => throw (.ledger .itemNotFound ("Line item " ++ input.lineItemId ++ " not found"))
  | some item =>
    -- the folio of the posting, wherever the item is by now
    if item.folioId = input.toFolioId then
      throw (.ledger .folioMismatch "Source and target folios are identical")
    else
      match (db.folios.rows.find? fun f => f.id = input.fromFolioId ∧ f.propertyId = input.propertyId),
        (db.folios.rows.find? fun f => f.id = input.toFolioId ∧ f.propertyId = input.propertyId) with
      | some _, some _ =>
        db.assertBusinessDayOpen input.propertyId (midnight item.businessDate)
        let db ← db.createTransfer (transferRow input item id)
        let db ← db.incrementBalance input.fromFolioId (-item.total.toRat)
        db.incrementBalance input.toFolioId item.total.toRat
      | _, _ =>
        throw (.ledger .folioMismatch "One of the folios does not exist in this property")

/-! ## The night audit -/

section

variable (rt : Runtime)

/-- The window of the audit: a local day, read by its two ends as days of the column. -/
def InWindow (businessDate : ℤ) (item : FolioLineItem) : Prop :=
  utcDay (rt.startOfDay (rt.localDay businessDate)) ≤ item.businessDate ∧
    item.businessDate < utcDay (rt.startOfDay (rt.localDay businessDate + 1))

instance (businessDate : ℤ) : DecidablePred (InWindow rt businessDate) := fun item =>
  inferInstanceAs (Decidable (utcDay (rt.startOfDay (rt.localDay businessDate)) ≤ item.businessDate ∧
    item.businessDate < utcDay (rt.startOfDay (rt.localDay businessDate + 1))))

/-- `Number(decimal)`. -/
def number {p s : ℕ} (x : Numeric p s) : ℚ := rt.num x.toRat

/-- The items that the audit counts. They are not those of one property. -/
def auditedItems (db : Database) (businessDate : ℤ) : List FolioLineItem :=
  db.lineItems.rows.filter (InWindow rt businessDate)

def netRevenue (items : List FolioLineItem) : ℚ :=
  items.foldl (fun acc i =>
    rt.num (rt.num (acc + number rt i.total) - number rt i.taxAmount)) 0

def taxCollected (items : List FolioLineItem) : ℚ :=
  items.foldl (fun acc i => rt.num (acc + number rt i.taxAmount)) 0

def roomRevenue (items : List FolioLineItem) : ℚ :=
  (items.filter (·.sourceModule = .room)).foldl (fun acc i => rt.num (acc + number rt i.total)) 0

def reportSnapshot (items : List FolioLineItem) (now : ℤ) : ReportSnapshot where
  lineItemCount := items.length
  charges := items.countP (0 < ·.total.toRat)
  reversals := items.countP (·.kind = .reversal)
  closedAt := now

/-- The figures of a closed day, unless a column refuses them. -/
def closedDay (day : BusinessDay) (items : List FolioLineItem) (input : CloseBusinessDayInput)
    (now : ℤ) : Option BusinessDay := do
  let netRevenue ← Numeric.store 14 2 (rt.decimal (rt.cents (netRevenue rt items)))
  let roomRevenue ← Numeric.store 14 2 (rt.decimal (rt.cents (roomRevenue rt items)))
  let taxCollected ← Numeric.store 14 2 (rt.decimal (rt.cents (taxCollected rt items)))
  if 5 < (input.cutoffTime.getD "03:00").length then none
  else some { day with
    status := .closed
    cutoffTime := input.cutoffTime.getD "03:00"
    closedAt := some now
    closedBy := some input.closedBy
    netRevenue := some netRevenue
    roomRevenue := some roomRevenue
    taxCollected := some taxCollected
    reportSnapshot := some (reportSnapshot items now) }

/-- A day that has no row yet. -/
def newBusinessDay (input : CloseBusinessDayInput) (id : String) : BusinessDay where
  id := id
  propertyId := input.propertyId
  businessDate := utcDay input.businessDate
  status := .opened
  cutoffTime := "03:00"
  closedAt := none
  closedBy := none
  netRevenue := none
  roomRevenue := none
  taxCollected := none
  reportSnapshot := none

/-- A closed day has the keys of the day. -/
theorem keys_closedDay {day closed : BusinessDay} {items : List FolioLineItem}
    {input : CloseBusinessDayInput} {now : ℤ} (h : closedDay rt day items input now = some closed) :
    closed.id = day.id ∧ closed.propertyId = day.propertyId ∧
      closed.businessDate = day.businessDate ∧ closed.status = .closed := by
  simp only [closedDay, Option.bind_eq_bind, Option.bind_eq_some_iff] at h
  obtain ⟨_, -, _, -, _, -, h⟩ := h
  split at h
  · cases h
  · cases h
    exact ⟨rfl, rfl, rfl, rfl⟩

/-- `businessDay.update`, of the row `day` to `closed`. -/
def replaceDay (db : Database) (day closed : BusinessDay)
    (h : closed.id = day.id ∧ closed.propertyId = day.propertyId ∧
      closed.businessDate = day.businessDate) : Database :=
  { db with
    businessDays := db.businessDays.update (fun d => if d = day then closed else d) <| by
      have hkeys : ∀ d : BusinessDay, (if d = day then closed else d).id = d.id ∧
          (if d = day then closed else d).propertyId = d.propertyId ∧
          (if d = day then closed else d).businessDate = d.businessDate := by
        intro d
        split
        · next he => rw [he]; exact h
        · exact ⟨rfl, rfl, rfl⟩
      intro a b hc
      simpa only [BusinessDay.Clash, hkeys a, hkeys b] using hc }

/-- `businessDay.upsert` by the night audit. -/
def upsertClosed (db : Database) (items : List FolioLineItem) (input : CloseBusinessDayInput)
    (id : String) (now : ℤ) : Except Failure Database :=
  match db.findBusinessDay input.propertyId (utcDay input.businessDate) with
  | some day =>
    match h : closedDay rt day items input now with
    | some closed => .ok (db.replaceDay day closed
        ⟨(keys_closedDay rt h).1, (keys_closedDay rt h).2.1, (keys_closedDay rt h).2.2.1⟩)
    | none => .error .refused
  | none =>
    if ∃ p ∈ db.properties, p.id = input.propertyId then
      match (closedDay rt (newBusinessDay input id) items input now).bind db.businessDays.create with
      | some businessDays => .ok { db with businessDays }
      | none => .error .refused
    -- the foreign key of the property
    else .error .refused

/-- `closeBusinessDay(input)`, with `id` for a day that has no row yet. -/
def closeBusinessDay (db : Database) (input : CloseBusinessDayInput) (id : String) (now : ℤ) :
    Except Failure Database :=
  match db.findBusinessDay input.propertyId (utcDay input.businessDate) with
  | some day =>
    if day.status = .closed then
      .error (.ledger .businessDayClosed
        ("Business day " ++ isoDay (utcDay input.businessDate) ++ " already closed"))
    else db.upsertClosed rt (db.auditedItems rt input.businessDate) input id now
  | none => db.upsertClosed rt (db.auditedItems rt input.businessDate) input id now

end

end Database

end Hotelia
