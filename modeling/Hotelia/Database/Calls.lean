import Hotelia.Database.Pos
import Hotelia.Foundation.Run

/-!
# Calls of the ledger

A database and the calls that reach it, each a transaction of its own. A call that
fails is rolled back, so a history of calls is a run of those that went through.

## Main definitions

- `LedgerCall`, `perform` — the calls
- `commit` — the step of a call that goes through
- `attempt` — a call, whatever becomes of it
- `Effect` — what a call that goes through has seen and done

## Main results

- `effect_of_commit`: a call that goes through has its effect.
- `exists_run_attempts`: calls that fail may be left out.
-/

namespace Hotelia
open Foundation

namespace Database

inductive LedgerCall where
  | post (input : PostLineItemInput) (id : String) (now : ℤ)
  | reverse (input : ReverseLineItemInput) (id : String) (now : ℤ)
  | transfer (input : TransferItemInput) (id : String)
  | charge (input : PosChargeInput) (id folioId : String) (now : ℤ)
  | close (input : CloseBusinessDayInput) (id : String) (now : ℤ)

variable (rt : Runtime)

def perform (db : Database) : LedgerCall → Except Failure Database
  | .post input id now => db.postLineItem rt input id now
  | .reverse input id now => db.reverseLineItem rt input id now
  | .transfer input id => db.transferFolioItem input id
  | .charge input id folioId now => db.posPostCharge rt input id folioId now
  | .close input id now => db.closeBusinessDay rt input id now

/-- A call that goes through. -/
def commit (db : Database) (call : LedgerCall) : Option Database :=
  match db.perform rt call with
  | .ok db' => some db'
  | .error _ => none

/-- A call that may also fail, and then has no effect. -/
def attempt (db : Database) (call : LedgerCall) : Database := (db.commit rt call).getD db

theorem commit_eq_some {db db' : Database} {call : LedgerCall} :
    db.commit rt call = some db' ↔ db.perform rt call = .ok db' := by
  rw [commit]
  cases db.perform rt call with
  | ok t => simp
  | error e => simp

/-- Of the calls of a history, those that went through are a run. -/
theorem exists_run_attempts (db : Database) (calls : List LedgerCall) :
    ∃ through, through.Sublist calls ∧
      run (commit rt) db through = some (calls.foldl (attempt rt) db) := by
  induction calls generalizing db with
  | nil => exact ⟨[], .slnil, rfl⟩
  | cons call calls ih =>
    obtain ⟨through, hsub, hrun⟩ := ih (db.attempt rt call)
    cases h : db.commit rt call with
    | none =>
      have hsame : db.attempt rt call = db := by simp [attempt, h]
      rw [hsame] at hrun
      exact ⟨through, hsub.cons call, by simpa [hsame] using hrun⟩
    | some t =>
      have hstep : db.attempt rt call = t := by simp [attempt, h]
      rw [hstep] at hrun
      refine ⟨call :: through, hsub.cons_cons call, ?_⟩
      exact run_cons_eq_some.mpr ⟨t, h, by simpa [hstep] using hrun⟩

/-! ## Statements -/

theorem bind_eq_ok {ε α β : Type} {x : Except ε α} {f : α → Except ε β} {b : β}
    (h : (x >>= f) = .ok b) : ∃ a, x = .ok a ∧ f a = .ok b := by
  cases x with
  | error e => cases h
  | ok a => exact ⟨a, rfl, h⟩

variable {db db' : Database}

theorem createLineItem_eq_ok {item : Option FolioLineItem} (h : db.createLineItem item = .ok db') :
    ∃ row lineItems, item = some row ∧ db.lineItems.create row = some lineItems ∧
      db' = { db with lineItems } := by
  rw [createLineItem] at h
  split at h
  · next lineItems hc =>
    obtain ⟨row, hrow, hcreate⟩ := Option.bind_eq_some_iff.mp hc
    cases h
    exact ⟨row, lineItems, hrow, hcreate, rfl⟩
  · cases h

/-- A row that is created has a new id. -/
theorem exists_fresh_of_createLineItem {item : Option FolioLineItem}
    (h : db.createLineItem item = .ok db') :
    ∃ row, item = some row ∧ ¬ ∃ other ∈ db.lineItems.rows, other.id = row.id := by
  obtain ⟨row, lineItems, hitem, hlineItems, -⟩ := createLineItem_eq_ok h
  refine ⟨row, hitem, ?_⟩
  rintro ⟨other, hother, hid⟩
  exact (Table.create_eq_some hlineItems).2 other hother hid

theorem createTransfer_eq_ok {transfer : Option FolioTransfer}
    (h : db.createTransfer transfer = .ok db') :
    ∃ row transfers, transfer = some row ∧ db.transfers.create row = some transfers ∧
      db' = { db with transfers } := by
  rw [createTransfer] at h
  split at h
  · next transfers hc =>
    obtain ⟨row, hrow, hcreate⟩ := Option.bind_eq_some_iff.mp hc
    cases h
    exact ⟨row, transfers, hrow, hcreate, rfl⟩
  · cases h

theorem createFolio_eq_ok {folio : Folio} (h : db.createFolio folio = .ok db') :
    ∃ folios, db.folios.create folio = some folios ∧ db' = { db with folios } := by
  rw [createFolio] at h
  split at h
  · next folios hc =>
    cases h
    exact ⟨folios, hc, rfl⟩
  · cases h

theorem incrementBalance_eq_ok {id : String} {increment : ℚ}
    (h : db.incrementBalance id increment = .ok db') :
    ∃ folio balance, db.findFolio id = some folio ∧
      Numeric.store 12 2 (folio.balance.toRat + increment) = some balance ∧
      db' = db.setBalance id balance := by
  rw [incrementBalance] at h
  split at h
  · cases h
  · next folio hfolio =>
    split at h
    · cases h
    · next balance hstore =>
      cases h
      exact ⟨folio, balance, hfolio, hstore, rfl⟩

/-- What a row keeps of its data. -/
structure LineItemData.Stored (data : LineItemData) (id : String) (item : FolioLineItem) : Prop where
  id : item.id = id
  folioId : item.folioId = data.folioId
  kind : item.kind = data.kind
  total : Numeric.store 10 2 data.total = some item.total
  businessDate : item.businessDate = utcDay data.businessDate
  reversesItemId : item.reversesItemId = data.reversesItemId

theorem LineItemData.stored {data : LineItemData} {id : String} {item : FolioLineItem}
    (h : data.store id = some item) : data.Stored id item := by
  simp only [store, Option.bind_eq_bind, Option.bind_eq_some_iff] at h
  obtain ⟨_, -, _, -, _, -, _, -, _, -, total, htotal, h⟩ := h
  split at h
  · cases h
  · cases h
    exact ⟨rfl, rfl, rfl, htotal, rfl, rfl⟩

/-- What a row of a transfer says. -/
theorem transferRow_eq_some {input : TransferItemInput} {item : FolioLineItem} {id : String}
    {row : FolioTransfer} (h : transferRow input item id = some row) :
    row.fromFolioId = input.fromFolioId ∧ row.toFolioId = input.toFolioId ∧
      row.lineItemId = item.id ∧ row.amount.toRat = item.total.toRat := by
  simp only [transferRow, Option.bind_eq_bind, Option.bind_eq_some_iff] at h
  obtain ⟨amount, hamount, h⟩ := h
  split at h
  · cases h
  · cases h
    exact ⟨rfl, rfl, rfl, Numeric.toRat_of_store hamount item.total.whole_toRat⟩

theorem mem_of_findLineItem {id : String} {item : FolioLineItem}
    (h : db.findLineItem id = some item) : item ∈ db.lineItems.rows ∧ item.id = id :=
  ⟨List.mem_of_find?_eq_some h, by simpa using List.find?_some h⟩

theorem mem_of_findFolio {id : String} {folio : Folio} (h : db.findFolio id = some folio) :
    folio ∈ db.folios.rows ∧ folio.id = id :=
  ⟨List.mem_of_find?_eq_some h, by simpa using List.find?_some h⟩

/-- The ids of the folios are unique. -/
theorem findFolio_of_mem {folio : Folio} (h : folio ∈ db.folios.rows) :
    db.findFolio folio.id = some folio := by
  cases hf : db.findFolio folio.id with
  | none =>
    have := List.find?_eq_none.mp hf folio h
    simp at this
  | some other =>
    obtain ⟨hmem, hid⟩ := mem_of_findFolio hf
    rw [db.folios.eq_of_clash (fun _ _ => Eq.symm) hmem h hid]

/-! ## Business days -/

/-- The property has a `CLOSED` row for the date. -/
def DayClosed (db : Database) (propertyId : String) (date : ℤ) : Prop :=
  ∃ day ∈ db.businessDays.rows, day.propertyId = propertyId ∧ day.businessDate = date ∧
    day.status = .closed

instance (propertyId : String) (date : ℤ) : Decidable (db.DayClosed propertyId date) :=
  inferInstanceAs (Decidable (∃ day ∈ db.businessDays.rows, _))

theorem BusinessDay.Clash.symm (a b : BusinessDay) (h : BusinessDay.Clash a b) :
    BusinessDay.Clash b a := by
  cases h with
  | inl hid => exact .inl hid.symm
  | inr hkey => exact .inr ⟨hkey.1.symm, hkey.2.symm⟩

/-- The row of a closed day is the one that is found. -/
theorem findBusinessDay_of_closed {propertyId : String} {date : ℤ}
    (h : db.DayClosed propertyId date) :
    ∃ day, db.findBusinessDay propertyId date = some day ∧ day.status = .closed := by
  obtain ⟨day, hmem, hproperty, hdate, hclosed⟩ := h
  cases hf : db.findBusinessDay propertyId date with
  | none =>
    have := List.find?_eq_none.mp hf day hmem
    simp [hproperty, hdate] at this
  | some other =>
    have hother := List.mem_of_find?_eq_some hf
    have hkey := List.find?_some hf
    rw [decide_eq_true_iff] at hkey
    have hclash : BusinessDay.Clash other day :=
      .inr ⟨hkey.1.trans hproperty.symm, hkey.2.trans hdate.symm⟩
    rw [db.businessDays.eq_of_clash BusinessDay.Clash.symm hother hmem hclash]
    exact ⟨day, rfl, hclosed⟩

theorem assertBusinessDayOpen_eq_ok {propertyId : String} {businessDate : ℤ} {u : Unit}
    (h : db.assertBusinessDayOpen propertyId businessDate = .ok u) :
    ¬ db.DayClosed propertyId (utcDay businessDate) := by
  intro hclosed
  obtain ⟨day, hfind, hstatus⟩ := findBusinessDay_of_closed hclosed
  simp [assertBusinessDayOpen, hfind, hstatus] at h

/-! ## Effects -/

/-- A line item is created, and then the balance of its folio incremented. -/
def Creates (db : Database) (item : FolioLineItem) (increment : ℚ) (db' : Database) : Prop :=
  ∃ mid, db.createLineItem (some item) = .ok mid ∧
    mid.incrementBalance item.folioId increment = .ok db'

/-- A transfer is created, and then the balances of its folios follow. -/
def Moves (db : Database) (item : FolioLineItem) (row : FolioTransfer) (db' : Database) : Prop :=
  ∃ mid paid, db.createTransfer (some row) = .ok mid ∧
    mid.incrementBalance row.fromFolioId (-item.total.toRat) = .ok paid ∧
    paid.incrementBalance row.toFolioId item.total.toRat = .ok db'

/-- What a call that goes through has seen, and what it has done. -/
inductive Effect (rt : Runtime) (db db' : Database) : LedgerCall → Prop
  | posted (input : PostLineItemInput) (id : String) (now : ℤ) (folio : Folio)
      (found : folio ∈ db.folios.rows) (folioId : folio.id = input.folioId)
      (property : folio.propertyId = input.propertyId)
      (day : ¬ db.DayClosed input.propertyId (utcDay (input.businessDate.getD now)))
      (item : FolioLineItem) (stored : (input.data rt db now).Stored id item)
      (creates : db.Creates item (rt.decimal (input.total rt)) db') :
      Effect rt db db' (.post input id now)
  | reversed (input : ReverseLineItemInput) (id : String) (now : ℤ) (original : FolioLineItem)
      (found : db.findLineItem input.lineItemId = some original) (kind : original.kind ≠ .reversal)
      (first : ∀ i ∈ db.lineItems.rows, i.kind = .reversal → i.reversesItemId ≠ some original.id)
      (item : FolioLineItem) (stored : (reversalData rt original now).Stored id item)
      (creates : db.Creates item (rt.decimal (rt.num (-original.total.toRat))) db') :
      Effect rt db db' (.reverse input id now)
  | transferred (input : TransferItemInput) (id : String) (item : FolioLineItem)
      (found : db.findLineItem input.lineItemId = some item)
      (elsewhere : item.folioId ≠ input.toFolioId) (row : FolioTransfer)
      (stored : transferRow input item id = some row) (moves : db.Moves item row db') :
      Effect rt db db' (.transfer input id)
  | charged (input : PosChargeInput) (id folioId : String) (now : ℤ) (stay : Reservation)
      (found : db.findStay input.propertyId input.roomNumber = some stay) (folio : Folio)
      (base : Database) (chosen : db.chargedFolio stay input.propertyId folioId = .ok (folio, base))
      (taxRate : ℚ) (item : FolioLineItem)
      (stored : (input.data rt folio.id taxRate now).Stored id item)
      (creates : base.Creates item (rt.decimal (input.total rt taxRate)) db') :
      Effect rt db db' (.charge input id folioId now)
  | audited (input : CloseBusinessDayInput) (id : String) (now : ℤ)
      (folios : db'.folios = db.folios) (lineItems : db'.lineItems = db.lineItems)
      (transfers : db'.transfers = db.transfers)
      (closed : ∀ propertyId date, db.DayClosed propertyId date → db'.DayClosed propertyId date) :
      Effect rt db db' (.close input id now)

variable {rt}

theorem effect_post {input : PostLineItemInput} {id : String} {now : ℤ}
    (h : db.postLineItem rt input id now = .ok db') : Effect rt db db' (.post input id now) := by
  rw [postLineItem] at h
  split at h
  · cases h
  · next folio hfolio =>
    have hmem := List.mem_of_find?_eq_some hfolio
    have hkey := List.find?_some hfolio
    rw [decide_eq_true_iff] at hkey
    split at h
    · cases h
    · obtain ⟨_, hday, h⟩ := bind_eq_ok h
      obtain ⟨mid, hcreate, hbalance⟩ := bind_eq_ok h
      obtain ⟨item, _, hitem, -⟩ := createLineItem_eq_ok hcreate
      have hstored := LineItemData.stored hitem
      rw [hitem] at hcreate
      refine .posted input id now folio hmem hkey.1 hkey.2 (assertBusinessDayOpen_eq_ok hday) item
        hstored ⟨mid, hcreate, ?_⟩
      rw [hstored.folioId]
      exact hbalance

theorem effect_reverse {input : ReverseLineItemInput} {id : String} {now : ℤ}
    (h : db.reverseLineItem rt input id now = .ok db') :
    Effect rt db db' (.reverse input id now) := by
  rw [reverseLineItem] at h
  split at h
  · cases h
  · next original hfind =>
    split at h
    · cases h
    · next hkind =>
      split at h
      · cases h
      · next hnone =>
        obtain ⟨mid, hcreate, hbalance⟩ := bind_eq_ok h
        obtain ⟨item, _, hitem, -⟩ := createLineItem_eq_ok hcreate
        have hstored := LineItemData.stored hitem
        rw [hitem] at hcreate
        refine .reversed input id now original hfind hkind ?_ item hstored ⟨mid, hcreate, ?_⟩
        · intro i hi hreversal hof
          have := List.find?_eq_none.mp hnone i hi
          simp [hreversal, hof] at this
        · rw [hstored.folioId]
          exact hbalance

theorem effect_transfer {input : TransferItemInput} {id : String}
    (h : db.transferFolioItem input id = .ok db') : Effect rt db db' (.transfer input id) := by
  rw [transferFolioItem] at h
  split at h
  · cases h
  · next item hfind =>
    split at h
    · cases h
    · next helsewhere =>
      split at h
      · obtain ⟨_, -, h⟩ := bind_eq_ok h
        obtain ⟨mid, hcreate, h⟩ := bind_eq_ok h
        obtain ⟨paid, hout, hin⟩ := bind_eq_ok h
        obtain ⟨row, _, hrow, -⟩ := createTransfer_eq_ok hcreate
        obtain ⟨hfrom, hto, -, -⟩ := transferRow_eq_some hrow
        rw [hrow] at hcreate
        rw [← hfrom] at hout
        rw [← hto] at hin
        exact .transferred input id item hfind helsewhere row hrow ⟨mid, paid, hcreate, hout, hin⟩
      · cases h

theorem effect_charge {input : PosChargeInput} {id folioId : String} {now : ℤ}
    (h : db.posPostCharge rt input id folioId now = .ok db') :
    Effect rt db db' (.charge input id folioId now) := by
  rw [posPostCharge] at h
  split at h
  · cases h
  · next stay hstay =>
    split at h
    · cases h
    · split at h
      · cases h
      · obtain ⟨⟨folio, base⟩, hchosen, h⟩ := bind_eq_ok h
        obtain ⟨mid, hcreate, hbalance⟩ := bind_eq_ok h
        obtain ⟨item, _, hitem, -⟩ := createLineItem_eq_ok hcreate
        have hstored := LineItemData.stored hitem
        rw [hitem] at hcreate
        refine .charged input id folioId now stay hstay folio base hchosen _ item hstored
          ⟨mid, hcreate, ?_⟩
        rw [hstored.folioId]
        exact hbalance

/-- A closed day replaces a row with its keys. -/
theorem dayClosed_replaceDay {day closed : BusinessDay} (hkeys) (hclosed : closed.status = .closed)
    {propertyId : String} {date : ℤ} (h : db.DayClosed propertyId date) :
    (db.replaceDay day closed hkeys).DayClosed propertyId date := by
  obtain ⟨d, hmem, hproperty, hdate, hstatus⟩ := h
  have hmem' : (if d = day then closed else d) ∈ (db.replaceDay day closed hkeys).businessDays.rows :=
    List.mem_map_of_mem hmem
  refine ⟨_, hmem', ?_⟩
  split
  · next he =>
    subst he
    exact ⟨hkeys.2.1.trans hproperty, hkeys.2.2.trans hdate, hclosed⟩
  · exact ⟨hproperty, hdate, hstatus⟩

theorem effect_upsert {items : List FolioLineItem} {input : CloseBusinessDayInput} {id : String}
    {now : ℤ} (h : db.upsertClosed rt items input id now = .ok db') :
    Effect rt db db' (.close input id now) := by
  rw [upsertClosed] at h
  split at h
  · split at h
    · next hclosed =>
      cases h
      refine .audited input id now rfl rfl rfl fun _ _ => dayClosed_replaceDay _ ?_
      exact (keys_closedDay rt hclosed).2.2.2
    · cases h
  · split at h
    · split at h
      · next businessDays hdays =>
        cases h
        refine .audited input id now rfl rfl rfl fun propertyId date hday => ?_
        obtain ⟨d, hmem, hd⟩ := hday
        obtain ⟨row, -, hcreate⟩ := Option.bind_eq_some_iff.mp hdays
        refine ⟨d, ?_, hd⟩
        show d ∈ businessDays.rows
        rw [(Table.create_eq_some hcreate).1]
        exact List.mem_append_left _ hmem
      · cases h
    · cases h

theorem effect_close {input : CloseBusinessDayInput} {id : String} {now : ℤ}
    (h : db.closeBusinessDay rt input id now = .ok db') :
    Effect rt db db' (.close input id now) := by
  rw [closeBusinessDay] at h
  split at h
  · split at h
    · cases h
    · exact effect_upsert h
  · exact effect_upsert h

theorem effect_of_commit {call : LedgerCall} (h : db.commit rt call = some db') :
    Effect rt db db' call := by
  rw [commit_eq_some] at h
  cases call with
  | post input id now => exact effect_post h
  | reverse input id now => exact effect_reverse h
  | transfer input id => exact effect_transfer h
  | charge input id folioId now => exact effect_charge h
  | close input id now => exact effect_close h

end Database

end Hotelia
