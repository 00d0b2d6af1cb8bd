import Hotelia.Database.Freeze
import Hotelia.Database.Isolation
import Hotelia.Shared.Tax
import Mathlib.Algebra.BigOperators.Group.List.Basic

/-!
# What the night audit depends on

The audit sums up the line items of a day without asking whose they are. Two states that
agree on a property may therefore differ in what is recorded for it.

## Main definitions

- `AuditRecord` — what is recorded for a day
- `AgreeOn` — two states agree on a property
- `Clean` — the day has no items of other properties

## Main results

- `records_iff`: when a record is made, and which.
- `sameRecord_iff`: when two states that agree on a property have the same record.
-/

namespace Hotelia
open Foundation Numeric

namespace Database

/-- The figures of a closed day, and the counts of its `reportSnapshot`. -/
structure AuditRecord where
  netRevenue : Numeric 14 2
  roomRevenue : Numeric 14 2
  taxCollected : Numeric 14 2
  lineItemCount : ℕ
  charges : ℕ
  reversals : ℕ
  deriving DecidableEq

/-- What the row of a closed day has recorded. -/
def BusinessDay.auditRecord (day : BusinessDay) : Option AuditRecord := do
  let netRevenue ← day.netRevenue
  let roomRevenue ← day.roomRevenue
  let taxCollected ← day.taxCollected
  let snapshot ← day.reportSnapshot
  some { netRevenue, roomRevenue, taxCollected, lineItemCount := snapshot.lineItemCount,
         charges := snapshot.charges, reversals := snapshot.reversals }

/-- What is to be recorded for the items, unless a column refuses it. -/
def figures (rt : Runtime) (items : List FolioLineItem) : Option AuditRecord := do
  let netRevenue ← Numeric.store 14 2 (rt.decimal (rt.cents (netRevenue rt items)))
  let roomRevenue ← Numeric.store 14 2 (rt.decimal (rt.cents (roomRevenue rt items)))
  let taxCollected ← Numeric.store 14 2 (rt.decimal (rt.cents (taxCollected rt items)))
  some { netRevenue, roomRevenue, taxCollected, lineItemCount := items.length,
         charges := items.countP (0 < ·.total.toRat),
         reversals := items.countP (·.kind = .reversal) }

/-- The call goes through and records `r` for the day. -/
def Records (rt : Runtime) (db : Database) (input : CloseBusinessDayInput) (id : String) (now : ℤ)
    (r : AuditRecord) : Prop :=
  ∃ t, db.closeBusinessDay rt input id now = .ok t ∧
    (t.findBusinessDay input.propertyId (utcDay input.businessDate)).bind BusinessDay.auditRecord =
      some r

/-- The day may be closed: it is not closed already, and a new row is accepted. -/
structure Closable (db : Database) (input : CloseBusinessDayInput) (id : String) : Prop where
  status : ∀ day, db.findBusinessDay input.propertyId (utcDay input.businessDate) = some day →
    day.status ≠ .closed
  cutoff : (input.cutoffTime.getD "03:00").length ≤ 5
  created : db.findBusinessDay input.propertyId (utcDay input.businessDate) = none →
    (∃ p ∈ db.properties, p.id = input.propertyId) ∧ ∀ d ∈ db.businessDays.rows, d.id ≠ id

/-- The item counts for the audit of the property and is on a folio of it. -/
def OwnItem (db : Database) (propertyId : String) (item : FolioLineItem) : Prop :=
  db.OfProperty item.folioId propertyId

instance (db : Database) (propertyId : String) : DecidablePred (db.OwnItem propertyId) :=
  fun item => inferInstanceAs (Decidable (db.OfProperty item.folioId propertyId))

/-- The states agree on the property: on the row of the property, its folios, their line
items, and its business days. -/
structure AgreeOn (propertyId : String) (db db' : Database) : Prop where
  property : (∃ p ∈ db.properties, p.id = propertyId) ↔ ∃ p ∈ db'.properties, p.id = propertyId
  folios : db.folios.rows.filter (·.propertyId = propertyId) =
    db'.folios.rows.filter (·.propertyId = propertyId)
  lineItems : db.lineItems.rows.filter (db.OwnItem propertyId) =
    db'.lineItems.rows.filter (db'.OwnItem propertyId)
  businessDays : db.businessDays.rows.filter (·.propertyId = propertyId) =
    db'.businessDays.rows.filter (·.propertyId = propertyId)

/-- The items of other properties that the audit counts. -/
def foreignItems (rt : Runtime) (db : Database) (input : CloseBusinessDayInput) :
    List FolioLineItem :=
  (db.auditedItems rt input.businessDate).filter fun i => ¬ db.OwnItem input.propertyId i

/-- No item of another property has its business date in the window of the day. -/
def Clean (rt : Runtime) (db : Database) (input : CloseBusinessDayInput) : Prop :=
  ∀ item ∈ db.lineItems.rows, InWindow rt input.businessDate item →
    db.OwnItem input.propertyId item

/-- Both calls go through, and record the same. -/
def SameRecord (rt : Runtime) (db db' : Database) (input : CloseBusinessDayInput) (id : String)
    (now : ℤ) : Prop :=
  ∃ r, Records rt db input id now r ∧ Records rt db' input id now r

/-! ## The record of an audit -/

section Record

variable {rt : Runtime} {db db' : Database} {input : CloseBusinessDayInput} {id : String} {now : ℤ}
  {items : List FolioLineItem} {day closed : BusinessDay} {r : AuditRecord}

theorem figures_of_closedDay (h : closedDay rt day items input now = some closed) :
    figures rt items = closed.auditRecord ∧ (input.cutoffTime.getD "03:00").length ≤ 5 := by
  simp only [closedDay, Option.bind_eq_bind, Option.bind_eq_some_iff] at h
  obtain ⟨net, hnet, room, hroom, tax, htax, h⟩ := h
  split at h
  · cases h
  · next hcutoff =>
    cases h
    refine ⟨?_, not_lt.mp hcutoff⟩
    simp only [figures, hnet, hroom, htax]
    rfl

/-- What a column refuses is not recorded. -/
theorem not_figures_of_closedDay (h : closedDay rt day items input now = none) :
    ¬ ((input.cutoffTime.getD "03:00").length ≤ 5 ∧ figures rt items = some r) := by
  rintro ⟨hcutoff, hfigures⟩
  simp only [figures, Option.bind_eq_bind, Option.bind_eq_some_iff] at hfigures
  obtain ⟨net, hnet, room, hroom, tax, htax, -⟩ := hfigures
  simp only [closedDay, hnet, hroom, htax, Option.bind_eq_bind, Option.bind_some,
    if_neg (not_lt.mpr hcutoff)] at h
  cases h

theorem findBusinessDay_replaceDay {propertyId : String} {date : ℤ} {day closed : BusinessDay}
    (hkeys) (h : db.findBusinessDay propertyId date = some day) :
    (db.replaceDay day closed hkeys).findBusinessDay propertyId date = some closed := by
  show (db.businessDays.rows.map fun d => if d = day then closed else d).find? _ = _
  rw [List.find?_map]
  have hsame : ((fun d : BusinessDay => decide (d.propertyId = propertyId ∧ d.businessDate = date)) ∘
      fun d => if d = day then closed else d) =
      fun d => decide (d.propertyId = propertyId ∧ d.businessDate = date) := by
    funext d
    show decide ((if d = day then closed else d).propertyId = propertyId ∧
      (if d = day then closed else d).businessDate = date) = _
    split
    · next he => rw [he, hkeys.2.1, hkeys.2.2]
    · rfl
  have hfind : db.businessDays.rows.find? (fun d =>
      decide (d.propertyId = propertyId ∧ d.businessDate = date)) = some day := h
  rw [hsame, hfind, Option.map_some, if_pos rfl]

/-- A day that has a row is closed in it. -/
theorem upsertClosed_found
    (hday : db.findBusinessDay input.propertyId (utcDay input.businessDate) = some day) :
    (∃ t, db.upsertClosed rt items input id now = .ok t ∧
      (t.findBusinessDay input.propertyId (utcDay input.businessDate)).bind
        BusinessDay.auditRecord = some r) ↔
      (input.cutoffTime.getD "03:00").length ≤ 5 ∧ figures rt items = some r := by
  rw [upsertClosed]
  split
  · next other hother =>
    rw [hday, Option.some.injEq] at hother
    subst hother
    split
    · next closed hclosed =>
      obtain ⟨hfigures, hcutoff⟩ := figures_of_closedDay hclosed
      rw [hfigures]
      constructor
      · rintro ⟨t, ht, hrecord⟩
        cases ht
        rw [findBusinessDay_replaceDay _ hday] at hrecord
        exact ⟨hcutoff, hrecord⟩
      · rintro ⟨-, hrecord⟩
        refine ⟨_, rfl, ?_⟩
        rw [findBusinessDay_replaceDay _ hday]
        exact hrecord
    · next hrefused =>
      refine iff_of_false ?_ (not_figures_of_closedDay hrefused)
      rintro ⟨t, ht, -⟩
      cases ht
  · next hnone =>
    rw [hday] at hnone
    cases hnone

/-- A row is accepted exactly if its id is new, once there is none for the day. -/
theorem create_day (hkeys : closed.id = id ∧ closed.propertyId = input.propertyId ∧
      closed.businessDate = utcDay input.businessDate)
    (hnone : db.findBusinessDay input.propertyId (utcDay input.businessDate) = none) :
    (∃ days, db.businessDays.create closed = some days) ↔ ∀ d ∈ db.businessDays.rows, d.id ≠ id := by
  constructor
  · rintro ⟨days, hdays⟩ d hd hid
    exact (Table.create_eq_some hdays).2 d hd (.inl (hid.trans hkeys.1.symm))
  · intro hfresh
    refine ⟨_, if_neg ?_⟩
    rintro ⟨d, hd, hid | ⟨hproperty, hdate⟩⟩
    · exact hfresh d hd (hid.trans hkeys.1)
    · have hmissing := List.find?_eq_none.mp hnone d hd
      rw [decide_eq_true_eq] at hmissing
      exact hmissing ⟨hproperty.trans hkeys.2.1, hdate.trans hkeys.2.2⟩

/-- The new row is the one of its day. -/
theorem findBusinessDay_create {propertyId : String} {date : ℤ}
    {days : Table BusinessDay BusinessDay.Clash}
    (hkeys : closed.propertyId = propertyId ∧ closed.businessDate = date)
    (hnone : db.findBusinessDay propertyId date = none)
    (hdays : db.businessDays.create closed = some days) :
    Database.findBusinessDay { db with businessDays := days } propertyId date = some closed := by
  rw [Database.findBusinessDay] at hnone
  rw [Database.findBusinessDay, (Table.create_eq_some hdays).1, List.find?_append, hnone,
    Option.none_or, List.find?_singleton, if_pos (decide_eq_true hkeys)]

/-- A day that has no row is given one. -/
theorem upsertClosed_missing
    (hnone : db.findBusinessDay input.propertyId (utcDay input.businessDate) = none) :
    (∃ t, db.upsertClosed rt items input id now = .ok t ∧
      (t.findBusinessDay input.propertyId (utcDay input.businessDate)).bind
        BusinessDay.auditRecord = some r) ↔
      ((input.cutoffTime.getD "03:00").length ≤ 5 ∧ figures rt items = some r) ∧
        (∃ p ∈ db.properties, p.id = input.propertyId) ∧ ∀ d ∈ db.businessDays.rows, d.id ≠ id := by
  rw [upsertClosed]
  split
  · next other hother =>
    rw [hnone] at hother
    cases hother
  · by_cases hproperty : ∃ p ∈ db.properties, p.id = input.propertyId
    · rw [if_pos hproperty]
      cases hclosed : closedDay rt (newBusinessDay input id) items input now with
      | none =>
        refine iff_of_false ?_ fun h => not_figures_of_closedDay hclosed h.1
        rintro ⟨t, ht, -⟩
        cases ht
      | some closed =>
        obtain ⟨hfigures, hcutoff⟩ := figures_of_closedDay hclosed
        obtain ⟨hid, hof, hdate, -⟩ := keys_closedDay rt hclosed
        have hkeys : closed.propertyId = input.propertyId ∧
            closed.businessDate = utcDay input.businessDate := ⟨hof, hdate⟩
        have hcreate : (∃ days, db.businessDays.create closed = some days) ↔
            ∀ d ∈ db.businessDays.rows, d.id ≠ id := create_day ⟨hid, hkeys⟩ hnone
        rw [hfigures, ← hcreate, Option.bind_some]
        constructor
        · rintro ⟨t, ht, hrecord⟩
          split at ht
          · next days hdays =>
            cases ht
            rw [findBusinessDay_create hkeys hnone hdays] at hrecord
            exact ⟨⟨hcutoff, hrecord⟩, hproperty, days, hdays⟩
          · cases ht
        · rintro ⟨⟨-, hrecord⟩, -, days, hdays⟩
          rw [hdays]
          refine ⟨_, rfl, ?_⟩
          rw [findBusinessDay_create hkeys hnone hdays]
          exact hrecord
    · rw [if_neg hproperty]
      refine iff_of_false ?_ fun h => hproperty h.2.1
      rintro ⟨t, ht, -⟩
      cases ht

/-- A record is made of a day that may be closed, and it has the figures of the items. -/
theorem records_iff : Records rt db input id now r ↔
    db.Closable input id ∧ figures rt (db.auditedItems rt input.businessDate) = some r := by
  unfold Records closeBusinessDay
  cases hday : db.findBusinessDay input.propertyId (utcDay input.businessDate) with
  | some day =>
    by_cases hstatus : day.status = .closed
    · simp only [hstatus, if_true]
      refine iff_of_false (fun h => ?_) fun h => h.1.status day hday hstatus
      obtain ⟨t, ht, -⟩ := h
      cases ht
    · simp only [hstatus, if_false]
      rw [upsertClosed_found hday]
      constructor
      · rintro ⟨hcutoff, hfigures⟩
        refine ⟨⟨fun d hd => ?_, hcutoff, fun hnone => ?_⟩, hfigures⟩
        · rw [hday, Option.some.injEq] at hd
          rwa [← hd]
        · rw [hday] at hnone
          cases hnone
      · rintro ⟨hclosable, hfigures⟩
        exact ⟨hclosable.cutoff, hfigures⟩
  | none =>
    simp only
    rw [upsertClosed_missing hday]
    constructor
    · rintro ⟨⟨hcutoff, hfigures⟩, hcreated⟩
      refine ⟨⟨fun d hd => ?_, hcutoff, fun _ => hcreated⟩, hfigures⟩
      rw [hday] at hd
      cases hd
    · rintro ⟨hclosable, hfigures⟩
      exact ⟨⟨hclosable.cutoff, hfigures⟩, hclosable.created hday⟩

end Record

/-! ## Own and foreign items -/

/-- The audit counts as many of both, and the same sums. -/
structure Alike (a b : List FolioLineItem) : Prop where
  lineItemCount : a.length = b.length
  charges : a.countP (0 < ·.total.toRat) = b.countP (0 < ·.total.toRat)
  reversals : a.countP (·.kind = .reversal) = b.countP (·.kind = .reversal)
  net : (a.map fun i => i.total.toRat - i.taxAmount.toRat).sum =
    (b.map fun i => i.total.toRat - i.taxAmount.toRat).sum
  room : ((a.filter (·.sourceModule = .room)).map (·.total.toRat)).sum =
    ((b.filter (·.sourceModule = .room)).map (·.total.toRat)).sum
  tax : (a.map (·.taxAmount.toRat)).sum = (b.map (·.taxAmount.toRat)).sum

namespace Alike

variable {a b c d : List FolioLineItem}

theorem of_perm (h : a.Perm b) : Alike a b :=
  ⟨h.length_eq, h.countP_eq _, h.countP_eq _, (h.map _).sum_eq, ((h.filter _).map _).sum_eq,
    (h.map _).sum_eq⟩

theorem symm (h : Alike a b) : Alike b a :=
  ⟨h.lineItemCount.symm, h.charges.symm, h.reversals.symm, h.net.symm, h.room.symm, h.tax.symm⟩

theorem trans (h : Alike a b) (h' : Alike b c) : Alike a c :=
  ⟨h.lineItemCount.trans h'.lineItemCount, h.charges.trans h'.charges,
    h.reversals.trans h'.reversals, h.net.trans h'.net, h.room.trans h'.room, h.tax.trans h'.tax⟩

/-- What both have in front is not seen. -/
theorem append_left_iff : Alike (c ++ a) (c ++ b) ↔ Alike a b := by
  constructor
  · intro h
    have hlength := h.lineItemCount
    have hcharges := h.charges
    have hreversals := h.reversals
    have hnet := h.net
    have hroom := h.room
    have htax := h.tax
    rw [List.length_append, List.length_append] at hlength
    rw [List.countP_append, List.countP_append] at hcharges hreversals
    rw [List.map_append, List.map_append, List.sum_append, List.sum_append] at hnet htax
    rw [List.filter_append, List.filter_append, List.map_append, List.map_append,
      List.sum_append, List.sum_append] at hroom
    exact ⟨Nat.add_left_cancel hlength, Nat.add_left_cancel hcharges,
      Nat.add_left_cancel hreversals, add_left_cancel hnet, add_left_cancel hroom,
      add_left_cancel htax⟩
  · intro h
    refine ⟨?_, ?_, ?_, ?_, ?_, ?_⟩
    · rw [List.length_append, List.length_append, h.lineItemCount]
    · rw [List.countP_append, List.countP_append, h.charges]
    · rw [List.countP_append, List.countP_append, h.reversals]
    · rw [List.map_append, List.map_append, List.sum_append, List.sum_append, h.net]
    · rw [List.filter_append, List.filter_append, List.map_append, List.map_append,
        List.sum_append, List.sum_append, h.room]
    · rw [List.map_append, List.map_append, List.sum_append, List.sum_append, h.tax]

end Alike

section Scope

variable {rt : Runtime} {db db' : Database} {input : CloseBusinessDayInput} {id : String} {now : ℤ}

/-- The items of the property that the audit counts. -/
def ownItems (rt : Runtime) (db : Database) (input : CloseBusinessDayInput) :
    List FolioLineItem :=
  (db.auditedItems rt input.businessDate).filter (db.OwnItem input.propertyId)

theorem AgreeOn.ownItems_eq (h : AgreeOn input.propertyId db db') :
    ownItems rt db input = ownItems rt db' input := by
  have hcomm (db : Database) : ownItems rt db input =
      (db.lineItems.rows.filter (db.OwnItem input.propertyId)).filter
        (InWindow rt input.businessDate) := by
    rw [ownItems, auditedItems, List.filter_filter, List.filter_filter]
    refine List.filter_congr fun i _ => ?_
    rw [Bool.and_comm]
  rw [hcomm db, hcomm db', h.lineItems]

/-- The items of the audit, own and foreign. -/
theorem own_append_foreign (rt : Runtime) (db : Database) (input : CloseBusinessDayInput) :
    (ownItems rt db input ++ foreignItems rt db input).Perm
      (db.auditedItems rt input.businessDate) := by
  have hforeign : foreignItems rt db input =
      (db.auditedItems rt input.businessDate).filter fun i =>
        !decide (db.OwnItem input.propertyId i) := by
    refine List.filter_congr fun i _ => ?_
    rw [decide_not]
  rw [hforeign]
  exact List.filter_append_perm _ _

theorem clean_iff : Clean rt db input ↔ foreignItems rt db input = [] := by
  rw [foreignItems, List.filter_eq_nil_iff]
  constructor
  · intro hclean i hi hforeign
    rw [auditedItems, List.mem_filter, decide_eq_true_eq] at hi
    exact of_decide_eq_true hforeign (hclean i hi.1 hi.2)
  · intro hnone i hi hwindow
    by_contra hforeign
    have hin : i ∈ db.auditedItems rt input.businessDate := by
      rw [auditedItems, List.mem_filter, decide_eq_true_eq]
      exact ⟨hi, hwindow⟩
    exact hnone i hin (decide_eq_true hforeign)

/-- On a clean day the audit counts the items of the property. -/
theorem Clean.auditedItems_eq (h : Clean rt db input) :
    db.auditedItems rt input.businessDate = ownItems rt db input := by
  refine (List.filter_eq_self.mpr fun i hi => ?_).symm
  rw [auditedItems, List.mem_filter, decide_eq_true_eq] at hi
  exact decide_eq_true (h i hi.1 hi.2)

/-- Of states that agree, the items of the audit are alike exactly if the foreign ones are. -/
theorem AgreeOn.alike_iff (h : AgreeOn input.propertyId db db') :
    Alike (db.auditedItems rt input.businessDate) (db'.auditedItems rt input.businessDate) ↔
      Alike (foreignItems rt db input) (foreignItems rt db' input) := by
  have hsplit := Alike.of_perm (own_append_foreign rt db input)
  have hsplit' := Alike.of_perm (own_append_foreign rt db' input)
  rw [← h.ownItems_eq] at hsplit'
  refine Iff.trans ?_ (Alike.append_left_iff (c := ownItems rt db input))
  constructor
  · intro halike
    exact (hsplit.trans halike).trans hsplit'.symm
  · intro halike
    exact (hsplit.symm.trans halike).trans hsplit'

theorem AgreeOn.findBusinessDay_eq (h : AgreeOn input.propertyId db db') (date : ℤ) :
    db.findBusinessDay input.propertyId date = db'.findBusinessDay input.propertyId date := by
  have hfilter (db : Database) : db.findBusinessDay input.propertyId date =
      (db.businessDays.rows.filter (·.propertyId = input.propertyId)).find?
        (·.businessDate = date) := by
    rw [Database.findBusinessDay, List.find?_filter]
    congr 1
    funext d
    simp only [Bool.decide_and, Bool.decide_eq_true]
  rw [hfilter db, hfilter db', h.businessDays]

/-- What may be closed in one state may be closed in the other. -/
theorem AgreeOn.closable (h : AgreeOn input.propertyId db db')
    (hfresh : ∀ d ∈ db.businessDays.rows, d.id ≠ id) (h' : db'.Closable input id) :
    db.Closable input id := by
  refine ⟨fun day hday => ?_, h'.cutoff, fun hnone => ?_⟩
  · rw [h.findBusinessDay_eq] at hday
    exact h'.status day hday
  · rw [h.findBusinessDay_eq] at hnone
    exact ⟨h.property.mpr (h'.created hnone).1, hfresh⟩

/-- Of states that agree, both have one record exactly if they have the same figures. -/
theorem AgreeOn.sameRecord_iff_figures (h : AgreeOn input.propertyId db db')
    (hfresh : ∀ d ∈ db.businessDays.rows, d.id ≠ id) {r : AuditRecord}
    (h' : Records rt db' input id now r) :
    SameRecord rt db db' input id now ↔
      figures rt (db.auditedItems rt input.businessDate) = some r := by
  obtain ⟨hclosable, hfigures⟩ := records_iff.mp h'
  constructor
  · rintro ⟨s, hs, hs'⟩
    have hsame := (records_iff.mp hs').2
    rw [hfigures] at hsame
    rw [hsame]
    exact (records_iff.mp hs).2
  · intro hsame
    exact ⟨r, records_iff.mpr ⟨h.closable hfresh hclosable, hsame⟩, h'⟩

/-- What is recorded for items that lose nothing: their sums, stored. -/
theorem figures_eq (hexact : rt.Exact) (items : List FolioLineItem) :
    figures rt items = (do
      let netRevenue ← Numeric.store 14 2
        (items.map fun i => i.total.toRat - i.taxAmount.toRat).sum
      let roomRevenue ← Numeric.store 14 2
        ((items.filter (·.sourceModule = .room)).map (·.total.toRat)).sum
      let taxCollected ← Numeric.store 14 2 (items.map (·.taxAmount.toRat)).sum
      some { netRevenue, roomRevenue, taxCollected, lineItemCount := items.length,
             charges := items.countP (0 < ·.total.toRat),
             reversals := items.countP (·.kind = .reversal) }) := by
  have hnumber {p s : ℕ} (x : Numeric p s) : number rt x = x.toRat := hexact.num _
  have hnet : netRevenue rt items = (items.map fun i => i.total.toRat - i.taxAmount.toRat).sum := by
    have hfold : netRevenue rt items = items.foldl (fun acc i =>
        rt.num (acc + (i.total.toRat - i.taxAmount.toRat))) 0 := by
      rw [netRevenue]
      congr 1
      funext acc i
      rw [hexact.num, hexact.num, hexact.num, hnumber, hnumber, add_sub_assoc]
    rw [hfold, TaxEngine.foldl_num_add hexact, zero_add]
  have hroom : roomRevenue rt items =
      ((items.filter (·.sourceModule = .room)).map (·.total.toRat)).sum := by
    simp only [roomRevenue, hnumber]
    rw [TaxEngine.foldl_num_add hexact, zero_add]
  have htax : taxCollected rt items = (items.map (·.taxAmount.toRat)).sum := by
    simp only [taxCollected, hnumber]
    rw [TaxEngine.foldl_num_add hexact, zero_add]
  -- every sum is in whole cents
  have hwhole (l : List FolioLineItem) (f : FolioLineItem → ℚ) (hf : ∀ i, Whole 2 (f i)) :
      rt.cents (l.map f).sum = (l.map f).sum := Runtime.cents_of_whole hexact (Whole.sum_map hf l)
  rw [figures, hnet, hroom, htax, hwhole _ _ fun i => (whole_toRat i.total).sub (whole_toRat _),
    hwhole _ _ fun i => whole_toRat i.total, hwhole _ _ fun i => whole_toRat i.taxAmount,
    hexact.decimal, hexact.decimal, hexact.decimal]

/-- Without losses the figures are the same exactly if the items are alike. -/
theorem figures_eq_iff (hexact : rt.Exact) {a b : List FolioLineItem} {r : AuditRecord}
    (hb : figures rt b = some r) : figures rt a = some r ↔ Alike a b := by
  constructor
  · intro ha
    rw [figures_eq hexact] at ha hb
    simp only [Option.bind_eq_bind, Option.bind_eq_some_iff, Option.some.injEq] at ha hb
    obtain ⟨net, hnet, room, hroom, tax, htax, rfl⟩ := ha
    obtain ⟨net', hnet', room', hroom', tax', htax', hrecord⟩ := hb
    obtain ⟨rfl, rfl, rfl, hcount, hcharges, hreversals⟩ := AuditRecord.mk.inj hrecord
    refine ⟨hcount.symm, hcharges.symm, hreversals.symm, ?_, ?_, ?_⟩
    · have hf (i : FolioLineItem) := (whole_toRat i.total).sub (whole_toRat i.taxAmount)
      rw [← toRat_of_store hnet (Whole.sum_map hf a), ← toRat_of_store hnet' (Whole.sum_map hf b)]
    · have hf (i : FolioLineItem) := whole_toRat i.total
      rw [← toRat_of_store hroom (Whole.sum_map hf _), ← toRat_of_store hroom' (Whole.sum_map hf _)]
    · have hf (i : FolioLineItem) := whole_toRat i.taxAmount
      rw [← toRat_of_store htax (Whole.sum_map hf a), ← toRat_of_store htax' (Whole.sum_map hf b)]
  · intro h
    rw [← hb, figures_eq hexact, figures_eq hexact, h.lineItemCount, h.charges, h.reversals, h.net,
      h.room, h.tax]

theorem lineItemCount_of_figures {items : List FolioLineItem} {r : AuditRecord}
    (h : figures rt items = some r) : r.lineItemCount = items.length := by
  simp only [figures, Option.bind_eq_bind, Option.bind_eq_some_iff, Option.some.injEq] at h
  obtain ⟨_, -, _, -, _, -, rfl⟩ := h
  rfl

/-- As many items as the own ones are the own ones. -/
theorem clean_of_length (h : (db.auditedItems rt input.businessDate).length =
    (ownItems rt db input).length) : Clean rt db input := by
  have hsplit := (own_append_foreign rt db input).length_eq
  rw [List.length_append, h] at hsplit
  exact clean_iff.mpr (List.eq_nil_of_length_eq_zero (by omega))

end Scope

/-- Of two states that agree on a property and in one of which its day is closed, both record
the same: if the day of the one has no items of other properties, if and only if that of the
other has none, on any server; and in general, with exact numbers, if and only if as many items
of other properties are counted, with the same sums. -/
theorem sameRecord_iff {rt : Runtime} {db db' : Database} {input : CloseBusinessDayInput}
    {id : String} {now : ℤ} (h : AgreeOn input.propertyId db db')
    (hfresh : ∀ d ∈ db.businessDays.rows, d.id ≠ id) {r : AuditRecord}
    (h' : Records rt db' input id now r) :
    (Clean rt db' input → (SameRecord rt db db' input id now ↔ Clean rt db input)) ∧
      (rt.Exact → (SameRecord rt db db' input id now ↔
        Alike (foreignItems rt db input) (foreignItems rt db' input))) := by
  have hfigures := (records_iff.mp h').2
  rw [h.sameRecord_iff_figures hfresh h']
  constructor
  · intro hclean'
    constructor
    · intro hsame
      refine clean_of_length ?_
      rw [← lineItemCount_of_figures hsame, lineItemCount_of_figures hfigures,
        hclean'.auditedItems_eq, h.ownItems_eq]
    · intro hclean
      rw [hclean.auditedItems_eq, h.ownItems_eq, ← hclean'.auditedItems_eq]
      exact hfigures
  · intro hexact
    rw [figures_eq_iff hexact hfigures, h.alike_iff]

/-- The lodge, which has no night, next to the hotel before its first. -/
def quietNeighbours : Database := { sample with properties := neighbours.properties }

/-- The first day of the lodge is closed. -/
def lodgeDay : CloseBusinessDayInput := ⟨"lodge", 0, "auditor", none⟩

theorem agreeOn_lodge : AgreeOn "lodge" neighbours quietNeighbours :=
  ⟨Iff.rfl, by decide +kernel, by decide +kernel, by decide +kernel⟩

/-- The day is closed, with as many items as the audit counts. -/
theorem exists_records_lodge {db : Database} (hclosable : db.Closable lodgeDay "day")
    (hsome : (figures (.exact 0 id) (db.auditedItems (.exact 0 id) 0)).isSome = true) :
    ∃ r, Records (.exact 0 id) db lodgeDay "day" 0 r ∧
      r.lineItemCount = (db.auditedItems (.exact 0 id) 0).length := by
  obtain ⟨r, hr⟩ := Option.isSome_iff_exists.mp hsome
  exact ⟨r, records_iff.mpr ⟨hclosable, hr⟩, lineItemCount_of_figures hr⟩

theorem closable_quietNeighbours : quietNeighbours.Closable lodgeDay "day" :=
  ⟨by decide +kernel, by decide +kernel, fun _ => ⟨by decide +kernel, by decide +kernel⟩⟩

theorem closable_neighbours : neighbours.Closable lodgeDay "day" :=
  ⟨by decide +kernel, by decide +kernel, fun _ => ⟨by decide +kernel, by decide +kernel⟩⟩

theorem sameRecord_iff_lodge :
    (Clean (.exact 0 id) quietNeighbours lodgeDay →
      (SameRecord (.exact 0 id) neighbours quietNeighbours lodgeDay "day" 0 ↔
        Clean (.exact 0 id) neighbours lodgeDay)) ∧
      ((Runtime.exact 0 id).Exact →
        (SameRecord (.exact 0 id) neighbours quietNeighbours lodgeDay "day" 0 ↔
          Alike (foreignItems (.exact 0 id) neighbours lodgeDay)
            (foreignItems (.exact 0 id) quietNeighbours lodgeDay))) := by
  obtain ⟨r, hr, -⟩ := exists_records_lodge closable_quietNeighbours (by decide +kernel)
  exact sameRecord_iff agreeOn_lodge (by decide +kernel) hr

/-- The night of the hotel is counted for the lodge. -/
theorem not_sameRecord :
    ¬ ∀ (rt : Runtime) (db db' : Database) input dayId now r r',
      AgreeOn input.propertyId db db' → Records rt db input dayId now r →
      Records rt db' input dayId now r' → r = r' := by
  intro h
  obtain ⟨r, hr, hone⟩ := exists_records_lodge closable_neighbours (by decide +kernel)
  obtain ⟨r', hr', hzero⟩ := exists_records_lodge closable_quietNeighbours (by decide +kernel)
  have hsame := h (.exact 0 id) neighbours quietNeighbours lodgeDay "day" 0 r r' agreeOn_lodge
    hr hr'
  rw [hsame, hzero] at hone
  revert hone
  decide +kernel

end Database

end Hotelia
