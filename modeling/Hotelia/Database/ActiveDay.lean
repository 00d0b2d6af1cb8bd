import Hotelia.Database.Reversal

/-!
# The day that a posting is stamped with

A posting without a date is meant for the active business day. The clock is moved there by
the day of the month alone, and keeps its own month and year.

## Main results

- `localDay_activeDate`: the day that the clock is moved to.
- `stampedOn_iff`: when it is the active business day.
-/

namespace Hotelia
open Foundation

namespace Database

/-- The latest `OPEN` business day of the property. -/
def LatestOpen (db : Database) (propertyId : String) (active : BusinessDay) : Prop :=
  active ∈ db.businessDays.rows ∧ active.propertyId = propertyId ∧ active.status = .opened ∧
    ∀ d ∈ db.businessDays.rows, d.propertyId = propertyId → d.status = .opened →
      d.businessDate ≤ active.businessDate

instance (db : Database) (propertyId : String) (active : BusinessDay) :
    Decidable (db.LatestOpen propertyId active) :=
  inferInstanceAs (Decidable (active ∈ db.businessDays.rows ∧ active.propertyId = propertyId ∧
    active.status = .opened ∧ ∀ d ∈ db.businessDays.rows, d.propertyId = propertyId →
      d.status = .opened → d.businessDate ≤ active.businessDate))

/-- The posting has left an item that is stamped with the year, the month and the day of
`day`, in the zone of the server. -/
def StampedOn (rt : Runtime) (db db' : Database) (input : PostLineItemInput) (id : String)
    (now day : ℤ) : Prop :=
  ∃ item, db'.findLineItem id = some item ∧
    item.businessDate = utcDay (input.stampedDate rt db now) ∧
    civil (rt.localDay (input.stampedDate rt db now)) = civil day

section

variable {rt : Runtime} {db db' : Database} {propertyId : String} {active : BusinessDay}

/-- The search keeps a day that no day it has seen is later than. -/
theorem foldl_laterDay (days : List BusinessDay) (best : BusinessDay) :
    ∃ latest ∈ best :: days, days.foldl laterDay (some best) = some latest ∧
      ∀ d ∈ best :: days, d.businessDate ≤ latest.businessDate := by
  induction days generalizing best with
  | nil =>
    refine ⟨best, List.mem_singleton_self best, rfl, fun d hd => ?_⟩
    rw [List.mem_singleton.mp hd]
  | cons day days ih =>
    by_cases hlater : best.businessDate < day.businessDate
    · obtain ⟨latest, hmem, hfold, hall⟩ := ih day
      refine ⟨latest, List.mem_cons_of_mem best hmem, ?_, ?_⟩
      · rw [List.foldl_cons, laterDay, if_pos hlater, hfold]
      · intro d hd
        cases hd with
        | head =>
          have hday := hall day List.mem_cons_self
          omega
        | tail _ hd => exact hall d hd
    · obtain ⟨latest, hmem, hfold, hall⟩ := ih best
      refine ⟨latest, ?_, ?_, ?_⟩
      · cases hmem with
        | head => exact List.mem_cons_self
        | tail _ hmem => exact List.mem_cons_of_mem best (List.mem_cons_of_mem day hmem)
      · rw [List.foldl_cons, laterDay, if_neg hlater, hfold]
      · intro d hd
        have hbest := hall best List.mem_cons_self
        cases hd with
        | head => exact hbest
        | tail _ hd =>
          cases hd with
          | head => omega
          | tail _ hd => exact hall d (List.mem_cons_of_mem best hd)

/-- The latest open day is the one that is found. -/
theorem LatestOpen.activeBusinessDay (h : db.LatestOpen propertyId active) :
    db.activeBusinessDay propertyId = some active := by
  obtain ⟨hmem, hproperty, hopen, hlatest⟩ := h
  have hfilter : active ∈ db.businessDays.rows.filter fun d =>
      d.propertyId = propertyId ∧ d.status = .opened := by
    rw [List.mem_filter, decide_eq_true_eq]
    exact ⟨hmem, hproperty, hopen⟩
  rw [Database.activeBusinessDay]
  generalize hdays : (db.businessDays.rows.filter fun d =>
    d.propertyId = propertyId ∧ d.status = .opened) = days at *
  cases days with
  | nil => cases hfilter
  | cons first days =>
    obtain ⟨latest, hin, hfold, hall⟩ := foldl_laterDay days first
    rw [← hdays, List.mem_filter, decide_eq_true_eq] at hin
    have hdate : latest.businessDate = active.businessDate :=
      le_antisymm (hlatest latest hin.1 hin.2.1 hin.2.2) (hall active hfilter)
    -- a property has one row for a date
    have hclash : BusinessDay.Clash latest active := .inr ⟨hin.2.1.trans hproperty.symm, hdate⟩
    obtain rfl := db.businessDays.eq_of_clash BusinessDay.Clash.symm hin.1 hmem hclash
    exact hfold

/-- The clock is moved to the day of the month of the active day, and stays in its month. -/
theorem localDay_activeDate (hzone : ∀ d, rt.localDay (rt.startOfDay d) = d)
    (h : db.LatestOpen propertyId active) (now : ℤ) :
    rt.localDay (db.activeDate rt propertyId now) =
      rt.localDay now - dayOfMonth (rt.localDay now) +
        dayOfMonth (rt.localDay (midnight active.businessDate)) := by
  simp only [activeDate, h.activeBusinessDay]
  split
  · exact hzone _
  · next hsame =>
    rw [not_not] at hsame
    rw [hsame]
    omega

/-- That is the active day exactly in the month of the active day. -/
theorem localDay_activeDate_eq_iff (hzone : ∀ d, rt.localDay (rt.startOfDay d) = d)
    (h : db.LatestOpen propertyId active) (now : ℤ) :
    rt.localDay (db.activeDate rt propertyId now) = rt.localDay (midnight active.businessDate) ↔
      SameMonth (rt.localDay now) (rt.localDay (midnight active.businessDate)) := by
  rw [localDay_activeDate hzone h, sameMonth_iff]
  omega

/-- The row of a posting, under the id that it was given. -/
theorem exists_item_of_post {input : PostLineItemInput} {id : String} {now : ℤ}
    (h : db.commit rt (.post input id now) = some db') :
    ∃ item, db'.findLineItem id = some item ∧
      item.businessDate = utcDay (input.stampedDate rt db now) := by
  cases effect_of_commit h with
  | posted _ _ _ _ _ _ _ _ item stored creates =>
    have hfound := creates.created.findLineItem_self
    rw [stored.id] at hfound
    exact ⟨item, hfound, stored.businessDate⟩

/-- On a server in UTC the row carries that date. -/
theorem StampedOn.businessDate (hutc : ∀ t, rt.localDay t = utcDay t) {input : PostLineItemInput}
    {id : String} {now day : ℤ} (h : StampedOn rt db db' input id now day) :
    ∃ item, db'.findLineItem id = some item ∧ item.businessDate = day := by
  obtain ⟨item, hfound, hdate, hday⟩ := h
  rw [hutc] at hday
  exact ⟨item, hfound, hdate.trans (civil_inj.mp hday)⟩

end

/-- A posting without a date that goes through is stamped with the date of the latest open
business day, whatever the clock says, if and only if the clock is in the month of that day. -/
theorem stampedOn_iff {rt : Runtime} (hzone : ∀ d, rt.localDay (rt.startOfDay d) = d)
    {db db' : Database} {input : PostLineItemInput} {id : String} {now : ℤ} {active : BusinessDay}
    (hnone : input.businessDate = none) (hactive : db.LatestOpen input.propertyId active)
    (h : db.commit rt (.post input id now) = some db') :
    StampedOn rt db db' input id now (rt.localDay (midnight active.businessDate)) ↔
      SameMonth (rt.localDay now) (rt.localDay (midnight active.businessDate)) := by
  have hstamp : input.stampedDate rt db now = db.activeDate rt input.propertyId now := by
    rw [PostLineItemInput.stampedDate, hnone, Option.getD_none]
  rw [← localDay_activeDate_eq_iff hzone hactive, ← hstamp, ← civil_inj]
  constructor
  · rintro ⟨_, -, -, hday⟩
    exact hday
  · intro hday
    obtain ⟨item, hfound, hdate⟩ := exists_item_of_post h
    exact ⟨item, hfound, hdate, hday⟩

/-- A server that is `offset` ahead of UTC. -/
theorem localDay_startOfDay_exact (offset : ℤ) (toLowerCase : String → String) (d : ℤ) :
    (Runtime.exact offset toLowerCase).localDay ((Runtime.exact offset toLowerCase).startOfDay d) =
      d := by
  show (d * dayMs - offset + offset) / dayMs = d
  rw [sub_add_cancel]
  exact Int.mul_ediv_cancel d (by decide)

/-- The business day of the 31st of January 2024. -/
def endOfJanuary : BusinessDay :=
  ⟨"january-31", "hotel", 19753, .opened, "03:00", none, none, none, none, none, none⟩

/-- The hotel of one stay, on that day. -/
def openSample : Database :=
  { sample with businessDays := ⟨[endOfJanuary], List.pairwise_singleton _ _⟩ }

theorem stampedOn_iff_openSample :
    ∃ db', openSample.commit (.exact 0 id) (.post (samplePosting none) "night" (19754 * dayMs)) =
        some db' ∧
      (StampedOn (.exact 0 id) openSample db' (samplePosting none) "night" (19754 * dayMs)
          ((Runtime.exact 0 id).localDay (midnight endOfJanuary.businessDate)) ↔
        SameMonth ((Runtime.exact 0 id).localDay (19754 * dayMs))
          ((Runtime.exact 0 id).localDay (midnight endOfJanuary.businessDate))) := by
  have hsome : (openSample.commit (.exact 0 id)
      (.post (samplePosting none) "night" (19754 * dayMs))).isSome = true := by
    decide +kernel
  obtain ⟨db', hdb'⟩ := Option.isSome_iff_exists.mp hsome
  exact ⟨db', hdb', stampedOn_iff (localDay_startOfDay_exact 0 id) rfl (by decide +kernel) hdb'⟩

/-- After midnight of the first of February the night of the 31st of January is posted to the
second of March. -/
theorem not_stampedOn :
    ¬ ∀ (rt : Runtime) (db db' : Database) input lineItemId now active,
      (∀ d, rt.localDay (rt.startOfDay d) = d) → input.businessDate = none →
      db.LatestOpen input.propertyId active →
      db.commit rt (.post input lineItemId now) = some db' →
      StampedOn rt db db' input lineItemId now (rt.localDay (midnight active.businessDate)) := by
  intro h
  have hsome : (openSample.commit (.exact 0 id)
      (.post (samplePosting none) "night" (19754 * dayMs))).isSome = true := by
    decide +kernel
  obtain ⟨db', hdb'⟩ := Option.isSome_iff_exists.mp hsome
  obtain ⟨_, -, -, hday⟩ := h (.exact 0 id) openSample db' (samplePosting none) "night"
    (19754 * dayMs) endOfJanuary (localDay_startOfDay_exact 0 id) rfl (by decide +kernel) hdb'
  revert hday
  decide +kernel

end Database

end Hotelia
