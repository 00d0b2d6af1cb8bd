import Hotelia.Database.References

/-!
# Closed business days

What the night audit has closed should stay as it was counted. A posting asks whether
its day is open, but without a date it asks for today and is stamped with the active
day; a reversal and a charge from the point of sale are stamped with today, and ask
for nothing.

## Main definitions

- `Frozen` — nothing was added to a closed day
- `StampsOpenDay` — a call does not add to a closed day

## Main results

- `frozen_iff`: closed days are frozen exactly as long as each call stamps an open day.
-/

namespace Hotelia
open Foundation

namespace Database

variable {rt : Runtime} {db db' : Database}

/-- Of the line items of a closed day, on folios of its property, none is new. -/
def Frozen (db db' : Database) : Prop :=
  ∀ day ∈ db.businessDays.rows, day.status = .closed →
    ∀ item ∈ db'.lineItems.rows, item.businessDate = day.businessDate →
      db'.OfProperty item.folioId day.propertyId → item ∈ db.lineItems.rows

instance (folioId propertyId : String) : Decidable (db.OfProperty folioId propertyId) :=
  inferInstanceAs (Decidable (∃ f ∈ db.folios.rows, _))

instance : Decidable (db.Frozen db') :=
  inferInstanceAs (Decidable (∀ day ∈ db.businessDays.rows, day.status = .closed →
    ∀ item ∈ db'.lineItems.rows, item.businessDate = day.businessDate →
      db'.OfProperty item.folioId day.propertyId → item ∈ db.lineItems.rows))

/-- The property of the folio that a charge goes to. -/
def chargedProperty (db : Database) (stay : Reservation) (propertyId : String) : String :=
  ((pickOpenFolio (db.openFolios stay)).map (·.propertyId)).getD propertyId

/-- The day that the call stamps its line item with, if any, is not closed. -/
def StampsOpenDay (rt : Runtime) (db : Database) : LedgerCall → Prop
  | .post input _ now => input.businessDate = none →
      ¬ db.DayClosed input.propertyId (utcDay (db.activeDate rt input.propertyId now))
  | .reverse input _ now => ∀ original ∈ db.findLineItem input.lineItemId,
      ∀ folio ∈ db.findFolio original.folioId, ¬ db.DayClosed folio.propertyId (utcDay now)
  | .charge input _ _ now => ∀ stay ∈ db.findStay input.propertyId input.roomNumber,
      ¬ db.DayClosed (db.chargedProperty stay input.propertyId) (utcDay now)
  | _ => True

/-! ## What only grows -/

/-- Closed days stay closed, and folios stay with their property. -/
structure Extends (db db' : Database) : Prop where
  closed : ∀ propertyId date, db.DayClosed propertyId date → db'.DayClosed propertyId date
  properties : ∀ folioId propertyId, db.OfProperty folioId propertyId →
    db'.OfProperty folioId propertyId

theorem Extends.refl (db : Database) : db.Extends db := ⟨fun _ _ h => h, fun _ _ h => h⟩

theorem Extends.trans {mid : Database} (h : db.Extends mid) (h' : mid.Extends db') :
    db.Extends db' :=
  ⟨fun p d hd => h'.closed p d (h.closed p d hd), fun f p hf => h'.properties f p (h.properties f p hf)⟩

theorem dayClosed_congr (h : db'.businessDays = db.businessDays) (propertyId : String) (date : ℤ) :
    db'.DayClosed propertyId date ↔ db.DayClosed propertyId date := by
  rw [DayClosed, DayClosed, h]

theorem Created.extends {item : FolioLineItem} (h : db.Created item db') : db.Extends db' :=
  ⟨fun p d => (dayClosed_congr h.businessDays p d).mpr, fun f p => (h.properties f p).mpr⟩

theorem Moved.extends {row : FolioTransfer} (h : db.Moved row db') : db.Extends db' :=
  ⟨fun p d => (dayClosed_congr h.businessDays p d).mpr, fun f p => (h.properties f p).mpr⟩

theorem Chosen.extends {folio : Folio} {base : Database} (h : db.Chosen folio base) :
    db.Extends base := by
  refine ⟨fun p d => ?_, fun f p => h.ofProperty⟩
  cases h with
  | found _ hsame => rw [hsame]; exact id
  | created _ _ _ _ _ hdays => exact (dayClosed_congr hdays p d).mpr

theorem extends_commit {call : LedgerCall} (h : db.commit rt call = some db') : db.Extends db' := by
  cases effect_of_commit h with
  | posted _ _ _ _ _ _ _ _ _ _ creates => exact creates.created.extends
  | reversed _ _ _ _ _ _ _ _ _ creates => exact creates.created.extends
  | transferred _ _ _ _ _ _ _ moves => exact moves.moved.extends
  | charged _ _ _ _ _ _ _ _ chosen _ _ _ creates =>
    exact (chosen_of_chargedFolio chosen).extends.trans creates.created.extends
  | audited _ _ _ folios _ _ closed =>
    refine ⟨closed, fun folioId propertyId h => ?_⟩
    rwa [OfProperty, folios]

/-! ## What is frozen -/

theorem Frozen.refl (db : Database) : db.Frozen db := fun _ _ _ _ hitem _ _ => hitem

/-- A day that was frozen twice is frozen. -/
theorem Frozen.trans {mid : Database} (hrefs : mid.Referential) (hext : db.Extends mid)
    (hext' : mid.Extends db') (h : db.Frozen mid) (h' : mid.Frozen db') : db.Frozen db' := by
  intro day hday hclosed item hitem hdate hproperty
  obtain ⟨day', hday', hproperty', hdate', hclosed'⟩ :=
    hext.closed day.propertyId day.businessDate ⟨day, hday, rfl, rfl, hclosed⟩
  have hmid : item ∈ mid.lineItems.rows :=
    h' day' hday' hclosed' item hitem (hdate.trans hdate'.symm) (hproperty'.symm ▸ hproperty)
  refine h day hday hclosed item hmid hdate ?_
  -- its folio was there already, and of the same property
  obtain ⟨propertyId, hbefore⟩ := (hrefs.folio item hmid).ofProperty
  obtain rfl := (hext'.properties _ _ hbefore).unique hproperty
  exact hbefore

theorem Frozen.of_lineItems (h : db'.lineItems = db.lineItems) : db.Frozen db' :=
  fun _ _ _ _ hitem _ _ => h ▸ hitem

/-- A new item leaves the closed days as they were exactly if its own day is not closed. -/
theorem Created.leaves_frozen_iff {item : FolioLineItem} (h : db.Created item db') {propertyId : String}
    (hproperty : db.OfProperty item.folioId propertyId) :
    db.Frozen db' ↔ ¬ db.DayClosed propertyId item.businessDate := by
  constructor
  · rintro hfrozen ⟨day, hday, rfl, hdate, hclosed⟩
    have hmem : item ∈ db'.lineItems.rows := by
      rw [h.lineItems]
      exact List.mem_append_right _ List.mem_cons_self
    have hold := hfrozen day hday hclosed item hmem hdate.symm ((h.properties _ _).mpr hproperty)
    exact h.fresh item hold rfl
  · intro hopen day hday hclosed i hi hdate hof
    rw [h.lineItems, List.mem_append, List.mem_singleton] at hi
    rcases hi with hi | rfl
    · exact hi
    · obtain rfl := hproperty.unique ((h.properties _ _).mp hof)
      exact absurd ⟨day, hday, rfl, hdate.symm, hclosed⟩ hopen

theorem propertyId_of_chargedFolio {stay : Reservation} {propertyId folioId : String} {folio : Folio}
    {base : Database} (h : db.chargedFolio stay propertyId folioId = .ok (folio, base)) :
    folio.propertyId = db.chargedProperty stay propertyId := by
  rw [chargedFolio] at h
  rw [chargedProperty]
  split at h
  · next hpick =>
    cases h
    rw [hpick]
    rfl
  · next hpick =>
    obtain ⟨mid, -, hpure⟩ := bind_eq_ok h
    cases hpure
    rw [hpick]
    rfl

/-- The folio of a charge is in the tables that the charge is made on. -/
theorem Chosen.ofProperty_folio {folio : Folio} {base : Database} (h : db.Chosen folio base) :
    base.OfProperty folio.id folio.propertyId := by
  cases h with
  | found hmem hsame => exact ⟨folio, hsame ▸ hmem, rfl, rfl⟩
  | created _ _ hfolios _ _ _ =>
    exact ⟨folio, hfolios ▸ List.mem_append_right _ List.mem_cons_self, rfl, rfl⟩

theorem Chosen.frozen_congr {folio : Folio} {base : Database} (h : db.Chosen folio base) :
    db.Frozen db' ↔ base.Frozen db' := by
  cases h with
  | found _ hsame => rw [hsame]
  | created _ _ _ hlineItems _ hdays => rw [Frozen, Frozen, hlineItems, hdays]

/-- A call leaves the closed days as they were exactly if it stamps an open one. -/
theorem frozen_commit_iff {call : LedgerCall} (hrefs : db.Referential)
    (hstep : db.commit rt call = some db') : db.Frozen db' ↔ db.StampsOpenDay rt call := by
  cases effect_of_commit hstep with
  | posted input id now folio found folioId property day item stored creates =>
    have hof : db.OfProperty item.folioId input.propertyId :=
      ⟨folio, found, folioId.trans stored.folioId.symm, property⟩
    rw [creates.created.leaves_frozen_iff hof, stored.businessDate]
    show ¬ db.DayClosed _ (utcDay (input.businessDate.getD _)) ↔ _
    cases hdate : input.businessDate with
    | none => simp only [StampsOpenDay, hdate, Option.getD_none, forall_const]
    | some date =>
      rw [hdate, Option.getD_some] at day
      exact iff_of_true day fun hnone => by simp [hdate] at hnone
  | reversed input id now original found _ _ item stored creates =>
    obtain ⟨folio, hfolio, hid⟩ := hrefs.folio original (mem_of_findLineItem found).1
    have hfind : db.findFolio original.folioId = some folio := hid ▸ findFolio_of_mem hfolio
    have hof : db.OfProperty item.folioId folio.propertyId :=
      ⟨folio, hfolio, hid.trans stored.folioId.symm, rfl⟩
    rw [creates.created.leaves_frozen_iff hof, stored.businessDate]
    simp only [StampsOpenDay, found, hfind, Option.mem_def, Option.some.injEq, forall_eq']
    exact Iff.rfl
  | transferred _ _ _ _ _ _ _ moves =>
    exact iff_of_true (.of_lineItems moves.moved.lineItems) trivial
  | charged input id folioId now stay found folio base chosen taxRate item stored creates =>
    have hchosen := chosen_of_chargedFolio chosen
    have hof : base.OfProperty item.folioId folio.propertyId :=
      stored.folioId ▸ hchosen.ofProperty_folio
    have hdays : base.businessDays = db.businessDays := by
      cases hchosen with
      | found _ hsame => rw [hsame]
      | created _ _ _ _ _ hdays => exact hdays
    rw [hchosen.frozen_congr, creates.created.leaves_frozen_iff hof, stored.businessDate,
      dayClosed_congr hdays, propertyId_of_chargedFolio chosen]
    simp only [StampsOpenDay, found, Option.mem_def, Option.some.injEq, forall_eq']
    exact Iff.rfl
  | audited _ _ _ _ lineItems _ _ => exact iff_of_true (.of_lineItems lineItems) trivial

/-- Between any two states of a run the closed days are frozen exactly if each call of the run
stamped a day that was not closed. -/
theorem frozen_iff {calls : List LedgerCall} (hrefs : db.Referential)
    (hrun : run (commit rt) db calls = some db') :
    (∀ bs cs u v, bs ++ cs <+: calls → run (commit rt) db bs = some u →
        run (commit rt) u cs = some v → u.Frozen v) ↔
      Along (commit rt) (StampsOpenDay rt) db calls := by
  have hsegments := forall_segment_iff_along (J := Referential)
    (R := fun u v => u.Extends v ∧ u.Frozen v) (fun _ _ _ h hstep => h.commit hstep)
    (fun s => ⟨.refl s, .refl s⟩)
    (fun _ _ _ hrefs h h' => ⟨h.1.trans h'.1, h.2.trans hrefs h.1 h'.1 h'.2⟩)
    (fun s a t hrefs hstep =>
      (and_iff_right (extends_commit hstep)).trans (frozen_commit_iff hrefs hstep)) hrefs hrun
  rw [← hsegments]
  refine forall₄_congr fun bs cs u v => forall₃_congr fun _ _ hv => (and_iff_right ?_).symm
  refine run_invariant (I := fun s => u.Extends s) (fun s a t h hstep => ?_) (.refl u) hv
  exact h.trans (extends_commit hstep)

/-- The night audit of the first day, at one o'clock of that day. -/
def sampleClose : LedgerCall := .close ⟨"hotel", 0, "auditor", none⟩ "day" 3600000

/-- A tea is charged on the same day, an hour later. -/
def lateTea : LedgerCall := .charge sampleCharge "tea" "folio" 7200000

theorem frozen_iff_sample :
    ∃ db', run (commit (.exact 0 id)) sample [sampleClose, lateTea] = some db' ∧
      ((∀ bs cs u v, bs ++ cs <+: [sampleClose, lateTea] →
          run (commit (.exact 0 id)) sample bs = some u →
          run (commit (.exact 0 id)) u cs = some v → u.Frozen v) ↔
        Along (commit (.exact 0 id)) (StampsOpenDay (.exact 0 id)) sample
          [sampleClose, lateTea]) := by
  have hsome : (run (commit (.exact 0 id)) sample [sampleClose, lateTea]).isSome = true := by
    decide +kernel
  obtain ⟨db', hdb'⟩ := Option.isSome_iff_exists.mp hsome
  exact ⟨db', hdb', frozen_iff referential_sample hdb'⟩

/-- The tea is on the day that was closed before. -/
theorem not_frozen :
    ¬ ∀ before after u v, run (commit (.exact 0 id)) sample before = some u →
      run (commit (.exact 0 id)) u after = some v → u.Frozen v := by
  intro h
  have hclose : (run (commit (.exact 0 id)) sample [sampleClose]).isSome = true := by
    decide +kernel
  have hcharge : ∀ u ∈ run (commit (.exact 0 id)) sample [sampleClose],
      (run (commit (.exact 0 id)) u [lateTea]).isSome = true ∧
        ∀ v ∈ run (commit (.exact 0 id)) u [lateTea], ¬ u.Frozen v := by
    decide +kernel
  obtain ⟨u, hu⟩ := Option.isSome_iff_exists.mp hclose
  obtain ⟨hsome, hlate⟩ := hcharge u hu
  obtain ⟨v, hv⟩ := Option.isSome_iff_exists.mp hsome
  exact hlate v hv (h [sampleClose] [lateTea] u v hu hv)

end Database

end Hotelia
