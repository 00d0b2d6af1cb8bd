import Hotelia.Database.References
import Mathlib.Algebra.Group.Pi.Basic

/-!
# Which folio carries a charge

The carrier of a line item is nowhere written down: it is what the folio of the
posting and the transfers so far leave. `transferFolioItem` compares the target with
the folio of the posting, and never asks whether the source carries the item.

## Main definitions

- `carry` — how often a folio carries an item
- `Carried` — each item is carried once

## Main results

- `exists_single_move_iff`: which moves of a token leave one token.
- `carried_iff`: each item is carried once as long as each transfer is out of the
  carrier, or goes nowhere.
-/

namespace Hotelia
open Foundation

/-- A token at `c`, of which one is taken at `a` and given to `b`, is one token again
exactly if it was at `a`, or nothing was moved. -/
theorem exists_single_move_iff {α : Type*} [DecidableEq α] (a b c : α) :
    (∃ d, Pi.single c 1 + (Pi.single b 1 - Pi.single a 1) = (Pi.single d 1 : α → ℤ)) ↔
      a = b ∨ a = c := by
  constructor
  · rintro ⟨d, hd⟩
    by_contra hne
    obtain ⟨hab, hac⟩ := not_or.mp hne
    have ha := congrFun hd a
    simp only [Pi.add_apply, Pi.sub_apply, Pi.single_eq_same, Pi.single_eq_of_ne hac,
      Pi.single_eq_of_ne hab, Pi.single_apply] at ha
    split at ha <;> omega
  · rintro (rfl | rfl)
    · exact ⟨c, by rw [sub_self, add_zero]⟩
    · exact ⟨b, by rw [add_sub_cancel]⟩

namespace Database

variable {rt : Runtime} {db db' : Database}

/-- How often a folio carries an item: as the folio of its posting, and once more for each
transfer into it, and less for each out of it. -/
def carry (db : Database) (item : FolioLineItem) (folioId : String) : ℤ :=
  (if item.folioId = folioId then 1 else 0) +
    (db.transfers.rows.countP fun t => t.lineItemId = item.id ∧ t.toFolioId = folioId) -
    (db.transfers.rows.countP fun t => t.lineItemId = item.id ∧ t.fromFolioId = folioId)

/-- Each item is carried by one folio, once. -/
def Carried (db : Database) : Prop :=
  ∀ item ∈ db.lineItems.rows, ∃ f ∈ db.folios.rows, db.carry item f.id = 1 ∧
    ∀ g ∈ db.folios.rows, g.id ≠ f.id → db.carry item g.id = 0

instance : Decidable db.Carried :=
  inferInstanceAs (Decidable (∀ item ∈ db.lineItems.rows, _))

/-- A transfer is out of the folio that carries the item, or into the same folio. -/
def FromCarrier (db : Database) : LedgerCall → Prop
  | .transfer input _ => input.fromFolioId = input.toFolioId ∨
      ∀ item, db.findLineItem input.lineItemId = some item → db.carry item input.fromFolioId = 1
  | _ => True

/-! ## Rows and carriers -/

theorem carry_congr (h : db'.transfers = db.transfers) (item : FolioLineItem) :
    db'.carry item = db.carry item := by
  funext folioId
  rw [carry, carry, h]

/-- Where no transfer of the item goes to or comes from, it can only have been posted. -/
theorem carry_of_forall {item : FolioLineItem} {folioId : String}
    (h : ∀ t ∈ db.transfers.rows, t.lineItemId = item.id →
      t.toFolioId ≠ folioId ∧ t.fromFolioId ≠ folioId) :
    db.carry item folioId = if item.folioId = folioId then 1 else 0 := by
  have hto : db.transfers.rows.countP
      (fun t => t.lineItemId = item.id ∧ t.toFolioId = folioId) = 0 := by
    rw [List.countP_eq_zero]
    intro t ht hp
    obtain ⟨hid, hfolio⟩ := of_decide_eq_true hp
    exact (h t ht hid).1 hfolio
  have hfrom : db.transfers.rows.countP
      (fun t => t.lineItemId = item.id ∧ t.fromFolioId = folioId) = 0 := by
    rw [List.countP_eq_zero]
    intro t ht hp
    obtain ⟨hid, hfolio⟩ := of_decide_eq_true hp
    exact (h t ht hid).2 hfolio
  rw [carry, hto, hfrom, Nat.cast_zero, add_zero, sub_zero]

/-- An item that no transfer is about is where it was posted. -/
theorem carry_of_untransferred {item : FolioLineItem}
    (h : ∀ t ∈ db.transfers.rows, t.lineItemId ≠ item.id) :
    db.carry item = Pi.single item.folioId 1 := by
  funext folioId
  rw [carry_of_forall fun t ht hid => absurd hid (h t ht), Pi.single_apply]
  simp only [eq_comm]

/-- What a transfer does to the carriers. -/
theorem Moved.carry {row : FolioTransfer} (h : db.Moved row db') (item : FolioLineItem) :
    db'.carry item = db.carry item + if row.lineItemId = item.id then
      Pi.single row.toFolioId 1 - Pi.single row.fromFolioId 1 else 0 := by
  funext folioId
  simp only [Database.carry, h.transfers, List.countP_append, List.countP_singleton,
    Pi.add_apply]
  by_cases hitem : row.lineItemId = item.id
  · simp only [hitem, true_and, decide_eq_true_eq, if_true, Pi.sub_apply, Pi.single_apply,
      eq_comm (a := folioId)]
    push_cast
    ring
  · simp [hitem]

/-- Rows refer to folios only. -/
theorem Referential.carry_eq_zero (h : db.Referential) {item : FolioLineItem}
    (hitem : item ∈ db.lineItems.rows) {folioId : String} (hnone : ¬ db.HasFolio folioId) :
    db.carry item folioId = 0 := by
  have hfolio : item.folioId ≠ folioId := fun he => hnone (he ▸ h.folio item hitem)
  have htransfers : ∀ t ∈ db.transfers.rows, t.lineItemId = item.id →
      t.toFolioId ≠ folioId ∧ t.fromFolioId ≠ folioId := fun t ht _ =>
    ⟨fun hto => hnone (hto ▸ h.toFolio t ht), fun hfrom => hnone (hfrom ▸ h.fromFolio t ht)⟩
  rw [carry_of_forall htransfers, if_neg hfolio]

/-- To be carried once is to carry one token. -/
theorem Referential.carried_iff_single (h : db.Referential) :
    db.Carried ↔ ∀ item ∈ db.lineItems.rows, ∃ c, db.carry item = Pi.single c 1 := by
  refine forall₂_congr fun item hitem => ⟨?_, ?_⟩
  · rintro ⟨f, -, hone, hzero⟩
    refine ⟨f.id, ?_⟩
    funext folioId
    by_cases hf : folioId = f.id
    · rw [hf, hone, Pi.single_eq_same]
    rw [Pi.single_eq_of_ne hf]
    by_cases hfolio : db.HasFolio folioId
    · obtain ⟨g, hg, rfl⟩ := hfolio
      exact hzero g hg hf
    · exact h.carry_eq_zero hitem hfolio
  · rintro ⟨c, hc⟩
    have hfolio : db.HasFolio c := by
      by_contra hnone
      have hzero := h.carry_eq_zero hitem hnone
      rw [hc, Pi.single_eq_same] at hzero
      exact one_ne_zero hzero
    obtain ⟨f, hf, rfl⟩ := hfolio
    refine ⟨f, hf, by rw [hc, Pi.single_eq_same], fun g _ hg => ?_⟩
    rw [hc, Pi.single_eq_of_ne hg]

/-! ## The calls -/

/-- A new item is where it was posted. -/
theorem Created.single {item : FolioLineItem} (h : db.Created item db') (hrefs : db.Referential)
    (hsingle : ∀ i ∈ db.lineItems.rows, ∃ c, db.carry i = Pi.single c 1) :
    ∀ i ∈ db'.lineItems.rows, ∃ c, db'.carry i = Pi.single c 1 := by
  intro i hi
  rw [carry_congr h.transfers]
  rw [h.lineItems, List.mem_append, List.mem_singleton] at hi
  rcases hi with hi | rfl
  · exact hsingle i hi
  · refine ⟨i.folioId, carry_of_untransferred fun t ht he => ?_⟩
    obtain ⟨j, hj, hid⟩ := hrefs.lineItem t ht
    exact h.fresh j hj (hid.trans he)

/-- A transfer leaves one token exactly if it was allowed to. -/
theorem Moved.single_iff {row : FolioTransfer} (h : db.Moved row db') {item : FolioLineItem}
    (hitem : item ∈ db.lineItems.rows) (hid : row.lineItemId = item.id)
    (hsingle : ∀ i ∈ db.lineItems.rows, ∃ c, db.carry i = Pi.single c 1) :
    (∀ i ∈ db'.lineItems.rows, ∃ c, db'.carry i = Pi.single c 1) ↔
      row.fromFolioId = row.toFolioId ∨ db.carry item row.fromFolioId = 1 := by
  obtain ⟨c, hc⟩ := hsingle item hitem
  have hitself : (∃ d, db'.carry item = Pi.single d 1) ↔
      row.fromFolioId = row.toFolioId ∨ row.fromFolioId = c := by
    rw [h.carry, if_pos hid, hc]
    exact exists_single_move_iff _ _ _
  have hcarrier : db.carry item row.fromFolioId = 1 ↔ row.fromFolioId = c := by
    rw [hc, Pi.single_apply]
    by_cases he : row.fromFolioId = c
    · simp [he]
    · simp [he]
  rw [hcarrier, ← hitself]
  constructor
  · exact fun hall => hall item (h.lineItems ▸ hitem)
  · intro hmoved i hi
    rw [h.lineItems] at hi
    by_cases he : row.lineItemId = i.id
    · obtain rfl : item = i :=
        db.lineItems.eq_of_clash (fun _ _ => Eq.symm) hitem hi (hid.symm.trans he)
      exact hmoved
    · rw [h.carry, if_neg he, add_zero]
      exact hsingle i hi

/-- Of all the calls only a transfer can spoil the carriers. -/
theorem carried_commit_iff {call : LedgerCall} (hrefs : db.Referential) (hcarried : db.Carried)
    (hstep : db.commit rt call = some db') : db'.Carried ↔ db.FromCarrier call := by
  rw [(hrefs.commit hstep).carried_iff_single]
  have hsingle := hrefs.carried_iff_single.mp hcarried
  cases effect_of_commit hstep with
  | posted _ _ _ _ _ _ _ _ _ _ creates =>
    exact iff_of_true (creates.created.single hrefs hsingle) trivial
  | reversed _ _ _ _ _ _ _ _ _ creates =>
    exact iff_of_true (creates.created.single hrefs hsingle) trivial
  | transferred input _ item found _ row stored moves =>
    obtain ⟨hfrom, hto, hid, -⟩ := transferRow_eq_some stored
    rw [moves.moved.single_iff (mem_of_findLineItem found).1 hid hsingle, hfrom, hto]
    simp only [FromCarrier, found, Option.some.injEq, forall_eq']
  | charged _ _ _ _ _ _ folio base chosen _ _ _ creates =>
    have hchosen := chosen_of_chargedFolio chosen
    have hbase : ∀ i ∈ base.lineItems.rows, ∃ c, base.carry i = Pi.single c 1 := by
      intro i hi
      cases hchosen with
      | found _ hsame => exact hsame ▸ hsingle i (hsame ▸ hi)
      | created _ _ _ hlineItems htransfers _ =>
        rw [carry_congr htransfers]
        exact hsingle i (hlineItems ▸ hi)
    exact iff_of_true (creates.created.single (hrefs.chosen hchosen) hbase) trivial
  | audited _ _ _ _ lineItems transfers _ =>
    refine iff_of_true (fun i hi => ?_) trivial
    rw [carry_congr transfers]
    exact hsingle i (lineItems ▸ hi)

/-- Each item is carried once in all that a run reaches exactly if each transfer of the run
was out of the folio that carried the item, or into the folio it was out of. -/
theorem carried_iff {calls : List LedgerCall} (hrefs : db.Referential) (hcarried : db.Carried)
    (hrun : run (commit rt) db calls = some db') :
    (∀ bs u, bs <+: calls → run (commit rt) db bs = some u → u.Carried) ↔
      Along (commit rt) FromCarrier db calls :=
  forall_prefix_iff_along (I := Carried) (J := Referential) (fun _ _ _ h hstep => h.commit hstep)
    (fun _ _ _ hrefs hcarried hstep => carried_commit_iff hrefs hcarried hstep) hrefs hcarried hrun

/-- The same transfer twice, as by a second click. -/
def transferredTwice : List LedgerCall :=
  [.post (samplePosting none) "night" 0, .transfer (sampleTransfer "master" "company") "t",
    .transfer (sampleTransfer "master" "company") "u"]

theorem carried_iff_sample :
    ∃ db', run (commit (.exact 0 id)) sample transferredTwice = some db' ∧
      ((∀ bs u, bs <+: transferredTwice → run (commit (.exact 0 id)) sample bs = some u →
          u.Carried) ↔
        Along (commit (.exact 0 id)) FromCarrier sample transferredTwice) := by
  have hsome : (run (commit (.exact 0 id)) sample transferredTwice).isSome = true := by
    decide +kernel
  obtain ⟨db', hdb'⟩ := Option.isSome_iff_exists.mp hsome
  exact ⟨db', hdb', carried_iff referential_sample (List.forall_mem_nil _) hdb'⟩

/-- The company carries the night twice, and the guest less than once. -/
theorem not_carried :
    ¬ ∀ calls db', run (commit (.exact 0 id)) sample calls = some db' → db'.Carried := by
  intro h
  have hsome : (run (commit (.exact 0 id)) sample transferredTwice).isSome = true := by
    decide +kernel
  have hlost : ∀ u ∈ run (commit (.exact 0 id)) sample transferredTwice, ¬ u.Carried := by
    decide +kernel
  obtain ⟨db', hdb'⟩ := Option.isSome_iff_exists.mp hsome
  exact hlost db' hdb' (h transferredTwice db' hdb')

end Database

end Hotelia
