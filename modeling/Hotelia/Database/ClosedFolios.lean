import Hotelia.Database.Reversal

/-!
# Folios that are not open

A posting asks whether its folio is open, and the point of sale looks for an open one. A
transfer and a reversal ask for nothing, and move whatever balance they are told to.

## Main results

- `closedKept_iff`: which calls leave the balances of closed folios alone.
-/

namespace Hotelia
open Foundation Numeric

namespace Database

/-- The balance of every folio that is `CLOSED`, `DISPUTED` or `WRITTEN_OFF` is as before. -/
def ClosedKept (db db' : Database) : Prop :=
  ∀ f ∈ db.folios.rows, f.status ≠ .opened → db'.balanceOf f.id = db.balanceOf f.id

/-- There is no folio with the id, or it is open. -/
def NotClosed (db : Database) (folioId : String) : Prop :=
  ∀ f ∈ db.folios.rows, f.id = folioId → f.status = .opened

/-- The call moves no amount on a folio that is not open. A transfer must be of nothing, lead
back to the folio that it came from, or lie between open folios. -/
def SparesClosed (db : Database) : LedgerCall → Prop
  | .transfer input _ => ∀ item, db.findLineItem input.lineItemId = some item →
      input.fromFolioId = input.toFolioId ∨ item.total.toRat = 0 ∨
        (db.NotClosed input.fromFolioId ∧ db.NotClosed input.toFolioId)
  | .reverse input _ _ => ∀ original, db.findLineItem input.lineItemId = some original →
      original.total.toRat = 0 ∨ db.NotClosed original.folioId
  | .post _ _ _ => True
  | .charge _ _ _ _ => True
  | .close _ _ _ => True

section

variable {rt : Runtime} {db db' : Database}

theorem balanceOf_mem {f : Folio} (hf : f ∈ db.folios.rows) :
    db.balanceOf f.id = some f.balance.toRat := by
  rw [balanceOf, findFolio_of_mem hf, Option.map_some]

theorem balanceOf_congr (h : db'.folios = db.folios) (f : String) :
    db'.balanceOf f = db.balanceOf f := by
  rw [balanceOf, balanceOf, findFolio, findFolio, h]

/-- A folio keeps its balance exactly if that has moved by nothing. -/
theorem Shifted.kept_iff {amounts : String → ℚ} (h : db.Shifted amounts db') {f : Folio}
    (hf : f ∈ db.folios.rows) :
    db'.balanceOf f.id = db.balanceOf f.id ↔ amounts f.id = 0 := by
  rw [h f.id, balanceOf_mem hf, Option.map_some, Option.some.injEq]
  exact add_eq_left

/-- A new item leaves the other folios alone. -/
theorem Creates.balanceOf_ne {item : FolioLineItem} {increment : ℚ}
    (h : db.Creates item increment db') {f : String} (hne : f ≠ item.folioId) :
    db'.balanceOf f = db.balanceOf f := by
  obtain ⟨folio, balance, -, -, hshift⟩ := h.exists_balance
  rw [hshift f, Pi.single_eq_of_ne hne]
  simp only [add_zero, Option.map_id']

/-- The folio of a posting is open. -/
theorem open_of_post {input : PostLineItemInput} {id : String} {now : ℤ}
    (h : db.postLineItem rt input id now = .ok db') : db.NotClosed input.folioId := by
  rw [postLineItem] at h
  split at h
  · cases h
  · next folio hfolio =>
    have hmem := List.mem_of_find?_eq_some hfolio
    have hkey := List.find?_some hfolio
    rw [decide_eq_true_iff] at hkey
    split at h
    · cases h
    · next hopen =>
      intro f hf hid
      rw [not_not] at hopen
      rw [db.folios.eq_of_clash (fun _ _ => Eq.symm) hf hmem (hid.trans hkey.1.symm)]
      exact hopen

/-- So is the folio of a charge, if it is not new. -/
theorem open_of_chargedFolio {stay : Reservation} {propertyId folioId : String} {folio : Folio}
    {base : Database} (h : db.chargedFolio stay propertyId folioId = .ok (folio, base)) :
    db.NotClosed folio.id := by
  intro f hf hid
  rw [chargedFolio] at h
  split at h
  · next hpick =>
    cases h
    have hopen := List.mem_filter.mp (mem_of_pickOpenFolio hpick)
    rw [decide_eq_true_eq] at hopen
    rw [db.folios.eq_of_clash (fun _ _ => Eq.symm) hf hopen.1 hid]
    exact hopen.2.2
  · obtain ⟨mid, hcreate, hpure⟩ := bind_eq_ok h
    obtain ⟨folios, hfolios, rfl⟩ := createFolio_eq_ok hcreate
    cases hpure
    exact absurd hid ((Table.create_eq_some hfolios).2 f hf)

/-- A folio that is there keeps its balance while the folio of a charge is chosen. -/
theorem Chosen.balanceOf_eq {folio : Folio} {base : Database} (h : db.Chosen folio base) {f : Folio}
    (hf : f ∈ db.folios.rows) : base.balanceOf f.id = db.balanceOf f.id := by
  cases h with
  | found _ hsame => rw [hsame]
  | created _ _ hfolios _ _ _ =>
    have hbase : f ∈ base.folios.rows := hfolios ▸ List.mem_append_left _ hf
    rw [balanceOf_mem hbase, balanceOf_mem hf]

/-- A transfer that moves something is seen on a closed folio at either end. -/
theorem closedKept_moves_iff {item : FolioLineItem} {row : FolioTransfer}
    (h : db.Moves item row db') :
    db.ClosedKept db' ↔ row.fromFolioId = row.toFolioId ∨ item.total.toRat = 0 ∨
      (db.NotClosed row.fromFolioId ∧ db.NotClosed row.toFolioId) := by
  have hshift := h.shifted
  have hamount (f : String) : (-Pi.single row.fromFolioId item.total.toRat +
      Pi.single row.toFolioId item.total.toRat : String → ℚ) f =
      -(if f = row.fromFolioId then item.total.toRat else 0) +
        if f = row.toFolioId then item.total.toRat else 0 := by
    simp only [Pi.add_apply, Pi.neg_apply, Pi.single_apply]
  have hkept (f : Folio) (hf : f ∈ db.folios.rows) :
      db'.balanceOf f.id = db.balanceOf f.id ↔
        -(if f.id = row.fromFolioId then item.total.toRat else 0) +
          (if f.id = row.toFolioId then item.total.toRat else 0) = 0 := by
    rw [hshift.kept_iff hf, hamount]
  constructor
  · intro hall
    by_cases hsame : row.fromFolioId = row.toFolioId
    · exact .inl hsame
    by_cases hzero : item.total.toRat = 0
    · exact .inr (.inl hzero)
    refine .inr (.inr ⟨fun f hf hid => ?_, fun f hf hid => ?_⟩)
    · by_contra hclosed
      have hmoved := (hkept f hf).mp (hall f hf hclosed)
      rw [if_pos hid, if_neg (hid ▸ hsame), add_zero, neg_eq_zero] at hmoved
      exact hzero hmoved
    · by_contra hclosed
      have hmoved := (hkept f hf).mp (hall f hf hclosed)
      rw [if_neg (fun hfrom => hsame (hfrom.symm.trans hid)), if_pos hid, neg_zero, zero_add]
        at hmoved
      exact hzero hmoved
  · rintro (hsame | hzero | ⟨hfrom, hto⟩) f hf hclosed
    · rw [hkept f hf, hsame, neg_add_cancel]
    · rw [hkept f hf, hzero, ite_self, ite_self, neg_zero, add_zero]
    · rw [hkept f hf, if_neg fun hid => hclosed (hfrom f hf hid),
        if_neg fun hid => hclosed (hto f hf hid), neg_zero, add_zero]

/-- A reversal that moves something is seen if the folio of the posting is closed. -/
theorem closedKept_reversed_iff {item original : FolioLineItem}
    (h : db.Creates item (rt.decimal (rt.num (-original.total.toRat))) db')
    (hfolio : item.folioId = original.folioId) :
    db.ClosedKept db' ↔ original.total.toRat = 0 ∨ db.NotClosed original.folioId := by
  rw [decimal_neg] at h
  have hshift := h.shifted (whole_toRat _).neg
  rw [hfolio] at hshift
  constructor
  · intro hall
    by_cases hzero : original.total.toRat = 0
    · exact .inl hzero
    refine .inr fun f hf hid => ?_
    by_contra hclosed
    have hmoved := (hshift.kept_iff hf).mp (hall f hf hclosed)
    rw [hid, Pi.single_eq_same, neg_eq_zero] at hmoved
    exact hzero hmoved
  · rintro (hzero | hopen) f hf hclosed
    · rw [hshift.kept_iff hf, hzero, neg_zero, Pi.single_zero]
      rfl
    · rw [hshift.kept_iff hf, Pi.single_eq_of_ne fun hid => hclosed (hopen f hf hid)]

end

/-- A call that goes through leaves the balance of every folio that is not open alone, in
whatever state, if and only if it is a posting, a charge or an audit, or what it moves is
nothing, stays where it is, or moves between open folios. -/
theorem closedKept_iff {rt : Runtime} {db db' : Database} {call : LedgerCall}
    (h : db.commit rt call = some db') : db.ClosedKept db' ↔ db.SparesClosed call := by
  cases effect_of_commit h with
  | posted input id now _ _ _ _ _ item stored creates =>
    rw [commit_eq_some] at h
    refine iff_of_true (fun f hf hclosed => creates.balanceOf_ne fun hid => ?_) trivial
    exact hclosed (open_of_post h f hf (hid.trans stored.folioId))
  | reversed input id now original found _ _ item stored creates =>
    rw [closedKept_reversed_iff creates stored.folioId, SparesClosed]
    simp only [found, Option.some.injEq, forall_eq']
  | transferred input id item found _ row stored moves =>
    obtain ⟨hfrom, hto, -, -⟩ := transferRow_eq_some stored
    rw [closedKept_moves_iff moves, SparesClosed, hfrom, hto]
    simp only [found, Option.some.injEq, forall_eq']
  | charged input id folioId now stay _ folio base chosen taxRate item stored creates =>
    refine iff_of_true (fun f hf hclosed => ?_) trivial
    have hkept : db'.balanceOf f.id = base.balanceOf f.id :=
      creates.balanceOf_ne fun hid =>
        hclosed (open_of_chargedFolio chosen f hf (hid.trans stored.folioId))
    rw [hkept, (chosen_of_chargedFolio chosen).balanceOf_eq hf]
  | audited input id now folios _ _ _ =>
    exact iff_of_true (fun f _ _ => balanceOf_congr folios f.id) trivial

/-- The night is on the folio of the guest, and that of the company is closed. -/
def companyClosed : Database :=
  { nightPosted with
    folios := ⟨[{ sampleFolio "master" .master with balance := ⟨11310, by decide⟩ },
      { sampleFolio "company" .company with status := .closed }], by decide⟩ }

/-- The night is handed to the company. -/
def lateHandover : LedgerCall := .transfer (sampleTransfer "master" "company") "t"

theorem exists_lateHandover :
    ∃ db', companyClosed.commit (.exact 0 id) lateHandover = some db' := by
  have hsome : (companyClosed.commit (.exact 0 id) lateHandover).isSome = true := by
    decide +kernel
  exact Option.isSome_iff_exists.mp hsome

theorem closedKept_iff_lateHandover :
    ∃ db', companyClosed.commit (.exact 0 id) lateHandover = some db' ∧
      (companyClosed.ClosedKept db' ↔ companyClosed.SparesClosed lateHandover) := by
  obtain ⟨db', hdb'⟩ := exists_lateHandover
  exact ⟨db', hdb', closedKept_iff hdb'⟩

/-- The closed folio of the company is charged with the night. -/
theorem not_closedKept :
    ¬ ∀ (rt : Runtime) (db db' : Database) input transferId,
      db.commit rt (.transfer input transferId) = some db' → db.ClosedKept db' := by
  intro h
  obtain ⟨db', hdb'⟩ := exists_lateHandover
  have hmoved : ∀ t ∈ companyClosed.commit (.exact 0 id) lateHandover,
      ∃ f ∈ companyClosed.folios.rows, f.status ≠ .opened ∧
        t.balanceOf f.id ≠ companyClosed.balanceOf f.id := by
    decide +kernel
  obtain ⟨f, hf, hclosed, hne⟩ := hmoved db' hdb'
  exact hne (h (.exact 0 id) companyClosed db' _ _ hdb' f hf hclosed)

end Database

end Hotelia
