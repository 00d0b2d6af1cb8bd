import Hotelia.Database.References
import Mathlib.Algebra.Group.Pi.Basic

/-!
# What the balances add up to

Each call writes a row and then a balance. In between the two disagree by an amount
that is written down as a debt of the folio, and a call that goes through leaves no
debt behind.

## Main definitions

- `Shifted` — what has become of the balances
- `charged`, `received`, `sent` — the sums over the rows of a folio
- `Owes` — the balances but for a debt

## Main results

- `shifted_incrementBalance`: what becomes of the balances, in whole cents.
- `balance_attempts`: with exact numbers, the balances are what the rows add up to.
-/

namespace Hotelia
open Foundation Numeric

namespace Database

variable {rt : Runtime} {db db' : Database}

/-! ## Balances -/

/-- The balance of a folio. -/
def balanceOf (db : Database) (folioId : String) : Option ℚ :=
  (db.findFolio folioId).map (·.balance.toRat)

theorem findFolio_setBalance (db : Database) (id : String) (balance : Numeric 12 2) (f : String) :
    (db.setBalance id balance).findFolio f =
      (db.findFolio f).map fun g => if g.id = id then { g with balance } else g := by
  show (db.folios.rows.map _).find? _ = _
  rw [List.find?_map, findFolio]
  congr 2
  funext g
  show decide ((if g.id = id then { g with balance } else g).id = f) = decide (g.id = f)
  split <;> rfl

theorem balanceOf_setBalance (db : Database) (id : String) (balance : Numeric 12 2) (f : String) :
    (db.setBalance id balance).balanceOf f =
      (db.balanceOf f).map fun b => if f = id then balance.toRat else b := by
  rw [balanceOf, findFolio_setBalance, balanceOf, Option.map_map, Option.map_map]
  cases hf : db.findFolio f with
  | none => rfl
  | some g =>
    obtain ⟨-, rfl⟩ := mem_of_findFolio hf
    simp only [Option.map_some, Function.comp_apply]
    split <;> rfl

/-- The balances have changed by these amounts. -/
def Shifted (db : Database) (amounts : String → ℚ) (db' : Database) : Prop :=
  ∀ f, db'.balanceOf f = (db.balanceOf f).map (· + amounts f)

theorem Shifted.trans {mid : Database} {p q : String → ℚ} (h : db.Shifted p mid)
    (h' : mid.Shifted q db') : db.Shifted (p + q) db' := by
  intro f
  rw [h' f, h f, Option.map_map]
  congr 1
  funext b
  show b + p f + q f = b + (p f + q f)
  ring

theorem shifted_setBalance {id : String} {folio : Folio} (hfolio : db.findFolio id = some folio)
    (balance : Numeric 12 2) : db.Shifted (Pi.single id (balance.toRat - folio.balance.toRat))
      (db.setBalance id balance) := by
  intro f
  rw [balanceOf_setBalance]
  by_cases hf : f = id
  · subst hf
    simp [balanceOf, hfolio]
  · simp [hf]

/-- What becomes of the balances, in whole cents. -/
theorem shifted_incrementBalance {id : String} {increment : ℚ}
    (h : db.incrementBalance id increment = .ok db') (hwhole : Whole 2 increment) :
    db.Shifted (Pi.single id increment) db' := by
  obtain ⟨folio, balance, hfolio, hstore, rfl⟩ := incrementBalance_eq_ok h
  have hbalance : balance.toRat = folio.balance.toRat + increment :=
    toRat_of_store hstore ((whole_toRat _).add hwhole)
  have hshift := shifted_setBalance hfolio balance
  rwa [hbalance, add_sub_cancel_left] at hshift

theorem findFolio_of_concat {base : Database} {folio : Folio}
    (h : base.folios.rows = db.folios.rows ++ [folio]) (f : String) :
    base.findFolio f = (db.findFolio f).or (if folio.id = f then some folio else none) := by
  rw [findFolio, h, List.find?_append, findFolio]
  congr 1
  by_cases hf : folio.id = f
  · simp [hf]
  · simp [hf]

/-! ## Sums over rows -/

section Sums

variable {α : Type*} (p : α → Bool) (v : α → ℚ)

theorem sum_filter_concat (l : List α) (a : α) :
    (((l ++ [a]).filter p).map v).sum = ((l.filter p).map v).sum + if p a then v a else 0 := by
  rw [List.filter_append, List.map_append, List.sum_append]
  by_cases hp : p a
  · simp [hp]
  · simp [hp]

theorem sum_filter_of_forall_not {l : List α} (h : ∀ a ∈ l, ¬ p a) :
    ((l.filter p).map v).sum = 0 := by
  rw [List.filter_eq_nil_iff.mpr h]
  rfl

end Sums

/-- The line items of a folio. -/
def charged (db : Database) (folioId : String) : ℚ :=
  ((db.lineItems.rows.filter (·.folioId = folioId)).map (·.total.toRat)).sum

/-- The transfers into a folio. -/
def received (db : Database) (folioId : String) : ℚ :=
  ((db.transfers.rows.filter (·.toFolioId = folioId)).map (·.amount.toRat)).sum

/-- The transfers out of a folio. -/
def sent (db : Database) (folioId : String) : ℚ :=
  ((db.transfers.rows.filter (·.fromFolioId = folioId)).map (·.amount.toRat)).sum

/-- The balances lack a debt. -/
def Owes (db : Database) (debt : String → ℚ) : Prop :=
  ∀ f b, db.balanceOf f = some b → b + debt f = db.charged f + db.received f - db.sent f

namespace Referential

variable {folioId : String}

theorem charged_eq_zero (h : db.Referential) (hnone : ¬ db.HasFolio folioId) :
    db.charged folioId = 0 := by
  refine sum_filter_of_forall_not _ _ fun i hi hfolio => hnone ?_
  rw [← of_decide_eq_true hfolio]
  exact h.folio i hi

theorem received_eq_zero (h : db.Referential) (hnone : ¬ db.HasFolio folioId) :
    db.received folioId = 0 := by
  refine sum_filter_of_forall_not _ _ fun t ht hfolio => hnone ?_
  rw [← of_decide_eq_true hfolio]
  exact h.toFolio t ht

theorem sent_eq_zero (h : db.Referential) (hnone : ¬ db.HasFolio folioId) :
    db.sent folioId = 0 := by
  refine sum_filter_of_forall_not _ _ fun t ht hfolio => hnone ?_
  rw [← of_decide_eq_true hfolio]
  exact h.fromFolio t ht

end Referential

namespace Owes

variable {debt : String → ℚ}

theorem createLineItem {item : FolioLineItem} (h : db.Owes debt)
    (hcreate : db.createLineItem (some item) = .ok db') :
    db'.Owes (debt + Pi.single item.folioId item.total.toRat) := by
  obtain ⟨row, lineItems, hrow, hlineItems, rfl⟩ := createLineItem_eq_ok hcreate
  cases hrow
  intro f b hb
  have hbefore := h f b hb
  have hcharged : charged { db with lineItems } f =
      db.charged f + (Pi.single item.folioId item.total.toRat : String → ℚ) f := by
    rw [charged, (Table.create_eq_some hlineItems).1, sum_filter_concat, Pi.single_apply]
    simp only [charged, decide_eq_true_eq, eq_comm (a := item.folioId)]
  rw [hcharged]
  show b + (debt f + _) = _ + _ + db.received f - db.sent f
  linarith

theorem createTransfer {row : FolioTransfer} (h : db.Owes debt)
    (hcreate : db.createTransfer (some row) = .ok db') :
    db'.Owes (debt + (Pi.single row.toFolioId row.amount.toRat -
      Pi.single row.fromFolioId row.amount.toRat)) := by
  obtain ⟨_, transfers, hrow, htransfers, rfl⟩ := createTransfer_eq_ok hcreate
  cases hrow
  intro f b hb
  have hbefore := h f b hb
  have hrows := (Table.create_eq_some htransfers).1
  have hreceived : received { db with transfers } f =
      db.received f + (Pi.single row.toFolioId row.amount.toRat : String → ℚ) f := by
    rw [received, hrows, sum_filter_concat, Pi.single_apply]
    simp only [received, decide_eq_true_eq, eq_comm (a := row.toFolioId)]
  have hsent : sent { db with transfers } f =
      db.sent f + (Pi.single row.fromFolioId row.amount.toRat : String → ℚ) f := by
    rw [sent, hrows, sum_filter_concat, Pi.single_apply]
    simp only [sent, decide_eq_true_eq, eq_comm (a := row.fromFolioId)]
  rw [hreceived, hsent]
  show b + (debt f + (_ - _)) = db.charged f + _ - _
  linarith

theorem incrementBalance {id : String} {increment : ℚ} (h : db.Owes debt)
    (hwhole : Whole 2 increment) (hincrement : db.incrementBalance id increment = .ok db') :
    db'.Owes (debt - Pi.single id increment) := by
  intro f b hb
  rw [shifted_incrementBalance hincrement hwhole f] at hb
  obtain ⟨before, hbefore, rfl⟩ := Option.map_eq_some_iff.mp hb
  have hsame : db'.charged f + db'.received f - db'.sent f =
      db.charged f + db.received f - db.sent f := by
    obtain ⟨_, _, -, -, rfl⟩ := incrementBalance_eq_ok hincrement
    rfl
  rw [hsame, ← h f before hbefore, Pi.sub_apply]
  ring

/-- A line item that goes to its folio in full leaves no debt. -/
theorem creates {item : FolioLineItem} (h : db.Owes debt)
    (hcreates : db.Creates item item.total.toRat db') : db'.Owes debt := by
  obtain ⟨mid, hcreate, hbalance⟩ := hcreates
  have howes := (h.createLineItem hcreate).incrementBalance (whole_toRat _) hbalance
  rwa [add_sub_cancel_right] at howes

/-- A transfer of what the item says leaves no debt. -/
theorem moves {item : FolioLineItem} {row : FolioTransfer} (h : db.Owes debt)
    (hamount : row.amount.toRat = item.total.toRat) (hmoves : db.Moves item row db') :
    db'.Owes debt := by
  obtain ⟨mid, paid, hcreate, hout, hin⟩ := hmoves
  have hwhole : Whole 2 item.total.toRat := whole_toRat _
  have howes := ((h.createTransfer hcreate).incrementBalance hwhole.neg hout).incrementBalance
    hwhole hin
  have hzero : debt + (Pi.single row.toFolioId row.amount.toRat -
      Pi.single row.fromFolioId row.amount.toRat) - Pi.single row.fromFolioId (-item.total.toRat) -
      Pi.single row.toFolioId item.total.toRat = debt := by
    funext f
    simp only [Pi.add_apply, Pi.sub_apply, Pi.single_apply, hamount]
    split <;> split <;> ring
  rwa [hzero] at howes

/-- A new folio has no rows, and no balance. -/
theorem chosen {folio : Folio} {base : Database} (h : db.Owes debt) (hrefs : db.Referential)
    (hc : db.Chosen folio base) (hdebt : debt folio.id = 0) : base.Owes debt := by
  cases hc with
  | found _ hsame => rwa [hsame]
  | created hbalance hfresh hfolios hlineItems htransfers _ =>
    have hnone : ¬ db.HasFolio folio.id := fun ⟨f, hf, hid⟩ => hfresh f hf hid
    intro f b hb
    have hcharged : base.charged f = db.charged f := by rw [charged, charged, hlineItems]
    have hreceived : base.received f = db.received f := by rw [received, received, htransfers]
    have hsent : base.sent f = db.sent f := by rw [sent, sent, htransfers]
    rw [hcharged, hreceived, hsent]
    rw [balanceOf, findFolio_of_concat hfolios] at hb
    cases hf : db.findFolio f with
    | some g => exact h f b (by simpa [balanceOf, hf] using hb)
    | none =>
      obtain rfl : folio.id = f := by
        by_contra hne
        simp [hf, hne] at hb
      obtain rfl : 0 = b := by simpa [hf, hbalance] using hb
      rw [hdebt, hrefs.charged_eq_zero hnone, hrefs.received_eq_zero hnone,
        hrefs.sent_eq_zero hnone]
      ring

end Owes

/-! ## The calls -/

/-- A total in whole cents is stored as it is. -/
theorem total_of_stored (hexact : rt.Exact) {data : LineItemData} {id : String}
    {item : FolioLineItem} {total : ℚ} (hstored : data.Stored id item)
    (htotal : data.total = rt.decimal total) (hwhole : Whole 2 total) :
    item.total.toRat = rt.decimal total := by
  have hstore := hstored.total
  rw [htotal, hexact.decimal] at hstore
  rw [hexact.decimal]
  exact toRat_of_store hstore hwhole

theorem whole_total (hexact : rt.Exact) {input : PostLineItemInput}
    (hdiscount : Whole 2 input.discount) : Whole 2 (input.total rt) := by
  rw [PostLineItemInput.total, hexact.num, hexact.num]
  exact ((Runtime.whole_cents hexact _).sub hdiscount).add (Runtime.whole_cents hexact _)

/-- A call leaves no debt, if a discount that it gives is in whole cents. -/
theorem Owes.commit (hexact : rt.Exact) (hrefs : db.Referential) (h : db.Owes 0)
    {call : LedgerCall}
    (hdiscount : ∀ input id now, call = .post input id now → Whole 2 input.discount)
    (hstep : db.commit rt call = some db') : db'.Owes 0 := by
  cases effect_of_commit hstep with
  | posted input id now _ _ _ _ _ item stored creates =>
    have hwhole := whole_total hexact (hdiscount input id now rfl)
    rw [← total_of_stored hexact stored rfl hwhole] at creates
    exact h.creates creates
  | reversed _ _ now original _ _ _ item stored creates =>
    have hwhole : Whole 2 (rt.num (-original.total.toRat)) := by
      rw [hexact.num]
      exact (whole_toRat _).neg
    rw [← total_of_stored hexact stored rfl hwhole] at creates
    exact h.creates creates
  | transferred _ _ item _ _ row stored moves =>
    obtain ⟨-, -, -, hamount⟩ := transferRow_eq_some stored
    exact h.moves hamount moves
  | charged _ _ _ _ _ _ folio base chosen taxRate item stored creates =>
    rw [← total_of_stored hexact stored rfl (Runtime.whole_cents hexact _)] at creates
    exact (h.chosen hrefs (chosen_of_chargedFolio chosen) rfl).creates creates
  | audited _ _ _ folios lineItems transfers _ =>
    intro f b hb
    rw [balanceOf, findFolio, folios] at hb
    have hbefore := h f b hb
    rwa [charged, received, sent, lineItems, transfers]

/-- Folios without any rows owe nothing. -/
theorem owes_of_opening (hrefs : db.Referential) (hitems : db.lineItems.rows = [])
    (hbalance : ∀ f ∈ db.folios.rows, f.balance = 0) : db.Owes 0 := by
  have htransfers : db.transfers.rows = [] := by
    rw [List.eq_nil_iff_forall_not_mem]
    intro t ht
    obtain ⟨i, hi, -⟩ := hrefs.lineItem t ht
    simp [hitems] at hi
  intro f b hb
  obtain ⟨folio, hfolio, rfl⟩ := Option.map_eq_some_iff.mp hb
  rw [hbalance folio (mem_of_findFolio hfolio).1]
  simp [charged, received, sent, hitems, htransfers]

/-- With exact numbers, and discounts in whole cents, the balance of every folio is what its
line items and its transfers add up to, after any calls, whether they go through or not. -/
theorem balance_attempts (hexact : rt.Exact) (hrefs : db.Referential)
    (hitems : db.lineItems.rows = []) (hbalance : ∀ f ∈ db.folios.rows, f.balance = 0)
    (calls : List LedgerCall)
    (hdiscounts : ∀ input id now, .post input id now ∈ calls → Whole 2 input.discount) :
    ∀ f ∈ (calls.foldl (attempt rt) db).folios.rows, f.balance.toRat =
      (calls.foldl (attempt rt) db).charged f.id + (calls.foldl (attempt rt) db).received f.id -
        (calls.foldl (attempt rt) db).sent f.id := by
  obtain ⟨through, hsub, hrun⟩ := exists_run_attempts rt db calls
  have hinv : (calls.foldl (attempt rt) db).Referential ∧ (calls.foldl (attempt rt) db).Owes 0 := by
    refine run_invariant_of_mem (I := fun db => db.Referential ∧ db.Owes 0) ?_
      ⟨hrefs, owes_of_opening hrefs hitems hbalance⟩ hrun
    rintro call hcall s t ⟨hs, hdebt⟩ hstep
    refine ⟨hs.commit hstep, hdebt.commit hexact hs (fun input id now he => ?_) hstep⟩
    exact hdiscounts input id now (he ▸ hsub.subset hcall)
  intro f hf
  have hb : (calls.foldl (attempt rt) db).balanceOf f.id = some f.balance.toRat := by
    rw [balanceOf, findFolio_of_mem hf]
    rfl
  have howes := hinv.2 f.id _ hb
  simpa using howes

theorem balance_attempts_sample :
    ∃ calls : List LedgerCall,
      (calls.foldl (attempt (.exact 0 id)) sample).lineItems.rows.length = 3 ∧
      ∀ f ∈ (calls.foldl (attempt (.exact 0 id)) sample).folios.rows, f.balance.toRat =
        (calls.foldl (attempt (.exact 0 id)) sample).charged f.id +
          (calls.foldl (attempt (.exact 0 id)) sample).received f.id -
          (calls.foldl (attempt (.exact 0 id)) sample).sent f.id := by
  refine ⟨[.post (samplePosting none) "night" 0, .transfer (sampleTransfer "master" "company") "t",
    .transfer (sampleTransfer "master" "nowhere") "u", .reverse ⟨"night"⟩ "reversal" 0,
    .charge sampleCharge "tea" "folio" 0], by decide +kernel, ?_⟩
  refine balance_attempts (Runtime.exact_exact 0 id) referential_sample rfl (by decide) _ ?_
  intro input id now hmem
  simp only [List.mem_cons, LedgerCall.post.injEq, reduceCtorEq, List.not_mem_nil, or_false] at hmem
  rw [hmem.1]
  exact ⟨250, by norm_num [PostLineItemInput.discount, samplePosting]⟩

end Database

end Hotelia
