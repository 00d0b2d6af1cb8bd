import Hotelia.Database.Accounts
import Hotelia.Database.Carrying
import Mathlib.Algebra.Group.Pi.Lemmas

/-!
# A charge that is reversed

A line item is posted, handed on from folio to folio, and reversed. The reversal
goes to the folio of the posting, which a transfer does not change, so that the folio
that carries the item by then keeps it.

## Main definitions

- `Handles` — the calls that hand an item on, or reverse it
- `Held` — an item with its carrier
- `RoundsAlike` — the column of a balance rounds as that of a total does

## Main results

- `Held.run`: what becomes of the balances while an item is handled.
- `restored_iff`: when the balances are as before the posting.
-/

namespace Hotelia
open Foundation Numeric

namespace Database

variable {rt : Runtime} {db db' : Database}

def LedgerCall.isTransfer : LedgerCall → Bool
  | .transfer _ _ => true
  | _ => false

def LedgerCall.isReverse : LedgerCall → Bool
  | .reverse _ _ _ => true
  | _ => false

/-- The call is a transfer of the item out of the folio that carries it, or a reversal. -/
def Handles (id : String) (db : Database) : LedgerCall → Prop
  | .transfer input _ => input.lineItemId = id ∧
      ∀ item, db.findLineItem id = some item → db.carry item input.fromFolioId = 1
  | .reverse input _ _ => input.lineItemId = id
  | _ => False

instance (id : String) (db : Database) : ∀ call, Decidable (Handles id db call)
  | .transfer input _ => inferInstanceAs (Decidable (input.lineItemId = id ∧
      ∀ item ∈ db.findLineItem id, db.carry item input.fromFolioId = 1))
  | .reverse input _ _ => inferInstanceAs (Decidable (input.lineItemId = id))
  | .post _ _ _ => inferInstanceAs (Decidable False)
  | .charge _ _ _ _ => inferInstanceAs (Decidable False)
  | .close _ _ _ => inferInstanceAs (Decidable False)

/-- The cents that a column makes of a number. -/
def inCents (q : ℚ) : ℤ := roundHalfAway (q * 10 ^ 2)

/-- The balance of the folio moves by as many cents as the number is stored with. -/
def RoundsAlike (db : Database) (folioId : String) (q : ℚ) : Prop :=
  ∀ f, db.findFolio folioId = some f →
    inCents (f.balance.toRat + q) = f.balance.unscaled + inCents q

theorem toRat_eq_inCents {p : ℕ} {q : ℚ} {x : Numeric p 2} (h : store p 2 q = some x) :
    x.toRat = inCents q / 10 ^ 2 := by
  rw [toRat, unscaled_of_store h, inCents]

/-- Turning the sign of a total costs nothing. -/
theorem decimal_neg (rt : Runtime) (x : Numeric 10 2) :
    rt.decimal (rt.num (-x.toRat)) = -x.toRat := by
  have hneg : -x.toRat = ((-x.unscaled : ℤ) : ℚ) / 100 := by
    rw [toRat]
    push_cast
    ring
  rw [hneg]
  refine rt.decimal_cents _ ?_
  have := x.fits
  omega

/-- An item with the folio that carries it. -/
structure Held (db : Database) (item : FolioLineItem) (c : String) : Prop where
  found : db.findLineItem item.id = some item
  carrier : db.carry item = Pi.single c 1
  folio : ∃ b, db.balanceOf c = some b

theorem HasFolio.balanceOf {folioId : String} (h : db.HasFolio folioId) :
    ∃ b, db.balanceOf folioId = some b := by
  obtain ⟨f, hf, rfl⟩ := h
  exact ⟨f.balance.toRat, by rw [Database.balanceOf, findFolio_of_mem hf, Option.map_some]⟩

theorem Shifted.balanceOf {amounts : String → ℚ} (h : db.Shifted amounts db') {f : String}
    (hf : ∃ b, db.balanceOf f = some b) : ∃ b, db'.balanceOf f = some b := by
  obtain ⟨b, hb⟩ := hf
  exact ⟨b + amounts f, by rw [h f, hb, Option.map_some]⟩

/-- What a new line item does to the balances. -/
theorem Creates.shifted {item : FolioLineItem} {increment : ℚ}
    (h : db.Creates item increment db') (hwhole : Whole 2 increment) :
    db.Shifted (Pi.single item.folioId increment) db' := by
  obtain ⟨mid, hcreate, hbalance⟩ := h
  obtain ⟨_, lineItems, _, _, rfl⟩ := createLineItem_eq_ok hcreate
  exact fun f => shifted_incrementBalance hbalance hwhole f

/-- The new balance of the folio is stored in its turn. -/
theorem Creates.exists_balance {item : FolioLineItem} {increment : ℚ}
    (h : db.Creates item increment db') :
    ∃ folio balance, db.findFolio item.folioId = some folio ∧
      store 12 2 (folio.balance.toRat + increment) = some balance ∧
      db.Shifted (Pi.single item.folioId (balance.toRat - folio.balance.toRat)) db' := by
  obtain ⟨mid, hcreate, hincrement⟩ := h
  obtain ⟨_, lineItems, _, _, rfl⟩ := createLineItem_eq_ok hcreate
  obtain ⟨folio, balance, hfolio, hbalance, rfl⟩ := incrementBalance_eq_ok hincrement
  exact ⟨folio, balance, hfolio, hbalance, fun f => shifted_setBalance hfolio balance f⟩

/-- What a transfer does to the balances. -/
theorem Moves.shifted {item : FolioLineItem} {row : FolioTransfer} (h : db.Moves item row db') :
    db.Shifted (-Pi.single row.fromFolioId item.total.toRat +
      Pi.single row.toFolioId item.total.toRat) db' := by
  obtain ⟨mid, paid, hcreate, hout, hin⟩ := h
  obtain ⟨_, transfers, _, _, rfl⟩ := createTransfer_eq_ok hcreate
  have hwhole : Whole 2 item.total.toRat := whole_toRat _
  have hpaid := shifted_incrementBalance hout hwhole.neg
  rw [Pi.single_neg (f := fun _ => ℚ)] at hpaid
  exact Shifted.trans (fun f => hpaid f) (shifted_incrementBalance hin hwhole)

theorem Created.findLineItem {item : FolioLineItem} (h : db.Created item db') (id : String) :
    db'.findLineItem id = (db.findLineItem id).or (if item.id = id then some item else none) := by
  rw [Database.findLineItem, h.lineItems, List.find?_append, Database.findLineItem]
  congr 1
  by_cases hid : item.id = id
  · simp [hid]
  · simp [hid]

/-- A new row is found under its id. -/
theorem Created.findLineItem_self {item : FolioLineItem} (h : db.Created item db') :
    db'.findLineItem item.id = some item := by
  have hnone : db.findLineItem item.id = none :=
    List.find?_eq_none.mpr fun i hi he => h.fresh i hi (of_decide_eq_true he)
  rw [h.findLineItem, hnone, if_pos rfl, Option.none_or]

namespace Held

variable {item : FolioLineItem} {c : String}

/-- A transfer hands the item on, and never to the folio of the posting. -/
theorem transfer (h : db.Held item c) {input : TransferItemInput} {id : String}
    (hhandles : db.Handles item.id (.transfer input id))
    (hstep : db.commit rt (.transfer input id) = some db') :
    input.toFolioId ≠ item.folioId ∧ db'.Held item input.toFolioId ∧
      db.Shifted (-Pi.single c item.total.toRat + Pi.single input.toFolioId item.total.toRat)
        db' := by
  obtain ⟨hid, hcarrier⟩ := hhandles
  have hfrom : input.fromFolioId = c := by
    have hone := hcarrier item h.found
    rw [h.carrier] at hone
    by_contra hne
    simp [hne] at hone
  cases effect_of_commit hstep with
  | transferred _ _ other found elsewhere row stored moves =>
    obtain rfl : other = item := by
      rw [hid, h.found] at found
      exact (Option.some.inj found).symm
    obtain ⟨hrowfrom, hrowto, hrowid, -⟩ := transferRow_eq_some stored
    have hshift := moves.shifted
    have hmoved := moves.moved
    rw [hrowfrom, hrowto, hfrom] at hshift
    refine ⟨elsewhere.symm, ⟨?_, ?_, ?_⟩, hshift⟩
    · rw [findLineItem, hmoved.lineItems]
      exact h.found
    · rw [hmoved.carry, if_pos hrowid, h.carrier, hrowfrom, hrowto, hfrom, add_sub_cancel]
    · exact hshift.balanceOf (hrowto ▸ hmoved.toFolio).balanceOf

/-- The reversal is charged to the folio of the posting, and the item stays where it is. -/
theorem reverse (h : db.Held item c) {input : ReverseLineItemInput} {id : String} {now : ℤ}
    (hhandles : db.Handles item.id (.reverse input id now))
    (hstep : db.commit rt (.reverse input id now) = some db') :
    db'.Held item c ∧ db.Shifted (-Pi.single item.folioId item.total.toRat) db' := by
  cases effect_of_commit hstep with
  | reversed _ _ _ original found kind first new stored creates =>
    obtain rfl : original = item := by
      have hid : input.lineItemId = item.id := hhandles
      rw [hid, h.found] at found
      exact (Option.some.inj found).symm
    have hcreated := creates.created
    have hfolio : new.folioId = original.folioId := stored.folioId
    rw [decimal_neg] at creates
    have hshift := creates.shifted (whole_toRat _).neg
    rw [hfolio, Pi.single_neg (f := fun _ => ℚ)] at hshift
    refine ⟨⟨?_, ?_, hshift.balanceOf h.folio⟩, hshift⟩
    · rw [hcreated.findLineItem, h.found, Option.some_or]
    · rw [carry_congr hcreated.transfers, h.carrier]

/-- What becomes of the balances while an item is handled. -/
theorem run {calls : List LedgerCall} (h : db.Held item c)
    (hhandles : Along (commit rt) (Handles item.id) db calls)
    (hrun : run (commit rt) db calls = some db') :
    ∃ d, db'.Held item d ∧
      (if calls.any LedgerCall.isTransfer then d ≠ item.folioId else d = c) ∧
      db.Shifted (Pi.single d item.total.toRat - Pi.single c item.total.toRat -
        Pi.single item.folioId (calls.countP LedgerCall.isReverse * item.total.toRat)) db' := by
  induction calls generalizing db c with
  | nil =>
    obtain rfl : db = db' := Option.some.inj hrun
    refine ⟨c, h, rfl, fun f => ?_⟩
    cases db.balanceOf f with
    | none => rfl
    | some b => simp
  | cons call calls ih =>
    obtain ⟨mid, hstep, hrest⟩ := run_cons_eq_some.mp hrun
    obtain ⟨hcall, hcalls⟩ := hhandles
    cases call with
    | transfer input id =>
      obtain ⟨hto, hmid, hshift⟩ := h.transfer hcall hstep
      obtain ⟨d, hd, hplace, hshifts⟩ := ih hmid (hcalls mid hstep) hrest
      refine ⟨d, hd, ?_, ?_⟩
      · rw [List.any_cons, LedgerCall.isTransfer, Bool.true_or, if_pos rfl]
        split at hplace
        · exact hplace
        · exact hplace ▸ hto
      · have hsum := hshift.trans hshifts
        rw [List.countP_cons_of_neg (by simp [LedgerCall.isReverse])]
        convert hsum using 1
        funext f
        simp only [Pi.add_apply, Pi.sub_apply, Pi.neg_apply]
        ring
    | reverse input id now =>
      obtain ⟨hmid, hshift⟩ := h.reverse hcall hstep
      obtain ⟨d, hd, hplace, hshifts⟩ := ih hmid (hcalls mid hstep) hrest
      refine ⟨d, hd, hplace, ?_⟩
      have hsum := hshift.trans hshifts
      rw [List.countP_cons_of_pos (by simp [LedgerCall.isReverse])]
      rw [Nat.cast_add_one, add_one_mul, Pi.single_add (f := fun _ => ℚ)]
      convert hsum using 1
      funext f
      simp only [Pi.add_apply, Pi.sub_apply, Pi.neg_apply]
      ring
    | post input id now => exact hcall.elim
    | charge input id folioId now => exact hcall.elim
    | close input id now => exact hcall.elim

end Held

/-- A new item with the folio that it was posted to, and what its posting did there. -/
structure Posting (rt : Runtime) (db : Database) (input : PostLineItemInput) (db' : Database)
    (item : FolioLineItem) (folio : Folio) (balance : Numeric 12 2) : Prop where
  held : db'.Held item item.folioId
  folioId : item.folioId = input.folioId
  found : db.findFolio item.folioId = some folio
  total : store 10 2 (rt.decimal (input.total rt)) = some item.total
  stored : store 12 2 (folio.balance.toRat + rt.decimal (input.total rt)) = some balance
  shift : db.Shifted (Pi.single item.folioId (balance.toRat - folio.balance.toRat)) db'

theorem exists_posting {input : PostLineItemInput} {id : String} {now : ℤ} (hrefs : db.Referential)
    (h : db.commit rt (.post input id now) = some db') :
    ∃ item folio balance, item.id = id ∧ Posting rt db input db' item folio balance := by
  cases effect_of_commit h with
  | posted _ _ _ _ _ _ _ _ item stored creates =>
    have hcreated := creates.created
    obtain ⟨folio, balance, hfolio, hbalance, hshift⟩ := creates.exists_balance
    refine ⟨item, folio, balance, stored.id, ⟨hcreated.findLineItem_self, ?_, ?_⟩, stored.folioId,
      hfolio, stored.total, hbalance, hshift⟩
    · rw [carry_congr hcreated.transfers]
      refine carry_of_untransferred fun t ht he => ?_
      obtain ⟨j, hj, hid⟩ := hrefs.lineItem t ht
      exact hcreated.fresh j hj (hid.trans he)
    · exact hshift.balanceOf (hasFolio_of_findFolio hfolio).balanceOf

/-- Nothing has changed exactly if no existing balance has moved. -/
theorem Shifted.unchanged_iff {amounts : String → ℚ} (h : db.Shifted amounts db') :
    (∀ f, db'.balanceOf f = db.balanceOf f) ↔
      ∀ f, (∃ b, db.balanceOf f = some b) → amounts f = 0 := by
  refine forall_congr' fun f => ?_
  rw [h f]
  cases db.balanceOf f with
  | none => simp
  | some b => simp

/-- The balance of a folio moved by the total of the item exactly if they are rounded alike. -/
theorem Posting.moved_iff {input : PostLineItemInput} {item : FolioLineItem} {folio : Folio}
    {balance : Numeric 12 2} (h : Posting rt db input db' item folio balance) :
    balance.toRat - folio.balance.toRat = item.total.toRat ↔
      db.RoundsAlike input.folioId (rt.decimal (input.total rt)) := by
  have hfound := h.found
  rw [h.folioId] at hfound
  simp only [RoundsAlike, hfound, Option.some.injEq, forall_eq', toRat_eq_inCents h.stored,
    toRat_eq_inCents h.total]
  rw [toRat, ← sub_div, div_left_inj' (by norm_num), sub_eq_iff_eq_add']
  norm_cast

/-- What remains of a total `t` that moved the balance of the folio `o` by `r`, was handed on
to the folio `d`, and was taken back from `o`. -/
def remainder (o d : String) (r t : ℚ) : String → ℚ :=
  Pi.single o r + (Pi.single d t - Pi.single o t - Pi.single o t)

theorem remainder_of_ne {o d f : String} (r t : ℚ) (ho : f ≠ o) (hd : f ≠ d) :
    remainder o d r t f = 0 := by
  simp [remainder, ho, hd]

theorem remainder_eq_zero_iff (o d : String) (r t : ℚ) :
    remainder o d r t = 0 ↔ (d = o ∨ t = 0) ∧ r = t := by
  constructor
  · intro hzero
    have hatOrigin := congrFun hzero o
    have hatCarrier := congrFun hzero d
    simp only [remainder, Pi.add_apply, Pi.sub_apply, Pi.single_eq_same, Pi.zero_apply]
      at hatOrigin hatCarrier
    by_cases hd : d = o
    · subst hd
      rw [Pi.single_eq_same] at hatOrigin
      exact ⟨.inl rfl, by linarith⟩
    · -- the carrier has the charge, and the folio of the posting the reversal
      rw [Pi.single_eq_of_ne hd, Pi.single_eq_of_ne hd] at hatCarrier
      rw [Pi.single_eq_of_ne (Ne.symm hd)] at hatOrigin
      have hfree : t = 0 := by linarith
      exact ⟨.inr hfree, by linarith⟩
  · rintro ⟨rfl | rfl, rfl⟩
    · funext f
      simp [remainder]
    · funext f
      simp [remainder]

/-- A charge that is posted, handed on and reversed leaves every balance as it was exactly if
it was never transferred, or came to no cent, and the balance was rounded as the charge was. -/
theorem restored_iff {input : PostLineItemInput} {id : String} {now : ℤ}
    {posted : Database} {calls : List LedgerCall} (hrefs : db.Referential)
    (hpost : db.commit rt (.post input id now) = some posted)
    (hhandles : Along (commit rt) (Handles id) posted calls)
    (hone : calls.countP LedgerCall.isReverse = 1)
    (hrun : run (commit rt) posted calls = some db') :
    (∀ f, db'.balanceOf f = db.balanceOf f) ↔
      ((∀ call ∈ calls, call.isTransfer = false) ∨ inCents (rt.decimal (input.total rt)) = 0) ∧
        db.RoundsAlike input.folioId (rt.decimal (input.total rt)) := by
  obtain ⟨item, folio, balance, rfl, hposting⟩ := exists_posting hrefs hpost
  obtain ⟨d, hd, hplace, hshifts⟩ := hposting.held.run hhandles hrun
  rw [hone, Nat.cast_one, one_mul] at hshifts
  have hshift : db.Shifted (remainder item.folioId d (balance.toRat - folio.balance.toRat)
      item.total.toRat) db' := hposting.shift.trans hshifts
  have horigin : ∃ b, db.balanceOf item.folioId = some b :=
    (hasFolio_of_findFolio hposting.found).balanceOf
  have hcarrier : ∃ b, db.balanceOf d = some b := by
    obtain ⟨b, hb⟩ := hd.folio
    rw [hshift d, Option.map_eq_some_iff] at hb
    obtain ⟨a, ha, -⟩ := hb
    exact ⟨a, ha⟩
  have hfree : inCents (rt.decimal (input.total rt)) = 0 ↔ item.total.toRat = 0 := by
    rw [toRat_eq_inCents hposting.total, div_eq_zero_iff, Int.cast_eq_zero]
    norm_num
  have hhome : (∀ call ∈ calls, call.isTransfer = false) ↔ d = item.folioId := by
    split at hplace
    · next hany => exact iff_of_false (by simpa using hany) hplace
    · next hany => exact iff_of_true (by simpa using hany) hplace
  rw [hshift.unchanged_iff, ← hposting.moved_iff, hfree, hhome, ← remainder_eq_zero_iff]
  constructor
  · intro hzero
    funext f
    by_cases ho : f = item.folioId
    · exact hzero f (ho ▸ horigin)
    by_cases hf : f = d
    · exact hzero f (hf ▸ hcarrier)
    exact remainder_of_ne _ _ ho hf
  · intro hzero f _
    rw [hzero]
    rfl

/-- The night goes to the company, and is then reversed. -/
def handedOnAndReversed : List LedgerCall :=
  [.transfer (sampleTransfer "master" "company") "t", .reverse ⟨"night"⟩ "reversal" 0]

theorem restored_iff_sample :
    ∃ posted db', sample.commit (.exact 0 id) (.post (samplePosting none) "night" 0) = some posted ∧
      run (commit (.exact 0 id)) posted handedOnAndReversed = some db' ∧
      ((∀ f, db'.balanceOf f = sample.balanceOf f) ↔
        ((∀ call ∈ handedOnAndReversed, call.isTransfer = false) ∨
            inCents ((Runtime.exact 0 id).decimal ((samplePosting none).total (.exact 0 id))) = 0) ∧
          sample.RoundsAlike "master"
            ((Runtime.exact 0 id).decimal ((samplePosting none).total (.exact 0 id)))) := by
  have hpost : (sample.commit (.exact 0 id) (.post (samplePosting none) "night" 0)).isSome = true := by
    decide +kernel
  have hcalls : ∀ posted ∈ sample.commit (.exact 0 id) (.post (samplePosting none) "night" 0),
      Along (commit (.exact 0 id)) (Handles "night") posted handedOnAndReversed ∧
        (run (commit (.exact 0 id)) posted handedOnAndReversed).isSome = true := by
    decide +kernel
  obtain ⟨posted, hposted⟩ := Option.isSome_iff_exists.mp hpost
  obtain ⟨hhandles, hsome⟩ := hcalls posted hposted
  obtain ⟨db', hdb'⟩ := Option.isSome_iff_exists.mp hsome
  exact ⟨posted, db', hposted, hdb',
    restored_iff referential_sample hposted hhandles (by decide) hdb'⟩

/-- The company has paid for a night that the guest has back. -/
theorem not_restored :
    ¬ ∀ input lineItemId now posted calls db',
      sample.commit (.exact 0 id) (.post input lineItemId now) = some posted →
      Along (commit (.exact 0 id)) (Handles lineItemId) posted calls →
      calls.countP LedgerCall.isReverse = 1 →
      run (commit (.exact 0 id)) posted calls = some db' →
      ∀ f, db'.balanceOf f = sample.balanceOf f := by
  intro h
  have hpost : (sample.commit (.exact 0 id) (.post (samplePosting none) "night" 0)).isSome = true := by
    decide +kernel
  have hcalls : ∀ posted ∈ sample.commit (.exact 0 id) (.post (samplePosting none) "night" 0),
      Along (commit (.exact 0 id)) (Handles "night") posted handedOnAndReversed ∧
        (run (commit (.exact 0 id)) posted handedOnAndReversed).isSome = true ∧
        ∀ db' ∈ run (commit (.exact 0 id)) posted handedOnAndReversed,
          db'.balanceOf "company" ≠ sample.balanceOf "company" := by
    decide +kernel
  obtain ⟨posted, hposted⟩ := Option.isSome_iff_exists.mp hpost
  obtain ⟨hhandles, hsome, hbalance⟩ := hcalls posted hposted
  obtain ⟨db', hdb'⟩ := Option.isSome_iff_exists.mp hsome
  exact hbalance db' hdb'
    (h (samplePosting none) "night" 0 posted handedOnAndReversed db' hposted hhandles (by decide) hdb' _)

end Database

end Hotelia
