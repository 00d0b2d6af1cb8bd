import Hotelia.Database.ActiveDay

/-!
# Item and balance to the cent

The total of a posting is rounded when its row is stored, and again as a part of the balance.
The two roundings differ only for a discount of half a cent on a charge that carries the
balance over zero.

## Main results

- `movesTogether_iff`: when a balance moves by the total of the new item.
-/

namespace Hotelia
open Foundation Numeric

namespace Database

/-- The balance of the folio has moved by the stored total of the item. -/
def MovesTogether (db db' : Database) (folioId id : String) : Prop :=
  ∃ item b b', db'.findLineItem id = some item ∧ db.balanceOf folioId = some b ∧
    db'.balanceOf folioId = some b' ∧ b' - b = item.total.toRat

section

variable {rt : Runtime} {db db' : Database} {input : PostLineItemInput} {id : String} {now : ℤ}

/-- What a posting stores: the row, and the balance. -/
theorem exists_amounts (h : db.commit rt (.post input id now) = some db') :
    ∃ item folio balance, db'.findLineItem id = some item ∧
      db.findFolio input.folioId = some folio ∧
      db'.balanceOf input.folioId = some balance.toRat ∧
      store 10 2 (rt.decimal (input.total rt)) = some item.total ∧
      store 12 2 (folio.balance.toRat + rt.decimal (input.total rt)) = some balance := by
  have hpost := effect_of_commit h
  cases hpost with
  | posted _ _ _ _ _ _ _ _ item stored creates =>
    obtain ⟨folio, balance, hfolio, hbalance, hshift⟩ := creates.exists_balance
    have hfound := creates.created.findLineItem_self
    rw [stored.id] at hfound
    have hfolioId : item.folioId = input.folioId := stored.folioId
    rw [hfolioId] at hfolio hshift
    refine ⟨item, folio, balance, hfound, hfolio, ?_, stored.total, hbalance⟩
    rw [hshift, balanceOf, hfolio, Option.map_some, Option.map_some, Pi.single_eq_same,
      add_sub_cancel]

/-- Only the discount may bring half a cent into the total. -/
theorem tie_total_iff (hexact : rt.Exact) :
    Tie (input.total rt * 100) ↔ Tie (input.discount * 100) := by
  obtain ⟨gross, hgross⟩ := Runtime.whole_cents hexact (rt.num (input.unitPrice *
    input.quantity.getD 1))
  obtain ⟨tax, htax⟩ := Runtime.whole_cents hexact (rt.num (rt.num (input.gross rt -
    input.discount) * input.taxRate.getD 0))
  have htotal : input.total rt = gross / 10 ^ 2 - input.discount + tax / 10 ^ 2 := by
    rw [PostLineItemInput.total, hexact.num, hexact.num, PostLineItemInput.taxAmount, htax,
      PostLineItemInput.gross, hgross]
  have hcents : input.total rt * 100 = ((gross + tax : ℤ) : ℚ) + -(input.discount * 100) := by
    rw [htotal]
    push_cast
    ring
  rw [hcents, Tie.intCast_add_iff, Tie.neg_iff]

/-- The balance moves by the total exactly if its cents pass through the rounding. -/
theorem moved_iff_roundHalfAway {q : ℚ} {total : Numeric 10 2} {old new : Numeric 12 2}
    (htotal : store 10 2 q = some total) (hnew : store 12 2 (old.toRat + q) = some new) :
    new.toRat - old.toRat = total.toRat ↔
      roundHalfAway (old.unscaled + q * 100) = old.unscaled + roundHalfAway (q * 100) := by
  have hten : (10 : ℚ) ^ 2 = 100 := by norm_num
  have hsum : (old.toRat + q) * 100 = old.unscaled + q * 100 := by
    rw [toRat, hten]
    ring
  rw [toRat_eq_inCents hnew, toRat_eq_inCents htotal, inCents, inCents, hten, hsum, toRat, hten,
    ← sub_div, div_left_inj' (by norm_num), sub_eq_iff_eq_add']
  norm_cast

end

/-- In exact decimals, whatever the balance and the posting, the balance of the folio moves by
the total of the new item if and only if the discount is no odd number of half cents, or the
charge before rounding has the sign of the balance that it leads to. -/
theorem movesTogether_iff {rt : Runtime} (hexact : rt.Exact) {db db' : Database}
    {input : PostLineItemInput} {id : String} {now : ℤ}
    (h : db.commit rt (.post input id now) = some db') :
    MovesTogether db db' input.folioId id ↔
      (Tie (input.discount * 100) → ∀ b, db.balanceOf input.folioId = some b →
        (0 ≤ input.total rt ↔ 0 ≤ b + input.total rt)) := by
  obtain ⟨item, folio, balance, hitem, hfolio, hbalance, htotal, hstored⟩ := exists_amounts h
  rw [hexact.decimal] at htotal hstored
  have hold : db.balanceOf input.folioId = some folio.balance.toRat := by
    rw [balanceOf, hfolio, Option.map_some]
  have hmoves : MovesTogether db db' input.folioId id ↔
      balance.toRat - folio.balance.toRat = item.total.toRat := by
    constructor
    · rintro ⟨i, b, b', hi, hb, hb', hmoved⟩
      rw [hitem, Option.some.injEq] at hi
      rw [hold, Option.some.injEq] at hb
      rw [hbalance, Option.some.injEq] at hb'
      rw [hi, hb, hb']
      exact hmoved
    · intro hmoved
      exact ⟨item, _, _, hitem, hold, hbalance, hmoved⟩
  -- the signs of the cents are those of the amounts
  have hcents : 0 ≤ input.total rt * 100 ↔ 0 ≤ input.total rt :=
    mul_nonneg_iff_of_pos_right (by norm_num)
  have hsum : 0 ≤ (folio.balance.unscaled : ℚ) + input.total rt * 100 ↔
      0 ≤ folio.balance.toRat + input.total rt := by
    have hunits : (folio.balance.unscaled : ℚ) = folio.balance.toRat * 100 := by
      rw [toRat]
      ring
    rw [hunits, ← add_mul]
    exact mul_nonneg_iff_of_pos_right (by norm_num)
  rw [hmoves, moved_iff_roundHalfAway htotal hstored, roundHalfAway_intCast_add_iff,
    tie_total_iff hexact, hcents, hsum, hold]
  simp only [Option.some.injEq, forall_eq']

/-- A guest who is owed ten shillings. -/
def creditSample : Database := sample.setBalance "master" ⟨-1000, by decide⟩

/-- One shilling, less half a cent. -/
def halfCentOff : PostLineItemInput :=
  ⟨"master", "hotel", .minibar, "Water", none, 1, none, some (1 / 200), none⟩

theorem exists_halfCentOff :
    ∃ db', creditSample.commit (.exact 0 id) (.post halfCentOff "water" 0) = some db' := by
  have hsome : (creditSample.commit (.exact 0 id) (.post halfCentOff "water" 0)).isSome = true := by
    decide +kernel
  exact Option.isSome_iff_exists.mp hsome

theorem movesTogether_iff_halfCentOff :
    ∃ db', creditSample.commit (.exact 0 id) (.post halfCentOff "water" 0) = some db' ∧
      (MovesTogether creditSample db' "master" "water" ↔
        (Tie (halfCentOff.discount * 100) → ∀ b, creditSample.balanceOf "master" = some b →
          (0 ≤ halfCentOff.total (.exact 0 id) ↔ 0 ≤ b + halfCentOff.total (.exact 0 id)))) := by
  obtain ⟨db', hdb'⟩ := exists_halfCentOff
  exact ⟨db', hdb', movesTogether_iff (Runtime.exact_exact 0 id) hdb'⟩

/-- The item is stored with 1.00, and the balance moves from -10.00 to -9.01. -/
theorem not_movesTogether :
    ¬ ∀ (rt : Runtime) (db db' : Database) input itemId now, rt.Exact →
      db.commit rt (.post input itemId now) = some db' →
      MovesTogether db db' input.folioId itemId := by
  intro h
  obtain ⟨db', hdb'⟩ := exists_halfCentOff
  have hfacts : ∀ t ∈ creditSample.commit (.exact 0 id) (.post halfCentOff "water" 0),
      (t.findLineItem "water").map (·.total.toRat) = some 1 ∧
        creditSample.balanceOf "master" = some (-10) ∧ t.balanceOf "master" = some (-901 / 100) := by
    decide +kernel
  obtain ⟨htotal, hold, hnew⟩ := hfacts db' hdb'
  obtain ⟨item, b, b', hitem, hb, hb', hmoved⟩ :=
    h (.exact 0 id) creditSample db' halfCentOff "water" 0 (Runtime.exact_exact 0 id) hdb'
  have hold' : creditSample.balanceOf "master" = some b := hb
  have hnew' : db'.balanceOf "master" = some b' := hb'
  rw [hitem, Option.map_some, Option.some.injEq] at htotal
  rw [hold, Option.some.injEq] at hold'
  rw [hnew, Option.some.injEq] at hnew'
  rw [htotal, ← hold', ← hnew'] at hmoved
  norm_num at hmoved

end Database

end Hotelia
