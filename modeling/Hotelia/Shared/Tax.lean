import Hotelia.Shared.Runtime

/-!
# The tax engine

`TaxEngine` of `packages/shared/src/tax/index.ts`, which turns a price with or without
taxes into a net price and its taxes.

## Main results

- `itemized_normalizeRate_iff`: when net and taxes add up to the gross price.
- `itemized_normalizeRate`: under one rule they do.
-/

namespace Hotelia
open Foundation.Numeric

structure TaxRule where
  id : String
  name : String
  rate : ℚ

structure TaxLine where
  ruleId : String
  name : String
  rate : ℚ
  amount : ℚ

structure NormalizedRate where
  netAmount : ℚ
  grossAmount : ℚ
  taxAmount : ℚ
  taxItems : List TaxLine
  wasInclusive : Bool
  currency : String

structure RateNormalizationInput where
  amount : ℚ
  currency : String
  isGross : Bool
  taxRules : List TaxRule

namespace TaxEngine

variable (rt : Runtime)

/-- `totalTaxRate`. -/
def totalTaxRate (taxRules : List TaxRule) : ℚ :=
  taxRules.foldl (fun acc r => rt.num (acc + r.rate)) 0

/-- The line of a rule. -/
def taxLine (netAmount : ℚ) (r : TaxRule) : TaxLine :=
  ⟨r.id, r.name, r.rate, rt.round2 (rt.num (netAmount * r.rate))⟩

/-- `netAmount`. -/
def netAmount (input : RateNormalizationInput) : ℚ :=
  if input.isGross then
    rt.round2 (rt.num (input.amount / rt.num (1 + totalTaxRate rt input.taxRules)))
  else rt.round2 input.amount

/-- `normalizeRate(input)`. -/
def normalizeRate (input : RateNormalizationInput) : NormalizedRate :=
  let netAmount := netAmount rt input
  let taxItems := input.taxRules.map (taxLine rt netAmount)
  { netAmount
    grossAmount := rt.round2 (rt.num (netAmount * rt.num (1 + totalTaxRate rt input.taxRules)))
    taxAmount := rt.round2 (taxItems.foldl (fun a t => rt.num (a + t.amount)) 0)
    taxItems
    wasInclusive := input.isGross
    currency := input.currency }

end TaxEngine

/-- The taxes are those of the lines, net and taxes add up, and both prices are in whole
cents. -/
structure Itemized (net gross tax : ℚ) (amounts : List ℚ) : Prop where
  lines : tax = amounts.sum
  sum : gross = net + tax
  wholeNet : Whole 2 net
  wholeGross : Whole 2 gross

namespace TaxEngine

variable {rt : Runtime}

theorem whole_netAmount (hexact : rt.Exact) (input : RateNormalizationInput) :
    Whole 2 (netAmount rt input) := by
  rw [netAmount]
  split
  · exact Runtime.whole_round2 hexact _
  · exact Runtime.whole_round2 hexact _

/-- Additions that lose nothing make a sum. -/
theorem foldl_num_add {α : Type*} (hexact : rt.Exact) (f : α → ℚ) (items : List α) (acc : ℚ) :
    items.foldl (fun a t => rt.num (a + f t)) acc = acc + (items.map f).sum := by
  induction items generalizing acc with
  | nil => rw [List.foldl_nil, List.map_nil, List.sum_nil, add_zero]
  | cons t items ih =>
    rw [List.foldl_cons, ih, hexact.num, List.map_cons, List.sum_cons, add_assoc]

theorem totalTaxRate_eq (hexact : rt.Exact) (taxRules : List TaxRule) :
    totalTaxRate rt taxRules = (taxRules.map (·.rate)).sum := by
  rw [totalTaxRate, foldl_num_add hexact, zero_add]

/-- The amounts of the lines of the rules. -/
def lineAmounts (rt : Runtime) (net : ℚ) (taxRules : List TaxRule) : List ℚ :=
  taxRules.map fun r => rt.round2 (net * r.rate)

theorem whole_sum_lineAmounts (hexact : rt.Exact) (net : ℚ) (taxRules : List TaxRule) :
    Whole 2 (lineAmounts rt net taxRules).sum :=
  Whole.sum_map (fun _ => Runtime.whole_round2 hexact _) taxRules

theorem amounts_normalizeRate (hexact : rt.Exact) (input : RateNormalizationInput) :
    (normalizeRate rt input).taxItems.map (·.amount) =
      lineAmounts rt (netAmount rt input) input.taxRules := by
  simp only [normalizeRate, List.map_map, lineAmounts]
  refine List.map_congr_left fun r _ => ?_
  show rt.round2 (rt.num (netAmount rt input * r.rate)) = _
  rw [hexact.num]

/-- The tax is the sum of the lines, whatever the rules are. -/
theorem taxAmount_normalizeRate (hexact : rt.Exact) (input : RateNormalizationInput) :
    (normalizeRate rt input).taxAmount =
      (lineAmounts rt (netAmount rt input) input.taxRules).sum := by
  show rt.round2 ((normalizeRate rt input).taxItems.foldl (fun a t => rt.num (a + t.amount)) 0) = _
  rw [foldl_num_add hexact, zero_add, amounts_normalizeRate hexact]
  exact Runtime.round2_of_whole hexact (whole_sum_lineAmounts hexact _ _)

/-- The gross price is rounded once, and not line by line. -/
theorem grossAmount_normalizeRate (hexact : rt.Exact) (input : RateNormalizationInput) :
    (normalizeRate rt input).grossAmount = netAmount rt input +
      rt.round2 (netAmount rt input * (input.taxRules.map (·.rate)).sum) := by
  show rt.round2 (rt.num (netAmount rt input * rt.num (1 + totalTaxRate rt input.taxRules))) = _
  rw [hexact.num, hexact.num, totalTaxRate_eq hexact, mul_add, mul_one,
    Runtime.round2_add hexact (whole_netAmount hexact input)]

/-- Net and taxes add up to the gross price exactly if the taxes may be rounded line by line. -/
theorem itemized_normalizeRate_iff (hexact : rt.Exact) (input : RateNormalizationInput) :
    Itemized (normalizeRate rt input).netAmount (normalizeRate rt input).grossAmount
        (normalizeRate rt input).taxAmount ((normalizeRate rt input).taxItems.map (·.amount)) ↔
      rt.round2 (netAmount rt input * (input.taxRules.map (·.rate)).sum) =
        (lineAmounts rt (netAmount rt input) input.taxRules).sum := by
  rw [amounts_normalizeRate hexact, taxAmount_normalizeRate hexact,
    grossAmount_normalizeRate hexact]
  have hnet := whole_netAmount hexact input
  constructor
  · intro h
    exact add_left_cancel h.sum
  · intro h
    exact ⟨rfl, by rw [h]; rfl, hnet, hnet.add (Runtime.whole_round2 hexact _)⟩

/-- Under one rule they do. -/
theorem itemized_normalizeRate (hexact : rt.Exact) {input : RateNormalizationInput} {rule : TaxRule}
    (hrule : input.taxRules = [rule]) :
    Itemized (normalizeRate rt input).netAmount (normalizeRate rt input).grossAmount
      (normalizeRate rt input).taxAmount ((normalizeRate rt input).taxItems.map (·.amount)) := by
  rw [itemized_normalizeRate_iff hexact, hrule, lineAmounts, List.map_singleton, List.map_singleton,
    List.sum_singleton, List.sum_singleton]

end TaxEngine

end Hotelia
