import Hotelia.Shared.Tax

/-!
# Net, tax and gross to the cent

Each tax line is rounded on its own, the gross price once, and a net price that was taken out
of a gross price is rounded before it is taxed again. The two identities that the prices are
meant to obey hold as long as these roundings stay within half a cent of each other.

## Main results

- `netPlusTax_iff`: when net and taxes add up to the gross price.
- `regenerated_iff`: when a gross price comes back from its net price.
- `netAmount_taxesToGross`: a net price comes back from its gross price.
-/

namespace Hotelia
open Foundation.Numeric

/-- The gross price and the lines that a channel is told. -/
structure QuotedPrice where
  gross : ℚ
  taxes : List TaxLine

/-- `taxesToGross(netAmount, taxRules)`. -/
def taxesToGross (rt : Runtime) (netAmount : ℚ) (taxRules : List TaxRule) : QuotedPrice :=
  let n := TaxEngine.normalizeRate rt
    { amount := netAmount, currency := "USD", isGross := false, taxRules }
  { gross := n.grossAmount, taxes := n.taxItems }

/-- The sum of the rates. -/
def sumRates (taxRules : List TaxRule) : ℚ := (taxRules.map (·.rate)).sum

/-- The price without its taxes, before it is rounded. -/
def untaxed (input : RateNormalizationInput) : ℚ :=
  if input.isGross then input.amount / (1 + sumRates input.taxRules) else input.amount

/-- What the taxes on a price gain when each is rounded to cents. -/
def linesGain (rt : Runtime) (price : ℚ) (taxRules : List TaxRule) : ℚ :=
  (taxRules.map fun r => rt.round2 (price * r.rate) - price * r.rate).sum

/-- What the price without taxes gains when it is rounded to cents. -/
def netGain (rt : Runtime) (gross : ℚ) (taxRules : List TaxRule) : ℚ :=
  rt.round2 (gross / (1 + sumRates taxRules)) - gross / (1 + sumRates taxRules)

/-- The tax is the sum of its lines, and net and tax are gross. -/
def NetPlusTax (n : NormalizedRate) : Prop :=
  n.taxAmount = (n.taxItems.map (·.amount)).sum ∧ n.netAmount + n.taxAmount = n.grossAmount

/-- A quoted gross price comes back from its net price. -/
def Regenerated (rt : Runtime) (gross : ℚ) (currency : String) (taxRules : List TaxRule) : Prop :=
  (taxesToGross rt (TaxEngine.normalizeRate rt ⟨gross, currency, true, taxRules⟩).netAmount
    taxRules).gross = gross

section Quotes

variable {rt : Runtime}

open TaxEngine

theorem netAmount_eq (hexact : rt.Exact) (input : RateNormalizationInput) :
    netAmount rt input = rt.round2 (untaxed input) := by
  unfold netAmount untaxed
  split
  · rw [hexact.num, hexact.num, totalTaxRate_eq hexact]
    rfl
  · rfl

/-- The lines are the taxes and what they gain. -/
theorem sum_lineAmounts (price : ℚ) (taxRules : List TaxRule) :
    (lineAmounts rt price taxRules).sum =
      price * sumRates taxRules + linesGain rt price taxRules := by
  induction taxRules with
  | nil =>
    show (0 : ℚ) = price * 0 + 0
    ring
  | cons r taxRules ih =>
    show rt.round2 (price * r.rate) + (lineAmounts rt price taxRules).sum =
      price * (r.rate + sumRates taxRules) +
        (rt.round2 (price * r.rate) - price * r.rate + linesGain rt price taxRules)
    rw [ih]
    ring

/-- The two sides are rounded values of one tax, and the lines may differ from it by half a
cent. -/
theorem netPlusTax_normalizeRate_iff (hexact : rt.Exact) (input : RateNormalizationInput) :
    NetPlusTax (normalizeRate rt input) ↔
      rt.round2 (netAmount rt input * sumRates input.taxRules) =
        (lineAmounts rt (netAmount rt input) input.taxRules).sum := by
  rw [NetPlusTax, amounts_normalizeRate hexact, taxAmount_normalizeRate hexact,
    grossAmount_normalizeRate hexact, sumRates]
  constructor
  · rintro ⟨-, hsum⟩
    exact (add_left_cancel hsum).symm
  · intro h
    exact ⟨rfl, congrArg (netAmount rt input + ·) h.symm⟩

/-- The net price of a gross price is quoted with its taxes, rounded once. -/
theorem gross_taxesToGross (hexact : rt.Exact) {net : ℚ} (hnet : Whole 2 net)
    (taxRules : List TaxRule) :
    (taxesToGross rt net taxRules).gross = rt.round2 (net * (1 + sumRates taxRules)) := by
  have hsame : rt.round2 net = net := Runtime.round2_of_whole hexact hnet
  show (normalizeRate rt ⟨net, "USD", false, taxRules⟩).grossAmount = _
  rw [grossAmount_normalizeRate hexact, netAmount_eq hexact, untaxed, if_neg Bool.false_ne_true,
    hsame, ← Runtime.round2_add hexact hnet, sumRates, mul_add, mul_one]

theorem sumRates_nonneg {taxRules : List TaxRule} (h : ∀ r ∈ taxRules, 0 ≤ r.rate) :
    0 ≤ sumRates taxRules := by
  induction taxRules with
  | nil => exact le_rfl
  | cons r taxRules ih =>
    have hrest := ih fun x hx => h x (List.mem_cons_of_mem r hx)
    have hr := h r List.mem_cons_self
    show 0 ≤ r.rate + sumRates taxRules
    linarith

/-- What comes to half a cent at most once it is taxed is less than that before. -/
theorem half_cent_of_taxed {d rates : ℚ} (hrates : 1 / 10000 ≤ rates)
    (hlow : -(1 / 2 ^ 52 + 1 / 200) ≤ d * (1 + rates))
    (hhigh : d * (1 + rates) < 1 / 200 - 1 / 2 ^ 52) :
    1 / 2 ^ 52 - 1 / 200 < d ∧ d ≤ 1 / 2 ^ 52 + 1 / 200 := by
  have hpos : 0 < 1 + rates := by linarith
  constructor
  · by_contra hd
    have hscaled : d * (1 + rates) ≤ (1 / 2 ^ 52 - 1 / 200) * (1 + rates) :=
      mul_le_mul_of_nonneg_right (not_lt.mp hd) hpos.le
    have hspread : (1 / 200 - 1 / 2 ^ 52 : ℚ) * (1 / 10000) ≤ (1 / 200 - 1 / 2 ^ 52) * rates :=
      mul_le_mul_of_nonneg_left hrates (by norm_num)
    have hgap : (2 / 2 ^ 52 : ℚ) < (1 / 200 - 1 / 2 ^ 52) * (1 / 10000) := by norm_num
    linarith
  · by_contra hd
    have hscaled : (1 / 2 ^ 52 + 1 / 200) * (1 + rates) ≤ d * (1 + rates) :=
      mul_le_mul_of_nonneg_right (not_le.mp hd).le hpos.le
    have hspread : (0 : ℚ) ≤ (1 / 2 ^ 52 + 1 / 200) * rates :=
      mul_nonneg (by norm_num) (by linarith)
    linarith

end Quotes

/-- Net and tax are gross, for any amount and any rules, if and only if the roundings of the
lines of the net price add up to half a cent at most. -/
theorem netPlusTax_iff {rt : Runtime} (hexact : rt.Exact) (input : RateNormalizationInput) :
    NetPlusTax (TaxEngine.normalizeRate rt input) ↔
      1 / 2 ^ 52 - 1 / 200 < linesGain rt (rt.round2 (untaxed input)) input.taxRules ∧
        linesGain rt (rt.round2 (untaxed input)) input.taxRules ≤ 1 / 2 ^ 52 + 1 / 200 := by
  rw [netPlusTax_normalizeRate_iff hexact,
    Runtime.round2_eq_iff hexact (TaxEngine.whole_sum_lineAmounts hexact _ _), sum_lineAmounts,
    add_sub_cancel_left, netAmount_eq hexact]

/-- Two levies of five percent. -/
def twoLevies : List TaxRule := [⟨"vat", "VAT", 1 / 20⟩, ⟨"levy", "Catering levy", 1 / 20⟩]

theorem netPlusTax_iff_twoLevies :
    NetPlusTax (TaxEngine.normalizeRate (.exact 0 id) ⟨3 / 2, "KES", false, twoLevies⟩) ↔
      1 / 2 ^ 52 - 1 / 200 < linesGain (.exact 0 id)
          ((Runtime.exact 0 id).round2 (untaxed ⟨3 / 2, "KES", false, twoLevies⟩)) twoLevies ∧
        linesGain (.exact 0 id)
          ((Runtime.exact 0 id).round2 (untaxed ⟨3 / 2, "KES", false, twoLevies⟩)) twoLevies ≤
          1 / 2 ^ 52 + 1 / 200 :=
  netPlusTax_iff (Runtime.exact_exact 0 id) _

/-- Both levies on 1.50 are rounded up to 0.08, and the gross price is 1.65. -/
theorem not_netPlusTax :
    ¬ ∀ (rt : Runtime) (input : RateNormalizationInput), rt.Exact → 0 ≤ input.amount →
      (∀ r ∈ input.taxRules, 0 ≤ r.rate) → NetPlusTax (TaxEngine.normalizeRate rt input) := by
  intro h
  obtain ⟨-, hsum⟩ := h (.exact 0 id) ⟨3 / 2, "KES", false, twoLevies⟩ (Runtime.exact_exact 0 id)
    (by norm_num) (by decide +kernel)
  revert hsum
  decide +kernel

/-- A gross price in whole cents comes back from its net price if and only if the cent that the
net price is rounded to is no farther from it than half a cent divided by `1 + Σ rates`. -/
theorem regenerated_iff {rt : Runtime} (hexact : rt.Exact) {gross : ℚ} (hgross : Whole 2 gross)
    {taxRules : List TaxRule} (hrates : ∀ r ∈ taxRules, 0 ≤ r.rate) (currency : String) :
    Regenerated rt gross currency taxRules ↔
      -(1 / 200 + 1 / 2 ^ 52) / (1 + sumRates taxRules) ≤ netGain rt gross taxRules ∧
        netGain rt gross taxRules < (1 / 200 - 1 / 2 ^ 52) / (1 + sumRates taxRules) := by
  have hpos : 0 < 1 + sumRates taxRules := by
    have hsum := sumRates_nonneg hrates
    linarith
  have hnet : (TaxEngine.normalizeRate rt ⟨gross, currency, true, taxRules⟩).netAmount =
      rt.round2 (gross / (1 + sumRates taxRules)) :=
    netAmount_eq hexact ⟨gross, currency, true, taxRules⟩
  -- what the net price gains is taxed too
  have hgain : netGain rt gross taxRules * (1 + sumRates taxRules) =
      rt.round2 (gross / (1 + sumRates taxRules)) * (1 + sumRates taxRules) - gross := by
    rw [netGain, sub_mul, div_mul_cancel₀ gross hpos.ne']
  rw [Regenerated, hnet, gross_taxesToGross hexact (Runtime.whole_round2 hexact _),
    Runtime.round2_eq_iff hexact hgross, div_le_iff₀ hpos, lt_div_iff₀ hpos, hgain]
  constructor
  · rintro ⟨hlow, hhigh⟩
    constructor
    · linarith
    · linarith
  · rintro ⟨hlow, hhigh⟩
    constructor
    · linarith
    · linarith

/-- The profile of an agency that quotes gross prices. -/
def agencyVat : List TaxRule := [⟨"vat", "VAT", 1 / 10⟩]

theorem regenerated_iff_agencyVat :
    Regenerated (.exact 0 id) 60 "USD" agencyVat ↔
      -(1 / 200 + 1 / 2 ^ 52) / (1 + sumRates agencyVat) ≤ netGain (.exact 0 id) 60 agencyVat ∧
        netGain (.exact 0 id) 60 agencyVat < (1 / 200 - 1 / 2 ^ 52) / (1 + sumRates agencyVat) :=
  regenerated_iff (Runtime.exact_exact 0 id) ⟨6000, by norm_num⟩ (by decide +kernel) "USD"

/-- A quote of 60.00 is 54.55 without taxes, and comes back as 60.01. -/
theorem not_regenerated :
    ¬ ∀ (rt : Runtime) (gross : ℚ) (currency : String) (taxRules : List TaxRule), rt.Exact →
      0 ≤ gross → Whole 2 gross → (∀ r ∈ taxRules, 0 ≤ r.rate) →
      Regenerated rt gross currency taxRules := by
  intro h
  have hback := h (.exact 0 id) 60 "USD" agencyVat (Runtime.exact_exact 0 id) (by norm_num)
    ⟨6000, by norm_num⟩ (by decide +kernel)
  revert hback
  rw [Regenerated]
  decide +kernel

/-- A net price in whole cents comes back from its gross price, unless the rates are so small
that the roundings of the two prices add up to half a cent. -/
theorem netAmount_taxesToGross {rt : Runtime} (hexact : rt.Exact) {net : ℚ} (hnet : Whole 2 net)
    {taxRules : List TaxRule} (hsum : sumRates taxRules = 0 ∨ 1 / 10000 ≤ sumRates taxRules)
    (currency : String) :
    (TaxEngine.normalizeRate rt
      ⟨(taxesToGross rt net taxRules).gross, currency, true, taxRules⟩).netAmount = net := by
  have hgross := gross_taxesToGross hexact hnet taxRules
  have hback : (TaxEngine.normalizeRate rt
      ⟨(taxesToGross rt net taxRules).gross, currency, true, taxRules⟩).netAmount =
      rt.round2 ((taxesToGross rt net taxRules).gross / (1 + sumRates taxRules)) :=
    netAmount_eq hexact ⟨(taxesToGross rt net taxRules).gross, currency, true, taxRules⟩
  rw [hback]
  obtain hzero | hrates := hsum
  · rw [hgross, hzero, add_zero, mul_one, div_one, Runtime.round2_of_whole hexact hnet,
      Runtime.round2_of_whole hexact hnet]
  · have hpos : 0 < 1 + sumRates taxRules := by linarith
    have hwhole : Whole 2 (taxesToGross rt net taxRules).gross := by
      rw [hgross]
      exact Runtime.whole_round2 hexact _
    obtain ⟨hlow, hhigh⟩ := (Runtime.round2_eq_iff hexact hwhole).mp hgross.symm
    have htaxed : (net - (taxesToGross rt net taxRules).gross / (1 + sumRates taxRules)) *
        (1 + sumRates taxRules) =
        net * (1 + sumRates taxRules) - (taxesToGross rt net taxRules).gross := by
      rw [sub_mul, div_mul_cancel₀ _ hpos.ne']
    rw [Runtime.round2_eq_iff hexact hnet]
    exact half_cent_of_taxed hrates (by linarith) (by linarith)

theorem netAmount_taxesToGross_agencyVat :
    (TaxEngine.normalizeRate (.exact 0 id)
      ⟨(taxesToGross (.exact 0 id) (5455 / 100) agencyVat).gross, "USD", true, agencyVat⟩).netAmount =
      5455 / 100 :=
  netAmount_taxesToGross (Runtime.exact_exact 0 id) ⟨5455, by norm_num⟩
    (.inr (by decide +kernel)) "USD"

end Hotelia
