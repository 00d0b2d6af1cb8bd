import Mathlib.Algebra.Order.Round
import Mathlib.Data.Int.Log
import Mathlib.Data.Rat.Floor

/-!
# Numbers of the source language

A finite number is the fraction it stands for. `binary64` rounds an exact result
to the nearest number that the language can hold, ties to even.

## Main results

- `abs_binary64_sub_le`: how far a result is from the exact one.
- `mathRound_binary64_cents`: the number nearest to an amount still has its cents.
-/

namespace Hotelia

/-- The nearest integer, ties to even. -/
def roundHalfEven (q : ℚ) : ℤ :=
  if q - ⌊q⌋ < 1 / 2 then ⌊q⌋
  else if 1 / 2 < q - ⌊q⌋ then ⌊q⌋ + 1
  else if ⌊q⌋ % 2 = 0 then ⌊q⌋ else ⌊q⌋ + 1

/-- The number that an operation with the exact result `q` returns: 53 significant
bits, and no bit below `2 ^ (-1074)`. -/
def binary64 (q : ℚ) : ℚ :=
  if q = 0 then 0
  else
    let unit : ℚ := 2 ^ max (Int.log 2 |q| - 52) (-1074)
    roundHalfEven (q / unit) * unit

/-- `Math.round(x)`. -/
def mathRound (x : ℚ) : ℤ := ⌊x + 1 / 2⌋

/-! ## The error of an operation -/

theorem abs_roundHalfEven_sub_le (q : ℚ) : |(roundHalfEven q : ℚ) - q| ≤ 1 / 2 := by
  have hfloor := Int.floor_le q
  have hnext := Int.lt_floor_add_one q
  rw [roundHalfEven, abs_le]
  split_ifs
  all_goals
    push_cast
    constructor <;> linarith

/-- A result is off by half of its last bit at most. -/
theorem abs_binary64_sub_le (q : ℚ) : |binary64 q - q| ≤ max (|q| / 2 ^ 53) (2 ^ (-1075 : ℤ)) := by
  by_cases hq : q = 0
  · subst hq
    simp [binary64]
  have hpos : 0 < |q| := abs_pos.mpr hq
  have hunit : (0 : ℚ) < 2 ^ max (Int.log 2 |q| - 52) (-1074) := zpow_pos (by norm_num) _
  have hlast : (2 : ℚ) ^ max (Int.log 2 |q| - 52) (-1074) / 2 ≤
      max (|q| / 2 ^ 53) (2 ^ (-1075 : ℤ)) := by
    rcases max_cases (Int.log 2 |q| - 52) (-1074) with ⟨hmax, -⟩ | ⟨hmax, -⟩
    · have hle : (2 : ℚ) ^ Int.log 2 |q| ≤ |q| := mod_cast Int.zpow_log_le_self (by decide) hpos
      refine le_max_of_le_left ?_
      rw [hmax, zpow_sub₀ (by norm_num)]
      norm_num
      linarith
    · refine le_max_of_le_right (le_of_eq ?_)
      rw [hmax, show (-1074 : ℤ) = -1075 + 1 from rfl, zpow_add_one₀ (by norm_num)]
      ring
  rw [binary64, if_neg hq]
  dsimp only
  generalize (2 : ℚ) ^ max (Int.log 2 |q| - 52) (-1074) = unit at hunit hlast ⊢
  calc |(roundHalfEven (q / unit) : ℚ) * unit - q|
      = |(roundHalfEven (q / unit) : ℚ) - q / unit| * unit := by
        rw [← abs_of_pos hunit, ← abs_mul, abs_of_pos hunit, sub_mul, div_mul_cancel₀ _ hunit.ne']
    _ ≤ 1 / 2 * unit := by gcongr; exact abs_roundHalfEven_sub_le _
    _ ≤ _ := by linarith

theorem abs_binary64_sub_le_add (q : ℚ) :
    |binary64 q - q| ≤ 1 / 2 ^ 53 * |q| + 2 ^ (-1075 : ℤ) := by
  refine (abs_binary64_sub_le q).trans ((max_le_add_of_nonneg (by positivity) ?_).trans ?_)
  · exact zpow_nonneg (by norm_num) _
  · rw [div_eq_mul_one_div, mul_comm]

theorem roundHalfEven_nonneg {q : ℚ} (h : 0 ≤ q) : 0 ≤ roundHalfEven q := by
  have hfloor : 0 ≤ ⌊q⌋ := Int.floor_nonneg.mpr h
  rw [roundHalfEven]
  split
  · exact hfloor
  · split
    · omega
    · split <;> omega

theorem binary64_nonneg {q : ℚ} (h : 0 ≤ q) : 0 ≤ binary64 q := by
  rw [binary64]
  split
  · exact le_rfl
  · have hunit : (0 : ℚ) < 2 ^ max (Int.log 2 |q| - 52) (-1074) := zpow_pos (by norm_num) _
    have hrounded := roundHalfEven_nonneg (div_nonneg h hunit.le)
    exact mul_nonneg (by exact_mod_cast hrounded) hunit.le

/-- What an operation may take from its result. -/
theorem sub_le_binary64 {q bound : ℚ} (hbound : |q| ≤ bound) (h1 : 1 ≤ bound) :
    q - bound / 2 ^ 53 ≤ binary64 q := by
  have htiny : (2 : ℚ) ^ (-1075 : ℤ) ≤ bound / 2 ^ 53 :=
    calc (2 : ℚ) ^ (-1075 : ℤ) ≤ 2 ^ (-53 : ℤ) := zpow_le_zpow_right₀ (by norm_num) (by norm_num)
      _ ≤ bound / 2 ^ 53 := by norm_num; linarith
  have herror := (abs_binary64_sub_le q).trans (max_le (by gcongr) htiny)
  linarith [(abs_le.mp herror).1]

/-- Of a number of at least a thousandth, by a small part. -/
theorem abs_binary64_sub_le_of_le {q : ℚ} (h : 1 / 1000 ≤ |q|) : |binary64 q - q| ≤ |q| / 2 ^ 53 := by
  have htiny : (2 : ℚ) ^ (-1075 : ℤ) ≤ |q| / 2 ^ 53 :=
    calc (2 : ℚ) ^ (-1075 : ℤ) ≤ 2 ^ (-63 : ℤ) := zpow_le_zpow_right₀ (by norm_num) (by norm_num)
      _ ≤ |q| / 2 ^ 53 := by norm_num; linarith
  exact (abs_binary64_sub_le q).trans (max_le le_rfl htiny)

theorem mathRound_eq {x : ℚ} {k : ℤ} (h : |x - k| < 1 / 2) : mathRound x = k := by
  rw [abs_lt] at h
  rw [mathRound, Int.floor_eq_iff]
  constructor <;> linarith

/-- Up to ten millions, cents are not lost: the number nearest to `k / 100` is `k` cents. -/
theorem mathRound_binary64_cents {k : ℤ} (h0 : 0 < k) (hk : k ≤ 1000000000) :
    mathRound (binary64 (binary64 (k / 100) * 100)) = k := by
  have hk0 : (1 : ℚ) ≤ k := mod_cast h0
  have hk9 : (k : ℚ) ≤ 1000000000 := mod_cast hk
  have habs : |(k : ℚ) / 100| = k / 100 := abs_of_pos (by positivity)
  have hfirst := abs_binary64_sub_le_of_le (q := k / 100) (by rw [habs]; linarith)
  rw [habs] at hfirst
  generalize binary64 (k / 100) = amount at hfirst
  obtain ⟨hlo, hhi⟩ := abs_le.mp hfirst
  have hpos : 0 < amount := by linarith
  have habs' : |amount * 100| = amount * 100 := abs_of_pos (by positivity)
  have hsecond := abs_binary64_sub_le_of_le (q := amount * 100) (by rw [habs']; linarith)
  rw [habs'] at hsecond
  obtain ⟨hlo', hhi'⟩ := abs_le.mp hsecond
  refine mathRound_eq (abs_lt.mpr ⟨?_, ?_⟩)
  · linarith
  · linarith

/-- A number up to ten millions is not nearest to more cents than that. -/
theorem cents_of_binary64 {k : ℤ} (h0 : 0 < binary64 (k / 100))
    (h : binary64 (k / 100) ≤ 10000000) : 0 < k ∧ k ≤ 1000000000 := by
  constructor
  · by_contra hneg
    rcases (not_lt.mp hneg).eq_or_lt with rfl | hlt
    · simp [binary64] at h0
    · have hk : (k : ℚ) ≤ -1 := mod_cast (by omega : k ≤ -1)
      have habs : |(k : ℚ) / 100| = -(k / 100) := abs_of_neg (by linarith)
      have herror := abs_binary64_sub_le_of_le (q := k / 100) (by rw [habs]; linarith)
      rw [habs] at herror
      linarith [(abs_le.mp herror).2]
  · by_contra hlarge
    have hk : (1000000001 : ℚ) ≤ k := mod_cast (by omega : 1000000001 ≤ k)
    have habs : |(k : ℚ) / 100| = k / 100 := abs_of_pos (by linarith)
    have herror := abs_binary64_sub_le_of_le (q := k / 100) (by rw [habs]; linarith)
    rw [habs] at herror
    linarith [(abs_le.mp herror).1]

theorem mathRound_binary64_le {q : ℚ} (h0 : 0 ≤ q) (h : q ≤ 1000000000) :
    mathRound (binary64 q) ≤ 1000000000 := by
  have htiny : (2 : ℚ) ^ (-1075 : ℤ) ≤ 1 / 4 :=
    calc (2 : ℚ) ^ (-1075 : ℤ) ≤ 2 ^ (-2 : ℤ) := zpow_le_zpow_right₀ (by norm_num) (by norm_num)
      _ ≤ 1 / 4 := by norm_num
  have hsmall : max (|q| / 2 ^ 53) (2 ^ (-1075 : ℤ)) ≤ 1 / 4 := by
    rw [abs_of_nonneg h0]
    exact max_le (by linarith) htiny
  have herror := (abs_le.mp ((abs_binary64_sub_le q).trans hsmall)).2
  refine Int.lt_add_one_iff.mp (Int.floor_lt.mpr ?_)
  push_cast
  linarith

end Hotelia
