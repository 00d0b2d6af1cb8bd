import Mathlib.Algebra.BigOperators.Group.List.Basic
import Mathlib.Algebra.GroupWithZero.Nat
import Mathlib.Algebra.Order.BigOperators.Group.Multiset
import Mathlib.Algebra.Order.Field.Rat
import Mathlib.Data.List.Induction
import Mathlib.Tactic.Linarith
import Mathlib.Tactic.Positivity
import Mathlib.Tactic.Ring

/-!
# Sums that are rounded term by term

A loop that adds numbers up and rounds after each addition, where a rounding is off by a part `u`
of the result and by `η` at most.

## Main definitions

- `roundedSum` — what the loop leaves

## Main results

- `abs_roundedSum_sub_le`: how far that is from the sum.
- `abs_roundedSum_map_sub_le`: and how far if the terms have been rounded too.
-/

namespace Foundation

variable (fl : ℚ → ℚ)

def roundedSum (xs : List ℚ) : ℚ := xs.foldl (fun acc x => fl (acc + x)) 0

variable {fl} {u η : ℚ}

theorem abs_sum_le (xs : List ℚ) : |xs.sum| ≤ (xs.map (|·|)).sum := by
  simpa using Multiset.abs_sum_le_sum_abs (s := (xs : Multiset ℚ))

/-- One turn of the loop: `acc` is what it has for the sum `s` of `n` terms. -/
theorem abs_round_add_sub_le {n T acc s x : ℚ} (hfl : ∀ q, |fl q - q| ≤ u * |q| + η)
    (hu : 0 ≤ u) (hη : 0 ≤ η) (hn0 : 0 ≤ n) (hn : 2 * (n + 1) * u ≤ 1) (hs : |s| ≤ T)
    (h : |acc - s| ≤ 2 * n * (u * T + η)) :
    |fl (acc + x) - (s + x)| ≤ 2 * (n + 1) * (u * (T + |x|) + η) := by
  have hT : 0 ≤ T := (abs_nonneg s).trans hs
  have hsum : |acc + x| ≤ |acc - s| + (T + |x|) :=
    calc |acc + x| = |(acc - s) + (s + x)| := by ring_nf
      _ ≤ |acc - s| + |s + x| := abs_add_le _ _
      _ ≤ |acc - s| + (T + |x|) := by linarith [abs_add_le s x]
  have hturn : |fl (acc + x) - (s + x)| ≤ |acc - s| * (1 + u) + (u * (T + |x|) + η) :=
    calc |fl (acc + x) - (s + x)| = |(fl (acc + x) - (acc + x)) + (acc - s)| := by ring_nf
      _ ≤ |fl (acc + x) - (acc + x)| + |acc - s| := abs_add_le _ _
      _ ≤ u * (|acc - s| + (T + |x|)) + η + |acc - s| := by
        have hpart := mul_le_mul_of_nonneg_left hsum hu
        linarith [hfl (acc + x)]
      _ = |acc - s| * (1 + u) + (u * (T + |x|) + η) := by ring
  have hbefore : |acc - s| ≤ 2 * n * (u * (T + |x|) + η) := by
    refine h.trans ?_
    gcongr
    linarith [abs_nonneg x]
  calc |fl (acc + x) - (s + x)| ≤ |acc - s| * (1 + u) + (u * (T + |x|) + η) := hturn
    _ ≤ 2 * n * (u * (T + |x|) + η) * (1 + u) + (u * (T + |x|) + η) := by gcongr
    _ = (2 * n + 2 * n * u + 1) * (u * (T + |x|) + η) := by ring
    _ ≤ 2 * (n + 1) * (u * (T + |x|) + η) := by
      gcongr
      linarith

theorem abs_roundedSum_sub_le (hfl : ∀ q, |fl q - q| ≤ u * |q| + η) (hu : 0 ≤ u) (hη : 0 ≤ η)
    (xs : List ℚ) (hn : 2 * xs.length * u ≤ 1) :
    |roundedSum fl xs - xs.sum| ≤ 2 * xs.length * (u * (xs.map (|·|)).sum + η) := by
  induction xs using List.reverseRecOn with
  | nil => simp [roundedSum]
  | append_singleton xs x ih =>
    have hstep : roundedSum fl (xs ++ [x]) = fl (roundedSum fl xs + x) := List.foldl_concat ..
    have hlength : (((xs ++ [x]).length : ℕ) : ℚ) = xs.length + 1 := by simp
    rw [hlength] at hn ⊢
    rw [hstep, List.sum_append, List.sum_singleton, List.map_append, List.sum_append,
      List.map_singleton, List.sum_singleton]
    have hfewer : 2 * (xs.length : ℚ) * u ≤ 1 := le_trans (by gcongr; linarith) hn
    exact abs_round_add_sub_le hfl hu hη (Nat.cast_nonneg _) hn (abs_sum_le xs) (ih hfewer)

theorem abs_sum_map_sub_le (hfl : ∀ q, |fl q - q| ≤ u * |q| + η) (qs : List ℚ) :
    |(qs.map fl).sum - qs.sum| ≤ u * (qs.map (|·|)).sum + qs.length * η := by
  induction qs with
  | nil => simp
  | cons q qs ih =>
    simp only [List.map_cons, List.sum_cons, List.length_cons]
    push_cast
    calc |fl q + (qs.map fl).sum - (q + qs.sum)|
        = |(fl q - q) + ((qs.map fl).sum - qs.sum)| := by ring_nf
      _ ≤ |fl q - q| + |(qs.map fl).sum - qs.sum| := abs_add_le _ _
      _ ≤ _ := by linarith [hfl q]

theorem sum_abs_map_le (hfl : ∀ q, |fl q - q| ≤ u * |q| + η) (qs : List ℚ) :
    ((qs.map fl).map (|·|)).sum ≤ (1 + u) * (qs.map (|·|)).sum + qs.length * η := by
  induction qs with
  | nil => simp
  | cons q qs ih =>
    simp only [List.map_cons, List.sum_cons, List.length_cons]
    push_cast
    have hfirst : |fl q| ≤ |fl q - q| + |q| := by linarith [abs_sub_abs_le_abs_sub (fl q) q]
    linarith [hfl q]

/-- Terms that are rounded on their way into the loop. -/
theorem abs_roundedSum_map_sub_le (hfl : ∀ q, |fl q - q| ≤ u * |q| + η) (hu : 0 ≤ u)
    (hη : 0 ≤ η) (qs : List ℚ) (hn : 2 * qs.length * u ≤ 1) :
    |roundedSum fl (qs.map fl) - qs.sum| ≤
      2 * qs.length * (u * ((1 + u) * (qs.map (|·|)).sum + qs.length * η) + η) +
        (u * (qs.map (|·|)).sum + qs.length * η) := by
  have hloop := abs_roundedSum_sub_le hfl hu hη (qs.map fl) (by rwa [List.length_map])
  have hterms := abs_sum_map_sub_le hfl qs
  rw [List.length_map] at hloop
  have hsize : u * ((qs.map fl).map (|·|)).sum ≤
      u * ((1 + u) * (qs.map (|·|)).sum + qs.length * η) := by
    gcongr
    exact sum_abs_map_le hfl qs
  calc |roundedSum fl (qs.map fl) - qs.sum|
      = |(roundedSum fl (qs.map fl) - (qs.map fl).sum) + ((qs.map fl).sum - qs.sum)| := by ring_nf
    _ ≤ |roundedSum fl (qs.map fl) - (qs.map fl).sum| + |(qs.map fl).sum - qs.sum| :=
      abs_add_le _ _
    _ ≤ 2 * qs.length * (u * ((qs.map fl).map (|·|)).sum + η) +
        (u * (qs.map (|·|)).sum + qs.length * η) := add_le_add hloop hterms
    _ ≤ _ := by gcongr

end Foundation
