import Mathlib.Algebra.Field.Rat
import Mathlib.Data.Rat.Floor
import Mathlib.Tactic.FieldSimp
import Mathlib.Tactic.Ring

/-!
# Fixed-point numbers of a database

The values of a column `numeric(p, s)`: whole multiples of `10 ^ (-s)` with at most
`p` digits. A value is rounded when it is stored, ties away from zero, and one that
does not fit is refused.

## Main results

- `roundHalfAway_intCast_add_iff`: when an integer passes through the rounding of a sum.
- `toRat_of_store`: a multiple of the unit is stored as it is.
-/

namespace Foundation

/-- The nearest integer, ties away from zero. -/
def roundHalfAway (q : ℚ) : ℤ := if 0 ≤ q then ⌊q + 1 / 2⌋ else -⌊-q + 1 / 2⌋

theorem floor_intCast_add_half (n : ℤ) : ⌊(n : ℚ) + 1 / 2⌋ = n := by
  rw [Int.floor_eq_iff]
  constructor
  · linarith
  · linarith

@[simp] theorem roundHalfAway_intCast (n : ℤ) : roundHalfAway n = n := by
  rw [roundHalfAway]
  split
  · exact floor_intCast_add_half n
  · rw [← Int.cast_neg, floor_intCast_add_half, neg_neg]

/-- Halfway between two integers. -/
def Tie (q : ℚ) : Prop := ∃ n : ℤ, q = n + 1 / 2

theorem Tie.intCast_add_iff {n : ℤ} {q : ℚ} : Tie (n + q) ↔ Tie q := by
  constructor
  · rintro ⟨m, h⟩
    exact ⟨m - n, by push_cast; linarith⟩
  · rintro ⟨m, rfl⟩
    exact ⟨n + m, by push_cast; ring⟩

theorem Tie.neg_iff {q : ℚ} : Tie (-q) ↔ Tie q := by
  have hneg {r : ℚ} (h : Tie r) : Tie (-r) := by
    obtain ⟨m, rfl⟩ := h
    exact ⟨-m - 1, by push_cast; ring⟩
  exact ⟨fun h => neg_neg q ▸ hneg h, hneg⟩

/-- A number that is not halfway has one nearest integer. -/
theorem roundHalfAway_of_not_tie {q : ℚ} (h : ¬ Tie q) : roundHalfAway q = ⌊q + 1 / 2⌋ := by
  rw [roundHalfAway]
  split
  · rfl
  · obtain ⟨hlow, hhigh⟩ := Int.floor_eq_iff.mp (rfl : ⌊-q + 1 / 2⌋ = ⌊-q + 1 / 2⌋)
    have hne : q ≠ ((-⌊-q + 1 / 2⌋ : ℤ) : ℚ) + 1 / 2 := fun he => h ⟨_, he⟩
    push_cast at hne
    rw [eq_comm, Int.floor_eq_iff]
    push_cast
    refine ⟨by linarith, lt_of_le_of_ne (by linarith) fun he => hne (by linarith)⟩

theorem add_half_nonneg_iff (n : ℤ) : (0 : ℚ) ≤ n + 1 / 2 ↔ 0 ≤ n := by
  constructor
  · intro h
    have hpos : (-1 : ℚ) < n := by linarith
    have hint : -1 < n := by exact_mod_cast hpos
    omega
  · intro h
    have hn : (0 : ℚ) ≤ n := by exact_mod_cast h
    linarith

/-- A number that is halfway is rounded away from zero. -/
theorem roundHalfAway_tie (n : ℤ) : roundHalfAway (n + 1 / 2) = if 0 ≤ n then n + 1 else n := by
  have hup : (n : ℚ) + 1 / 2 + 1 / 2 = ((n + 1 : ℤ) : ℚ) := by
    push_cast
    ring
  have hdown : -((n : ℚ) + 1 / 2) + 1 / 2 = ((-n : ℤ) : ℚ) := by
    push_cast
    ring
  rw [roundHalfAway, hup, hdown, Int.floor_intCast, Int.floor_intCast, neg_neg]
  by_cases hn : 0 ≤ n
  · rw [if_pos ((add_half_nonneg_iff n).mpr hn), if_pos hn]
  · rw [if_neg (fun h => hn ((add_half_nonneg_iff n).mp h)), if_neg hn]

/-- An integer passes through the rounding of a sum, unless the sum is halfway and has another
sign than the rest of it. -/
theorem roundHalfAway_intCast_add_iff {n : ℤ} {q : ℚ} :
    roundHalfAway (n + q) = n + roundHalfAway q ↔ (Tie q → (0 ≤ q ↔ 0 ≤ n + q)) := by
  by_cases htie : Tie q
  · obtain ⟨m, rfl⟩ := htie
    have hsum : (n : ℚ) + (m + 1 / 2) = ((n + m : ℤ) : ℚ) + 1 / 2 := by
      push_cast
      ring
    rw [hsum, roundHalfAway_tie, roundHalfAway_tie, add_half_nonneg_iff, add_half_nonneg_iff]
    constructor
    · intro h _
      split at h <;> split at h <;> omega
    · intro h
      have hiff := h ⟨m, rfl⟩
      by_cases hm : 0 ≤ m
      · rw [if_pos hm, if_pos (hiff.mp hm), add_assoc]
      · rw [if_neg hm, if_neg fun hnm => hm (hiff.mpr hnm)]
  · refine iff_of_true ?_ fun h => absurd h htie
    have hsum : ¬ Tie (n + q) := fun h => htie (Tie.intCast_add_iff.mp h)
    rw [roundHalfAway_of_not_tie hsum, roundHalfAway_of_not_tie htie, add_assoc,
      Int.floor_intCast_add]

/-- A value of a column `numeric(p, s)`. -/
@[ext]
structure Numeric (p s : ℕ) where
  unscaled : ℤ
  fits : unscaled.natAbs < 10 ^ p
  deriving DecidableEq

namespace Numeric

variable {p s : ℕ}

/-- The number that a value stands for. -/
def toRat (x : Numeric p s) : ℚ := x.unscaled / 10 ^ s

instance : Zero (Numeric p s) := ⟨0, by simp⟩

@[simp] theorem toRat_zero : (0 : Numeric p s).toRat = 0 := by
  show ((0 : ℤ) : ℚ) / 10 ^ s = 0
  simp

/-- `q` on its way into a column. -/
def store (p s : ℕ) (q : ℚ) : Option (Numeric p s) :=
  if h : (roundHalfAway (q * 10 ^ s)).natAbs < 10 ^ p then some ⟨roundHalfAway (q * 10 ^ s), h⟩
  else none

theorem unscaled_of_store {q : ℚ} {x : Numeric p s} (h : store p s q = some x) :
    x.unscaled = roundHalfAway (q * 10 ^ s) := by
  rw [store] at h
  split at h
  · cases h; rfl
  · cases h

/-- A multiple of the unit of a column with `s` decimals. -/
def Whole (s : ℕ) (q : ℚ) : Prop := ∃ n : ℤ, q = n / 10 ^ s

theorem whole_toRat (x : Numeric p s) : Whole s x.toRat := ⟨x.unscaled, rfl⟩

theorem Whole.add {q r : ℚ} (hq : Whole s q) (hr : Whole s r) : Whole s (q + r) := by
  obtain ⟨n, rfl⟩ := hq
  obtain ⟨m, rfl⟩ := hr
  exact ⟨n + m, by push_cast; ring⟩

theorem Whole.neg {q : ℚ} (hq : Whole s q) : Whole s (-q) := by
  obtain ⟨n, rfl⟩ := hq
  exact ⟨-n, by push_cast; ring⟩

theorem Whole.sub {q r : ℚ} (hq : Whole s q) (hr : Whole s r) : Whole s (q - r) := by
  rw [sub_eq_add_neg]
  exact hq.add hr.neg

theorem Whole.sum_map {ι : Type*} {f : ι → ℚ} (h : ∀ i, Whole s (f i)) (l : List ι) :
    Whole s (l.map f).sum := by
  induction l with
  | nil => exact ⟨0, by rw [List.map_nil, List.sum_nil, Int.cast_zero, zero_div]⟩
  | cons i l ih =>
    rw [List.map_cons, List.sum_cons]
    exact (h i).add ih

theorem roundHalfAway_of_whole {q : ℚ} (hq : Whole s q) :
    (roundHalfAway (q * 10 ^ s) : ℚ) = q * 10 ^ s := by
  obtain ⟨n, rfl⟩ := hq
  have hne : (10 : ℚ) ^ s ≠ 0 := by positivity
  rw [div_mul_cancel₀ _ hne, roundHalfAway_intCast]

/-- A multiple of the unit is stored as it is. -/
theorem toRat_of_store {q : ℚ} {x : Numeric p s} (h : store p s q = some x) (hq : Whole s q) :
    x.toRat = q := by
  have hne : (10 : ℚ) ^ s ≠ 0 := by positivity
  rw [toRat, unscaled_of_store h, roundHalfAway_of_whole hq, mul_div_cancel_right₀ _ hne]

end Numeric

end Foundation
