import Hotelia.Foundation.Numeric
import Hotelia.Shared.Binary64

/-!
# The runtime of the server

What the source language leaves to the machine it runs on: the rounding of its
numbers, the text of a number, the time zone, and the case of letters. Instants are
milliseconds since 1970, and days are days since then.
-/

namespace Hotelia

def dayMs : ℤ := 86400000

/-- The day of an instant in UTC, which is the day a `@db.Date` column keeps. -/
def utcDay (t : ℤ) : ℤ := t / dayMs

/-- The instant a `@db.Date` column is read as. -/
def midnight (day : ℤ) : ℤ := day * dayMs

structure Runtime where
  /-- The result of an operation on numbers. -/
  num : ℚ → ℚ
  /-- The decimal that a number is sent to the database as. -/
  decimal : ℚ → ℚ
  /-- A number keeps fifteen digits. -/
  decimal_cents : ∀ n : ℤ, n.natAbs < 10 ^ 15 → decimal (num (n / 100)) = n / 100
  /-- `getFullYear()`, `getMonth()` and `getDate()`: the day in the zone of the server -/
  localDay : ℤ → ℤ
  /-- `new Date(year, month, date)` -/
  startOfDay : ℤ → ℤ
  toLowerCase : String → String

namespace Runtime

variable (rt : Runtime)

/-- `Math.round(x * 100) / 100`. -/
def cents (x : ℚ) : ℚ := rt.num (mathRound (rt.num (x * 100)) / 100)

/-- `round2` of `packages/shared/src/tax`. -/
def round2 (x : ℚ) : ℚ := rt.cents (rt.num (x + 1 / 2 ^ 52))

/-- Numbers that do not lose anything, on a server `offset` ahead of UTC. -/
def exact (offset : ℤ) (toLowerCase : String → String) : Runtime where
  num := id
  decimal := id
  decimal_cents _ _ := rfl
  localDay t := (t + offset) / dayMs
  startOfDay day := day * dayMs - offset
  toLowerCase := toLowerCase

/-- Nothing is lost: numbers are decimals. -/
structure Exact : Prop where
  num : ∀ x, rt.num x = x
  decimal : ∀ x, rt.decimal x = x

theorem exact_exact (offset : ℤ) (toLowerCase : String → String) :
    (exact offset toLowerCase).Exact := ⟨fun _ => rfl, fun _ => rfl⟩

/-! ## Whole cents -/

section Cents

open Foundation.Numeric

variable {rt : Runtime}

theorem whole_cents (hexact : rt.Exact) (x : ℚ) : Whole 2 (rt.cents x) := by
  refine ⟨mathRound (rt.num (x * 100)), ?_⟩
  rw [Runtime.cents, hexact.num]
  norm_num

/-- Whole cents are left alone by the rounding to cents. -/
theorem cents_of_whole (hexact : rt.Exact) {x : ℚ} (hx : Whole 2 x) : rt.cents x = x := by
  obtain ⟨n, rfl⟩ := hx
  have hcents : (n : ℚ) / 10 ^ 2 * 100 = n := by ring
  rw [cents, hexact.num, hexact.num, hcents, mathRound, Foundation.floor_intCast_add_half]
  norm_num

theorem whole_round2 (hexact : rt.Exact) (x : ℚ) : Whole 2 (rt.round2 x) := whole_cents hexact _

theorem round2_eq (hexact : rt.Exact) (x : ℚ) :
    rt.round2 x = ⌊(x + 1 / 2 ^ 52) * 100 + 1 / 2⌋ / 100 := by
  rw [round2, cents, hexact.num, hexact.num, hexact.num, mathRound]

/-- Whole cents pass through the rounding of a sum. -/
theorem round2_add (hexact : rt.Exact) {x : ℚ} (hx : Whole 2 x) (y : ℚ) :
    rt.round2 (x + y) = x + rt.round2 y := by
  obtain ⟨n, rfl⟩ := hx
  have hshift : ((n : ℚ) / 10 ^ 2 + y + 1 / 2 ^ 52) * 100 + 1 / 2 =
      n + ((y + 1 / 2 ^ 52) * 100 + 1 / 2) := by
    ring
  rw [round2_eq hexact, round2_eq hexact, hshift, Int.floor_intCast_add, Int.cast_add, add_div]
  norm_num

theorem round2_zero (hexact : rt.Exact) : rt.round2 0 = 0 := by
  have hfloor : ⌊((0 : ℚ) + 1 / 2 ^ 52) * 100 + 1 / 2⌋ = 0 := by norm_num
  rw [round2_eq hexact, hfloor, Int.cast_zero, zero_div]

/-- Whole cents are left alone. -/
theorem round2_of_whole (hexact : rt.Exact) {x : ℚ} (hx : Whole 2 x) : rt.round2 x = x := by
  have h := round2_add hexact hx 0
  rwa [add_zero, round2_zero hexact, add_zero] at h

/-- A whole number of cents is the rounded value exactly if it is within half a cent. -/
theorem round2_eq_iff (hexact : rt.Exact) {x y : ℚ} (hy : Whole 2 y) :
    rt.round2 x = y ↔ 1 / 2 ^ 52 - 1 / 200 < y - x ∧ y - x ≤ 1 / 2 ^ 52 + 1 / 200 := by
  obtain ⟨n, rfl⟩ := hy
  have hcents : rt.round2 x = (n : ℚ) / 10 ^ 2 ↔ ⌊(x + 1 / 2 ^ 52) * 100 + 1 / 2⌋ = n := by
    have hten : (10 : ℚ) ^ 2 = 100 := by norm_num
    rw [round2_eq hexact, hten, div_left_inj' (by norm_num : (100 : ℚ) ≠ 0), Int.cast_inj]
  rw [hcents, Int.floor_eq_iff]
  constructor
  · rintro ⟨hlow, hhigh⟩
    constructor
    · linarith
    · linarith
  · rintro ⟨hlow, hhigh⟩
    constructor
    · linarith
    · linarith

end Cents

end Runtime

end Hotelia
