import Mathlib.Data.List.Basic
import Mathlib.Algebra.GroupWithZero.Nat
import Mathlib.Algebra.Group.Basic

/-!
# Decimals of a fixed length

Texts of one length are in the order of their letters, and decimals of one length in the order of
the numbers that they write.

## Main results

- `append_lt_append_iff`: texts that start with parts of one length.
- `padded_lt_iff`: decimals of one length.
- `decimalValue_padded`: the number is read back.
-/

namespace Foundation

/-! ## Texts of one length -/

section Order

variable {α : Type*} [LT α] {a b x y : List α}

/-- The first parts decide, and the rest if they are the same. -/
theorem append_lt_append_iff (h : a.length = b.length) :
    a ++ x < b ++ y ↔ a < b ∨ a = b ∧ x < y := by
  induction a generalizing b with
  | nil =>
    obtain rfl : b = [] := List.eq_nil_of_length_eq_zero h.symm
    simp
  | cons c a ih =>
    obtain ⟨d, b, rfl⟩ : ∃ d b', b = d :: b' := by
      cases b with
      | nil => exact nomatch h
      | cons d b => exact ⟨d, b, rfl⟩
    have hrest := ih (b := b) (by simpa using h)
    rw [List.cons_append, List.cons_append, List.cons_lt_cons_iff, List.cons_lt_cons_iff, hrest,
      List.cons.injEq, and_or_left, or_assoc, and_assoc]

end Order

/-! ## Decimals -/

/-- The digit of a number below ten. -/
def decimalDigit (d : ℕ) : Char := Char.ofNat (48 + d)

/-- The last `n` digits of a number, with zeros in front. -/
def padded : ℕ → ℕ → List Char
  | 0, _ => []
  | n + 1, v => padded n (v / 10) ++ [decimalDigit (v % 10)]

/-- The number that digits write. -/
def decimalValue (digits : List Char) : ℕ := digits.foldl (fun n c => n * 10 + (c.toNat - 48)) 0

section Decimals

variable {n v w : ℕ}

@[simp] theorem length_padded (n v : ℕ) : (padded n v).length = n := by
  induction n generalizing v with
  | zero => rfl
  | succ n ih => rw [padded, List.length_append, ih, List.length_singleton]

theorem toNat_decimalDigit {d : ℕ} (h : d < 10) : (decimalDigit d).toNat = 48 + d := by
  revert d
  decide

theorem decimalDigit_lt_iff {d e : ℕ} (hd : d < 10) (he : e < 10) :
    decimalDigit d < decimalDigit e ↔ d < e := by
  have h : decimalDigit d < decimalDigit e ↔ (decimalDigit d).toNat < (decimalDigit e).toNat := by
    rw [Char.lt_def, UInt32.lt_iff_toNat_lt]
    rfl
  rw [h, toNat_decimalDigit hd, toNat_decimalDigit he]
  omega

theorem decimalValue_concat (digits : List Char) (c : Char) :
    decimalValue (digits ++ [c]) = decimalValue digits * 10 + (c.toNat - 48) := by
  rw [decimalValue, List.foldl_append]
  rfl

/-- The digits of a number that is not too long write it. -/
theorem decimalValue_padded (h : v < 10 ^ n) : decimalValue (padded n v) = v := by
  induction n generalizing v with
  | zero =>
    rw [pow_zero] at h
    have hv : v = 0 := by omega
    rw [hv]
    rfl
  | succ n ih =>
    rw [pow_succ] at h
    have hdigit : v % 10 < 10 := Nat.mod_lt v (by omega)
    rw [padded, decimalValue_concat, ih (by omega), toNat_decimalDigit hdigit]
    omega

theorem padded_inj (hv : v < 10 ^ n) (hw : w < 10 ^ n) : padded n v = padded n w ↔ v = w := by
  refine ⟨fun h => ?_, fun h => h ▸ rfl⟩
  rw [← decimalValue_padded hv, h, decimalValue_padded hw]

/-- Decimals of one length are in the order of the numbers that they write. -/
theorem padded_lt_iff (hv : v < 10 ^ n) (hw : w < 10 ^ n) : padded n v < padded n w ↔ v < w := by
  induction n generalizing v w with
  | zero =>
    rw [pow_zero] at hv hw
    have hnot : ¬ v < w := by omega
    simp [padded, hnot]
  | succ n ih =>
    rw [pow_succ] at hv hw
    have hv' : v / 10 < 10 ^ n := by omega
    have hw' : w / 10 < 10 ^ n := by omega
    have hlast : [decimalDigit (v % 10)] < [decimalDigit (w % 10)] ↔ v % 10 < w % 10 := by
      rw [List.cons_lt_cons_iff, decimalDigit_lt_iff (by omega) (by omega)]
      simp
    rw [padded, padded, append_lt_append_iff (by simp), ih hv' hw', padded_inj hv' hw', hlast]
    omega

/-- Decimals in front of a separator decide, and what follows if they are the same. -/
theorem padded_append_lt_iff (hv : v < 10 ^ n) (hw : w < 10 ^ n) {sep : Char} {x y : List Char} :
    padded n v ++ sep :: x < padded n w ++ sep :: y ↔ v < w ∨ v = w ∧ x < y := by
  have hsep : sep :: x < sep :: y ↔ x < y := by
    rw [List.cons_lt_cons_iff]
    simp
  rw [append_lt_append_iff (by simp), padded_lt_iff hv hw, padded_inj hv hw, hsep]

end Decimals

end Foundation
