import Mathlib.Logic.Function.Basic

/-!
# Exclusive holders

Holders of items: `h i` is what the holder `i` has in its hands, if anything. An
item is identified by its key, and no key should be in two pairs of hands.
-/

namespace Foundation

variable {ι κ α : Type*}

/-- No two holders have items of the same key. -/
def Apart (key : α → κ) (h : ι → Option α) : Prop :=
  ∀ i j a b, h i = some a → h j = some b → key a = key b → i = j

variable {key : α → κ} {h : ι → Option α}

theorem apart_none : Apart key fun _ : ι => none := fun _ _ _ _ ha => nomatch ha

variable [DecidableEq ι]

/-- After an update, a holder has the new item, or it has what it had. -/
theorem update_eq_some {i j : ι} {x : Option α} {a : α}
    (hj : Function.update h i x j = some a) : (j = i ∧ x = some a) ∨ (j ≠ i ∧ h j = some a) := by
  by_cases he : j = i
  · subst he
    rw [Function.update_self] at hj
    exact .inl ⟨rfl, hj⟩
  · rw [Function.update_of_ne he] at hj
    exact .inr ⟨he, hj⟩

/-- A holder may always let go. -/
theorem Apart.release (hap : Apart key h) (i : ι) : Apart key (Function.update h i none) := by
  intro j k a b hj hk hab
  cases update_eq_some hj with
  | inl hnew => exact nomatch hnew.2
  | inr hold =>
    cases update_eq_some hk with
    | inl hnew => exact nomatch hnew.2
    | inr hold' => exact hap j k a b hold.2 hold'.2 hab

/-- A holder may take an item whose key nobody has. -/
theorem Apart.take (hap : Apart key h) (i : ι) {c : α}
    (hfree : ∀ j a, h j = some a → key a ≠ key c) : Apart key (Function.update h i (some c)) := by
  intro j k a b hj hk hab
  cases update_eq_some hj with
  | inl hnew =>
    obtain ⟨rfl, ha⟩ := hnew
    rw [Option.some.injEq] at ha
    subst ha
    cases update_eq_some hk with
    | inl hnew' => exact hnew'.1.symm
    | inr hold' => exact absurd hab.symm (hfree k b hold'.2)
  | inr hold =>
    cases update_eq_some hk with
    | inl hnew' =>
      obtain ⟨rfl, hb⟩ := hnew'
      rw [Option.some.injEq] at hb
      subst hb
      exact absurd hab (hfree j a hold.2)
    | inr hold' => exact hap j k a b hold.2 hold'.2 hab

end Foundation
