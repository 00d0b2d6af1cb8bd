import Mathlib.Algebra.BigOperators.Group.List.Basic
import Mathlib.Algebra.GroupWithZero.Nat
import Mathlib.Data.List.Induction
import Mathlib.Data.List.Nodup
import Mathlib.Logic.Function.Basic

/-!
# Values in groups

A loop that collects the values of a list under their keys, in a map from keys to lists. What has
no key is left out.

## Main definitions

- `group` — the map that the loop leaves

## Main results

- `group_getD`: a group has the values of its key, in their order.
- `sum_length_group`: over different keys, each value is counted once.
-/

namespace Foundation

variable {α β κ : Type*} [DecidableEq κ] (key : α → Option κ) (value : α → β)

/-- One turn of the loop. -/
def collect (groups : κ → Option (List β)) (a : α) : κ → Option (List β) :=
  match key a with
  | none => groups
  | some k => Function.update groups k (some ((groups k).getD [] ++ [value a]))

def group (l : List α) : κ → Option (List β) := l.foldl (collect key value) fun _ => none

variable {key value}

theorem collect_getD (groups : κ → Option (List β)) (a : α) (k : κ) :
    (collect key value groups a k).getD [] =
      (groups k).getD [] ++ if key a = some k then [value a] else [] := by
  rw [collect]
  cases hkey : key a with
  | none => simp
  | some k' =>
    by_cases h : k = k'
    · subst h
      simp
    · have hne : ¬ k' = k := fun h' => h h'.symm
      simp [Function.update_of_ne h, hne]

/-- A group has the values of its key, in their order. -/
theorem group_getD (l : List α) (k : κ) :
    (group key value l k).getD [] = (l.filter (key · = some k)).map value := by
  induction l using List.reverseRecOn with
  | nil => rfl
  | append_singleton l a ih =>
    rw [group, List.foldl_concat, ← group, collect_getD, ih, List.filter_append, List.map_append]
    by_cases h : key a = some k
    · simp [h]
    · simp [h]

theorem countP_add_countP {p q r : α → Bool} {l : List α}
    (h : ∀ a ∈ l, (if p a then 1 else 0) + (if q a then 1 else 0) = if r a then 1 else 0) :
    l.countP p + l.countP q = l.countP r := by
  induction l with
  | nil => rfl
  | cons a l ih =>
    obtain ⟨ha, hrest⟩ := List.forall_mem_cons.mp h
    rw [List.countP_cons, List.countP_cons, List.countP_cons, ← ih hrest, ← ha]
    omega

/-- Over different keys, each value is counted once. -/
theorem sum_length_group {ks : List κ} (hks : ks.Nodup) (l : List α) :
    (ks.map fun k => ((group key value l k).getD []).length).sum =
      l.countP fun a => (key a).any (· ∈ ks) := by
  induction ks with
  | nil => simp
  | cons k ks ih =>
    obtain ⟨hk, hks⟩ := List.nodup_cons.mp hks
    rw [List.map_cons, List.sum_cons, ih hks, group_getD, List.length_map,
      ← List.countP_eq_length_filter]
    refine countP_add_countP fun a _ => ?_
    cases key a with
    | none => simp
    | some k' =>
      by_cases h : k' = k
      · subst h
        simp [hk]
      · simp [h]

end Foundation
