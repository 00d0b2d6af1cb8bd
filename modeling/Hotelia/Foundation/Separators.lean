import Mathlib.Data.List.DropRight

/-!
# Words at the front of a text, and fields between separators

Texts are lists of letters. A word is looked for behind the blanks that a text starts with.
Fields are written one after the other with a separator between any two of them.

## Main results

- `prefix_dropWhile_iff`: which parts of a text show the word that it starts with.
- `fields_eq_iff`: when two pairs of fields are written alike.
- `cut_eq_iff`: the same for a first field that does not have the separator.
-/

namespace Foundation

variable {α : Type*}

/-! ## A word at the front -/

section Word

variable {blank : α → Bool} {word : List α}

/-- A part from the front of a text shows the word behind the blanks exactly if the text does
and the part reaches to the end of the word. -/
theorem prefix_dropWhile_iff (hword : word ≠ []) {part text : List α} (h : part <+: text) :
    word <+: part.dropWhile blank ↔
      word <+: text.dropWhile blank ∧
        (text.takeWhile blank).length + word.length ≤ part.length := by
  induction part generalizing text with
  | nil =>
    have hpos : 0 < word.length := List.length_pos_iff.mpr hword
    refine iff_of_false (fun hnil => hword (List.prefix_nil.mp hnil)) fun hlong => ?_
    have hle : (text.takeWhile blank).length + word.length ≤ 0 := hlong.2
    omega
  | cons c part ih =>
    obtain ⟨rest, rfl⟩ := h
    have hrest := ih (List.prefix_append part rest)
    rw [List.cons_append]
    by_cases hc : blank c = true
    · rw [List.dropWhile_cons_of_pos hc, List.dropWhile_cons_of_pos hc,
        List.takeWhile_cons_of_pos hc, hrest, List.length_cons, List.length_cons]
      refine and_congr_right fun _ => ?_
      omega
    · rw [List.dropWhile_cons_of_neg hc, List.dropWhile_cons_of_neg hc,
        List.takeWhile_cons_of_neg hc, List.length_nil, Nat.zero_add]
      have hpart : c :: part <+: c :: (part ++ rest) := List.prefix_append (c :: part) rest
      constructor
      · exact fun hshown => ⟨hshown.trans hpart, hshown.length_le⟩
      · exact fun hshown => List.prefix_of_prefix_length_le hshown.1 hpart hshown.2

/-- The blanks at the end of a text do not matter to a word that does not end in one. -/
theorem prefix_rdropWhile_iff {last : α} (hlast : blank last = false) {text : List α} :
    word ++ [last] <+: text.rdropWhile blank ↔ word ++ [last] <+: text := by
  refine ⟨fun h => h.trans (List.rdropWhile_prefix _ _), ?_⟩
  rintro ⟨rest, rfl⟩
  induction rest using List.reverseRecOn with
  | nil =>
    have hno : ¬ blank last = true := by simp [hlast]
    have hkept : (word ++ [last] ++ []).rdropWhile blank = word ++ [last] := by
      rw [List.append_nil, List.rdropWhile_concat_neg _ _ _ hno]
    exact ⟨[], (List.append_nil _).trans hkept.symm⟩
  | append_singleton rest c ih =>
    rw [← List.append_assoc, List.rdropWhile_concat]
    split
    · exact ih
    · rw [List.append_assoc]
      exact List.prefix_append _ _

end Word

/-! ## Separated fields -/

section Fields

variable {sep : α} {x₁ x₂ y₁ y₂ : List α}

/-- Two pairs of fields are written alike exactly if they are the same, or if one of the first
fields goes on where the other ends, with the separator and a part of the second field. -/
theorem fields_eq_iff :
    x₁ ++ sep :: y₁ = x₂ ++ sep :: y₂ ↔
      (x₁ = x₂ ∧ y₁ = y₂) ∨ (∃ z, x₂ = x₁ ++ sep :: z ∧ y₁ = z ++ sep :: y₂) ∨
        ∃ z, x₁ = x₂ ++ sep :: z ∧ y₂ = z ++ sep :: y₁ := by
  constructor
  · intro h
    obtain ⟨z, hx, hy⟩ | ⟨z, hx, hy⟩ := List.append_eq_append_iff.mp h
    · cases z with
      | nil =>
        rw [List.append_nil] at hx
        exact .inl ⟨hx.symm, List.tail_eq_of_cons_eq hy⟩
      | cons c z =>
        obtain ⟨rfl, rfl⟩ := List.cons.inj hy
        exact .inr (.inl ⟨z, hx, rfl⟩)
    · cases z with
      | nil =>
        rw [List.append_nil] at hx
        exact .inl ⟨hx, (List.tail_eq_of_cons_eq hy).symm⟩
      | cons c z =>
        obtain ⟨rfl, rfl⟩ := List.cons.inj hy
        exact .inr (.inr ⟨z, hx, rfl⟩)
  · rintro (⟨rfl, rfl⟩ | ⟨z, rfl, rfl⟩ | ⟨z, rfl, rfl⟩)
    · rfl
    · rw [List.append_assoc, List.cons_append]
    · rw [List.append_assoc, List.cons_append]

/-- A first field without the separator ends where the first separator is. -/
theorem cut_eq_iff (h : sep ∉ x₁) :
    x₁ ++ sep :: y₁ = x₂ ++ sep :: y₂ ↔
      (x₁ = x₂ ∧ y₁ = y₂) ∨ ∃ z, x₂ = x₁ ++ sep :: z ∧ y₁ = z ++ sep :: y₂ := by
  rw [fields_eq_iff, ← or_assoc, or_iff_left]
  rintro ⟨z, rfl, -⟩
  exact h (List.mem_append_right _ List.mem_cons_self)

end Fields

end Foundation
