import Mathlib.Data.List.Forall2
import Mathlib.Data.List.MinMax
import Mathlib.Data.List.Pairwise

/-!
# Tables with uniqueness constraints

A table is the list of its rows, oldest first. `Clash a b` says that the rows
`a` and `b` may not stand in one table because a uniqueness constraint (a
primary key, a unique column, a partial unique index) would be violated. The
constraint is part of the type, so a table that breaks it cannot be built.
-/

namespace Foundation

variable {ρ : Type*}

/-- Rows in insertion order, no two of which clash. -/
@[ext]
structure Table (ρ : Type*) (Clash : ρ → ρ → Prop) where
  rows : List ρ
  distinct : rows.Pairwise fun a b => ¬ Clash a b

namespace Table

variable {Clash : ρ → ρ → Prop}

def empty : Table ρ Clash := ⟨[], .nil⟩

/-- `INSERT OR IGNORE`: append the row unless a constraint forbids it. -/
def insertOrIgnore [DecidableRel Clash] (t : Table ρ Clash) (r : ρ) : Table ρ Clash :=
  if h : ∃ x ∈ t.rows, Clash x r then t
  else ⟨t.rows ++ [r], by
    rw [List.pairwise_append]
    refine ⟨t.distinct, List.pairwise_singleton _ _, fun a ha b hb hc => h ⟨a, ha, ?_⟩⟩
    rwa [List.mem_singleton.mp hb] at hc⟩

/-- `INSERT`, which fails if a constraint forbids the row. -/
def create [DecidableRel Clash] (t : Table ρ Clash) (r : ρ) : Option (Table ρ Clash) :=
  if ∃ x ∈ t.rows, Clash x r then none else some (t.insertOrIgnore r)

/-- `UPDATE`: rewrite every row by `f`, which must not create a clash. The
`WHERE` clause is part of `f`. -/
def update (t : Table ρ Clash) (f : ρ → ρ) (hf : ∀ a b, Clash (f a) (f b) → Clash a b) :
    Table ρ Clash :=
  ⟨t.rows.map f, by
    rw [List.pairwise_map]
    exact t.distinct.imp fun hab hc => hab (hf _ _ hc)⟩

@[simp] theorem update_rows (t : Table ρ Clash) (f : ρ → ρ) (hf) :
    (t.update f hf).rows = t.rows.map f := rfl

/-- An update that leaves alone what `p` selects, and selects nothing more, is not seen through
`p`. -/
theorem filter_map_of_fixed {p : ρ → Bool} {f : ρ → ρ} {rows : List ρ}
    (hp : ∀ r ∈ rows, p (f r) = p r) (hf : ∀ r ∈ rows, p r = true → f r = r) :
    (rows.map f).filter p = rows.filter p := by
  induction rows with
  | nil => rfl
  | cons r rows ih =>
    have hrest := ih (fun a ha => hp a (List.mem_cons_of_mem r ha))
      fun a ha => hf a (List.mem_cons_of_mem r ha)
    have hr := hp r List.mem_cons_self
    rw [List.map_cons]
    cases hsel : p r with
    | true =>
      rw [List.filter_cons_of_pos (by rw [hr, hsel]), List.filter_cons_of_pos hsel, hrest,
        hf r List.mem_cons_self hsel]
    | false =>
      rw [List.filter_cons_of_neg (by simp [hr, hsel]), List.filter_cons_of_neg (by simp [hsel]),
        hrest]

/-- An update of one row moves it from the rows that are counted before to those that are
counted after. -/
theorem countP_map_of_fixed {rows : List ρ} (hnodup : rows.Nodup) {row : ρ} (hmem : row ∈ rows)
    {f : ρ → ρ} (hf : ∀ r ∈ rows, r ≠ row → f r = r) (p : ρ → Bool) :
    (rows.map f).countP p + (if p row then 1 else 0) =
      rows.countP p + if p (f row) then 1 else 0 := by
  induction rows with
  | nil => exact nomatch hmem
  | cons r rows ih =>
    obtain ⟨hnot, hrest⟩ := List.nodup_cons.mp hnodup
    rw [List.map_cons, List.countP_cons, List.countP_cons]
    by_cases hr : r = row
    · subst hr
      have hsame : rows.map f = rows :=
        (List.map_congr_left fun a ha => hf a (List.mem_cons_of_mem r ha) fun h => hnot (h ▸ ha)).trans
          (List.map_id rows)
      rw [hsame]
      omega
    · have hrow : row ∈ rows := (List.mem_cons.mp hmem).resolve_left (Ne.symm hr)
      have hcount := ih hrest hrow fun a ha => hf a (List.mem_cons_of_mem r ha)
      rw [hf r List.mem_cons_self hr]
      omega

section Insert

variable [DecidableRel Clash] (t : Table ρ Clash) (r : ρ)

theorem insertOrIgnore_of_clash (h : ∃ x ∈ t.rows, Clash x r) : t.insertOrIgnore r = t := by
  simp only [insertOrIgnore, dif_pos h]

theorem insertOrIgnore_rows_of_fresh (h : ¬ ∃ x ∈ t.rows, Clash x r) :
    (t.insertOrIgnore r).rows = t.rows ++ [r] := by
  simp only [insertOrIgnore, dif_neg h]

/-- An insert leaves the table as it is, or appends the row. -/
theorem insertOrIgnore_cases :
    (t.insertOrIgnore r = t ∧ ∃ x ∈ t.rows, Clash x r) ∨
      ((t.insertOrIgnore r).rows = t.rows ++ [r] ∧ ¬ ∃ x ∈ t.rows, Clash x r) := by
  by_cases h : ∃ x ∈ t.rows, Clash x r
  · exact .inl ⟨t.insertOrIgnore_of_clash r h, h⟩
  · exact .inr ⟨t.insertOrIgnore_rows_of_fresh r h, h⟩

theorem mem_insertOrIgnore_of_mem {x : ρ} (h : x ∈ t.rows) :
    x ∈ (t.insertOrIgnore r).rows := by
  rcases t.insertOrIgnore_cases r with ⟨he, _⟩ | ⟨he, _⟩
  · rwa [he]
  · rw [he]; exact List.mem_append_left _ h

theorem mem_of_mem_insertOrIgnore {x : ρ} (h : x ∈ (t.insertOrIgnore r).rows) :
    x ∈ t.rows ∨ x = r := by
  rcases t.insertOrIgnore_cases r with ⟨he, _⟩ | ⟨he, _⟩
  · exact .inl (he ▸ h)
  · rw [he, List.mem_append, List.mem_singleton] at h
    exact h

theorem create_eq_some {t t' : Table ρ Clash} {r : ρ} (h : t.create r = some t') :
    t'.rows = t.rows ++ [r] ∧ ∀ x ∈ t.rows, ¬ Clash x r := by
  rw [create] at h
  split at h
  · cases h
  · next hfresh =>
    cases h
    exact ⟨t.insertOrIgnore_rows_of_fresh r hfresh, fun x hx hc => hfresh ⟨x, hx, hc⟩⟩

end Insert

/-- A table whose rows are shown by `e` stays so, if `e` shows which rows clash. -/
theorem insertOrIgnore_map {ρ' : Type*} {Clash' : ρ' → ρ' → Prop} [DecidableRel Clash]
    [DecidableRel Clash'] {e : ρ → ρ'} (he : ∀ a b, Clash' (e a) (e b) ↔ Clash a b)
    {t : Table ρ Clash} {t' : Table ρ' Clash'} (h : t'.rows = t.rows.map e) (r : ρ) :
    (t'.insertOrIgnore (e r)).rows = (t.insertOrIgnore r).rows.map e := by
  have hclash : (∃ x ∈ t'.rows, Clash' x (e r)) ↔ ∃ x ∈ t.rows, Clash x r := by
    simp [h, he]
  by_cases hc : ∃ x ∈ t.rows, Clash x r
  · rw [insertOrIgnore_of_clash t r hc, insertOrIgnore_of_clash t' (e r) (hclash.mpr hc), h]
  · rw [insertOrIgnore_rows_of_fresh t r hc,
      insertOrIgnore_rows_of_fresh t' (e r) fun hc' => hc (hclash.mp hc'), h, List.map_append,
      List.map_singleton]

/-- Two rows of a table that clash are the same row. -/
theorem eq_of_clash (t : Table ρ Clash) (hsymm : ∀ a b, Clash a b → Clash b a) {a b : ρ}
    (ha : a ∈ t.rows) (hb : b ∈ t.rows) (hc : Clash a b) : a = b := by
  have : Std.Symm fun a b => ¬ Clash a b := ⟨fun a b h hc => h (hsymm b a hc)⟩
  by_contra hne
  exact t.distinct.forall ha hb hne hc

/-! ### Tables that lose no row -/

section Grows

variable {P : ρ → ρ → Prop} {t t' t'' : Table ρ Clash}

/-- The rows are still there in their order, each changed as `P` allows, with others behind
them. -/
def Grows (P : ρ → ρ → Prop) (t t' : Table ρ Clash) : Prop :=
  ∃ kept, kept <+: t'.rows ∧ List.Forall₂ P t.rows kept

theorem Grows.refl (hrefl : ∀ r, P r r) (t : Table ρ Clash) : Grows P t t :=
  ⟨t.rows, List.prefix_refl _, List.forall₂_same.mpr fun r _ => hrefl r⟩

theorem forall₂_trans (htrans : ∀ a b c, P a b → P b c → P a c) {as bs cs : List ρ}
    (h : List.Forall₂ P as bs) (h' : List.Forall₂ P bs cs) : List.Forall₂ P as cs := by
  induction h generalizing cs with
  | nil => exact h'
  | cons hab _ ih =>
    cases h' with
    | cons hbc hrest => exact .cons (htrans _ _ _ hab hbc) (ih hrest)

theorem Grows.trans (htrans : ∀ a b c, P a b → P b c → P a c) (h : Grows P t t')
    (h' : Grows P t' t'') : Grows P t t'' := by
  obtain ⟨kept, hfront, hkept⟩ := h
  obtain ⟨kept', hfront', hkept'⟩ := h'
  -- what became of the rows that were there first
  have hfirst := List.forall₂_take kept.length hkept'
  rw [← List.prefix_iff_eq_take.mp hfront] at hfirst
  exact ⟨kept'.take kept.length, (List.take_prefix _ _).trans hfront',
    forall₂_trans htrans hkept hfirst⟩

theorem grows_insertOrIgnore [DecidableRel Clash] (hrefl : ∀ r, P r r) (t : Table ρ Clash) (r : ρ) :
    Grows P t (t.insertOrIgnore r) := by
  refine ⟨t.rows, ?_, List.forall₂_same.mpr fun r _ => hrefl r⟩
  rcases t.insertOrIgnore_cases r with ⟨he, -⟩ | ⟨he, -⟩
  · exact ⟨[], by rw [he, List.append_nil]⟩
  · exact ⟨[r], he.symm⟩

theorem grows_update (t : Table ρ Clash) {f : ρ → ρ} (hf) (hP : ∀ r ∈ t.rows, P r (f r)) :
    Grows P t (t.update f hf) := by
  refine ⟨t.rows.map f, List.prefix_refl _, ?_⟩
  rw [List.forall₂_map_right_iff, List.forall₂_same]
  exact hP

theorem map_eq_of_forall₂ {β : Type*} {g : ρ → β} (hg : ∀ a b, P a b → g b = g a)
    {rows kept : List ρ} (h : List.Forall₂ P rows kept) : kept.map g = rows.map g := by
  induction h with
  | nil => rfl
  | cons hab _ ih => rw [List.map_cons, List.map_cons, ih, hg _ _ hab]

/-- What no change reaches is a prefix of what it is later. -/
theorem Grows.map_prefix {β : Type*} (h : Grows P t t') {g : ρ → β} (hg : ∀ a b, P a b → g b = g a) :
    t.rows.map g <+: t'.rows.map g := by
  obtain ⟨kept, hfront, hkept⟩ := h
  rw [← map_eq_of_forall₂ hg hkept]
  exact hfront.map g

theorem Grows.exists_mem (h : Grows P t t') {r : ρ} (hr : r ∈ t.rows) : ∃ r' ∈ t'.rows, P r r' := by
  obtain ⟨kept, hfront, hkept⟩ := h
  obtain ⟨n, hn, rfl⟩ := List.getElem_of_mem hr
  have hn' : n < kept.length := hkept.length_eq ▸ hn
  exact ⟨kept[n], hfront.subset (List.getElem_mem hn'), hkept.get hn hn'⟩

end Grows

end Table

/-! ## The only row of a kind -/

/-- Of rows with different keys there is one of some kind at most, if any two of it are the same. -/
theorem length_filter_le_one_iff {β : Type*} {g : ρ → β} {l : List ρ} (hl : (l.map g).Nodup)
    (p : ρ → Prop) [DecidablePred p] :
    (l.filter p).length ≤ 1 ↔ ∀ a ∈ l, ∀ b ∈ l, p a → p b → g a = g b := by
  have hmem : ∀ a, a ∈ l.filter p ↔ a ∈ l ∧ p a := by simp
  have hnodup : ((l.filter p).map g).Nodup := hl.sublist (List.filter_sublist.map g)
  constructor
  · intro hlen a ha b hb hpa hpb
    have hina := (hmem a).mpr ⟨ha, hpa⟩
    have hinb := (hmem b).mpr ⟨hb, hpb⟩
    match hfilter : l.filter p with
    | [] => rw [hfilter] at hina; cases hina
    | [x] =>
      rw [hfilter, List.mem_singleton] at hina hinb
      rw [hina, hinb]
    | x :: y :: rest => rw [hfilter] at hlen; simp at hlen
  · intro hsame
    match hfilter : l.filter p with
    | [] => simp [hfilter]
    | [x] => simp [hfilter]
    | x :: y :: rest =>
      obtain ⟨hx, hpx⟩ := (hmem x).mp (by simp [hfilter])
      obtain ⟨hy, hpy⟩ := (hmem y).mp (by simp [hfilter])
      rw [hfilter] at hnodup
      simp [hsame x hx y hy hpx hpy] at hnodup

/-! ## The least row -/

/-- The least of the images of some values, if the images are in the order of the values. -/
theorem argmin_map {α β γ δ : Type*} [Preorder γ] [Preorder δ] [DecidableLT γ] [DecidableLT δ]
    {e : α → β} {f : α → γ} {g : β → δ} {l : List α}
    (h : ∀ a ∈ l, ∀ b ∈ l, f a < f b ↔ g (e a) < g (e b)) :
    (l.map e).argmin g = (l.argmin f).map e := by
  induction l using List.reverseRecOn with
  | nil => rfl
  | append_singleton l a ih =>
    have hl := ih fun x hx y hy => h x (List.mem_append_left _ hx) y (List.mem_append_left _ hy)
    rw [List.map_append, List.map_singleton, List.argmin_concat, List.argmin_concat, hl]
    cases hmin : l.argmin f with
    | none => rfl
    | some b =>
      have hb : b ∈ l := List.argmin_mem (Option.mem_def.mpr hmin)
      have hlt := h a (List.mem_append_right _ List.mem_cons_self) b (List.mem_append_left _ hb)
      by_cases hab : f a < f b
      · have hgab := hlt.mp hab
        simp [hab, hgab]
      · have hgab : ¬ g (e a) < g (e b) := fun hg => hab (hlt.mpr hg)
        simp [hab, hgab]

/-- The least of values whose order the images have. -/
theorem min?_map {α β : Type*} [LinearOrder α] [LinearOrder β] {f : α → β} {l : List α}
    (h : ∀ a ∈ l, ∀ b ∈ l, a ≤ b ↔ f a ≤ f b) : (l.map f).min? = l.min?.map f := by
  cases hmin : l.min? with
  | none =>
    obtain rfl := List.min?_eq_none_iff.mp hmin
    rfl
  | some m =>
    obtain ⟨hm, hle⟩ := List.min?_eq_some_iff.mp hmin
    rw [Option.map_some, List.min?_eq_some_iff]
    refine ⟨List.mem_map_of_mem hm, fun x hx => ?_⟩
    obtain ⟨y, hy, rfl⟩ := List.mem_map.mp hx
    exact (h m hm y hy).mp (hle y hy)

end Foundation
