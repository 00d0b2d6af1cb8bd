import Mathlib.Data.List.Infix

/-!
# Runs of a labelled machine

A machine is a partial step function `step : σ → ℓ → Option σ`; `none` says
that the label is not enabled. A run is a list of labels, so a statement about
every run is a statement about every list of labels that the machine accepts.

## Main results

- `run_invariant`: what every step keeps, every run keeps.
- `run_history`: the same for what the past and the state have to do with each other.
- `run_rel`: the same for a relation between the ends of a run.
- `forall_prefix_iff_along`: when a step keeps a property exactly if a condition
  holds before it, a run has the property in every state it reaches exactly if
  each of its steps met the condition.
- `forall_snoc_iff_along`: the same for what a step leaves behind.
- `along_iff_forall`: what each step of a run meets, in the state that the steps before it reach.
- `forall_segment_iff_along`: the same for a relation between any two states of a run.
- `forall_mem_set`, `forall_mem_concat`: what holds of all parties of a machine that keeps them in
  a list, after one has moved or joined.
-/

namespace Foundation

variable {σ ℓ : Type*} (step : σ → ℓ → Option σ)

/-- The state after the labels `as`, provided each is enabled in its turn. -/
def run : σ → List ℓ → Option σ
  | s, [] => some s
  | s, a :: as => (step s a).bind fun t => run t as

/-- Some list of labels leads from `init` to `s`. -/
def Reachable (init s : σ) : Prop := ∃ as, run step init as = some s

/-- Each label of the run is taken in a state that `good` allows it in. -/
def Along (good : σ → ℓ → Prop) : σ → List ℓ → Prop
  | _, [] => True
  | s, a :: as => good s a ∧ ∀ t, step s a = some t → Along good t as

instance decidableAlong (good : σ → ℓ → Prop) [∀ s a, Decidable (good s a)] :
    ∀ s as, Decidable (Along step good s as)
  | _, [] => isTrue trivial
  | s, a :: as =>
    have (t : σ) : Decidable (Along step good t as) := decidableAlong good t as
    inferInstanceAs (Decidable (good s a ∧ ∀ t ∈ step s a, Along step good t as))

variable {step}

theorem run_cons_eq_some {s u : σ} {a : ℓ} {as : List ℓ} :
    run step s (a :: as) = some u ↔ ∃ t, step s a = some t ∧ run step t as = some u := by
  simp only [run, Option.bind_eq_some_iff]

theorem run_append {s : σ} (as bs : List ℓ) :
    run step s (as ++ bs) = (run step s as).bind fun t => run step t bs := by
  induction as generalizing s with
  | nil => rfl
  | cons a as ih =>
    cases h : step s a with
    | none => simp [run, h]
    | some t => simpa [run, h] using ih

theorem run_concat_eq_some {s u : σ} {as : List ℓ} {a : ℓ} :
    run step s (as ++ [a]) = some u ↔ ∃ t, run step s as = some t ∧ step t a = some u := by
  simp [run_append, Option.bind_eq_some_iff, run]

/-- A run has a state after each of its labels. -/
theorem exists_run_of_prefix {s t : σ} {as bs : List ℓ} (hr : run step s as = some t)
    (h : bs <+: as) : ∃ u, run step s bs = some u := by
  obtain ⟨cs, rfl⟩ := h
  rw [run_append] at hr
  obtain ⟨u, hu, -⟩ := Option.bind_eq_some_iff.mp hr
  exact ⟨u, hu⟩

/-- A run whose labels are labels of another machine. -/
theorem run_map {κ : Type*} {step' : σ → κ → Option σ} {f : ℓ → κ}
    (h : ∀ s a, step' s (f a) = step s a) (s : σ) (as : List ℓ) :
    run step' s (as.map f) = run step s as := by
  induction as generalizing s with
  | nil => rfl
  | cons a as ih => rw [List.map_cons, run, run, h, funext ih]

/-- A run that another machine can follow: each step is a step of the other one, between the
states that `f` shows. -/
theorem run_project {σ' κ : Type*} {step' : σ' → κ → Option σ'} {f : σ → σ'} {g : ℓ → κ}
    (h : ∀ s a t, step s a = some t → step' (f s) (g a) = some (f t)) {s t : σ} {as : List ℓ}
    (hr : run step s as = some t) : run step' (f s) (as.map g) = some (f t) := by
  induction as generalizing s with
  | nil => exact congrArg (some ∘ f) (Option.some.inj hr)
  | cons a as ih =>
    obtain ⟨u, hu, hr⟩ := run_cons_eq_some.mp hr
    exact run_cons_eq_some.mpr ⟨f u, h s a u hu, ih hr⟩

/-- A property that each of its steps keeps is kept by a run. -/
theorem run_invariant_of_mem {I : σ → Prop} {s t : σ} {as : List ℓ}
    (hstep : ∀ a ∈ as, ∀ s t, I s → step s a = some t → I t) (hs : I s)
    (hr : run step s as = some t) : I t := by
  induction as generalizing s with
  | nil => simpa [run] using Option.some.inj hr ▸ hs
  | cons a as ih =>
    obtain ⟨u, hu, hr⟩ := run_cons_eq_some.mp hr
    have hiu : I u := hstep a List.mem_cons_self s u hs hu
    exact ih (fun b hb => hstep b (List.mem_cons_of_mem a hb)) hiu hr

/-- A property that every step keeps is kept by every run. -/
theorem run_invariant {I : σ → Prop} (hstep : ∀ s a t, I s → step s a = some t → I t)
    {s t : σ} {as : List ℓ} (hs : I s) (hr : run step s as = some t) : I t :=
  run_invariant_of_mem (fun a _ s t => hstep s a t) hs hr

theorem Reachable.invariant {I : σ → Prop} (hstep : ∀ s a t, I s → step s a = some t → I t)
    {s t : σ} (h : Reachable step s t) (hs : I s) : I t := by
  obtain ⟨as, hr⟩ := h
  exact run_invariant hstep hs hr

/-- A relation that composes, and that every step is in, relates the ends of a run. -/
theorem run_rel {R : σ → σ → Prop} (hrefl : ∀ s, R s s) (htrans : ∀ s t u, R s t → R t u → R s u)
    (hstep : ∀ s a t, step s a = some t → R s t) {s t : σ} {as : List ℓ}
    (hr : run step s as = some t) : R s t := by
  induction as generalizing s with
  | nil => exact Option.some.inj hr ▸ hrefl s
  | cons a as ih =>
    obtain ⟨u, hu, hr⟩ := run_cons_eq_some.mp hr
    exact htrans s u t (hstep s a u hu) (ih hr)

/-- A property of the past and the state that every step keeps. -/
theorem run_history {I : List ℓ → σ → Prop}
    (hstep : ∀ past s a t, I past s → step s a = some t → I (past ++ [a]) t) {s t : σ}
    {as past : List ℓ} (hs : I past s) (hr : run step s as = some t) : I (past ++ as) t := by
  induction as generalizing s past with
  | nil =>
    rw [List.append_nil]
    exact Option.some.inj hr ▸ hs
  | cons a as ih =>
    obtain ⟨u, hu, hr⟩ := run_cons_eq_some.mp hr
    rw [List.append_cons]
    exact ih (hstep past s a u hs hu) hr

/-- If, while `J` holds (and `J` is never lost), a step from a state with `I`
keeps `I` exactly when `good` allows the step, then `I` holds in every state a
run reaches exactly when `good` allows each of its steps. -/
theorem forall_prefix_iff_along {I J : σ → Prop} {good : σ → ℓ → Prop}
    (hJ : ∀ s a t, J s → step s a = some t → J t)
    (hI : ∀ s a t, J s → I s → step s a = some t → (I t ↔ good s a))
    {s t : σ} {as : List ℓ} (hj : J s) (hi : I s) (hr : run step s as = some t) :
    (∀ bs u, bs <+: as → run step s bs = some u → I u) ↔ Along step good s as := by
  induction as generalizing s with
  | nil =>
    refine ⟨fun _ => trivial, fun _ bs u hb hu => ?_⟩
    have hnil : bs = [] := List.prefix_nil.mp hb
    subst hnil
    simpa [run] using Option.some.inj hu ▸ hi
  | cons a as ih =>
    obtain ⟨v, hv, hrest⟩ := run_cons_eq_some.mp hr
    have hgood := hI s a v hj hi hv
    constructor
    -- the first step, and then the rest of the run from where it leads
    · intro hall
      have hiv : I v := hall [a] v ⟨as, rfl⟩ (by simp [run, hv])
      refine ⟨hgood.mp hiv, fun w hw => ?_⟩
      have hwv : v = w := Option.some.inj (hv.symm.trans hw)
      subst hwv
      refine (ih (hJ s a v hj hv) hiv hrest).mp fun bs u hb hu => ?_
      exact hall (a :: bs) u (List.cons_prefix_cons.mpr ⟨rfl, hb⟩)
        (run_cons_eq_some.mpr ⟨v, hv, hu⟩)
    · rintro ⟨hg, hrun⟩ bs u hb hu
      cases bs with
      | nil => simpa [run] using Option.some.inj hu ▸ hi
      | cons b bs =>
        obtain ⟨rfl, htail⟩ := List.cons_prefix_cons.mp hb
        obtain ⟨w, hw, hu⟩ := run_cons_eq_some.mp hu
        have hwv : v = w := Option.some.inj (hv.symm.trans hw)
        subst hwv
        have hiv : I v := hgood.mpr hg
        exact (ih (hJ s b v hj hv) hiv hrest).mpr (hrun v hv) bs u htail hu

/-- If `good` allows a step exactly when `P` holds after it, then `P` holds after
every step of a run exactly when `good` allows all of them. -/
theorem forall_snoc_iff_along {P : ℓ → σ → Prop} {good : σ → ℓ → Prop}
    (hP : ∀ s a t, step s a = some t → (P a t ↔ good s a)) {s t : σ} {as : List ℓ}
    (hr : run step s as = some t) :
    (∀ bs a u, bs ++ [a] <+: as → run step s (bs ++ [a]) = some u → P a u) ↔
      Along step good s as := by
  induction as generalizing s with
  | nil => exact iff_of_true (fun bs a u hb => absurd (List.prefix_nil.mp hb) (by simp)) trivial
  | cons a as ih =>
    obtain ⟨v, hv, hrest⟩ := run_cons_eq_some.mp hr
    constructor
    · intro hall
      refine ⟨(hP s a v hv).mp (hall [] a v ⟨as, rfl⟩ (by simp [run, hv])), fun w hw => ?_⟩
      obtain rfl : v = w := Option.some.inj (hv.symm.trans hw)
      refine (ih hrest).mp fun bs b u hb hu => ?_
      exact hall (a :: bs) b u (List.cons_prefix_cons.mpr ⟨rfl, hb⟩)
        (run_cons_eq_some.mpr ⟨v, hv, hu⟩)
    · rintro ⟨hg, hrun⟩ bs b u hb hu
      cases bs with
      | nil =>
        obtain ⟨rfl, -⟩ := List.cons_prefix_cons.mp hb
        obtain ⟨w, hw, hnil⟩ := run_cons_eq_some.mp hu
        obtain rfl : w = u := Option.some.inj hnil
        exact (hP s b w hw).mpr hg
      | cons d bs =>
        obtain ⟨rfl, htail⟩ := List.cons_prefix_cons.mp hb
        obtain ⟨w, hw, hu⟩ := run_cons_eq_some.mp hu
        obtain rfl : v = w := Option.some.inj (hv.symm.trans hw)
        exact (ih hrest).mpr (hrun v hv) bs b u htail hu

theorem along_append {good : σ → ℓ → Prop} {s : σ} {as bs : List ℓ} :
    Along step good s (as ++ bs) ↔
      Along step good s as ∧ ∀ t, run step s as = some t → Along step good t bs := by
  induction as generalizing s with
  | nil => simp [Along, run]
  | cons a as ih =>
    constructor
    · rintro ⟨hg, hrest⟩
      refine ⟨⟨hg, fun u hu => (ih.mp (hrest u hu)).1⟩, fun t ht => ?_⟩
      obtain ⟨u, hu, ht⟩ := run_cons_eq_some.mp ht
      exact (ih.mp (hrest u hu)).2 t ht
    · rintro ⟨⟨hg, hfirst⟩, hlast⟩
      refine ⟨hg, fun u hu => ih.mpr ⟨hfirst u hu, fun t ht => ?_⟩⟩
      exact hlast t (run_cons_eq_some.mpr ⟨u, hu, ht⟩)

theorem Along.of_prefix {good : σ → ℓ → Prop} {s : σ} {as bs : List ℓ} (h : bs <+: as)
    (hgood : Along step good s as) : Along step good s bs := by
  obtain ⟨cs, rfl⟩ := h
  exact (along_append.mp hgood).1

/-- The rest of a run is allowed by what allows the run. -/
theorem Along.rest {good : σ → ℓ → Prop} {s t : σ} {bs cs : List ℓ}
    (hgood : Along step good s (bs ++ cs)) (hr : run step s bs = some t) :
    Along step good t cs :=
  (along_append.mp hgood).2 t hr

/-- A run is allowed with one more step, if the step is. -/
theorem Along.concat {good : σ → ℓ → Prop} {s t : σ} {as : List ℓ} {a : ℓ}
    (hgood : Along step good s as) (hr : run step s as = some t) (ha : good t a) :
    Along step good s (as ++ [a]) := by
  refine along_append.mpr ⟨hgood, fun u hu => ?_⟩
  obtain rfl : t = u := Option.some.inj (hr.symm.trans hu)
  exact ⟨ha, fun _ _ => trivial⟩

/-- A run is allowed if each of its labels is, in the state that the labels before it reach. -/
theorem along_iff_forall {good : σ → ℓ → Prop} {s : σ} {as : List ℓ} :
    Along step good s as ↔
      ∀ bs a u, bs ++ [a] <+: as → run step s bs = some u → good u a := by
  induction as generalizing s with
  | nil => exact iff_of_true trivial fun bs a u hb => absurd (List.prefix_nil.mp hb) (by simp)
  | cons a as ih =>
    constructor
    · rintro ⟨hg, hrest⟩ bs b u hb hu
      cases bs with
      | nil =>
        obtain ⟨rfl, -⟩ := List.cons_prefix_cons.mp hb
        exact Option.some.inj hu ▸ hg
      | cons c bs =>
        obtain ⟨rfl, htail⟩ := List.cons_prefix_cons.mp hb
        obtain ⟨v, hv, hu⟩ := run_cons_eq_some.mp hu
        exact ih.mp (hrest v hv) bs b u htail hu
    · intro hall
      refine ⟨hall [] a s ⟨as, rfl⟩ rfl, fun v hv => ih.mpr fun bs b u hb hu => ?_⟩
      exact hall (a :: bs) b u (List.cons_prefix_cons.mpr ⟨rfl, hb⟩)
        (run_cons_eq_some.mpr ⟨v, hv, hu⟩)

/-- A relation that composes, and that `good` steps are in, relates the ends of a run of
such steps. -/
theorem Along.rel {J : σ → Prop} {R : σ → σ → Prop} {good : σ → ℓ → Prop}
    (hJ : ∀ s a t, J s → step s a = some t → J t) (hrefl : ∀ s, R s s)
    (htrans : ∀ s t u, J t → R s t → R t u → R s u)
    (hgood : ∀ s a t, J s → step s a = some t → good s a → R s t) {s t : σ} {as : List ℓ}
    (hj : J s) (h : Along step good s as) (hr : run step s as = some t) : R s t := by
  induction as generalizing s with
  | nil => exact Option.some.inj hr ▸ hrefl s
  | cons a as ih =>
    obtain ⟨u, hu, hr⟩ := run_cons_eq_some.mp hr
    have hju := hJ s a u hj hu
    exact htrans s u t hju (hgood s a u hj hu h.1) (ih hju (h.2 u hu) hr)

/-- If a relation composes, and a step is in it exactly if `good` allows the step, then it
relates any two states of a run exactly if `good` allows each of the steps. -/
theorem forall_segment_iff_along {J : σ → Prop} {R : σ → σ → Prop} {good : σ → ℓ → Prop}
    (hJ : ∀ s a t, J s → step s a = some t → J t) (hrefl : ∀ s, R s s)
    (htrans : ∀ s t u, J t → R s t → R t u → R s u)
    (hR : ∀ s a t, J s → step s a = some t → (R s t ↔ good s a)) {s t : σ} {as : List ℓ}
    (hj : J s) (hr : run step s as = some t) :
    (∀ bs cs u v, bs ++ cs <+: as → run step s bs = some u → run step u cs = some v → R u v) ↔
      Along step good s as := by
  constructor
  · intro hall
    induction as generalizing s with
    | nil => trivial
    | cons a as ih =>
      obtain ⟨u, hu, hrest⟩ := run_cons_eq_some.mp hr
      have hfirst : R s u := hall [] [a] s u ⟨as, rfl⟩ rfl (by simp [run, hu])
      refine ⟨(hR s a u hj hu).mp hfirst, fun v hv => ?_⟩
      obtain rfl : u = v := Option.some.inj (hu.symm.trans hv)
      refine ih (hJ s a u hj hu) hrest fun bs cs w x hb hw hx => ?_
      exact hall (a :: bs) cs w x (List.cons_prefix_cons.mpr ⟨rfl, hb⟩)
        (run_cons_eq_some.mpr ⟨u, hu, hw⟩) hx
  · intro hgood bs cs u v hb hu hv
    refine Along.rel hJ hrefl htrans (fun s a t hj ht => (hR s a t hj ht).mpr) ?_
      ((hgood.of_prefix hb).rest hu) hv
    exact run_invariant hJ hj hu

/-! ## Parties in a list -/

section Parties

variable {α : Type*} {P : α → Prop} {parties : List α} {a b : α}

theorem forall_mem_set (i : ℕ) (h : ∀ p ∈ parties, P p) (ha : P a) :
    ∀ p ∈ parties.set i a, P p := by
  intro p hp
  rcases List.mem_or_eq_of_mem_set hp with hp | rfl
  · exact h p hp
  · exact ha

theorem forall_mem_concat (h : ∀ p ∈ parties, P p) (ha : P a) : ∀ p ∈ parties ++ [a], P p :=
  List.forall_mem_append.mpr ⟨h, List.forall_mem_singleton.mpr ha⟩

theorem getElem?_set_cases {i j : ℕ} (h : (parties.set i a)[j]? = some b) :
    i = j ∧ a = b ∨ i ≠ j ∧ parties[j]? = some b := by
  rw [List.getElem?_set] at h
  split at h
  · next hij =>
    split at h
    · exact .inl ⟨hij, Option.some.inj h⟩
    · cases h
  · next hij => exact .inr ⟨hij, h⟩

theorem getElem?_concat_cases {j : ℕ} (h : (parties ++ [a])[j]? = some b) :
    parties[j]? = some b ∨ a = b := by
  rw [List.getElem?_append] at h
  split at h
  · exact .inl h
  · obtain ⟨_, hb⟩ := List.getElem?_eq_some_iff.mp h
    exact .inr (by simpa using hb)

end Parties

end Foundation
