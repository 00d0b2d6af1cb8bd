import Mathlib.Data.List.Basic

/-!
# What a machine answers

A machine answers each call and moves on to its next state. Two machines that are related so that
they answer alike, and stay related, cannot be told apart by any sequence of calls.

## Main definitions

- `answers`, `after` — the answers to a sequence of calls, and the state after it

## Main results

- `forall_answers`: what an invariant says of every answer.
- `after_filter`, `answers_filter`: calls that leave the state alone are not noticed.
- `answers_eq`, `after_rel`: machines that are related answer alike.
-/

namespace Foundation

variable {σ τ ι ω : Type*}

/-- The answers to the calls, one after the other. -/
def answers (step : σ → ι → ω × σ) : σ → List ι → List ω
  | _, [] => []
  | s, call :: calls => (step s call).1 :: answers step (step s call).2 calls

/-- The state after the calls. -/
def after (step : σ → ι → ω × σ) (s : σ) (calls : List ι) : σ :=
  calls.foldl (fun s call => (step s call).2) s

section Invariant

variable {step : σ → ι → ω × σ} {I : σ → Prop} {Q : ω → Prop} {good : ι → Prop}

/-- What holds of the answer to each call in a state with the invariant. -/
theorem forall_answers (h : ∀ s call, I s → good call → Q (step s call).1 ∧ I (step s call).2) {s : σ}
    (hs : I s) {calls : List ι} (hgood : ∀ call ∈ calls, good call) :
    ∀ answer ∈ answers step s calls, Q answer := by
  induction calls generalizing s with
  | nil => exact fun answer hanswer => nomatch hanswer
  | cons call calls ih =>
    obtain ⟨hfirst, hnext⟩ := h s call hs (hgood call List.mem_cons_self)
    intro answer hanswer
    rcases List.mem_cons.mp hanswer with rfl | hrest
    · exact hfirst
    · exact ih hnext (fun c hc => hgood c (List.mem_cons_of_mem call hc)) answer hrest

end Invariant

section Unseen

variable {step : σ → ι → ω × σ} {seen : ι → Bool}

/-- Calls that leave the state alone are not noticed by the others. -/
theorem after_filter (h : ∀ s call, seen call = false → (step s call).2 = s) (s : σ)
    (calls : List ι) : after step s (calls.filter seen) = after step s calls := by
  induction calls generalizing s with
  | nil => rfl
  | cons call calls ih =>
    have hcons : after step s (call :: calls) = after step (step s call).2 calls := rfl
    rw [hcons, ← ih]
    cases hseen : seen call with
    | true => rw [List.filter_cons_of_pos hseen]; rfl
    | false => rw [List.filter_cons_of_neg (by simp [hseen]), h s call hseen]

theorem answers_filter (h : ∀ s call, seen call = false → (step s call).2 = s) (s : σ)
    (calls : List ι) :
    (((calls.zip (answers step s calls)).filter (seen ·.1)).map (·.2)) =
      answers step s (calls.filter seen) := by
  induction calls generalizing s with
  | nil => rfl
  | cons call calls ih =>
    rw [answers, List.zip_cons_cons, List.filter_cons, List.filter_cons]
    cases hseen : seen call with
    | true => simp only [if_true, List.map_cons, ih, answers]
    | false =>
      simp only [Bool.false_eq_true, if_false, ih]
      rw [h s call hseen]

/-- What holds of a call and its answer in every state. -/
theorem forall_mem_zip_answers {Q : ι → ω → Prop} (h : ∀ s call, Q call (step s call).1) (s : σ)
    (calls : List ι) : ∀ pair ∈ calls.zip (answers step s calls), Q pair.1 pair.2 := by
  induction calls generalizing s with
  | nil => exact fun pair hpair => absurd hpair List.not_mem_nil
  | cons call calls ih =>
    intro pair hpair
    rw [answers, List.zip_cons_cons] at hpair
    rcases List.mem_cons.mp hpair with rfl | hrest
    · exact h s call
    · exact ih _ pair hrest

end Unseen

section Simulation

variable {step : σ → ι → ω × σ} {step' : τ → ι → ω × τ} {R : σ → τ → Prop} {good : ι → Prop}

theorem after_rel (h : ∀ s t call, R s t → good call → R (step s call).2 (step' t call).2) {s : σ}
    {t : τ} (hst : R s t) {calls : List ι} (hgood : ∀ call ∈ calls, good call) :
    R (after step s calls) (after step' t calls) := by
  induction calls generalizing s t with
  | nil => exact hst
  | cons call calls ih =>
    exact ih (h s t call hst (hgood call List.mem_cons_self))
      fun c hc => hgood c (List.mem_cons_of_mem call hc)

theorem answers_eq (hnext : ∀ s t call, R s t → good call → R (step s call).2 (step' t call).2)
    (hanswer : ∀ s t call, R s t → good call → (step s call).1 = (step' t call).1) {s : σ} {t : τ}
    (hst : R s t) {calls : List ι} (hgood : ∀ call ∈ calls, good call) :
    answers step s calls = answers step' t calls := by
  induction calls generalizing s t with
  | nil => rfl
  | cons call calls ih =>
    have hcall := hgood call List.mem_cons_self
    rw [answers, answers, hanswer s t call hst hcall,
      ih (hnext s t call hst hcall) fun c hc => hgood c (List.mem_cons_of_mem call hc)]

end Simulation

end Foundation
