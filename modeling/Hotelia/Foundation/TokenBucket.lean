import Mathlib.Algebra.Order.Field.Basic
import Mathlib.Data.List.Count
import Mathlib.Tactic.Linarith

/-!
# Token buckets

A bucket has room for `capacity` tokens, and `rate` tokens come in for each unit of time.
Who asks for a token gets one if there is a whole one. Times and tokens are elements of an
ordered field.

## Main results

- `count_taken_le`: how many tokens are had until some time.
- `count_window_le`: how many are had in any window of time.
- `FullSince.lt_of_level_lt`: how many were lost when few are left.
-/

namespace Foundation.TokenBucket

variable {K : Type*} [Field K] [LinearOrder K]

/-- The tokens in a bucket when it was filled last. -/
structure Bucket (K : Type*) where
  tokens : K
  filledAt : K

variable (capacity rate : K)

/-- The tokens in the bucket at `t`. -/
def level (b : Bucket K) (t : K) : K := min capacity (b.tokens + rate * (t - b.filledAt))

/-- Whether there is a token at `t`, and the bucket after it was asked for. -/
def take (b : Bucket K) (t : K) : Bool × Bucket K :=
  if level capacity rate b t < 1 then (false, ⟨level capacity rate b t, t⟩)
  else (true, ⟨level capacity rate b t - 1, t⟩)

/-- The times at which a token was had. -/
def taken (b : Bucket K) : List K → List K
  | [] => []
  | t :: ts =>
    if (take capacity rate b t).1 then t :: taken (take capacity rate b t).2 ts
    else taken (take capacity rate b t).2 ts

theorem take_of_lt {b : Bucket K} {t : K} (h : level capacity rate b t < 1) :
    take capacity rate b t = (false, ⟨level capacity rate b t, t⟩) := if_pos h

theorem take_of_le {b : Bucket K} {t : K} (h : 1 ≤ level capacity rate b t) :
    take capacity rate b t = (true, ⟨level capacity rate b t - 1, t⟩) := if_neg (not_lt.mpr h)

theorem taken_subset (b : Bucket K) (ts : List K) : taken capacity rate b ts ⊆ ts := by
  induction ts generalizing b with
  | nil => exact List.Subset.refl _
  | cons t ts ih =>
    rw [taken]
    split
    · exact List.cons_subset_cons t (ih _)
    · exact List.Subset.trans (ih _) (List.subset_cons_self t ts)

variable {capacity rate}

/-- What is left of the level after a token was asked for. -/
theorem take_tokens (b : Bucket K) (t : K) :
    (take capacity rate b t).2.tokens =
      level capacity rate b t - if (take capacity rate b t).1 then 1 else 0 := by
  by_cases h : level capacity rate b t < 1
  · rw [take_of_lt capacity rate h]
    simp
  · rw [take_of_le capacity rate (not_lt.mp h)]
    simp

theorem take_filledAt (b : Bucket K) (t : K) : (take capacity rate b t).2.filledAt = t := by
  rw [take]
  split <;> rfl

/-- A step of a count over the taken times. -/
theorem countP_taken_cons (p : K → Bool) (b : Bucket K) (t : K) (ts : List K) :
    (((taken capacity rate b (t :: ts)).countP p : ℕ) : K) =
      (if (take capacity rate b t).1 ∧ p t then 1 else 0) +
        ((taken capacity rate (take capacity rate b t).2 ts).countP p : ℕ) := by
  rw [taken]
  by_cases hgot : (take capacity rate b t).1 = true
  · by_cases hp : p t = true
    · simp [hgot, hp, add_comm]
    · simp [hgot, hp]
  · simp [hgot]

/-- Times that are left out do not count. -/
theorem countP_taken_eq_zero {p : K → Bool} (b : Bucket K) {ts : List K}
    (h : ∀ t ∈ ts, p t = false) : (taken capacity rate b ts).countP p = 0 :=
  List.countP_eq_zero.mpr fun t ht => by simp [h t (taken_subset capacity rate b ts ht)]

/-- After `stop` nothing is had until `stop`. -/
theorem countP_taken_late (b : Bucket K) {stop t : K} {ts : List K} (ht : ¬ t ≤ stop)
    (hle : ∀ u ∈ ts, t ≤ u) : (taken capacity rate b (t :: ts)).countP (· ≤ stop) = 0 := by
  apply countP_taken_eq_zero
  intro u hu
  refine decide_eq_false fun hus => ht ?_
  cases hu with
  | head => exact hus
  | tail _ hu => exact (hle u hu).trans hus

variable [IsStrictOrderedRing K]

/-- The tokens are not negative, and the bucket was not filled after `t`. -/
structure Ready (b : Bucket K) (t : K) : Prop where
  nonneg : 0 ≤ b.tokens
  filled : b.filledAt ≤ t

theorem level_nonneg (hcapacity : 0 ≤ capacity) (hrate : 0 ≤ rate) {b : Bucket K} {t : K}
    (h : Ready b t) : 0 ≤ level capacity rate b t := by
  have hgain : 0 ≤ rate * (t - b.filledAt) := mul_nonneg hrate (sub_nonneg.mpr h.filled)
  exact le_min hcapacity (add_nonneg h.nonneg hgain)

theorem Ready.take (hcapacity : 0 ≤ capacity) (hrate : 0 ≤ rate) {b : Bucket K} {t u : K}
    (h : Ready b t) (hu : t ≤ u) : Ready (take capacity rate b t).2 u where
  nonneg := by
    by_cases hlevel : level capacity rate b t < 1
    · rw [take_of_lt capacity rate hlevel]
      exact level_nonneg hcapacity hrate h
    · rw [take_of_le capacity rate (not_lt.mp hlevel)]
      exact sub_nonneg.mpr (not_lt.mp hlevel)
  filled := (take_filledAt b t).trans_le hu

/-- If the rest of a run has no more than the bucket has then, the run has no more than the
level at its first time and what comes in from then on. -/
theorem count_cons_le {stop : K} {b : Bucket K} {t : K} {ts : List K}
    (hrest : (((taken capacity rate (take capacity rate b t).2 ts).countP (· ≤ stop) : ℕ) : K) ≤
      (take capacity rate b t).2.tokens + rate * (stop - (take capacity rate b t).2.filledAt)) :
    (((taken capacity rate b (t :: ts)).countP (· ≤ stop) : ℕ) : K) ≤
      level capacity rate b t + rate * (stop - t) := by
  rw [take_tokens, take_filledAt] at hrest
  rw [countP_taken_cons]
  by_cases hgot : (take capacity rate b t).1 = true
  · rw [if_pos hgot] at hrest
    have hone :
        (if (take capacity rate b t).1 = true ∧ decide (t ≤ stop) = true then (1 : K) else 0) ≤ 1 := by
      split
      · exact le_rfl
      · exact zero_le_one
    linarith
  · rw [if_neg hgot] at hrest
    rw [if_neg fun h => hgot h.1]
    linarith

/-- Until `stop` no more tokens are had than were there and have come in. -/
theorem count_taken_le (hcapacity : 0 ≤ capacity) (hrate : 0 ≤ rate) {stop : K} {b : Bucket K}
    {ts : List K} (hts : ts.Pairwise (· ≤ ·)) (hb : ∀ t ∈ ts, Ready b t) (hstop : Ready b stop) :
    (((taken capacity rate b ts).countP (· ≤ stop) : ℕ) : K) ≤
      b.tokens + rate * (stop - b.filledAt) := by
  have hgain : 0 ≤ b.tokens + rate * (stop - b.filledAt) :=
    add_nonneg hstop.nonneg (mul_nonneg hrate (sub_nonneg.mpr hstop.filled))
  induction ts generalizing b with
  | nil => simpa [taken] using hgain
  | cons t ts ih =>
    obtain ⟨hle, hts⟩ := List.pairwise_cons.mp hts
    have hready := hb t List.mem_cons_self
    by_cases ht : t ≤ stop
    · have hnext := hready.take hcapacity hrate ht
      have hrest := ih hts (fun u hu => hready.take hcapacity hrate (hle u hu)) hnext
        (add_nonneg hnext.nonneg (mul_nonneg hrate (sub_nonneg.mpr hnext.filled)))
      have hlevel : level capacity rate b t ≤ b.tokens + rate * (t - b.filledAt) := min_le_right _ _
      have hcount := count_cons_le hrest
      linarith
    -- the times that follow are later still
    · rw [countP_taken_late b ht hle]
      simpa using hgain

/-- In a window of time no more tokens are had than fit into the bucket and come in. -/
theorem count_window_le (hcapacity : 0 ≤ capacity) (hrate : 0 ≤ rate) {start width : K}
    (hwidth : 0 ≤ width) {b : Bucket K} {ts : List K} (hts : ts.Pairwise (· ≤ ·))
    (hb : ∀ t ∈ ts, Ready b t) :
    (((taken capacity rate b ts).countP fun t => start ≤ t ∧ t ≤ start + width : ℕ) : K) ≤
      capacity + rate * width := by
  have hroom : 0 ≤ capacity + rate * width := add_nonneg hcapacity (mul_nonneg hrate hwidth)
  induction ts generalizing b with
  | nil => simpa [taken] using hroom
  | cons t ts ih =>
    obtain ⟨hle, hts'⟩ := List.pairwise_cons.mp hts
    have hready := hb t List.mem_cons_self
    have hnext : ∀ u, t ≤ u → Ready (take capacity rate b t).2 u :=
      fun u hu => hready.take hcapacity hrate hu
    by_cases hbefore : t < start
    · have hskip := ih hts' fun u hu => hnext u (hle u hu)
      rw [countP_taken_cons]
      simpa [not_le.mpr hbefore] using hskip
    · have hstart : start ≤ t := not_lt.mp hbefore
      have hcount : ((taken capacity rate b (t :: ts)).countP
          fun t => start ≤ t ∧ t ≤ start + width) ≤
            (taken capacity rate b (t :: ts)).countP (· ≤ start + width) := by
        apply List.countP_mono_left
        intro u _ hu
        exact decide_eq_true (of_decide_eq_true hu).2
      refine (Nat.cast_le.mpr hcount).trans ?_
      by_cases hstop : t ≤ start + width
      · have hrest := count_taken_le hcapacity hrate hts' (fun u hu => hnext u (hle u hu))
          (hnext _ hstop)
        have hlevel : level capacity rate b t ≤ capacity := min_le_left _ _
        have hgain : rate * (start + width - t) ≤ rate * width :=
          mul_le_mul_of_nonneg_left (by linarith) hrate
        linarith [count_cons_le hrest]
      · rw [countP_taken_late b hstop hle]
        simpa using hroom

/-! ## From the last time that the bucket was full -/

/-- The bucket was full at `start`, and has lost `had` tokens at most from then on. -/
structure FullSince (capacity rate : K) (b : Bucket K) (start had : K) : Prop where
  start_le : start ≤ b.filledAt
  tokens : capacity + rate * (b.filledAt - start) - had ≤ b.tokens

/-- A bucket that has lost `spent` tokens of its level at most is one that was full again, or it
has what has come in. -/
theorem FullSince.spend {b b' : Bucket K} {start had t spent : K}
    (h : FullSince capacity rate b start had) (ht : b.filledAt ≤ t) (hfilled : b'.filledAt = t)
    (hspent : level capacity rate b t - spent ≤ b'.tokens) :
    FullSince capacity rate b' start (had + spent) ∨ FullSince capacity rate b' t spent := by
  have hstart := h.start_le
  have htokens := h.tokens
  by_cases hfull : capacity ≤ b.tokens + rate * (t - b.filledAt)
  · right
    have hlevel : level capacity rate b t = capacity := min_eq_left hfull
    refine ⟨hfilled.ge, ?_⟩
    rw [hfilled]
    linarith
  · left
    have hlevel : level capacity rate b t = b.tokens + rate * (t - b.filledAt) :=
      min_eq_right (not_le.mp hfull).le
    refine ⟨(hstart.trans ht).trans hfilled.ge, ?_⟩
    rw [hfilled]
    linarith

/-- A low level means that as much was lost, now or since the bucket was full. -/
theorem FullSince.lt_of_level_lt {b : Bucket K} {start had t low : K}
    (h : FullSince capacity rate b start had) (hlow : level capacity rate b t < low) :
    capacity < low ∨ capacity + rate * (t - start) < low + had := by
  have htokens := h.tokens
  rcases min_lt_iff.mp hlow with hlt | hlt
  · exact .inl hlt
  · right
    linarith

end Foundation.TokenBucket
