import Hotelia.Broker.RateBound

/-!
# When the rate limiter refuses a request

However many addresses there are, and however often the limiter forgets them all, it refuses a
request only if the address has just had what its bucket holds and gets, but for what rounding
takes from the bucket.

## Main results

- `level_sub_le_refilled`: what rounding takes from a bucket at a refill.
- `Inv.step`: since when the bucket of an address has what came in.
- `refusal_justified`: what a refused address has had.
-/

namespace Hotelia.Broker
open Foundation

namespace RateLimiter

section Calls

variable (fl : ℚ → ℚ)

/-- The limiter after the calls. -/
def afterAll (l : RateLimiter) (calls : List (String × ℕ)) : RateLimiter :=
  calls.foldl (fun l call => (l.allowsBy fl call.1 call.2).2) l

theorem passed_concat (l : RateLimiter) (calls : List (String × ℕ)) (call : String × ℕ) :
    l.passed fl (calls ++ [call]) = l.passed fl calls ++
      if ((l.afterAll fl calls).allowsBy fl call.1 call.2).1 then [call] else [] := by
  induction calls generalizing l with
  | nil => exact passed_cons fl l call.1 call.2 []
  | cons first calls ih =>
    obtain ⟨ip, now⟩ := first
    rw [List.cons_append, passed_cons, passed_cons, ih]
    split <;> rfl

theorem afterAll_rps (l : RateLimiter) (calls : List (String × ℕ)) :
    (l.afterAll fl calls).rps = l.rps := by
  induction calls generalizing l with
  | nil => rfl
  | cons call calls ih => exact (ih _).trans (allowsBy_rps fl l call.1 call.2)

/-- The tokens that a call leaves in the bucket of its address. -/
def left (l : RateLimiter) (ip : String) (now : ℕ) : ℚ :=
  if (l.allowsBy fl ip now).1 then fl (l.refilled fl ip now - 1) else l.refilled fl ip now

theorem allowsBy_of_lt {l : RateLimiter} {ip : String} {now : ℕ} (h : l.refilled fl ip now < 1) :
    l.allowsBy fl ip now =
      (false, { l with buckets := l.buckets.insert ip ⟨l.refilled fl ip now, now⟩ }) := if_pos h

theorem allowsBy_of_le {l : RateLimiter} {ip : String} {now : ℕ} (h : 1 ≤ l.refilled fl ip now) :
    l.allowsBy fl ip now = (true, { l with buckets :=
      let buckets := l.buckets.insert ip ⟨fl (l.refilled fl ip now - 1), now⟩
      if buckets.entries.length > 2000 then ∅ else buckets }) := if_neg (not_lt.mpr h)

/-- A call takes from the bucket of its address, and may make the limiter forget all of them. -/
theorem buckets_allowsBy (l : RateLimiter) (ip : String) (now : ℕ) :
    (l.allowsBy fl ip now).2.buckets = ∅ ∨
      (l.allowsBy fl ip now).2.bucketOf ip = ⟨l.left fl ip now, now⟩ ∧
        ∀ other, other ≠ ip → (l.allowsBy fl ip now).2.bucketOf other = l.bucketOf other := by
  have hinsert (h : (l.allowsBy fl ip now).2.buckets = l.buckets.insert ip ⟨l.left fl ip now, now⟩) :
      (l.allowsBy fl ip now).2.bucketOf ip = ⟨l.left fl ip now, now⟩ ∧
        ∀ other, other ≠ ip → (l.allowsBy fl ip now).2.bucketOf other = l.bucketOf other := by
    constructor
    · rw [bucketOf, h, AList.lookup_insert]
    · intro other hne
      rw [bucketOf, h, AList.lookup_insert_ne hne, allowsBy_rps]
      rfl
  rcases lt_or_ge (l.refilled fl ip now) 1 with hlow | hgot
  · right
    refine hinsert ?_
    rw [left, allowsBy_of_lt fl hlow]
    rfl
  · rw [left, allowsBy_of_le fl hgot] at hinsert
    rw [left, allowsBy_of_le fl hgot]
    by_cases hmany :
        (l.buckets.insert ip ⟨fl (l.refilled fl ip now - 1), now⟩).entries.length > 2000
    · exact .inl (if_pos hmany)
    · exact .inr (hinsert (if_neg hmany))

end Calls

/-! ## What rounding takes -/

/-- A refill of `t` tokens by what comes in within `d` seconds, at `r` tokens a second. -/
theorem min_sub_le_refill {r t d : ℚ} (hr : 1 ≤ r) (ht : 0 ≤ t) (hd : 0 ≤ d) :
    min r (t + d * r) - 7 * r / 2 ^ 53 ≤ min r (binary64 (t + binary64 (binary64 d * r))) := by
  have htiny : (2 : ℚ) ^ (-1075 : ℤ) ≤ 1 / 2 ^ 60 :=
    calc (2 : ℚ) ^ (-1075 : ℤ) ≤ 2 ^ (-60 : ℤ) := zpow_le_zpow_right₀ (by norm_num) (by norm_num)
      _ = 1 / 2 ^ 60 := by norm_num
  have hlow (q : ℚ) (hq : 0 ≤ q) : q - 1 / 2 ^ 53 * q - 1 / 2 ^ 60 ≤ binary64 q := by
    have herror := (abs_le.mp (abs_binary64_sub_le_add q)).1
    rw [abs_of_nonneg hq] at herror
    linarith
  -- one operation after the other
  have hseconds := hlow d hd
  have hseconds0 := binary64_nonneg hd
  generalize binary64 d = seconds at hseconds hseconds0 ⊢
  have hproduct : (d - 1 / 2 ^ 53 * d - 1 / 2 ^ 60) * r ≤ seconds * r :=
    mul_le_mul_of_nonneg_right hseconds (by linarith)
  have hproduct0 : 0 ≤ seconds * r := mul_nonneg hseconds0 (by linarith)
  have hgain := hlow _ hproduct0
  have hgain0 := binary64_nonneg hproduct0
  generalize binary64 (seconds * r) = gain at hgain hgain0 ⊢
  have hsum := hlow _ (add_nonneg ht hgain0)
  have hdr : 0 ≤ d * r := mul_nonneg hd (by linarith)
  have hexact : t + d * r - 3 / 2 ^ 53 * (t + d * r) - r / 2 ^ 53 ≤ binary64 (t + gain) := by
    linarith
  refine le_min ((sub_le_self _ (by positivity)).trans (min_le_left _ _)) ?_
  by_cases hfull : t + d * r ≤ 2 * r
  · have hmin : min r (t + d * r) ≤ t + d * r := min_le_right _ _
    linarith
  · have hmin : min r (t + d * r) ≤ r := min_le_left _ _
    linarith

/-- What rounding takes from a bucket at a refill. -/
theorem level_sub_le_refilled (l : RateLimiter) {ip : String} {now : ℕ} (hrps : 1 ≤ l.rps)
    (htokens : 0 ≤ (l.bucketOf ip).tokens) (hfilled : (l.bucketOf ip).filledAt ≤ now) :
    TokenBucket.level (l.rps : ℚ) (l.rps / 1000) (l.bucketOf ip) now - 7 * l.rps / 2 ^ 53 ≤
      l.refilled binary64 ip now := by
  have hr : (1 : ℚ) ≤ l.rps := mod_cast hrps
  rw [TokenBucket.level, refilled]
  rw [bucketOf] at htokens hfilled ⊢
  cases h : l.buckets.lookup ip with
  | none =>
    have hrefill := min_sub_le_refill hr (t := l.rps) (d := ((now : ℚ) - now) / 1000) (by linarith)
      (by simp)
    simp only [Option.getD_none, sub_self, zero_div, zero_mul, add_zero, min_self] at hrefill ⊢
    exact (sub_le_sub_right (min_le_left _ _) _).trans hrefill
  | some b =>
    rw [h] at htokens hfilled
    have hd : 0 ≤ ((now : ℚ) - b.lastRefill) / 1000 := div_nonneg (sub_nonneg.mpr hfilled) (by norm_num)
    have hsame : (l.rps : ℚ) / 1000 * (now - b.lastRefill) = (now - b.lastRefill) / 1000 * l.rps := by
      ring
    simp only [Option.getD_some, hsame]
    exact min_sub_le_refill hr htokens hd

theorem refilled_nonneg (l : RateLimiter) {ip : String} {now : ℕ}
    (htokens : 0 ≤ (l.bucketOf ip).tokens) (hfilled : (l.bucketOf ip).filledAt ≤ now) :
    0 ≤ l.refilled binary64 ip now := by
  rw [refilled]
  rw [bucketOf] at htokens hfilled
  refine le_min (Nat.cast_nonneg _) (binary64_nonneg (add_nonneg ?_ (binary64_nonneg
    (mul_nonneg (binary64_nonneg (div_nonneg (sub_nonneg.mpr ?_) (by norm_num))) (Nat.cast_nonneg _)))))
  · cases h : l.buckets.lookup ip with
    | none => exact Nat.cast_nonneg _
    | some b => rwa [h] at htokens
  · cases h : l.buckets.lookup ip with
    | none => exact le_rfl
    | some b => rwa [h] at hfilled

/-- What a call takes from the bucket of its address: the token, and what rounding takes. -/
theorem spent_allowsBy (l : RateLimiter) {ip : String} {now : ℕ} (hrps : 1 ≤ l.rps)
    (htokens : 0 ≤ (l.bucketOf ip).tokens) (hfilled : (l.bucketOf ip).filledAt ≤ now) :
    0 ≤ l.left binary64 ip now ∧
      TokenBucket.level (l.rps : ℚ) (l.rps / 1000) (l.bucketOf ip) now -
        ((if (l.allowsBy binary64 ip now).1 then 1 else 0) + l.rps / 2 ^ 50) ≤
          l.left binary64 ip now := by
  have hr : (1 : ℚ) ≤ l.rps := mod_cast hrps
  have hlevel := l.level_sub_le_refilled hrps htokens hfilled
  have hnonneg := l.refilled_nonneg htokens hfilled
  have hmax : l.refilled binary64 ip now ≤ l.rps := min_le_left _ _
  rw [left]
  rcases lt_or_ge (l.refilled binary64 ip now) 1 with hlow | hgot
  · rw [allowsBy_of_lt binary64 hlow]
    simp only [Bool.false_eq_true, if_false]
    refine ⟨hnonneg, le_trans ?_ hlevel⟩
    linarith
  · rw [allowsBy_of_le binary64 hgot]
    simp only [if_true]
    have hge : 0 ≤ l.refilled binary64 ip now - 1 := sub_nonneg.mpr hgot
    have habs : |l.refilled binary64 ip now - 1| ≤ l.rps := by
      rw [abs_of_nonneg hge]
      linarith
    refine ⟨binary64_nonneg hge, le_trans ?_ (sub_le_binary64 habs hr)⟩
    linarith

/-! ## What an address has had -/

/-- How many of the calls are of `ip`, from `start` on. -/
def since (calls : List (String × ℕ)) (ip : String) (start : ℚ) : ℕ :=
  calls.countP fun call => call.1 = ip ∧ start ≤ call.2

theorem since_append (calls more : List (String × ℕ)) (ip : String) (start : ℚ) :
    since (calls ++ more) ip start = since calls ip start + since more ip start :=
  List.countP_append

theorem since_call {ip : String} {now : ℕ} {start : ℚ} (h : start ≤ now) :
    since [(ip, now)] ip start = 1 := by
  simp [since, h]

/-- The call, if it has passed. -/
theorem since_passed {ip : String} {now : ℕ} {start : ℚ} (h : start ≤ now) (pass : Bool) :
    ((since (if pass then [(ip, now)] else []) ip start : ℕ) : ℚ) = if pass then 1 else 0 := by
  cases pass with
  | true => simp [since_call h]
  | false => simp [since]

/-- What the calls of `ip` from `start` on can have taken from its bucket, if `granted` of all the
calls have passed. -/
def taken (rps : ℕ) (calls granted : List (String × ℕ)) (ip : String) (start : ℚ) : ℚ :=
  since granted ip start + since calls ip start * (rps / 2 ^ 50)

theorem taken_nonneg (rps : ℕ) (calls granted : List (String × ℕ)) (ip : String) (start : ℚ) :
    0 ≤ taken rps calls granted ip start := by
  rw [taken]
  positivity

theorem taken_append (rps : ℕ) (calls granted calls' granted' : List (String × ℕ)) (ip : String)
    (start : ℚ) : taken rps (calls ++ calls') (granted ++ granted') ip start =
      taken rps calls granted ip start + taken rps calls' granted' ip start := by
  simp only [taken, since_append, Nat.cast_add]
  ring

/-- Every bucket was full at some time, and less what was taken since has what came in since. -/
def Inv (calls granted : List (String × ℕ)) (clock : ℕ) (l : RateLimiter) : Prop :=
  ∀ ip, (l.bucketOf ip).filledAt ≤ clock ∧ 0 ≤ (l.bucketOf ip).tokens ∧ ∃ start count,
    TokenBucket.FullSince (l.rps : ℚ) (l.rps / 1000) (l.bucketOf ip) start count ∧
      count ≤ taken l.rps calls granted ip start

/-- A bucket that the limiter does not have is full. -/
theorem inv_of_empty (calls granted : List (String × ℕ)) (clock : ℕ) {l : RateLimiter}
    (h : l.buckets = ∅) : Inv calls granted clock l := by
  intro ip
  have hbucket : l.bucketOf ip = ⟨l.rps, 0⟩ := by
    rw [bucketOf, h, AList.lookup_empty]
  rw [hbucket]
  refine ⟨Nat.cast_nonneg clock, Nat.cast_nonneg _, 0, 0, ⟨le_rfl, ?_⟩, taken_nonneg _ _ _ _ _⟩
  dsimp only
  linarith

theorem Inv.step {calls granted : List (String × ℕ)} {clock now : ℕ} {l : RateLimiter}
    (h : Inv calls granted clock l) (hrps : 1 ≤ l.rps) (hclock : clock ≤ now) (ip : String) :
    Inv (calls ++ [(ip, now)])
      (granted ++ if (l.allowsBy binary64 ip now).1 then [(ip, now)] else []) now
      (l.allowsBy binary64 ip now).2 := by
  rcases l.buckets_allowsBy binary64 ip now with hempty | ⟨hown, hothers⟩
  · exact inv_of_empty _ _ _ hempty
  intro other
  obtain ⟨hfilled, htokens, start, count, hfull, hcount⟩ := h other
  have hle : (l.bucketOf other).filledAt ≤ (now : ℚ) :=
    hfilled.trans (Nat.cast_le.mpr hclock)
  rw [allowsBy_rps]
  by_cases hother : other = ip
  · subst hother
    obtain ⟨hleft, hspent⟩ := l.spent_allowsBy hrps htokens hle
    rw [hown]
    generalize l.left binary64 other now = tokens at hleft hspent ⊢
    refine ⟨le_rfl, hleft, ?_⟩
    have hlost : TokenBucket.level (l.rps : ℚ) (l.rps / 1000) (l.bucketOf other) now -
        ((if (l.allowsBy binary64 other now).1 then 1 else 0) + l.rps / 2 ^ 50) ≤
          (⟨tokens, now⟩ : TokenBucket.Bucket ℚ).tokens := hspent
    have hcall (t : ℚ) (ht : t ≤ now) :
        taken l.rps [(other, now)]
            (if (l.allowsBy binary64 other now).1 then [(other, now)] else []) other t =
          (if (l.allowsBy binary64 other now).1 then 1 else 0) + l.rps / 2 ^ 50 := by
      rw [taken, since_passed ht, since_call ht, Nat.cast_one, one_mul]
    -- the call takes its part, whether the bucket was full again or not
    rcases hfull.spend hle rfl hlost with hkept | hagain
    · refine ⟨start, _, hkept, ?_⟩
      rw [taken_append, hcall start (hfull.start_le.trans hle)]
      exact add_le_add_left hcount _
    · refine ⟨now, _, hagain, ?_⟩
      rw [taken_append, hcall now le_rfl]
      exact le_add_of_nonneg_left (taken_nonneg _ _ _ _ _)
  · rw [hothers other hother]
    refine ⟨hle, htokens, start, count, hfull, hcount.trans ?_⟩
    rw [taken_append]
    exact le_add_of_nonneg_right (taken_nonneg _ _ _ _ _)

theorem Inv.later {calls granted : List (String × ℕ)} {clock later : ℕ} {l : RateLimiter}
    (h : Inv calls granted clock l) (hle : clock ≤ later) : Inv calls granted later l :=
  fun ip => ⟨(h ip).1.trans (Nat.cast_le.mpr hle), (h ip).2⟩

theorem inv_afterAll {rps : ℕ} (hrps : 1 ≤ rps) {calls : List (String × ℕ)}
    (htimes : (calls.map Prod.snd).Pairwise (· ≤ ·)) {clock : ℕ}
    (hclock : ∀ t ∈ calls.map Prod.snd, t ≤ clock) :
    Inv calls (passed binary64 ⟨rps, ∅⟩ calls) clock (afterAll binary64 ⟨rps, ∅⟩ calls) := by
  induction calls using List.reverseRecOn generalizing clock with
  | nil => exact inv_of_empty _ _ _ rfl
  | append_singleton calls call ih =>
    rw [List.map_append, List.pairwise_append] at htimes
    obtain ⟨hcalls, -, hlast⟩ := htimes
    have hbefore := ih hcalls fun t ht => hlast t ht call.2 (List.mem_singleton_self _)
    have hafter : afterAll binary64 ⟨rps, ∅⟩ (calls ++ [call]) =
        ((afterAll binary64 ⟨rps, ∅⟩ calls).allowsBy binary64 call.1 call.2).2 := List.foldl_concat ..
    rw [passed_concat, hafter]
    have hstep := hbefore.step (by rwa [afterAll_rps]) le_rfl call.1
    refine hstep.later (hclock call.2 ?_)
    rw [List.map_append]
    exact List.mem_append_right _ (List.mem_singleton_self _)

/-- For every sequence of calls at times that do not go back, by any number of addresses: if the
next call of an address is refused, then from some time on more of its calls have passed than its
bucket holds and has got since, but for the rest of one, and for a tiny part of a token that
rounding may take at each of its calls. -/
theorem refusal_justified {rps : ℕ} (hrps : 1 ≤ rps) {calls : List (String × ℕ)} {ip : String}
    {now : ℕ} (htimes : ((calls ++ [(ip, now)]).map Prod.snd).Pairwise (· ≤ ·))
    (hrefused : ((afterAll binary64 ⟨rps, ∅⟩ calls).allows ip now).1 = false) :
    ∃ start : ℚ, start ≤ now ∧ (rps : ℚ) + rps * (now - start) / 1000 <
      1 + ((passed binary64 ⟨rps, ∅⟩ calls).countP fun call => call.1 = ip ∧ start ≤ call.2 : ℕ) +
        ((calls.countP fun call => call.1 = ip ∧ start ≤ call.2 : ℕ) + 1) * (rps / 2 ^ 50) := by
  rw [List.map_append, List.pairwise_append] at htimes
  obtain ⟨hcalls, -, hlast⟩ := htimes
  have hinv := inv_afterAll hrps hcalls fun t ht => hlast t ht now (List.mem_singleton_self _)
  have hsame : (afterAll binary64 ⟨rps, ∅⟩ calls).rps = rps := afterAll_rps binary64 ⟨rps, ∅⟩ calls
  rw [allows] at hrefused
  generalize afterAll binary64 ⟨rps, ∅⟩ calls = l at hinv hrefused hsame
  subst hsame
  obtain ⟨hfilled, htokens, start, count, hfull, hcount⟩ := hinv ip
  have hspent := (l.spent_allowsBy hrps htokens hfilled).2
  have hlow : l.refilled binary64 ip now < 1 := by
    by_contra hnot
    rw [allowsBy_of_le binary64 (not_lt.mp hnot)] at hrefused
    cases hrefused
  rw [left] at hspent
  simp only [hrefused, Bool.false_eq_true, if_false] at hspent
  have hlevel : TokenBucket.level (l.rps : ℚ) (l.rps / 1000) (l.bucketOf ip) now <
      1 + l.rps / 2 ^ 50 := by linarith
  have hpart : (0 : ℚ) ≤ l.rps / 2 ^ 50 := by positivity
  rcases hfull.lt_of_level_lt hlevel with hsmall | hlt
  -- the bucket was full, and holds less than a token
  · refine ⟨now, le_rfl, ?_⟩
    have hcalls0 := taken_nonneg l.rps calls (passed binary64 ⟨l.rps, ∅⟩ calls) ip now
    rw [taken, since, since] at hcalls0
    rw [sub_self, mul_zero, zero_div, add_zero]
    linarith
  · refine ⟨start, hfull.start_le.trans hfilled, ?_⟩
    rw [taken, since, since] at hcount
    linarith

/-- Nine requests at once. -/
theorem refusal_justified_burst :
    ∃ start : ℚ, start ≤ (0 : ℕ) ∧ ((8 : ℕ) : ℚ) + (8 : ℕ) * ((0 : ℕ) - start) / 1000 <
      1 + ((passed binary64 ⟨8, ∅⟩ (List.replicate 8 ("10.0.0.7", 0))).countP fun call =>
        call.1 = "10.0.0.7" ∧ start ≤ call.2 : ℕ) +
        (((List.replicate 8 ("10.0.0.7", 0)).countP fun call =>
          call.1 = "10.0.0.7" ∧ start ≤ call.2 : ℕ) + 1) * ((8 : ℕ) / 2 ^ 50) :=
  refusal_justified (by decide) (by decide) (by decide +kernel)

-- Rounding may decide: the last of these calls is refused, and passes if tokens are counted exactly.
example :
    let calls := (List.replicate 9 0 ++ [4, 50, 56, 78, 107, 115]).map fun t => ("10.0.0.7", t)
    ((afterAll binary64 ⟨8, ∅⟩ calls).allows "10.0.0.7" 125).1 = false ∧
      ((afterAll id ⟨8, ∅⟩ calls).allowsBy id "10.0.0.7" 125).1 = true := by
  decide +kernel

end RateLimiter

end Hotelia.Broker
