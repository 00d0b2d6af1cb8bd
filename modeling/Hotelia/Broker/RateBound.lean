import Hotelia.Broker.RateLimiter
import Hotelia.Foundation.TokenBucket
import Mathlib.Data.Finset.Card
import Mathlib.Tactic.Ring

/-!
# How many requests the rate limiter lets pass

Each address has a token bucket of its own, as long as there are not so many addresses
that the limiter forgets all of them. Tokens are counted exactly here.

## Main results

- `passed_of_ip`: the calls of one address are those of one bucket.
- `rate_bound`: how many of them pass in any window of time.
-/

namespace Hotelia.Broker
open Foundation

namespace RateLimiter

/-- The calls that return `true`: `calls` has the address and the time of each, and tokens are
counted by `fl`. -/
def passed (fl : ℚ → ℚ) (l : RateLimiter) : List (String × ℕ) → List (String × ℕ)
  | [] => []
  | (ip, now) :: calls =>
    let (pass, l) := l.allowsBy fl ip now
    if pass then (ip, now) :: l.passed fl calls else l.passed fl calls

variable {l : RateLimiter} {ip : String} (fl : ℚ → ℚ)

theorem passed_cons (l : RateLimiter) (ip : String) (now : ℕ) (calls : List (String × ℕ)) :
    l.passed fl ((ip, now) :: calls) = if (l.allowsBy fl ip now).1 then
      (ip, now) :: (l.allowsBy fl ip now).2.passed fl calls
    else (l.allowsBy fl ip now).2.passed fl calls := rfl

/-- The bucket of an address; an address that the limiter does not have is one whose bucket
is full. -/
def bucketOf (l : RateLimiter) (ip : String) : TokenBucket.Bucket ℚ :=
  match l.buckets.lookup ip with
  | none => ⟨l.rps, 0⟩
  | some b => ⟨b.tokens, b.lastRefill⟩

theorem refilled_eq (l : RateLimiter) (ip : String) (now : ℕ) :
    l.refilled id ip now = TokenBucket.level (l.rps : ℚ) (l.rps / 1000) (l.bucketOf ip) now := by
  rw [refilled, bucketOf, TokenBucket.level]
  cases h : l.buckets.lookup ip with
  | none =>
    have hgain : (0 : ℚ) ≤ l.rps / 1000 * now :=
      mul_nonneg (div_nonneg (Nat.cast_nonneg _) (by norm_num)) (Nat.cast_nonneg _)
    simp [min_eq_left (le_add_of_nonneg_right hgain)]
  | some b =>
    simp only [Option.getD_some, id_eq]
    congr 2
    ring

theorem allowsBy_rps (l : RateLimiter) (ip : String) (now : ℕ) :
    (l.allowsBy fl ip now).2.rps = l.rps := by
  rw [allowsBy]
  dsimp only
  split <;> rfl

/-- A call passes exactly if there is a token in the bucket of its address. -/
theorem allows_fst (l : RateLimiter) (ip : String) (now : ℕ) :
    (l.allowsBy id ip now).1 =
      (TokenBucket.take (l.rps : ℚ) (l.rps / 1000) (l.bucketOf ip) now).1 := by
  rw [allowsBy, TokenBucket.take, ← refilled_eq]
  dsimp only
  split <;> rfl

/-- The addresses that the limiter has are among `known`. -/
def Within (l : RateLimiter) (known : Finset String) : Prop := ∀ ip ∈ l.buckets, ip ∈ known

theorem Within.length_insert_le {known : Finset String} (h : l.Within known)
    (hknown : known.card ≤ 2000) (hip : ip ∈ known) (b : Bucket) :
    (l.buckets.insert ip b).entries.length ≤ 2000 := by
  have hsub : (l.buckets.insert ip b).keys.toFinset ⊆ known := by
    intro other hother
    rw [List.mem_toFinset, ← AList.mem_keys, AList.mem_insert] at hother
    cases hother with
    | inl heq => exact heq ▸ hip
    | inr hold => exact h other hold
  have hkeys : (l.buckets.insert ip b).keys.length = (l.buckets.insert ip b).entries.length :=
    List.length_map _
  rw [← hkeys, ← List.toFinset_card_of_nodup (AList.keys_nodup _)]
  exact (Finset.card_le_card hsub).trans hknown

/-- Few addresses are never forgotten. -/
theorem allows_buckets {known : Finset String} (h : l.Within known) (hknown : known.card ≤ 2000)
    (hip : ip ∈ known) (now : ℕ) : ∃ b : Bucket,
      (l.allowsBy id ip now).2.buckets = l.buckets.insert ip b ∧
        (⟨b.tokens, b.lastRefill⟩ : TokenBucket.Bucket ℚ) =
          (TokenBucket.take (l.rps : ℚ) (l.rps / 1000) (l.bucketOf ip) now).2 := by
  rw [allowsBy, TokenBucket.take, ← refilled_eq]
  dsimp only
  split
  · exact ⟨_, rfl, rfl⟩
  · exact ⟨_, if_neg (not_lt.mpr (h.length_insert_le hknown hip _)), rfl⟩

theorem Within.allows {known : Finset String} (h : l.Within known) (hknown : known.card ≤ 2000)
    (hip : ip ∈ known) (now : ℕ) : (l.allowsBy id ip now).2.Within known := by
  obtain ⟨b, hbuckets, -⟩ := allows_buckets h hknown hip now
  intro other hother
  rw [hbuckets, AList.mem_insert] at hother
  cases hother with
  | inl heq => exact heq ▸ hip
  | inr hold => exact h other hold

/-- A call takes from the bucket of its address. -/
theorem bucketOf_allows {known : Finset String} (h : l.Within known) (hknown : known.card ≤ 2000)
    (hip : ip ∈ known) (now : ℕ) : (l.allowsBy id ip now).2.bucketOf ip =
      (TokenBucket.take (l.rps : ℚ) (l.rps / 1000) (l.bucketOf ip) now).2 := by
  obtain ⟨b, hbuckets, hb⟩ := allows_buckets h hknown hip now
  rw [bucketOf, hbuckets, AList.lookup_insert]
  exact hb

/-- The buckets of the others stay as they are. -/
theorem bucketOf_allows_of_ne {known : Finset String} (h : l.Within known)
    (hknown : known.card ≤ 2000) (hip : ip ∈ known) (now : ℕ) {other : String} (hne : other ≠ ip) :
    (l.allowsBy id ip now).2.bucketOf other = l.bucketOf other := by
  obtain ⟨b, hbuckets, -⟩ := allows_buckets h hknown hip now
  rw [bucketOf, hbuckets, AList.lookup_insert_ne hne, allowsBy_rps]
  rfl

/-- The times of the calls of one address. -/
def timesOf (ip : String) (calls : List (String × ℕ)) : List ℚ :=
  (calls.filter (·.1 = ip)).map fun call => (call.2 : ℚ)

theorem timesOf_cons_self (ip : String) (now : ℕ) (calls : List (String × ℕ)) :
    timesOf ip ((ip, now) :: calls) = (now : ℚ) :: timesOf ip calls := by
  simp [timesOf]

theorem timesOf_cons_of_ne {caller : String} (h : caller ≠ ip) (now : ℕ)
    (calls : List (String × ℕ)) : timesOf ip ((caller, now) :: calls) = timesOf ip calls := by
  simp [timesOf, h]

/-- Which calls of an address pass is up to its bucket. -/
theorem passed_of_ip {known : Finset String} (hknown : known.card ≤ 2000) (ip : String)
    {calls : List (String × ℕ)} (h : l.Within known) (hcalls : ∀ call ∈ calls, call.1 ∈ known) :
    timesOf ip (l.passed id calls) =
      TokenBucket.taken (l.rps : ℚ) (l.rps / 1000) (l.bucketOf ip) (timesOf ip calls) := by
  induction calls generalizing l with
  | nil => rfl
  | cons call calls ih =>
    obtain ⟨caller, now⟩ := call
    have hcaller : caller ∈ known := hcalls (caller, now) List.mem_cons_self
    have hrest := ih (h.allows hknown hcaller now) fun c hc => hcalls c (List.mem_cons_of_mem _ hc)
    rw [allowsBy_rps] at hrest
    rw [passed_cons]
    by_cases hip : caller = ip
    · subst hip
      rw [bucketOf_allows h hknown hcaller now] at hrest
      rw [timesOf_cons_self, TokenBucket.taken, ← allows_fst, ← hrest]
      split
      · rw [timesOf_cons_self]
      · rfl
    · rw [bucketOf_allows_of_ne h hknown hcaller now (Ne.symm hip)] at hrest
      rw [timesOf_cons_of_ne hip, ← hrest]
      split
      · rw [timesOf_cons_of_ne hip]
      · rfl

/-- The calls of an address in a window, counted by their times. -/
theorem countP_timesOf (ip : String) (start width : ℚ) (calls : List (String × ℕ)) :
    (calls.countP fun call => call.1 = ip ∧ start ≤ call.2 ∧ call.2 ≤ start + width) =
      (timesOf ip calls).countP fun t => start ≤ t ∧ t ≤ start + width := by
  rw [timesOf, List.countP_map, List.countP_filter]
  apply List.countP_congr
  intro call _
  simp only [decide_eq_true_eq, Function.comp_apply, Bool.and_eq_true]
  exact and_comm

/-- For every sequence of calls at times that do not go back, by at most 2000 addresses, with
tokens counted exactly: in every window of time, not more of the calls of one address pass than its
bucket holds and gets in that time. -/
theorem rate_bound (rps : ℕ) {calls : List (String × ℕ)}
    (htimes : (calls.map Prod.snd).Pairwise (· ≤ ·))
    (haddresses : (calls.map Prod.fst).dedup.length ≤ 2000) (ip : String) (start : ℚ) {width : ℚ}
    (hwidth : 0 ≤ width) :
    (((passed id ⟨rps, ∅⟩ calls).countP fun call =>
      call.1 = ip ∧ start ≤ call.2 ∧ call.2 ≤ start + width : ℕ) : ℚ) ≤
        rps + rps * width / 1000 := by
  have hknown : (calls.map Prod.fst).toFinset.card ≤ 2000 := haddresses
  have hcalls : ∀ call ∈ calls, call.1 ∈ (calls.map Prod.fst).toFinset :=
    fun call hcall => List.mem_toFinset.mpr (List.mem_map_of_mem hcall)
  have hwithin : (⟨rps, ∅⟩ : RateLimiter).Within (calls.map Prod.fst).toFinset :=
    fun other hother => absurd hother (AList.notMem_empty other)
  have hrps : (0 : ℚ) ≤ rps := Nat.cast_nonneg rps
  have hrate : (0 : ℚ) ≤ rps / 1000 := div_nonneg hrps (by norm_num)
  have hsorted : (timesOf ip calls).Pairwise (· ≤ ·) := by
    rw [List.pairwise_map] at htimes
    rw [timesOf, List.pairwise_map]
    exact (htimes.filter _).imp fun hle => Nat.cast_le.mpr hle
  have hready : ∀ t ∈ timesOf ip calls,
      TokenBucket.Ready (bucketOf (⟨rps, ∅⟩ : RateLimiter) ip) t := by
    intro t ht
    obtain ⟨call, -, rfl⟩ := List.mem_map.mp ht
    exact ⟨hrps, Nat.cast_nonneg _⟩
  rw [countP_timesOf, passed_of_ip hknown ip hwithin hcalls]
  calc _ ≤ (rps : ℚ) + rps / 1000 * width :=
        TokenBucket.count_window_le hrps hrate hwidth hsorted hready
    _ = rps + rps * width / 1000 := by ring

/-- Ten requests at once, and two a second later. -/
theorem rate_bound_burst :
    (((passed id ⟨8, ∅⟩
      (List.replicate 10 ("10.0.0.7", 0) ++ List.replicate 2 ("10.0.0.7", 1000))).countP fun call =>
        call.1 = "10.0.0.7" ∧ (0 : ℚ) ≤ call.2 ∧ call.2 ≤ (0 : ℚ) + 1000 : ℕ) : ℚ) ≤
        (8 : ℕ) + (8 : ℕ) * 1000 / 1000 :=
  rate_bound 8 (by decide) (by decide) "10.0.0.7" 0 (by norm_num)

end RateLimiter

end Hotelia.Broker
