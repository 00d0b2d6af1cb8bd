import Hotelia.Foundation.Run
import Hotelia.Hardware.CircuitBreaker

/-!
# What the calls of a breaker decide

A breaker is asked before each encode, told how each encode has ended, and paused
and resumed by hand. The answer of an encode that was under way when the breaker was
paused comes after the pause, like any other.

## Main results

- `pause_sticky_iff`: when a pause lasts until it is resumed.
- `allow_eq_false_iff`: an encode is refused after enough failures since the last reset, for the
  cooldown after the newest of them.
-/

namespace Hotelia.Hardware
open Foundation

namespace CircuitBreaker

variable {b : CircuitBreaker} {now : ℕ}

theorem allow_fst_of_closed (h : b.state = .closed) : (b.allow now).1 = true := by
  rw [allow, h]

theorem allow_of_paused (h : b.state = .paused) : b.allow now = (false, b) := by
  rw [allow, h]

theorem allow_fst_of_opened (h : b.state = .opened) :
    (b.allow now).1 = decide (b.openedAt + b.cooldownMs ≤ now) := by
  rw [allow, h]
  by_cases hover : b.openedAt + b.cooldownMs ≤ now
  · simp [hover]
  · simp [hover]

/-- Only a pause refuses every encode to come: an open breaker lets one out after its
cooldown. -/
theorem refuses_iff_paused : (∀ now, (b.allow now).1 = false) ↔ b.state = .paused := by
  constructor
  · intro hall
    cases hs : b.state with
    | closed => simp [allow_fst_of_closed hs] at hall
    | opened =>
      have hover := hall (b.openedAt + b.cooldownMs)
      simp [allow_fst_of_opened hs] at hover
    | paused => rfl
  · intro hs now
    rw [allow_of_paused hs]

theorem onFailure_state (b : CircuitBreaker) (now : ℕ) :
    (b.onFailure now).state =
      if b.failureThreshold ≤ b.consecutiveFailures + 1 then .opened else b.state := by
  rw [onFailure]
  split <;> rfl

end CircuitBreaker

/-! ## Pauses -/

/-- A breaker, and whether it has been paused and not been resumed since. -/
structure OperatedBreaker where
  breaker : CircuitBreaker
  held : Bool

namespace OperatedBreaker

def step (s : OperatedBreaker) (call : BreakerCall) : Option OperatedBreaker :=
  some {
    breaker := s.breaker.after call
    held :=
      match call with
      | .pause => true
      | .resume => false
      | _ => s.held }

/-- While it is held, no encode has ended well, and no failure has filled the threshold. -/
def KeepsPause (s : OperatedBreaker) : BreakerCall → Prop
  | .onSuccess => s.held = false
  | .onFailure _ => s.held = true →
    s.breaker.consecutiveFailures + 1 < s.breaker.failureThreshold
  | _ => True

/-- What is held refuses every encode. -/
def Sticky (s : OperatedBreaker) : Prop :=
  s.held = true → ∀ now, (s.breaker.allow now).1 = false

theorem sticky_iff {s : OperatedBreaker} : s.Sticky ↔ (s.held = true → s.breaker.state = .paused) :=
  imp_congr_right fun _ => CircuitBreaker.refuses_iff_paused

theorem sticky_step_iff {s t : OperatedBreaker} {call : BreakerCall} (h : s.Sticky)
    (hstep : step s call = some t) : t.Sticky ↔ KeepsPause s call := by
  rw [sticky_iff] at h ⊢
  obtain rfl := Option.some.inj hstep
  cases call with
  | allow now =>
    refine iff_of_true (fun hheld => ?_) trivial
    have hpaused := h hheld
    show (s.breaker.allow now).2.state = .paused
    rw [CircuitBreaker.allow_of_paused hpaused, hpaused]
  | onSuccess => simp [KeepsPause, CircuitBreaker.after, CircuitBreaker.onSuccess]
  | onFailure now =>
    show (s.held = true → (s.breaker.onFailure now).state = .paused) ↔ _
    refine imp_congr_right fun hheld => ?_
    rw [CircuitBreaker.onFailure_state]
    by_cases hfull : s.breaker.failureThreshold ≤ s.breaker.consecutiveFailures + 1
    · simp [hfull]
    · rw [if_neg hfull]
      exact iff_of_true (h hheld) (Nat.lt_of_not_le hfull)
  | pause => exact iff_of_true (fun _ => rfl) trivial
  | resume => exact iff_of_true (fun hheld => nomatch hheld) trivial

theorem run_step_isSome (s : OperatedBreaker) (calls : List BreakerCall) :
    ∃ t, run step s calls = some t := by
  induction calls generalizing s with
  | nil => exact ⟨s, rfl⟩
  | cons call calls ih => exact ih _

end OperatedBreaker

/-- For every breaker and all of its calls: between a pause and its resume no encode is let
out, at any time, exactly if in between no encode ends well and no failure fills the
threshold. -/
theorem pause_sticky_iff (b : CircuitBreaker) (calls : List BreakerCall) :
    (∀ bs s, bs <+: calls → run OperatedBreaker.step ⟨b, false⟩ bs = some s →
      s.held = true → ∀ now, (s.breaker.allow now).1 = false) ↔
      Along OperatedBreaker.step OperatedBreaker.KeepsPause ⟨b, false⟩ calls := by
  obtain ⟨t, hrun⟩ := OperatedBreaker.run_step_isSome ⟨b, false⟩ calls
  have hstart : OperatedBreaker.Sticky ⟨b, false⟩ := fun hheld => nomatch hheld
  exact forall_prefix_iff_along (I := OperatedBreaker.Sticky) (J := fun _ => True)
    (fun _ _ _ _ _ => trivial) (fun _ _ _ _ h hstep => OperatedBreaker.sticky_step_iff h hstep)
    trivial hstart hrun

/-- An encode is under way when the breaker is paused, and ends well. -/
theorem not_pause_sticky :
    ¬ ∀ (calls : List BreakerCall) s, run OperatedBreaker.step ⟨.fresh, false⟩ calls = some s →
      s.held = true → ∀ now, (s.breaker.allow now).1 = false := by
  intro h
  have hlet := h [.allow 0, .pause, .onSuccess] _ rfl rfl 1
  cases hlet

/-! ## Refusals -/

section History

variable (failureThreshold cooldownMs : ℕ)

/-- The breaker after the calls of `history`, which has the newest call first. -/
def breakerAfter (history : List BreakerCall) : CircuitBreaker :=
  history.foldr (fun call b => b.after call) ⟨failureThreshold, cooldownMs, .closed, 0, 0⟩

/-- The times of the failures since the last reset, the newest first. A reset is an encode
that has ended well, a resume, or a question that has found the cooldown over. -/
def failuresSince : List BreakerCall → List ℕ
  | [] => []
  | .allow now :: history =>
    let failures := failuresSince history
    if failureThreshold ≤ failures.length ∧ ∃ last ∈ failures.head?, last + cooldownMs ≤ now then []
    else failures
  | .onSuccess :: _ => []
  | .onFailure now :: history => now :: failuresSince history
  | .pause :: history => failuresSince history
  | .resume :: _ => []

/-- The breaker knows the number of the failures and, once they are enough, the newest. -/
structure Tracks (b : CircuitBreaker) (failures : List ℕ) : Prop where
  threshold : b.failureThreshold = failureThreshold
  cooldown : b.cooldownMs = cooldownMs
  count : b.consecutiveFailures = failures.length
  state : b.state = if failures ≠ [] ∧ failureThreshold ≤ failures.length then .opened else .closed
  openedAt : b.state = .opened → failures.head? = some b.openedAt

end History

section Tracks

variable {failureThreshold cooldownMs : ℕ} {b : CircuitBreaker} {failures : List ℕ}

theorem Tracks.none (hthreshold : b.failureThreshold = failureThreshold)
    (hcooldown : b.cooldownMs = cooldownMs) (hcount : b.consecutiveFailures = 0)
    (hstate : b.state = .closed) : Tracks failureThreshold cooldownMs b [] where
  threshold := hthreshold
  cooldown := hcooldown
  count := hcount
  state := by simp [hstate]
  openedAt := by simp [hstate]

/-- Every failure is counted, those that come while the breaker is open too. -/
theorem Tracks.onFailure (h : Tracks failureThreshold cooldownMs b failures) (now : ℕ) :
    Tracks failureThreshold cooldownMs (b.onFailure now) (now :: failures) := by
  have hcount := h.count
  have hthreshold := h.threshold
  by_cases hfull : failureThreshold ≤ failures.length + 1
  · have hb : b.onFailure now = { b with
        consecutiveFailures := b.consecutiveFailures + 1, state := .opened, openedAt := now } := by
      rw [CircuitBreaker.onFailure]
      exact if_pos (by rw [hthreshold, hcount]; exact hfull)
    rw [hb]
    constructor
    · exact hthreshold
    · exact h.cooldown
    · exact congrArg (· + 1) hcount
    · simp [hfull]
    · exact fun _ => rfl
  · have hb : b.onFailure now = { b with consecutiveFailures := b.consecutiveFailures + 1 } := by
      rw [CircuitBreaker.onFailure]
      exact if_neg (by rw [hthreshold, hcount]; exact hfull)
    have hclosed : b.state = .closed := by
      rw [h.state, if_neg]
      omega
    rw [hb]
    constructor
    · exact hthreshold
    · exact h.cooldown
    · exact congrArg (· + 1) hcount
    · simp [hfull, hclosed]
    · simp [hclosed]

/-- An open breaker has enough failures, and refuses for the cooldown after the newest. -/
theorem Tracks.allow_fst (h : Tracks failureThreshold cooldownMs b failures) (now : ℕ) :
    (b.allow now).1 = false ↔
      failureThreshold ≤ failures.length ∧ ∃ last ∈ failures.head?, now < last + cooldownMs := by
  have hstate := h.state
  split at hstate
  · next hfull =>
    rw [CircuitBreaker.allow_fst_of_opened hstate, h.openedAt hstate, h.cooldown]
    simp [hfull.2]
  · next hfull =>
    rw [CircuitBreaker.allow_fst_of_closed hstate]
    refine iff_of_false Bool.noConfusion ?_
    rintro ⟨hlength, last, hlast, -⟩
    refine hfull ⟨?_, hlength⟩
    rintro rfl
    cases hlast

/-- A question resets an open breaker if the cooldown is over, and changes nothing else. -/
theorem Tracks.allow_snd (h : Tracks failureThreshold cooldownMs b failures) (now : ℕ) :
    Tracks failureThreshold cooldownMs (b.allow now).2
      (if failureThreshold ≤ failures.length ∧ ∃ last ∈ failures.head?, last + cooldownMs ≤ now
        then [] else failures) := by
  have hstate := h.state
  split at hstate
  · next hfull =>
    have hhead := h.openedAt hstate
    rw [CircuitBreaker.allow, hstate]
    by_cases hover : b.openedAt + b.cooldownMs ≤ now
    · rw [if_pos hover, if_pos ⟨hfull.2, _, hhead, h.cooldown ▸ hover⟩]
      exact .none h.threshold h.cooldown rfl rfl
    · rw [if_neg hover, if_neg]
      · exact h
      · rintro ⟨-, last, hlast, hle⟩
        obtain rfl := Option.some.inj (hhead.symm.trans hlast)
        exact hover (h.cooldown.symm ▸ hle)
  · next hfull =>
    have hb : (b.allow now).2 = b := by rw [CircuitBreaker.allow, hstate]
    rw [hb, if_neg]
    · exact h
    · rintro ⟨hlength, last, hlast, -⟩
      refine hfull ⟨?_, hlength⟩
      rintro rfl
      cases hlast

end Tracks

theorem tracks_breakerAfter (failureThreshold cooldownMs : ℕ) {history : List BreakerCall}
    (hpause : ∀ call ∈ history, call ≠ .pause) :
    Tracks failureThreshold cooldownMs (breakerAfter failureThreshold cooldownMs history)
      (failuresSince failureThreshold cooldownMs history) := by
  induction history with
  | nil => exact .none rfl rfl rfl rfl
  | cons call history ih =>
    have h := ih fun c hc => hpause c (List.mem_cons_of_mem call hc)
    cases call with
    | allow now => exact h.allow_snd now
    | onSuccess => exact .none h.threshold h.cooldown rfl rfl
    | onFailure now => exact h.onFailure now
    | pause => exact absurd rfl (hpause .pause List.mem_cons_self)
    | resume => exact .none h.threshold h.cooldown rfl rfl

/-- After every history without a pause an encode is refused exactly if the threshold has been
reached by the failures since the last reset and the cooldown after the newest is not over. -/
theorem allow_eq_false_iff (failureThreshold cooldownMs : ℕ) {history : List BreakerCall}
    (hpause : ∀ call ∈ history, call ≠ .pause) (now : ℕ) :
    ((breakerAfter failureThreshold cooldownMs history).allow now).1 = false ↔
      failureThreshold ≤ (failuresSince failureThreshold cooldownMs history).length ∧
        ∃ last ∈ (failuresSince failureThreshold cooldownMs history).head?,
          now < last + cooldownMs :=
  (tracks_breakerAfter failureThreshold cooldownMs hpause).allow_fst now

/-- A failure that comes while the breaker is open makes it wait longer. -/
theorem allow_eq_false_iff_late :
    failuresSince 2 10 [.onFailure 9, .onFailure 3, .onFailure 1, .onSuccess, .onFailure 0] =
        [9, 3, 1] ∧
      (((breakerAfter 2 10
        [.onFailure 9, .onFailure 3, .onFailure 1, .onSuccess, .onFailure 0]).allow 15).1 = false ↔
        2 ≤ 3 ∧ ∃ last ∈ [9, 3, 1].head?, 15 < last + 10) :=
  ⟨rfl, allow_eq_false_iff 2 10 (by decide) 15⟩

end Hotelia.Hardware
