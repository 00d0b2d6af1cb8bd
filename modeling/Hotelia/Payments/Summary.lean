import Hotelia.Payments.Replay
import Mathlib.Algebra.Order.BigOperators.Group.List

/-!
# The summary of the ledger

`ledgerSummary` of `apps/console/src/main/offline/store.ts`. The totals of the day are
taken over all matched rows, and a match marks the intent as well as the
confirmation.

## Main results

- `todayTotal_iff`: when the total of a method is what has landed.
-/

namespace Hotelia.Payments
open Foundation LedgerRow PaymentLedger

/-- `new Date(t).toISOString().slice(0, 10)`: the day in UTC. -/
def utcDay (t : ℕ) : ℕ := t / 86400000

structure MpesaLedgerSummary where
  pendingIntents : ℕ
  unmatchedConfirmations : ℕ
  matched : ℕ
  reversed : ℕ
  /-- The methods that the object has no field for are those without a row. -/
  todayTotalMinorByMethod : PaymentMethod → Option ℤ

namespace PaymentLedger

/-- `status='MATCHED' AND substr(recorded_at,1,10)=?`, within the group of a method. -/
def SettledToday (now : ℕ) (method : PaymentMethod) (r : LedgerRow) : Prop :=
  r.status = .matched ∧ utcDay r.recordedAt = utcDay now ∧ r.method = method

instance (now : ℕ) (method : PaymentMethod) : DecidablePred (SettledToday now method) := fun r =>
  inferInstanceAs (Decidable (r.status = .matched ∧ utcDay r.recordedAt = utcDay now ∧
    r.method = method))

/-- `ledgerSummary()`. -/
def ledgerSummary (l : PaymentLedger) (now : ℕ) : MpesaLedgerSummary where
  pendingIntents := l.rows.countP fun r => r.kind = .intent ∧ r.status = .pending
  unmatchedConfirmations := l.rows.countP fun r => r.kind = .confirmation ∧ r.status = .unmatched
  matched := l.rows.countP (·.status = .matched)
  reversed := l.rows.countP (·.status = .reversed)
  todayTotalMinorByMethod method :=
    match l.rows.filter (SettledToday now method) with
    | [] => none
    | group => some (group.map (·.amountMinor)).sum

/-- The total of a method, which is zero if the object has no field for it. -/
def todayTotal (l : PaymentLedger) (now : ℕ) (method : PaymentMethod) : ℤ :=
  ((l.ledgerSummary now).todayTotalMinorByMethod method).getD 0

/-- The money that has landed and was reconciled: the matched confirmations of the day. -/
def landedToday (l : PaymentLedger) (now : ℕ) (method : PaymentMethod) : ℤ :=
  ((l.rows.filter fun r => SettledToday now method r ∧ r.kind = .confirmation).map
    (·.amountMinor)).sum

end PaymentLedger

/-! ## Amounts -/

theorem toMinor_nonneg {amount : ℚ} (h : isAmount amount = true) : 0 ≤ toMinor amount := by
  have hpos : 0 < amount := by
    simp only [isAmount, Bool.and_eq_true, decide_eq_true_eq] at h
    exact h.1
  have hbinary := binary64_nonneg (mul_nonneg hpos.le (by norm_num : (0 : ℚ) ≤ 100))
  unfold toMinor mathRound
  apply Int.floor_nonneg.mpr
  linarith

/-- No row has a negative amount. -/
def Nonneg (l : PaymentLedger) : Prop := ∀ r ∈ l.rows, 0 ≤ r.amountMinor

theorem nonneg_map {l : PaymentLedger} (h : Nonneg l) {id : String} {f : LedgerRow → LedgerRow}
    {hf : KeepsKeys f} (hamount : ∀ r, (f r).amountMinor = r.amountMinor) :
    Nonneg (l.setById id f hf) := by
  intro r' hr'
  rw [setById_rows, List.mem_map] at hr'
  obtain ⟨r, hr, rfl⟩ := hr'
  split
  · rw [hamount]
    exact h r hr
  · exact h r hr

theorem Nonneg.insertOrIgnore {l : PaymentLedger} (h : Nonneg l) {r : LedgerRow}
    (hr : 0 ≤ r.amountMinor) : Nonneg (l.insertOrIgnore r) := by
  intro x hx
  obtain hold | rfl := l.mem_of_mem_insertOrIgnore r hx
  · exact h x hold
  · exact hr

theorem Nonneg.link {l : PaymentLedger} (h : Nonneg l) {x y : String} {now : ℕ}
    {f : LedgerRow → LedgerRow} {hf : KeepsKeys f} (hamount : ∀ r, (f r).amountMinor = r.amountMinor) :
    Nonneg (link l x y now f hf) := by
  show Nonneg ((l.setById x f hf).setById y (linked now x) (keepsKeys_linked now x))
  exact nonneg_map (nonneg_map h hamount) fun _ => rfl

/-- The channels let only positive amounts through. -/
theorem Nonneg.step {l l' : PaymentLedger} (h : Nonneg l) {call : PaymentCall}
    (hs : step l call = some l') : Nonneg l' := by
  rw [Payments.step] at hs
  split at hs
  · next hvalid =>
    cases hs
    cases call with
    | recordIntent input uuid now =>
      simp only [PaymentCall.valid, paymentRecordSchema, Bool.and_eq_true] at hvalid
      exact h.insertOrIgnore (toMinor_nonneg (by tauto))
    | recordConfirmation input uuid now =>
      simp only [PaymentCall.valid, paymentConfirmationSchema, Bool.and_eq_true] at hvalid
      have hinsert : Nonneg (l.insertOrIgnore (confirmationRow input uuid now)) :=
        h.insertOrIgnore (toMinor_nonneg (by tauto))
      obtain ⟨heq, -⟩ | ⟨row, -, -, -, heq⟩ | ⟨row, -, -, candidate, -, heq⟩ :=
        recordConfirmation_cases l input uuid now
      · rw [PaymentCall.apply, heq]
        exact h
      · rw [PaymentCall.apply, heq]
        exact hinsert
      · rw [PaymentCall.apply, heq]
        exact hinsert.link fun _ => rfl
    | matchConfirmation input now =>
      obtain ⟨heq, -⟩ | ⟨row, -, -, -, heq⟩ := matchConfirmation_cases l input now
      · rw [PaymentCall.apply, heq]
        exact h
      · rw [PaymentCall.apply, heq]
        exact h.link fun _ => rfl
  · cases hs

theorem nonneg_of_run {calls : List PaymentCall} {l : PaymentLedger}
    (h : run step Table.empty calls = some l) : Nonneg l :=
  run_invariant (I := Nonneg) (fun _ _ _ h hs => h.step hs) (fun _ hr => absurd hr List.not_mem_nil) h

/-! ## Totals -/

/-- An object without a field for the method has no row to sum up. -/
theorem todayTotal_eq_sum (l : PaymentLedger) (now : ℕ) (method : PaymentMethod) :
    l.todayTotal now method = ((l.rows.filter (SettledToday now method)).map (·.amountMinor)).sum := by
  simp only [todayTotal, ledgerSummary]
  split
  · next hnil => rw [hnil]; rfl
  · rfl

theorem sum_filter_eq_add {ρ : Type*} (rows : List ρ) (p q : ρ → Prop) [DecidablePred p]
    [DecidablePred q] (value : ρ → ℤ) :
    ((rows.filter fun r => p r).map value).sum =
      ((rows.filter fun r => p r ∧ q r).map value).sum +
        ((rows.filter fun r => p r ∧ ¬ q r).map value).sum := by
  induction rows with
  | nil => rfl
  | cons r rows ih =>
    by_cases hp : p r
    · by_cases hq : q r
      · simp [hp, hq] at ih ⊢
        omega
      · simp [hp, hq] at ih ⊢
        omega
    · simpa [hp] using ih

theorem sum_eq_zero_iff_of_nonneg {values : List ℤ} (h : ∀ v ∈ values, 0 ≤ v) :
    values.sum = 0 ↔ ∀ v ∈ values, v = 0 :=
  ⟨fun hsum _ hv => List.all_zero_of_le_zero_le_of_sum_eq_zero h hsum hv, List.sum_eq_zero⟩

/-- In every ledger that can be reached, on every day and for every method: the total is what
has landed and was reconciled, if and only if each matched row of that day and method
that is not a confirmation is worth nothing. -/
theorem todayTotal_iff {calls : List PaymentCall} {l : PaymentLedger}
    (h : run step Table.empty calls = some l) (now : ℕ) (method : PaymentMethod) :
    l.todayTotal now method = l.landedToday now method ↔
      ∀ r ∈ l.rows, r.kind ≠ .confirmation → SettledToday now method r → r.amountMinor = 0 := by
  have hsplit := sum_filter_eq_add l.rows (SettledToday now method) (·.kind = .confirmation)
    (·.amountMinor)
  have hnonneg : ∀ v ∈ (l.rows.filter fun r => SettledToday now method r ∧
      ¬ r.kind = .confirmation).map (·.amountMinor), 0 ≤ v := by
    intro v hv
    obtain ⟨r, hr, rfl⟩ := List.mem_map.mp hv
    exact nonneg_of_run h r (List.mem_of_mem_filter hr)
  rw [todayTotal_eq_sum, landedToday, hsplit, add_eq_left, sum_eq_zero_iff_of_nonneg hnonneg]
  simp only [List.mem_map, List.mem_filter, decide_eq_true_eq]
  constructor
  · exact fun hall r hr hkind hsettled => hall _ ⟨r, ⟨hr, hsettled, hkind⟩, rfl⟩
  · rintro hall v ⟨r, ⟨hr, hsettled, hkind⟩, rfl⟩
    exact hall r hr hkind hsettled

theorem todayTotal_iff_paidOnce :
    paidOnceLedger.todayTotal 2000 .mpesaTill = paidOnceLedger.landedToday 2000 .mpesaTill ↔
      ∀ r ∈ paidOnceLedger.rows, r.kind ≠ .confirmation → SettledToday 2000 .mpesaTill r →
        r.amountMinor = 0 :=
  todayTotal_iff run_paidOnce 2000 .mpesaTill

/-- One payment of 1500 shillings is reported as 3000. -/
theorem not_todayTotal :
    ¬ ∀ calls l now method, run step Table.empty calls = some l →
      l.todayTotal now method = l.landedToday now method := by
  intro h
  have htwice : paidOnceLedger.todayTotal 2000 .mpesaTill = 300000 ∧
      paidOnceLedger.landedToday 2000 .mpesaTill = 150000 := by
    decide +kernel
  have heq := h paidOnce paidOnceLedger 2000 .mpesaTill run_paidOnce
  rw [htwice.1, htwice.2] at heq
  cases heq

end Hotelia.Payments
