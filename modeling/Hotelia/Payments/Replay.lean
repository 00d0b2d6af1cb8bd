import Hotelia.Payments.Pairing

/-!
# A confirmation that is recorded again

The insert of a replayed confirmation is ignored, but the search for an intent is
not part of the insert: it runs against the intents that are pending by then.

## Main results

- `replay_harmless_iff`: when a replay leaves the ledger as it is.
-/

namespace Hotelia.Payments
open Foundation LedgerRow PaymentLedger

section Replay

variable {l l' : PaymentLedger}

/-- There is a row under the key. -/
def Known (l : PaymentLedger) (key : String) : Prop := ∃ r ∈ l.rows, r.idempotencyKey = key

theorem Known.insertOrIgnore {key : String} (h : Known l key) (r : LedgerRow) :
    Known (l.insertOrIgnore r) key := by
  obtain ⟨x, hx, hkey⟩ := h
  exact ⟨x, l.mem_insertOrIgnore_of_mem r hx, hkey⟩

theorem Known.setById {key : String} (h : Known l key) (id : String) (f : LedgerRow → LedgerRow)
    (hf : KeepsKeys f) : Known (l.setById id f hf) key := by
  obtain ⟨x, hx, hkey⟩ := h
  refine ⟨_, setById_rows l id f hf ▸ List.mem_map_of_mem hx, ?_⟩
  split
  · rw [(hf x).2.1, hkey]
  · exact hkey

theorem Known.link {key : String} (h : Known l key) {x y : String} {now : ℕ}
    {f : LedgerRow → LedgerRow} {hf : KeepsKeys f} : Known (link l x y now f hf) key :=
  (h.setById x f hf).setById y (linked now x) (keepsKeys_linked now x)

theorem Known.recordConfirmation {key : String} (h : Known l key)
    (input : PaymentConfirmationInput) (uuid : String) (now : ℕ) :
    Known (l.recordConfirmation input uuid now).2 key := by
  obtain ⟨heq, -⟩ | ⟨row, -, -, -, heq⟩ | ⟨row, -, -, candidate, -, heq⟩ :=
    recordConfirmation_cases l input uuid now
  · rwa [heq]
  · rw [heq]
    exact h.insertOrIgnore _
  · rw [heq]
    exact (h.insertOrIgnore _).link

/-- No call forgets a key. -/
theorem Known.step {key : String} (h : Known l key) {call : PaymentCall}
    (hs : step l call = some l') : Known l' key := by
  have happly : l' = call.apply l := by
    rw [Payments.step] at hs
    split at hs
    · exact (Option.some.inj hs).symm
    · cases hs
  rw [happly]
  cases call with
  | recordIntent input uuid now => exact h.insertOrIgnore _
  | recordConfirmation input uuid now => exact h.recordConfirmation input uuid now
  | matchConfirmation input now =>
    obtain ⟨heq, -⟩ | ⟨row, -, -, -, heq⟩ := matchConfirmation_cases l input now
    · rwa [PaymentCall.apply, heq]
    · rw [PaymentCall.apply, heq]
      exact h.link

/-- A call that returns a row has found one under its key. -/
theorem known_of_recorded {input : PaymentConfirmationInput} {uuid : String} {now : ℕ}
    (hok : (l.recordConfirmation input uuid now).1.isSome = true) :
    Known (l.recordConfirmation input uuid now).2 input.idempotencyKey := by
  obtain ⟨heq, -⟩ | ⟨row, hrow, hkey, -, heq⟩ | ⟨row, hrow, hkey, candidate, -, heq⟩ :=
    recordConfirmation_cases l input uuid now
  · rw [heq] at hok
    cases hok
  · rw [heq]
    exact ⟨row, hrow, hkey⟩
  · have hknown : Known (l.insertOrIgnore (confirmationRow input uuid now)) input.idempotencyKey :=
      ⟨row, hrow, hkey⟩
    rw [heq]
    exact hknown.link

/-- Two candidates are as good as many. -/
theorem length_findIntent_eq_one_iff {method : PaymentMethod} {amountMinor : ℤ} :
    (l.findIntent method amountMinor).length = 1 ↔
      l.rows.countP (Candidate method amountMinor) = 1 := by
  rw [findIntent, List.length_take, List.length_insertionSort, ← List.countP_eq_length_filter]
  omega

/-- A match takes a pending intent, so it is seen in the ledger. -/
theorem link_ne_of_pending {a : LedgerRow} (ha : a ∈ l.rows) (hpending : a.status = .pending)
    {x : String} {now : ℕ} {f : LedgerRow → LedgerRow} {hf : KeepsKeys f} :
    (link l x a.id now f hf).rows ≠ l.rows := by
  intro heq
  rw [← heq] at ha
  obtain ⟨r, -, hr⟩ := mem_link_iff.mp ha
  have hid : r.id = a.id := by
    rw [hr]
    split <;> split <;> first | rfl | exact (hf r).1.symm
  rw [if_pos hid] at hr
  rw [hr] at hpending
  cases hpending

/-- A replay leaves the ledger as it is unless there is exactly one intent to match. -/
theorem recordConfirmation_eq_iff {input : PaymentConfirmationInput}
    (h : Known l input.idempotencyKey) (uuid : String) (now : ℕ) :
    (l.recordConfirmation input uuid now).2.rows = l.rows ↔
      l.rows.countP (Candidate input.method (toMinor input.amount)) ≠ 1 := by
  obtain ⟨r, hr, hkey⟩ := h
  have hignored : l.insertOrIgnore (confirmationRow input uuid now) = l :=
    l.insertOrIgnore_of_clash _ ⟨r, hr, .inr (.inl hkey)⟩
  rw [ne_eq, ← length_findIntent_eq_one_iff]
  obtain ⟨-, hnone, -⟩ | ⟨row, -, -, hlen, heq⟩ | ⟨row, -, -, candidate, hone, heq⟩ :=
    recordConfirmation_cases l input uuid now
  · exact absurd hkey (hnone r hr)
  · rw [heq, hignored]
    exact iff_of_true rfl hlen
  · rw [heq, hignored]
    obtain ⟨hmem, -, hpending, -⟩ := mem_findIntent (hone ▸ List.mem_singleton_self candidate)
    refine iff_of_false (link_ne_of_pending hmem hpending) (not_not_intro ?_)
    rw [hone, List.length_singleton]

end Replay

/-- Whatever the ledger was like when the confirmation was recorded, and whatever calls
have come since: to record it again changes no row, if and only if the number of pending
intents of its method and amount is not one. -/
theorem replay_harmless_iff {later : List PaymentCall} {l₀ l₁ l : PaymentLedger}
    {input : PaymentConfirmationInput} {uuid : String} {now : ℕ}
    (hfirst : step l₀ (.recordConfirmation input uuid now) = some l₁)
    (hok : (l₀.recordConfirmation input uuid now).1.isSome = true)
    (hlater : run step l₁ later = some l) (uuid' : String) (now' : ℕ) :
    (l.recordConfirmation input uuid' now').2.rows = l.rows ↔
      l.rows.countP (Candidate input.method (toMinor input.amount)) ≠ 1 := by
  have hknown : Known l₁ input.idempotencyKey := by
    rw [step] at hfirst
    split at hfirst
    · cases hfirst
      exact known_of_recorded hok
    · cases hfirst
  have hl : Known l input.idempotencyKey :=
    run_invariant (I := fun l => Known l input.idempotencyKey) (fun _ _ _ h hs => h.step hs)
      hknown hlater
  exact recordConfirmation_eq_iff hl uuid' now'

/-- 1500 shillings land for room 204, whose intent they are matched to. -/
def landed204 : PaymentConfirmationInput :=
  ⟨"QJK7XYZ12", 1500, "KES", .mpesaTill, none, none, "receipt-0001"⟩

/-- The intent of `room`, for 1500 shillings. -/
def intent1500 (room key uuid : String) : PaymentCall :=
  .recordIntent ⟨.mpesaTill, 1500, "KES", "Achieng", room, none, none, none, key, none⟩ uuid 0

theorem replay_harmless_iff_paidOnce :
    ∃ l₀ l₁, run step Table.empty [intent1500 "204" "intent-0001" "a1"] = some l₀ ∧
      step l₀ (.recordConfirmation landed204 "b1" 1000) = some l₁ ∧
      ((l₁.recordConfirmation landed204 "b2" 2000).2.rows = l₁.rows ↔
        l₁.rows.countP (Candidate .mpesaTill (toMinor 1500)) ≠ 1) := by
  have hfirst : (run step Table.empty [intent1500 "204" "intent-0001" "a1"]).isSome = true := by
    decide +kernel
  obtain ⟨l₀, hl₀⟩ := Option.isSome_iff_exists.mp hfirst
  have hsecond : ∀ l₀ ∈ run step Table.empty [intent1500 "204" "intent-0001" "a1"],
      (step l₀ (.recordConfirmation landed204 "b1" 1000)).isSome = true ∧
      (l₀.recordConfirmation landed204 "b1" 1000).1.isSome = true := by
    decide +kernel
  obtain ⟨hstep, hok⟩ := hsecond l₀ hl₀
  obtain ⟨l₁, hl₁⟩ := Option.isSome_iff_exists.mp hstep
  exact ⟨l₀, l₁, hl₀, hl₁,
    replay_harmless_iff hl₁ hok (show run step l₁ [] = some l₁ from rfl) "b2" 2000⟩

/-- A guest of room 305 is to pay as much as the guest of room 204 has paid. The replay of
that payment settles the new intent. -/
theorem not_replay_harmless :
    ¬ ∀ calls later l₀ l₁ l input uuid now uuid' now', run step Table.empty calls = some l₀ →
      step l₀ (.recordConfirmation input uuid now) = some l₁ →
      (l₀.recordConfirmation input uuid now).1.isSome = true → run step l₁ later = some l →
      (l.recordConfirmation input uuid' now').2.rows = l.rows := by
  intro h
  have hbroken : ∃ l₀ l₁ l, run step Table.empty [intent1500 "204" "intent-0001" "a1"] = some l₀ ∧
      step l₀ (.recordConfirmation landed204 "b1" 1000) = some l₁ ∧
      (l₀.recordConfirmation landed204 "b1" 1000).1.isSome = true ∧
      run step l₁ [intent1500 "305" "intent-0002" "a2"] = some l ∧
      (l.recordConfirmation landed204 "b2" 2000).2.rows ≠ l.rows := by
    have hsome : (run step Table.empty [intent1500 "204" "intent-0001" "a1"]).isSome = true := by
      decide +kernel
    obtain ⟨l₀, hl₀⟩ := Option.isSome_iff_exists.mp hsome
    have hrest : ∀ l₀ ∈ run step Table.empty [intent1500 "204" "intent-0001" "a1"],
        (l₀.recordConfirmation landed204 "b1" 1000).1.isSome = true ∧
        ∃ l₁ ∈ step l₀ (.recordConfirmation landed204 "b1" 1000),
          ∃ l ∈ run step l₁ [intent1500 "305" "intent-0002" "a2"],
            (l.recordConfirmation landed204 "b2" 2000).2.rows ≠ l.rows := by
      decide +kernel
    obtain ⟨hok, l₁, hl₁, l, hl, hne⟩ := hrest l₀ hl₀
    exact ⟨l₀, l₁, l, hl₀, hl₁, hok, hl, hne⟩
  obtain ⟨l₀, l₁, l, hl₀, hl₁, hok, hl, hne⟩ := hbroken
  exact hne (h _ _ l₀ l₁ l landed204 "b1" 1000 "b2" 2000 hl₀ hl₁ hok hl)

end Hotelia.Payments
