import Hotelia.Payments.Matching

/-!
# What the ledger answers

Each of the three operations ends by showing a row. `recordIntent` reads it last;
`recordConfirmation` corrects what it read before its updates by hand, and
`matchConfirmation` shows what it read.

## Main results

- `returnsStored_iff`: when the row that is shown is the row that is stored.
-/

namespace Hotelia.Payments
open Foundation LedgerRow PaymentLedger

namespace PaymentCall

/-- What the call returns. -/
def returned (l : PaymentLedger) : PaymentCall → Option PaymentLedgerRow
  | .recordIntent input uuid now => (l.recordIntent input uuid now).1
  | .recordConfirmation input uuid now => (l.recordConfirmation input uuid now).1
  | .matchConfirmation input now =>
    (l.matchConfirmation input.confirmationId input.intentId input.operatorId now).1

end PaymentCall

/-- The row is what the ledger holds under its id. -/
def Stored (l : PaymentLedger) (shown : PaymentLedgerRow) : Prop :=
  (l.selectById shown.id).map rowToPayment = some shown

/-- What the call returns, if anything, is what the ledger holds after it. -/
def ReturnsStored (l : PaymentLedger) (call : PaymentCall) : Prop :=
  ∀ shown, call.returned l = some shown → Stored (call.apply l) shown

/-- The row is matched to the intent already, at this instant and by this operator. -/
def LinkedAlready (row : LedgerRow) (input : PaymentMatchInput) (now : ℕ) : Prop :=
  row.status = .matched ∧ row.matchedAt = some now ∧
    textOrNone row.matchedIntentId = textOrNone (some input.intentId) ∧
    (input.operatorId = none ∨ textOrNone row.operatorId = textOrNone input.operatorId)

/-- The calls that show what they store. A confirmation must not be matched anew, unless the
only intent is the row under its own key or the insert is refused and no row is under the key;
a match by hand must find its link written. -/
def ShowsStored (l : PaymentLedger) : PaymentCall → Prop
  | .recordIntent _ _ _ => True
  | .recordConfirmation input uuid now =>
    ∀ i, l.rows.filter (Candidate input.method (toMinor input.amount)) = [i] →
      i.idempotencyKey = input.idempotencyKey ∨
        ((∀ r ∈ l.rows, r.idempotencyKey ≠ input.idempotencyKey) ∧
          ∃ r ∈ l.rows, Clash r (confirmationRow input uuid now))
  | .matchConfirmation input now =>
    ∀ row ∈ l.rows, row.id = input.confirmationId → row.kind = .confirmation →
      LinkedAlready row input now

section Returned

variable {l : PaymentLedger} {row : LedgerRow} {now : ℕ}

theorem stored_iff {shown : PaymentLedgerRow} (hrow : row ∈ l.rows) (hid : row.id = shown.id) :
    Stored l shown ↔ rowToPayment row = shown := by
  rw [Stored, selectById_eq_some.mpr ⟨hrow, hid⟩, Option.map_some, Option.some.injEq]

/-- A row that is in the ledger is shown as it is stored. -/
theorem stored_rowToPayment (hrow : row ∈ l.rows) : Stored l (rowToPayment row) :=
  (stored_iff hrow rfl).mpr rfl

theorem textOrNone_some_inj {x y : String} :
    textOrNone (some x) = textOrNone (some y) ↔ x = y := by
  refine ⟨fun h => ?_, fun h => h ▸ rfl⟩
  by_cases hx : x = ""
  · by_cases hy : y = ""
    · rw [hx, hy]
    · simp [textOrNone, Option.filter, hx, hy] at h
  · by_cases hy : y = ""
    · simp [textOrNone, Option.filter, hx, hy] at h
    · simpa [textOrNone, Option.filter, hx, hy] using h

/-- The two ends of a link are told apart. -/
theorem rowToPayment_linked_inj {x y : String} :
    rowToPayment (row.linked now x) = rowToPayment (row.linked now y) ↔ x = y := by
  refine ⟨fun h => ?_, fun h => h ▸ rfl⟩
  have hpartner := congrArg PaymentLedgerRow.matchedIntentId h
  exact textOrNone_some_inj.mp hpartner

/-- `COALESCE` is not seen exactly if it has nothing to write, or nothing new. -/
theorem textOrNone_orElse_iff {given column : Option String} :
    textOrNone (given <|> column) = textOrNone column ↔
      given = none ∨ textOrNone column = textOrNone given := by
  cases given with
  | none => exact iff_of_true rfl (.inl rfl)
  | some operator =>
    refine ⟨fun h => .inr h.symm, fun h => ?_⟩
    obtain hnone | hsame := h
    · cases hnone
    · exact hsame.symm

/-- A link by hand is not seen in a row that it rewrites as it was. -/
theorem rowToPayment_linkedBy_iff {input : PaymentMatchInput} :
    rowToPayment (row.linkedBy now input.intentId input.operatorId) = rowToPayment row ↔
      LinkedAlready row input now := by
  constructor
  · intro h
    have hstatus := congrArg PaymentLedgerRow.status h
    have hat := congrArg PaymentLedgerRow.matchedAt h
    have hpartner := congrArg PaymentLedgerRow.matchedIntentId h
    have hoperator := congrArg PaymentLedgerRow.operatorId h
    exact ⟨hstatus.symm, hat.symm, hpartner.symm, textOrNone_orElse_iff.mp hoperator⟩
  · rintro ⟨hstatus, hat, hpartner, hoperator⟩
    simp only [rowToPayment, linkedBy, linked, hstatus, hat, hpartner,
      textOrNone_orElse_iff.mpr hoperator]

/-- The intent is read after the insert. -/
theorem returnsStored_recordIntent (input : PaymentRecordInput) (uuid : String) :
    ReturnsStored l (.recordIntent input uuid now) := by
  intro shown hshown
  obtain ⟨r, hselect, rfl⟩ := Option.map_eq_some_iff.mp hshown
  exact stored_rowToPayment (selectByKey_eq_some.mp hselect).1

/-- A row that was refused its insert is in the ledger, and then no key is missing. -/
theorem not_refused_of_mem {input : PaymentConfirmationInput} {uuid : String}
    (hrow : row ∈ (l.insertOrIgnore (confirmationRow input uuid now)).rows)
    (hkey : row.idempotencyKey = input.idempotencyKey) :
    ¬ ((∀ r ∈ l.rows, r.idempotencyKey ≠ input.idempotencyKey) ∧
      ∃ r ∈ l.rows, Clash r (confirmationRow input uuid now)) := by
  rintro ⟨hnone, hclash⟩
  rw [l.insertOrIgnore_of_clash _ hclash] at hrow
  exact hnone row hrow hkey

/-- The row is shown as its own partner, which it is not, unless it is the candidate. -/
theorem stored_link_iff {i : LedgerRow} (hrow : row ∈ l.rows) (hi : i ∈ l.rows) :
    Stored (link l row.id i.id now (linked now i.id) (keepsKeys_linked now i.id))
        (rowToPayment (row.linked now row.id)) ↔ i = row := by
  constructor
  · intro hstored
    by_contra hne
    have hid : i.id ≠ row.id := fun h => hne (eq_of_id_eq l hi hrow h)
    have hsource : linked now i.id row ∈
        (link l row.id i.id now (linked now i.id) (keepsKeys_linked now i.id)).rows :=
      source_mem_link hrow hid
    exact hid (rowToPayment_linked_inj.mp ((stored_iff hsource rfl).mp hstored))
  · rintro rfl
    have hself : linked now i.id (linked now i.id i) ∈
        (link l i.id i.id now (linked now i.id) (keepsKeys_linked now i.id)).rows :=
      mem_link_iff.mpr ⟨i, hrow, by rw [if_pos rfl, if_pos rfl]⟩
    exact (stored_iff hself rfl).mpr rfl

theorem returnsStored_recordConfirmation_iff (input : PaymentConfirmationInput) (uuid : String) :
    ReturnsStored l (.recordConfirmation input uuid now) ↔
      ShowsStored l (.recordConfirmation input uuid now) := by
  obtain ⟨heq, hrefused⟩ | ⟨row, hrow, -, hlen, heq⟩ | ⟨row, hrow, hkey, i, hone, heq⟩ :=
    recordConfirmation_cases l input uuid now
  · refine iff_of_true (fun shown hshown => ?_) fun _ _ => .inr hrefused
    rw [PaymentCall.returned, heq] at hshown
    cases hshown
  · refine iff_of_true (fun shown hshown => ?_) fun i hi => ?_
    · rw [PaymentCall.returned, heq] at hshown
      cases hshown
      rw [PaymentCall.apply, heq]
      exact stored_rowToPayment hrow
    · rw [findIntent_eq_singleton_iff.mpr hi] at hlen
      exact absurd rfl hlen
  · have hi := findIntent_eq_singleton_iff.mp hone
    have hmem := l.mem_insertOrIgnore_of_mem (confirmationRow input uuid now)
      (candidate_of_filter hi).1
    have hreturns : ReturnsStored l (.recordConfirmation input uuid now) ↔ i = row := by
      rw [ReturnsStored, PaymentCall.returned, PaymentCall.apply, heq]
      refine Iff.trans ⟨fun h => h _ rfl, ?_⟩ (stored_link_iff hrow hmem)
      rintro hstored shown ⟨⟩
      exact hstored
    rw [hreturns]
    constructor
    · rintro rfl j hj
      rw [hi] at hj
      cases hj
      exact .inl hkey
    · intro hshows
      obtain hsame | hrefused := hshows i hi
      · exact eq_of_key_eq _ hmem hrow (hsame.trans hkey.symm)
      · exact absurd hrefused (not_refused_of_mem hrow hkey)

/-- The confirmation after it was matched by hand, be it to itself. -/
theorem linkedBy_mem_link (hrow : row ∈ l.rows) (y : String) (operatorId : Option String) :
    row.linkedBy now y operatorId ∈ (link l row.id y now (linkedBy now y operatorId)
      (keepsKeys_linkedBy now y operatorId)).rows := by
  by_cases hy : row.id = y
  · refine mem_link_iff.mpr ⟨row, hrow, ?_⟩
    rw [if_pos hy, if_pos rfl, hy]
    rfl
  · exact source_mem_link hrow (Ne.symm hy)

theorem returnsStored_matchConfirmation_iff (input : PaymentMatchInput) :
    ReturnsStored l (.matchConfirmation input now) ↔
      ShowsStored l (.matchConfirmation input now) := by
  obtain ⟨heq, hnone⟩ | ⟨row, hrow, hid, hkind, heq⟩ := matchConfirmation_cases l input now
  · refine iff_of_true (fun shown hshown => ?_) fun row hrow hid hkind =>
      absurd hkind (hnone row hrow hid)
    rw [PaymentCall.returned, heq] at hshown
    cases hshown
  · have hstored : ReturnsStored l (.matchConfirmation input now) ↔
        rowToPayment (row.linkedBy now input.intentId input.operatorId) = rowToPayment row := by
      rw [ReturnsStored, PaymentCall.returned, PaymentCall.apply, heq]
      refine Iff.trans ⟨fun h => h _ rfl, ?_⟩ (stored_iff (linkedBy_mem_link hrow _ _) rfl)
      rintro hrest shown ⟨⟩
      exact hrest
    rw [hstored, rowToPayment_linkedBy_iff]
    constructor
    · intro h r hr hrid _
      rwa [eq_of_id_eq l hr hrow (hrid.trans hid.symm)]
    · intro h
      exact h row hrow hid hkind

end Returned

/-- The row that a call returns is what the ledger holds under its id after the call, if and
only if the call writes no link that it does not show. -/
theorem returnsStored_iff (l : PaymentLedger) (call : PaymentCall) :
    ReturnsStored l call ↔ ShowsStored l call := by
  cases call with
  | recordIntent input uuid now =>
    exact iff_of_true (returnsStored_recordIntent input uuid) trivial
  | recordConfirmation input uuid now => exact returnsStored_recordConfirmation_iff input uuid
  | matchConfirmation input now => exact returnsStored_matchConfirmation_iff input

/-- The confirmation that settles the intent of room 204 is shown as its own partner. -/
theorem not_returnsStored :
    ¬ ∀ calls l call, run step Table.empty calls = some l → call.valid = true →
      ReturnsStored l call := by
  intro h
  have hsome : (run step Table.empty [intent1500 "204" "intent-0001" "a1"]).isSome = true := by
    decide +kernel
  obtain ⟨l, hl⟩ := Option.isSome_iff_exists.mp hsome
  have hfacts : ∀ l ∈ run step Table.empty [intent1500 "204" "intent-0001" "a1"],
      ((PaymentCall.returned l (.recordConfirmation landed204 "b1" 1000)).map fun shown =>
        (shown.id, shown.matchedIntentId)) = some ("b1", some "b1") ∧
      ((PaymentCall.apply l (.recordConfirmation landed204 "b1" 1000)).selectById "b1").map
        (fun r => (rowToPayment r).matchedIntentId) = some (some "a1") := by
    decide +kernel
  obtain ⟨hreturned, hheld⟩ := hfacts l hl
  obtain ⟨shown, hshown, hpair⟩ := Option.map_eq_some_iff.mp hreturned
  obtain ⟨hid, hpartner⟩ := Prod.mk.inj hpair
  have hstored := h _ l (.recordConfirmation landed204 "b1" 1000) hl (by decide +kernel) shown hshown
  rw [Stored, hid] at hstored
  obtain ⟨r, hr, rfl⟩ := Option.map_eq_some_iff.mp hstored
  rw [hr, Option.map_some, hpartner] at hheld
  exact absurd hheld (by decide)

end Hotelia.Payments
