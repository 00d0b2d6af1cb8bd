import Hotelia.Payments.Summary

/-!
# What the ledger keeps

The payment ledger as evidence, over every run of its calls: what was recorded stays as it was
recorded, what is matched stays so, and `ledgerSummary` counts each row once. What a row is matched
with is another matter: a later match may take it.

## Main definitions

- `LedgerCall` — a call of the payment channels, or `markEtims`
- `LedgerRow.recorded` — the columns of a row that no `UPDATE` sets
- `Count` — the numbers of rows in `ledgerSummary`

## Main results

- `ledger_keeps`: the past of a ledger is a prefix of its future, and each row is counted once.
-/

namespace Hotelia.Payments
open Foundation LedgerRow PaymentLedger

namespace LedgerRow

/-- The row without the columns that an `UPDATE` sets. -/
def recorded (r : LedgerRow) : LedgerRow :=
  { r with status := .pending, operatorId := none, etimsState := .notApplicable, matchedAt := none,
           matchedIntentId := none }

/-- The statuses of an expected payment, and of one that has landed. -/
def Lawful (r : LedgerRow) : Prop :=
  (r.kind = .intent ∧ (r.status = .pending ∨ r.status = .matched)) ∨
    (r.kind = .confirmation ∧ (r.status = .unmatched ∨ r.status = .matched))

/-- What an `UPDATE` may do to a row. -/
structure Later (r r' : LedgerRow) : Prop where
  recorded : r'.recorded = r.recorded
  matched : r.status = .matched → r'.status = .matched
  lawful : r.Lawful → r'.Lawful
  operatorId : r.kind = .intent → r'.operatorId = r.operatorId

theorem Later.refl (r : LedgerRow) : Later r r := ⟨rfl, fun h => h, fun h => h, fun _ => rfl⟩

theorem Later.kind_eq {r r' : LedgerRow} (h : Later r r') : r'.kind = r.kind :=
  show r'.recorded.kind = r.recorded.kind from congrArg LedgerRow.kind h.recorded

theorem Later.id_eq {r r' : LedgerRow} (h : Later r r') : r'.id = r.id :=
  show r'.recorded.id = r.recorded.id from congrArg LedgerRow.id h.recorded

theorem Later.trans (a b c : LedgerRow) (h : Later a b) (h' : Later b c) : Later a c :=
  ⟨h'.recorded.trans h.recorded, h'.matched ∘ h.matched, h'.lawful ∘ h.lawful,
    fun hkind => (h'.operatorId (h.kind_eq.trans hkind)).trans (h.operatorId hkind)⟩

/-- A match does not ask whether the row was matched before. -/
theorem later_linked (now : ℕ) (partner : String) (r : LedgerRow) :
    Later r (r.linked now partner) := by
  refine ⟨rfl, fun _ => rfl, fun h => ?_, fun _ => rfl⟩
  rcases h with ⟨hkind, -⟩ | ⟨hkind, -⟩
  · exact .inl ⟨hkind, .inr rfl⟩
  · exact .inr ⟨hkind, .inr rfl⟩

theorem later_linkedBy (now : ℕ) (partner : String) (operatorId : Option String) {r : LedgerRow}
    (h : r.kind = .confirmation) : Later r (r.linkedBy now partner operatorId) :=
  ⟨rfl, fun _ => rfl, (later_linked now partner r).lawful,
    fun hkind => PaymentKind.noConfusion (hkind.symm.trans h)⟩

/-- `SET etims_state=?`. -/
def withEtims (state : EtimsState) (r : LedgerRow) : LedgerRow := { r with etimsState := state }

theorem keepsKeys_withEtims (state : EtimsState) : KeepsKeys (withEtims state) :=
  fun _ => ⟨rfl, rfl, rfl, rfl⟩

theorem later_withEtims (state : EtimsState) (r : LedgerRow) : Later r (r.withEtims state) :=
  ⟨rfl, fun h => h, fun h => h, fun _ => rfl⟩

end LedgerRow

namespace PaymentLedger

/-- `markEtims(id, state)`. -/
def markEtims (l : PaymentLedger) (id : String) (state : EtimsState) : PaymentLedger :=
  l.setById id (withEtims state) (keepsKeys_withEtims state)

end PaymentLedger

inductive LedgerCall where
  | payment (call : PaymentCall)
  | markEtims (row : String) (state : EtimsState)

def LedgerCall.step (l : PaymentLedger) : LedgerCall → Option PaymentLedger
  | .payment call => Payments.step l call
  | .markEtims row state => some (l.markEtims row state)

/-- The row that `recordIntent` inserts. -/
def intentRow (input : PaymentRecordInput) (id : String) (now : ℕ) : LedgerRow where
  id := id
  kind := .intent
  status := .pending
  method := input.method
  amountMinor := toMinor input.amount
  currency := input.currency
  reference := input.reference
  receipt := none
  phoneTail := none
  guestName := input.guestName
  roomNumber := input.roomNumber
  folioId := input.folioId
  reservationId := input.reservationId
  operatorId := input.operatorId
  etimsState := .notApplicable
  idempotencyKey := input.idempotencyKey
  recordedAt := now
  matchedAt := none
  matchedIntentId := none

/-- The row that a call inserts, if it is not ignored. -/
def LedgerCall.newRow : LedgerCall → Option LedgerRow
  | .payment (.recordIntent input uuid now) => some (intentRow input uuid now)
  | .payment (.recordConfirmation input uuid now) => some (confirmationRow input uuid now)
  | _ => none

/-! ## One call -/

section Calls

variable {l l' : PaymentLedger}

theorem grows_setById (l : PaymentLedger) (id : String) {f : LedgerRow → LedgerRow} (hf : KeepsKeys f)
    (hlater : ∀ r ∈ l.rows, r.id = id → Later r (f r)) :
    Table.Grows Later l (l.setById id f hf) := by
  refine Table.grows_update l _ fun r hr => ?_
  split
  · next hid => exact hlater r hr hid
  · exact .refl r

theorem grows_link (l : PaymentLedger) (x y : String) (now : ℕ) {f : LedgerRow → LedgerRow}
    (hf : KeepsKeys f) (hlater : ∀ r ∈ l.rows, r.id = x → Later r (f r)) :
    Table.Grows Later l (link l x y now f hf) :=
  (grows_setById l x hf hlater).trans Later.trans (grows_setById _ y
    (keepsKeys_linked now x) fun r _ _ => later_linked now x r)

/-- The row that a manual match is about is a confirmation. -/
theorem later_of_match {row : LedgerRow} (hrow : row ∈ l.rows) (hkind : row.kind = .confirmation)
    (now : ℕ) (partner : String) (operatorId : Option String) :
    ∀ r ∈ l.rows, r.id = row.id → Later r (r.linkedBy now partner operatorId) := by
  intro r hr hid
  rw [eq_of_id_eq l hr hrow hid]
  exact later_linkedBy now partner operatorId hkind

theorem grows_insert (l : PaymentLedger) (r : LedgerRow) :
    Table.Grows Later l (l.insertOrIgnore r) :=
  Table.grows_insertOrIgnore Later.refl l r

theorem grows_apply (l : PaymentLedger) (call : PaymentCall) :
    Table.Grows Later l (call.apply l) := by
  cases call with
  | recordIntent input uuid now => exact grows_insert l _
  | recordConfirmation input uuid now =>
    obtain ⟨heq, -⟩ | ⟨row, -, -, -, heq⟩ | ⟨row, -, -, candidate, -, heq⟩ :=
      recordConfirmation_cases l input uuid now
    · rw [PaymentCall.apply, heq]
      exact .refl Later.refl l
    · rw [PaymentCall.apply, heq]
      exact grows_insert l _
    · rw [PaymentCall.apply, heq]
      exact (grows_insert l _).trans Later.trans
        (grows_link _ _ _ now _ fun r _ _ => later_linked now _ r)
  | matchConfirmation input now =>
    obtain ⟨heq, -⟩ | ⟨row, hrow, -, hkind, heq⟩ := matchConfirmation_cases l input now
    · rw [PaymentCall.apply, heq]
      exact .refl Later.refl l
    · rw [PaymentCall.apply, heq]
      exact grows_link l _ _ now _ (later_of_match hrow hkind now _ _)

theorem apply_of_step {call : PaymentCall} (h : step l call = some l') : l' = call.apply l := by
  rw [step] at h
  split at h
  · exact (Option.some.inj h).symm
  · cases h

theorem grows_step {call : LedgerCall} (h : call.step l = some l') : Table.Grows Later l l' := by
  cases call with
  | payment call => exact apply_of_step h ▸ grows_apply l call
  | markEtims row state =>
    obtain rfl := Option.some.inj h
    exact grows_setById l row _ fun r _ _ => later_withEtims state r

/-! ## Where the rows come from -/

theorem mem_setById_later {id : String} {f : LedgerRow → LedgerRow} (hf : KeepsKeys f)
    (hlater : ∀ r ∈ l.rows, r.id = id → Later r (f r)) {r' : LedgerRow}
    (hr' : r' ∈ (l.setById id f hf).rows) : ∃ r ∈ l.rows, Later r r' := by
  rw [setById_rows] at hr'
  obtain ⟨r, hr, rfl⟩ := List.mem_map.mp hr'
  refine ⟨r, hr, ?_⟩
  split
  · next hid => exact hlater r hr hid
  · exact .refl r

theorem mem_link_later {x y : String} {now : ℕ} {f : LedgerRow → LedgerRow} {hf : KeepsKeys f}
    (hlater : ∀ r ∈ l.rows, r.id = x → Later r (f r)) {r' : LedgerRow}
    (hr' : r' ∈ (link l x y now f hf).rows) : ∃ r ∈ l.rows, Later r r' := by
  obtain ⟨s, hs, hnext⟩ := mem_setById_later (keepsKeys_linked now x)
    (fun r _ _ => later_linked now x r) hr'
  obtain ⟨r, hr, hfirst⟩ := mem_setById_later hf hlater hs
  exact ⟨r, hr, hfirst.trans r s r' hnext⟩

/-- After a call, each row is what became of a row that was there or of the one that the call
inserts. -/
theorem rows_of_step {call : LedgerCall} (hs : call.step l = some l') {r' : LedgerRow}
    (hr' : r' ∈ l'.rows) : ∃ r, (r ∈ l.rows ∨ call.newRow = some r) ∧ Later r r' := by
  cases call with
  | markEtims row state =>
    obtain rfl := Option.some.inj hs
    obtain ⟨r, hr, hlater⟩ := mem_setById_later (keepsKeys_withEtims state)
      (fun r _ _ => later_withEtims state r) hr'
    exact ⟨r, .inl hr, hlater⟩
  | payment call =>
    rw [apply_of_step hs] at hr'
    cases call with
    | recordIntent input uuid now =>
      rcases l.mem_of_mem_insertOrIgnore (intentRow input uuid now) hr' with hold | rfl
      · exact ⟨r', .inl hold, .refl r'⟩
      · exact ⟨_, .inr rfl, .refl _⟩
    | recordConfirmation input uuid now =>
      have hinsert (r) (hr : r ∈ (l.insertOrIgnore (confirmationRow input uuid now)).rows) :
          r ∈ l.rows ∨ some (confirmationRow input uuid now) = some r :=
        (l.mem_of_mem_insertOrIgnore _ hr).imp_right fun h => congrArg some h.symm
      obtain ⟨heq, -⟩ | ⟨row, -, -, -, heq⟩ | ⟨row, -, -, candidate, -, heq⟩ :=
        recordConfirmation_cases l input uuid now
      · rw [PaymentCall.apply, heq] at hr'
        exact ⟨r', .inl hr', .refl r'⟩
      · rw [PaymentCall.apply, heq] at hr'
        exact ⟨r', hinsert r' hr', .refl r'⟩
      · rw [PaymentCall.apply, heq] at hr'
        obtain ⟨r, hr, hlater⟩ := mem_link_later (fun r _ _ => later_linked now _ r) hr'
        exact ⟨r, hinsert r hr, hlater⟩
    | matchConfirmation input now =>
      obtain ⟨heq, -⟩ | ⟨row, hrow, -, hkind, heq⟩ := matchConfirmation_cases l input now
      · rw [PaymentCall.apply, heq] at hr'
        exact ⟨r', .inl hr', .refl r'⟩
      · rw [PaymentCall.apply, heq] at hr'
        obtain ⟨r, hr, hlater⟩ := mem_link_later (later_of_match hrow hkind now _ _) hr'
        exact ⟨r, .inl hr, hlater⟩

/-- What is true of the rows that are inserted, and of what becomes of them, is true of all. -/
theorem forall_rows_of_run {P : LedgerRow → Prop} (hlater : ∀ r r', Later r r' → P r → P r')
    (hnew : ∀ l l' call r, LedgerCall.step l call = some l' → call.newRow = some r → P r)
    (hl : ∀ r ∈ l.rows, P r) {calls : List LedgerCall}
    (hr : run LedgerCall.step l calls = some l') : ∀ r ∈ l'.rows, P r := by
  refine run_invariant (I := fun l => ∀ r ∈ l.rows, P r) (fun l call l' hl hs r' hr' => ?_) hl hr
  obtain ⟨r, hold | hinserted, hbecomes⟩ := rows_of_step hs hr'
  · exact hlater r r' hbecomes (hl r hold)
  · exact hlater r r' hbecomes (hnew l l' call r hs hinserted)

/-! ## The statuses -/

theorem lawful_of_newRow {call : LedgerCall} {r : LedgerRow} (h : call.newRow = some r) :
    r.Lawful := by
  cases call with
  | markEtims row state => cases h
  | payment call =>
    cases call with
    | recordIntent input uuid now => exact Option.some.inj h ▸ .inl ⟨rfl, .inl rfl⟩
    | recordConfirmation input uuid now => exact Option.some.inj h ▸ .inr ⟨rfl, .inl rfl⟩
    | matchConfirmation input now => cases h

/-- The numbers of rows in `ledgerSummary`. -/
inductive Count where
  | pendingIntents | unmatchedConfirmations | matched | reversed
  deriving DecidableEq

/-- The rows that a number counts. -/
def Count.Has (r : LedgerRow) : Count → Prop
  | .pendingIntents => r.kind = .intent ∧ r.status = .pending
  | .unmatchedConfirmations => r.kind = .confirmation ∧ r.status = .unmatched
  | .matched => r.status = .matched
  | .reversed => r.status = .reversed

instance (r : LedgerRow) : DecidablePred (Count.Has r)
  | .pendingIntents => inferInstanceAs (Decidable (r.kind = .intent ∧ r.status = .pending))
  | .unmatchedConfirmations =>
    inferInstanceAs (Decidable (r.kind = .confirmation ∧ r.status = .unmatched))
  | .matched => inferInstanceAs (Decidable (r.status = .matched))
  | .reversed => inferInstanceAs (Decidable (r.status = .reversed))

/-- A number of `ledgerSummary`. -/
def MpesaLedgerSummary.number (s : MpesaLedgerSummary) : Count → ℕ
  | .pendingIntents => s.pendingIntents
  | .unmatchedConfirmations => s.unmatchedConfirmations
  | .matched => s.matched
  | .reversed => s.reversed

theorem number_ledgerSummary (l : PaymentLedger) (now : ℕ) (c : Count) :
    (l.ledgerSummary now).number c = l.rows.countP fun r => c.Has r := by
  cases c <;> rfl

/-- A row with a lawful status is counted once. -/
theorem existsUnique_count {r : LedgerRow} (h : r.Lawful) : ∃! c : Count, c.Has r := by
  have hone {c : Count} (hc : c.Has r) (hother : ∀ c', c' ≠ c → ¬ c'.Has r) :
      ∃! c : Count, c.Has r :=
    ⟨c, hc, fun c' hc' => by_contra fun hne => hother c' hne hc'⟩
  rcases h with ⟨hkind, hstatus | hstatus⟩ | ⟨hkind, hstatus | hstatus⟩
  · refine hone (c := .pendingIntents) ⟨hkind, hstatus⟩ fun c hne => ?_
    cases c <;> simp [Count.Has, hkind, hstatus] at hne ⊢
  · refine hone (c := .matched) hstatus fun c hne => ?_
    cases c <;> simp [Count.Has, hstatus] at hne ⊢
  · refine hone (c := .unmatchedConfirmations) ⟨hkind, hstatus⟩ fun c hne => ?_
    cases c <;> simp [Count.Has, hkind, hstatus] at hne ⊢
  · refine hone (c := .matched) hstatus fun c hne => ?_
    cases c <;> simp [Count.Has, hstatus] at hne ⊢

/-- The counts are disjoint, and leave out no row with a lawful status. -/
theorem countP_lawful {rows : List LedgerRow} (h : ∀ r ∈ rows, r.Lawful) :
    (rows.countP fun r => r.kind = .intent ∧ r.status = .pending) +
      (rows.countP fun r => r.kind = .confirmation ∧ r.status = .unmatched) +
        rows.countP (·.status = .matched) = rows.length := by
  induction rows with
  | nil => rfl
  | cons r rows ih =>
    obtain ⟨hr, hrest⟩ := List.forall_mem_cons.mp h
    rw [List.countP_cons, List.countP_cons, List.countP_cons, List.length_cons, ← ih hrest]
    have hone : (if decide (r.kind = .intent ∧ r.status = .pending) = true then 1 else 0) +
        (if decide (r.kind = .confirmation ∧ r.status = .unmatched) = true then 1 else 0) +
          (if decide (r.status = .matched) = true then 1 else 0) = 1 := by
      rcases hr with ⟨hkind, hstatus | hstatus⟩ | ⟨hkind, hstatus | hstatus⟩
      · simp [hkind, hstatus]
      · simp [hstatus]
      · simp [hkind, hstatus]
      · simp [hstatus]
    omega

theorem not_reversed_of_lawful {r : LedgerRow} (h : r.Lawful) : r.status ≠ .reversed := by
  rcases h with ⟨-, hstatus | hstatus⟩ | ⟨-, hstatus | hstatus⟩
  all_goals
    rw [hstatus]
    decide

end Calls

/-! ## Runs -/

/-- Whatever is recorded, matched and marked: what a ledger has recorded is the beginning of what
it has recorded later, to the column; a row that is matched stays matched; each row is counted by
one number of the summary, and no row is reversed. -/
theorem ledger_keeps {es fs : List LedgerCall} {l l' : PaymentLedger}
    (h : run LedgerCall.step Table.empty es = some l) (h' : run LedgerCall.step l fs = some l') :
    l.rows.map recorded <+: l'.rows.map recorded ∧
      (∀ r ∈ l.rows, r.status = .matched →
        ∃ r' ∈ l'.rows, r'.recorded = r.recorded ∧ r'.status = .matched) ∧
      (∀ r ∈ l'.rows, ∃! c : Count, c.Has r) ∧
      ∀ now, (∀ c, (l'.ledgerSummary now).number c = l'.rows.countP fun r => c.Has r) ∧
        (l'.ledgerSummary now).pendingIntents + (l'.ledgerSummary now).unmatchedConfirmations +
          (l'.ledgerSummary now).matched = l'.rows.length ∧ (l'.ledgerSummary now).reversed = 0 := by
  have hgrows : Table.Grows Later l l' :=
    run_rel (Table.Grows.refl Later.refl) (fun _ _ _ => Table.Grows.trans Later.trans)
      (fun _ _ _ => grows_step) h'
  have hlawful : ∀ r ∈ l'.rows, r.Lawful := by
    have hlater (r r' : LedgerRow) (hbecomes : Later r r') (hr : r.Lawful) : r'.Lawful :=
      hbecomes.lawful hr
    have hl : ∀ r ∈ l.rows, r.Lawful := forall_rows_of_run hlater
      (fun _ _ _ _ _ => lawful_of_newRow) (fun r hr => absurd hr List.not_mem_nil) h
    exact forall_rows_of_run hlater (fun _ _ _ _ _ => lawful_of_newRow) hl h'
  refine ⟨hgrows.map_prefix fun _ _ hlater => hlater.recorded, fun r hr hmatched => ?_,
    fun r hr => existsUnique_count (hlawful r hr),
    fun now => ⟨number_ledgerSummary l' now, countP_lawful hlawful,
      List.countP_eq_zero.mpr fun r hr => ?_⟩⟩
  · obtain ⟨r', hr', hlater⟩ := hgrows.exists_mem hr
    exact ⟨r', hr', hlater.recorded, hlater.matched hmatched⟩
  · rw [decide_eq_true_eq]
    exact not_reversed_of_lawful (hlawful r hr)

/-- A payment that lands, and is queued for the tax office. -/
theorem ledger_keeps_paidOnce :
    let l := (run LedgerCall.step Table.empty (paidOnce.map .payment)).get (by decide +kernel)
    let l' := l.markEtims "22222222-2222-4222-8222-222222222222" .queued
    l.rows.map recorded <+: l'.rows.map recorded ∧ (l'.ledgerSummary 2000).reversed = 0 := by
  intro l l'
  have hl : run LedgerCall.step Table.empty (paidOnce.map .payment) = some l :=
    (Option.some_get _).symm
  have hl' : run LedgerCall.step l
      [.markEtims "22222222-2222-4222-8222-222222222222" .queued] = some l' := rfl
  obtain ⟨hrecorded, -, -, hsummary⟩ := ledger_keeps hl hl'
  exact ⟨hrecorded, (hsummary 2000).2.2⟩

end Hotelia.Payments
