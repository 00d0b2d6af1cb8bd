import Hotelia.Offline.Holding

/-!
# The life of a row

No row is ever deleted, and what a row asks for never changes: only its status,
its count, its error and its time do. A row becomes `COMPLETED` by a mark of the
pass that holds it, and in no other way.

## Main results

- `insert_cases`: an insert finds the row of its key, finds its id taken, or adds a row.
- `Move.exists_row`: every row is there after a move, with the contents it had.
- `Faithful.move`: the records in hand have the contents of their rows.
-/

namespace Hotelia.Offline
open Foundation OfflineActionRecord OfflineActionStore

/-- What the row is there for. -/
def OfflineActionRecord.contents (r : OfflineActionRecord) : String × String × String × JsonRecord :=
  (r.id, r.idempotencyKey, r.actionType, r.payload)

theorem OfflineActionRecord.contents_claimed (now : ℕ) (r : OfflineActionRecord) :
    (r.claimed now).contents = r.contents := rfl

theorem OfflineActionRecord.contents_marked (ok : Bool) (error : String) (now : ℕ)
    (r : OfflineActionRecord) : (r.marked ok error now).contents = r.contents := by
  cases ok <;> rfl

/-! ## Inserts -/

namespace OfflineActionStore

variable {s : OfflineActionStore}

/-- The row that an insert adds. -/
def newRow (s : OfflineActionStore) (input : SyncEnqueueInput) (id : String) (now : ℕ) :
    OfflineActionRecord where
  rowid := s.nextRowid
  id := id
  actionType := input.actionType
  payload := input.payload
  idempotencyKey := input.idempotencyKey
  status := .pending
  createdAt := now
  updatedAt := now
  retryCount := 0
  lastError := none

theorem rowid_lt_nextRowid {r : OfflineActionRecord} (hr : r ∈ s.rows) : r.rowid < s.nextRowid := by
  have hmax : ∀ l : List ℕ, ∀ n ∈ l, n ≤ l.foldr max 0 := by
    intro l n hn
    induction l with
    | nil => cases hn
    | cons a l ih =>
      cases hn with
      | head => exact le_max_left _ _
      | tail _ hn => exact (ih hn).trans (le_max_right _ _)
  exact Nat.lt_succ_of_le (hmax _ _ (List.mem_map_of_mem hr))

theorem selectByKey_eq_some {key : String} {r : OfflineActionRecord} :
    s.selectByKey key = some r ↔ r ∈ s.rows ∧ r.idempotencyKey = key := by
  refine ⟨fun h => ⟨List.mem_of_find?_eq_some h, by simpa using List.find?_some h⟩, ?_⟩
  rintro ⟨hr, hkey⟩
  cases hs : s.selectByKey key with
  | none => exact absurd (decide_eq_true hkey) (List.find?_eq_none.mp hs r hr)
  | some r' =>
    have hr' := List.mem_of_find?_eq_some hs
    have hkey' : r'.idempotencyKey = key := by simpa using List.find?_some hs
    rw [s.eq_of_clash Clash.symm hr hr' (.inr (.inl (hkey.trans hkey'.symm)))]

theorem selectByKey_eq_none {key : String} :
    s.selectByKey key = none ↔ ∀ r ∈ s.rows, r.idempotencyKey ≠ key := by
  simp [selectByKey]

/-- An insert finds the row of its key, or finds its id taken, or adds a row. -/
theorem insert_cases (s : OfflineActionStore) (input : SyncEnqueueInput) (id : String) (now : ℕ) :
    (∃ row, s.selectByKey input.idempotencyKey = some row ∧ s.insert input id now = (some row, s)) ∨
    (s.selectByKey input.idempotencyKey = none ∧ (∃ row ∈ s.rows, row.id = id) ∧
      s.insert input id now = (none, s)) ∨
    (s.selectByKey input.idempotencyKey = none ∧ (∀ row ∈ s.rows, row.id ≠ id) ∧
      (s.insert input id now).1 = some (s.newRow input id now) ∧
      (s.insert input id now).2.rows = s.rows ++ [s.newRow input id now]) := by
  have hinsert : s.insert input id now =
      (selectByKey (s.insertOrIgnore (s.newRow input id now)) input.idempotencyKey,
        s.insertOrIgnore (s.newRow input id now)) := rfl
  cases hkey : s.selectByKey input.idempotencyKey with
  | some row =>
    obtain ⟨hrow, hrowkey⟩ := selectByKey_eq_some.mp hkey
    left
    refine ⟨row, rfl, ?_⟩
    rw [hinsert, s.insertOrIgnore_of_clash _ ⟨row, hrow, .inr (.inl hrowkey)⟩, hkey]
  | none =>
    right
    by_cases hid : ∃ row ∈ s.rows, row.id = id
    · obtain ⟨row, hrow, hrowid⟩ := hid
      left
      refine ⟨rfl, ⟨row, hrow, hrowid⟩, ?_⟩
      rw [hinsert, s.insertOrIgnore_of_clash _ ⟨row, hrow, .inl hrowid⟩, hkey]
    · right
      push Not at hid
      have hfresh : ¬ ∃ x ∈ s.rows, Clash x (s.newRow input id now) := by
        rintro ⟨x, hx, hxid | hxkey | hxrow⟩
        · exact hid x hx hxid
        · exact selectByKey_eq_none.mp hkey x hx hxkey
        · exact absurd hxrow (rowid_lt_nextRowid hx).ne
      have hrows := s.insertOrIgnore_rows_of_fresh _ hfresh
      refine ⟨rfl, hid, ?_, hrows⟩
      rw [hinsert]
      refine selectByKey_eq_some.mpr ⟨?_, rfl⟩
      rw [hrows]
      exact List.mem_append_right _ (List.mem_singleton_self _)

end OfflineActionStore

/-! ## Completed rows -/

namespace OfflineActionStore

variable {s s₁ : OfflineActionStore} {r : OfflineActionRecord} {now : ℕ}

/-- An insert completes nothing. -/
theorem mem_of_completed_insert {input : SyncEnqueueInput} {uuid : String}
    (hr : r ∈ (s.insert input uuid now).2.rows) (hdone : r.status = .completed) : r ∈ s.rows := by
  cases s.mem_of_mem_insertOrIgnore _ hr with
  | inl hold => exact hold
  | inr hnew => rw [hnew] at hdone; cases hdone

/-- Neither does a claim. -/
theorem mem_of_completed_claim {c : OfflineActionRecord} (h : s.claimNext now = some (c, s₁))
    (hr : r ∈ s₁.rows) (hdone : r.status = .completed) : r ∈ s.rows := by
  obtain ⟨row, -, -, hrows⟩ := claimNext_eq_some h
  rw [hrows] at hr
  obtain ⟨x, hx, rfl⟩ := List.mem_map.mp hr
  split at hdone
  · cases hdone
  · next hne => rw [if_neg hne]; exact hx

/-- Nor the recovery. -/
theorem mem_of_completed_requeue {beforeMs : ℕ}
    (hr : r ∈ (s.requeueStaleProcessing beforeMs now).2.rows) (hdone : r.status = .completed) :
    r ∈ s.rows := by
  obtain ⟨x, hx, rfl⟩ := List.mem_map.mp hr
  split at hdone
  · cases hdone
  · next hne => rw [if_neg hne]; exact hx

/-- A mark completes the row it is for, if it went well. -/
theorem mem_of_completed_mark {uuid error : String} {ok : Bool}
    (hr : r ∈ (s.mark uuid ok error now).rows) (hdone : r.status = .completed) :
    r ∈ s.rows ∨ (ok = true ∧ r.id = uuid) := by
  rw [mark_rows] at hr
  obtain ⟨x, hx, rfl⟩ := List.mem_map.mp hr
  split at hdone
  · next hid =>
    rw [if_pos hid, marked_id]
    cases ok with
    | true => exact .inr ⟨rfl, hid⟩
    | false => cases hdone
  · next hne =>
    rw [if_neg hne]
    exact .inl hx

/-- A row that is marked well is completed. -/
theorem completed_mem_mark {uuid : String} (error : String) (hr : r ∈ s.rows) (hid : r.id = uuid) :
    r.completed now ∈ (s.mark uuid true error now).rows := by
  rw [mark_rows]
  exact List.mem_map.mpr ⟨r, hr, if_pos hid⟩

end OfflineActionStore

/-! ## Contents -/

variable {ι : Type*} [DecidableEq ι]

/-- After a move every row is there, with the contents it had. -/
theorem Move.exists_row {d d' : Desk ι} (hm : Move d d') {r : OfflineActionRecord}
    (hr : r ∈ d.store.rows) : ∃ r' ∈ d'.store.rows, r'.contents = r.contents := by
  have hclaim : ∀ {now c s}, d.store.claimNext now = some (c, s) →
      ∃ r' ∈ s.rows, r'.contents = r.contents := by
    intro now c s hc
    obtain ⟨row, -, -, hrows⟩ := claimNext_eq_some hc
    rw [hrows]
    refine ⟨_, List.mem_map_of_mem hr, ?_⟩
    split
    · exact contents_claimed now r
    · rfl
  cases hm with
  | stay => exact ⟨r, hr, rfl⟩
  | insert input uuid now => exact ⟨r, d.store.mem_insertOrIgnore_of_mem _ hr, rfl⟩
  | claim i now record s hc => exact hclaim hc
  | overrun i now record s hc => exact hclaim hc
  | mark i record ok error now hi =>
    rw [mark_rows]
    refine ⟨_, List.mem_map_of_mem hr, ?_⟩
    split
    · exact contents_marked ok error now r
    · rfl
  | drop i => exact ⟨r, hr, rfl⟩
  | kill => exact ⟨r, hr, rfl⟩
  | requeue beforeMs now =>
    refine ⟨_, List.mem_map_of_mem hr, ?_⟩
    split <;> rfl

/-- The records in hand have the contents of their rows. -/
def Faithful (d : Desk ι) : Prop :=
  ∀ i record, d.held i = some record → ∃ r ∈ d.store.rows, r.contents = record.contents

/-- What a move adds to the records in hand it has read from the store. -/
theorem Faithful.move {d d' : Desk ι} (hf : Faithful d) (hm : Move d d') : Faithful d' := by
  have hold : ∀ i record, d.held i = some record →
      ∃ r' ∈ d'.store.rows, r'.contents = record.contents := by
    intro i record hi
    obtain ⟨r, hr, hcontents⟩ := hf i record hi
    obtain ⟨r', hr', hsame⟩ := hm.exists_row hr
    exact ⟨r', hr', hsame.trans hcontents⟩
  have hupdate : ∀ i (x : Option OfflineActionRecord),
      (∀ record, x = some record → ∃ r' ∈ d'.store.rows, r'.contents = record.contents) →
      d'.held = Function.update d.held i x → Faithful d' := by
    intro i x hx hheld j record hj
    rw [hheld] at hj
    cases update_eq_some hj with
    | inl hnew => exact hx record hnew.2
    | inr hother => exact hold j record hother.2
  cases hm with
  | stay => exact hf
  | insert input uuid now => exact hold
  | claim i now record s hc =>
    apply hupdate i (some record) ?_ rfl
    rintro _ ⟨⟩
    obtain ⟨row, hrow, rfl, hrows⟩ := claimNext_eq_some hc
    refine ⟨row.claimed now, ?_, rfl⟩
    show _ ∈ s.rows
    rw [hrows]
    exact List.mem_map.mpr ⟨row, (findClaimable_eq_some hrow).1, if_pos rfl⟩
  | overrun i now record s hc => exact hupdate i none (fun _ h => nomatch h) rfl
  | mark i record ok error now hi => exact hupdate i none (fun _ h => nomatch h) rfl
  | drop i => exact hupdate i none (fun _ h => nomatch h) rfl
  | kill => exact fun _ _ h => nomatch h
  | requeue beforeMs now => exact fun _ _ h => nomatch h

end Hotelia.Offline
