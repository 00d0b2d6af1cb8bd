import Hotelia.Foundation.Answers
import Hotelia.Foundation.IsoText
import Hotelia.Offline.RowHistory
import Hotelia.Shared.JsonText

/-!
# The rows as SQLite keeps them

The columns of `offline_actions` are texts: the payload is what `JSON.stringify` makes of it, the
times are what `toISOString` makes of them, and statuses are words. The statements of
`apps/console/src/main/offline/store.ts` compare these texts.

## Main definitions

- `StoredRow`, `TextStore` — a row of texts, and the table of them
- `rowToRecord` — the record that is made of a row
- `StoreCall`, `TextStore.call` — the statements of the store

## Main results

- `call_shows`: a store of texts does what the store of the values does.
- `text_store_answers`: it answers alike in every run.
-/

namespace Hotelia.Offline
open Foundation

/-! ## Rows -/

/-- The word in the column `status`. -/
def ActionStatus.text : ActionStatus → String
  | .pending => "PENDING"
  | .processing => "PROCESSING"
  | .failed => "FAILED"
  | .completed => "COMPLETED"

theorem ActionStatus.text_inj {a b : ActionStatus} : a.text = b.text ↔ a = b := by
  cases a <;> cases b <;> decide

/-- A row of `offline_actions`; `rowid` is SQLite's own row number. -/
structure StoredRow where
  rowid : ℕ
  id : String
  actionType : String
  payload : String
  idempotencyKey : String
  status : String
  createdAt : String
  updatedAt : String
  retryCount : ℕ
  lastError : Option String

/-- `OfflineActionRecord`, as a caller of the store gets it. -/
structure ReadRecord where
  id : String
  actionType : String
  payload : Json
  idempotencyKey : String
  status : String
  createdAt : String
  updatedAt : String
  retryCount : ℕ
  lastError : Option String

/-- `rowToRecord(row)`, which throws if the payload is no JSON text. -/
def rowToRecord (canon : String → String) (row : StoredRow) : Option ReadRecord :=
  (Json.parse canon row.payload.toList).map fun payload =>
    { id := row.id, actionType := row.actionType, payload, idempotencyKey := row.idempotencyKey,
      status := row.status, createdAt := row.createdAt, updatedAt := row.updatedAt,
      retryCount := row.retryCount, lastError := row.lastError.filter (· ≠ "") }

namespace StoredRow

/-- The primary key and the unique column, next to the rowid. -/
def Clash (a b : StoredRow) : Prop :=
  a.id = b.id ∨ a.idempotencyKey = b.idempotencyKey ∨ a.rowid = b.rowid

instance : DecidableRel Clash := fun a b =>
  inferInstanceAs (Decidable (a.id = b.id ∨ a.idempotencyKey = b.idempotencyKey ∨ a.rowid = b.rowid))

/-- `status = 'PENDING' OR (status = 'FAILED' AND retry_count < ?)`. -/
def claimable (r : StoredRow) : Bool :=
  r.status = "PENDING" || r.status = "FAILED" && r.retryCount < maxRetryCount

/-- `ORDER BY CASE status … END, created_at ASC`, and the rowid where both are the same. -/
def order (r : StoredRow) : ℕ ×ₗ String ×ₗ ℕ :=
  toLex (if r.status = "PENDING" then 0 else if r.status = "FAILED" then 1 else 2,
    toLex (r.createdAt, r.rowid))

def claimed (now : String) (r : StoredRow) : StoredRow :=
  { r with status := "PROCESSING", updatedAt := now }

def completed (now : String) (r : StoredRow) : StoredRow :=
  { r with status := "COMPLETED", updatedAt := now, lastError := none }

def failed (error now : String) (r : StoredRow) : StoredRow :=
  { r with status := "FAILED", retryCount := r.retryCount + 1, lastError := some error,
           updatedAt := now }

def requeued (now : String) (r : StoredRow) : StoredRow :=
  { r with status := "PENDING", updatedAt := now }

/-- `status='PROCESSING' AND updated_at < ?`. -/
def stale (cutoff : String) (r : StoredRow) : Bool := r.status = "PROCESSING" && r.updatedAt < cutoff

end StoredRow

/-! ## Statements -/

abbrev TextStore := Table StoredRow StoredRow.Clash

namespace TextStore

/-- `UPDATE offline_actions SET f WHERE sel`, which sets none of the keys. -/
def setWhere (s : TextStore) (sel : StoredRow → Bool) (f : StoredRow → StoredRow)
    (hf : ∀ r, (f r).rowid = r.rowid ∧ (f r).id = r.id ∧ (f r).idempotencyKey = r.idempotencyKey) :
    TextStore :=
  s.update (fun r => if sel r then f r else r) <| by
    have hkeys : ∀ r, (if sel r then f r else r).rowid = r.rowid ∧
        (if sel r then f r else r).id = r.id ∧
        (if sel r then f r else r).idempotencyKey = r.idempotencyKey := by
      intro r
      split
      · exact hf r
      · exact ⟨rfl, rfl, rfl⟩
    intro a b hc
    simpa only [StoredRow.Clash, hkeys a, hkeys b] using hc

def nextRowid (s : TextStore) : ℕ := (s.rows.map (·.rowid)).foldr max 0 + 1

/-- `insert(input, now)`: the row that is selected by the key, and the store. -/
def insert (s : TextStore) (input : SyncEnqueueInput) (id now : String) :
    Option StoredRow × TextStore :=
  let s' : TextStore := s.insertOrIgnore
    { rowid := s.nextRowid, id, actionType := input.actionType,
      payload := String.ofList (Json.obj input.payload).print,
      idempotencyKey := input.idempotencyKey, status := "PENDING", createdAt := now,
      updatedAt := now, retryCount := 0, lastError := none }
  (s'.rows.find? (·.idempotencyKey = input.idempotencyKey), s')

/-- `claimNext(now)`: the row after the claim, and the store. -/
def claimNext (s : TextStore) (now : String) : Option (StoredRow × TextStore) :=
  match (s.rows.filter (·.claimable)).argmin StoredRow.order with
  | none => none
  | some row =>
    some (row.claimed now, s.setWhere (·.id = row.id) (·.claimed now) fun _ => ⟨rfl, rfl, rfl⟩)

def markComplete (s : TextStore) (id now : String) : TextStore :=
  s.setWhere (·.id = id) (·.completed now) fun _ => ⟨rfl, rfl, rfl⟩

def markFailed (s : TextStore) (id error now : String) : TextStore :=
  s.setWhere (·.id = id) (·.failed error now) fun _ => ⟨rfl, rfl, rfl⟩

/-- `requeueStaleProcessing`: how many rows went back, and the store. -/
def requeueStaleProcessing (s : TextStore) (cutoff now : String) : ℕ × TextStore :=
  (s.rows.countP (·.stale cutoff),
    s.setWhere (·.stale cutoff) (·.requeued now) fun _ => ⟨rfl, rfl, rfl⟩)

/-- `countByStatus()`. -/
def countByStatus (s : TextStore) : OfflineActionStore.ActionStatusCounts where
  pending := s.rows.countP (·.status = "PENDING")
  processing := s.rows.countP (·.status = "PROCESSING")
  failed := s.rows.countP (·.status = "FAILED")
  completed := s.rows.countP (·.status = "COMPLETED")

/-- `oldestPendingTs()`: `MIN(created_at)` as a number. -/
def oldestPendingTs (s : TextStore) : Option ℤ :=
  ((s.rows.filter fun r => r.status = "PENDING" || r.status = "FAILED" || r.status = "PROCESSING").map
    (·.createdAt)).min?.bind readIso

end TextStore

/-! ## Calls -/

/-- The calls that the process makes, each at its time in milliseconds. -/
inductive StoreCall where
  | insert (input : SyncEnqueueInput) (id : String) (now : ℕ)
  | claimNext (now : ℕ)
  | markComplete (id : String) (now : ℕ)
  | markFailed (id error : String) (now : ℕ)
  | requeueStaleProcessing (beforeMs now : ℕ)
  | countByStatus
  | oldestPendingTs

inductive StoreAnswer where
  | record (r : ReadRecord)
  | nothing
  /-- The record could not be made. -/
  | thrown
  | changes (n : ℕ)
  | counts (c : OfflineActionStore.ActionStatusCounts)
  | time (t : Option ℤ)

/-- The record of a row, if there is a row and it can be read. -/
def recordAnswer (canon : String → String) (row : Option StoredRow) : StoreAnswer :=
  match row.bind (rowToRecord canon) with
  | some r => .record r
  | none => .thrown

/-- A call of the store of texts. -/
def TextStore.call (canon : String → String) (s : TextStore) : StoreCall → StoreAnswer × TextStore
  | .insert input id now =>
    let (row, s') := s.insert input id (isoText now)
    (recordAnswer canon row, s')
  | .claimNext now =>
    match s.claimNext (isoText now) with
    | none => (.nothing, s)
    | some (row, s') => (recordAnswer canon row, s')
  | .markComplete id now => (.nothing, s.markComplete id (isoText now))
  | .markFailed id error now => (.nothing, s.markFailed id error (isoText now))
  | .requeueStaleProcessing beforeMs now =>
    let (n, s') := s.requeueStaleProcessing (isoText (now - beforeMs)) (isoText now)
    (.changes n, s')
  | .countByStatus => (.counts s.countByStatus, s)
  | .oldestPendingTs => (.time s.oldestPendingTs, s)

/-- A record with its values written out. -/
def OfflineActionRecord.read (r : OfflineActionRecord) : ReadRecord where
  id := r.id
  actionType := r.actionType
  payload := .obj r.payload
  idempotencyKey := r.idempotencyKey
  status := r.status.text
  createdAt := isoText r.createdAt
  updatedAt := isoText r.updatedAt
  retryCount := r.retryCount
  lastError := r.lastError.filter (· ≠ "")

/-- The same call of the store of values. -/
def OfflineActionStore.call (s : OfflineActionStore) : StoreCall → StoreAnswer × OfflineActionStore
  | .insert input id now =>
    match s.insert input id now with
    | (some r, s') => (.record r.read, s')
    | (none, s') => (.thrown, s')
  | .claimNext now =>
    match s.claimNext now with
    | none => (.nothing, s)
    | some (r, s') => (.record r.read, s')
  | .markComplete id now => (.nothing, s.markComplete id now)
  | .markFailed id error now => (.nothing, s.markFailed id error now)
  | .requeueStaleProcessing beforeMs now =>
    let (n, s') := s.requeueStaleProcessing beforeMs now
    (.changes n, s')
  | .countByStatus => (.counts s.countByStatus, s)
  | .oldestPendingTs => (.time (s.oldestPendingTs.map (↑)), s)

/-! ## The texts show the values -/

section Shows

variable {canon : String → String}

/-- A row written out. -/
def OfflineActionRecord.stored (r : OfflineActionRecord) : StoredRow where
  rowid := r.rowid
  id := r.id
  actionType := r.actionType
  payload := String.ofList (Json.obj r.payload).print
  idempotencyKey := r.idempotencyKey
  status := r.status.text
  createdAt := isoText r.createdAt
  updatedAt := isoText r.updatedAt
  retryCount := r.retryCount
  lastError := r.lastError

/-- A time whose text has a year of four digits. -/
def ShortTime (now : ℕ) : Prop := (now : ℤ) < lastIso

theorem ShortTime.bounds {now : ℕ} (h : ShortTime now) : 0 ≤ (now : ℤ) ∧ (now : ℤ) < lastIso :=
  ⟨Int.natCast_nonneg now, h⟩

/-- The values of a row can be read off their texts. -/
structure OfflineActionRecord.Writable (canon : String → String) (r : OfflineActionRecord) :
    Prop where
  payload : (Json.obj r.payload).Held canon
  createdAt : ShortTime r.createdAt
  updatedAt : ShortTime r.updatedAt

/-- The store of texts shows the rows of the store of values, which can all be read. -/
structure Shows (canon : String → String) (s : OfflineActionStore) (t : TextStore) : Prop where
  rows : t.rows = s.rows.map (·.stored)
  writable : ∀ r ∈ s.rows, r.Writable canon

/-- A call with values that the language can hold, at a time whose text can be compared. -/
def StoreCall.Fits (canon : String → String) : StoreCall → Prop
  | .insert input _ now => (Json.obj input.payload).Held canon ∧ ShortTime now
  | .claimNext now => ShortTime now
  | .markComplete _ now => ShortTime now
  | .markFailed _ _ now => ShortTime now
  | .requeueStaleProcessing beforeMs now => ShortTime now ∧ beforeMs ≤ now
  | .countByStatus => True
  | .oldestPendingTs => True

/-! ### Rows -/

theorem rowToRecord_stored {r : OfflineActionRecord} (h : r.Writable canon) :
    rowToRecord canon r.stored = some r.read := by
  rw [rowToRecord, OfflineActionRecord.stored, String.toList_ofList, parse_print h.payload]
  rfl

theorem stored_claimed (now : ℕ) (r : OfflineActionRecord) :
    r.stored.claimed (isoText now) = (r.claimed now).stored := rfl

theorem stored_completed (now : ℕ) (r : OfflineActionRecord) :
    r.stored.completed (isoText now) = (r.completed now).stored := rfl

theorem stored_failed (error : String) (now : ℕ) (r : OfflineActionRecord) :
    r.stored.failed error (isoText now) = (r.failed error now).stored := rfl

theorem stored_requeued (now : ℕ) (r : OfflineActionRecord) :
    r.stored.requeued (isoText now) = (r.requeued now).stored := rfl

theorem clash_stored (a b : OfflineActionRecord) :
    StoredRow.Clash a.stored b.stored ↔ OfflineActionRecord.Clash a b := Iff.rfl

theorem claimable_stored (r : OfflineActionRecord) :
    r.stored.claimable = true ↔ r.Claimable := by
  rw [StoredRow.claimable, OfflineActionRecord.Claimable, OfflineActionRecord.stored]
  cases r.status with
  | pending => simp [ActionStatus.text]
  | processing => simp [ActionStatus.text]
  | failed => simp [ActionStatus.text]
  | completed => simp [ActionStatus.text]

theorem status_stored (r : OfflineActionRecord) (status : ActionStatus) :
    r.stored.status = status.text ↔ r.status = status := ActionStatus.text_inj

theorem stale_stored {r : OfflineActionRecord} (h : r.Writable canon) {beforeMs now : ℕ}
    (hnow : ShortTime now) (hbefore : beforeMs ≤ now) :
    r.stored.stale (isoText (now - beforeMs)) = true ↔ OfflineActionStore.Stale beforeMs now r := by
  have hcutoff : 0 ≤ (now : ℤ) - beforeMs ∧ (now : ℤ) - beforeMs < lastIso := by
    have hbounds := hnow.bounds
    omega
  have htime : r.stored.updatedAt < isoText (now - beforeMs) ↔ r.updatedAt + beforeMs < now := by
    rw [OfflineActionRecord.stored, isoText_lt_iff h.updatedAt.bounds hcutoff]
    omega
  rw [StoredRow.stale, OfflineActionStore.Stale, Bool.and_eq_true, decide_eq_true_eq,
    decide_eq_true_eq, htime]
  exact and_congr_left' (status_stored r .processing)

/-- The rows of a table are in the order of their tickets. -/
theorem order_stored {s : OfflineActionStore} {a b : OfflineActionRecord} (ha : a ∈ s.rows)
    (hb : b ∈ s.rows) (hwa : a.Writable canon) (hwb : b.Writable canon) :
    a.ticket < b.ticket ↔ a.stored.order < b.stored.order := by
  have hrank : ∀ r : OfflineActionRecord, (if r.stored.status = "PENDING" then 0 else
      if r.stored.status = "FAILED" then 1 else 2) = r.rank := by
    intro r
    rw [OfflineActionRecord.rank, OfflineActionRecord.stored]
    cases r.status <;> rfl
  have hcreated : a.stored.createdAt < b.stored.createdAt ↔ a.createdAt < b.createdAt := by
    rw [OfflineActionRecord.stored, OfflineActionRecord.stored,
      isoText_lt_iff hwa.createdAt.bounds hwb.createdAt.bounds]
    omega
  have hsame : a.stored.createdAt = b.stored.createdAt ↔ a.createdAt = b.createdAt := by
    rw [OfflineActionRecord.stored, OfflineActionRecord.stored,
      isoText_inj hwa.createdAt.bounds hwb.createdAt.bounds]
    omega
  have hrow : a.rowid = b.rowid → ¬ (a.id < b.id ∨ a.id = b.id ∧ a.retryCount < b.retryCount) := by
    intro hrowid
    have heq : a = b := s.eq_of_clash OfflineActionRecord.Clash.symm ha hb (.inr (.inr hrowid))
    rw [heq]
    simp
  have hticket : a.ticket < b.ticket ↔ a.rank < b.rank ∨ a.rank = b.rank ∧
      (a.createdAt < b.createdAt ∨ a.createdAt = b.createdAt ∧ a.rowid < b.rowid) := by
    rw [Ticket.lt_iff]
    change _ ∨ _ ∧ (_ ∨ _ ∧ (a.rowid < b.rowid ∨ a.rowid = b.rowid ∧ (a.id < b.id ∨ a.id = b.id ∧
      a.retryCount < b.retryCount))) ↔ _
    have hlast : (a.rowid < b.rowid ∨ a.rowid = b.rowid ∧ (a.id < b.id ∨ a.id = b.id ∧
        a.retryCount < b.retryCount)) ↔ a.rowid < b.rowid :=
      or_iff_left fun h => hrow h.1 h.2
    rw [hlast]
    rfl
  rw [hticket, StoredRow.order, StoredRow.order, hrank, hrank]
  simp only [Prod.Lex.toLex_lt_toLex, hcreated, hsame]
  rfl

/-! ### Statements -/

variable {s : OfflineActionStore} {t : TextStore}

/-- Updates of the same rows to the same values. -/
theorem Shows.setWhere (h : Shows canon s t) {sel : OfflineActionRecord → Bool}
    {sel' : StoredRow → Bool} {f : OfflineActionRecord → OfflineActionRecord}
    {f' : StoredRow → StoredRow} (hset : ∀ r, f' r.stored = (f r).stored) (hf : KeepsKeys f)
    (hf' : ∀ r, (f' r).rowid = r.rowid ∧ (f' r).id = r.id ∧
      (f' r).idempotencyKey = r.idempotencyKey)
    (hsel : ∀ r ∈ s.rows, sel' r.stored = sel r)
    (hwritable : ∀ r, r.Writable canon → (f r).Writable canon) :
    Shows canon (s.setWhere sel f hf) (t.setWhere sel' f' hf') := by
  constructor
  · change t.rows.map _ = (s.rows.map _).map _
    rw [h.rows, List.map_map, List.map_map]
    refine List.map_congr_left fun r hr => ?_
    simp only [Function.comp_apply, hsel r hr]
    split
    · exact hset r
    · rfl
  · intro r hr
    obtain ⟨r, hmem, rfl⟩ := List.mem_map.mp hr
    have hold := h.writable r hmem
    split
    · exact hwritable r hold
    · exact hold

theorem Shows.insert (h : Shows canon s t) {input : SyncEnqueueInput}
    (hpayload : (Json.obj input.payload).Held canon) {now : ℕ} (hnow : ShortTime now)
    (id : String) :
    Shows canon (s.insert input id now).2 (t.insert input id (isoText now)).2 := by
  have hrowid : t.nextRowid = s.nextRowid := by
    rw [TextStore.nextRowid, OfflineActionStore.nextRowid, h.rows, List.map_map]
    rfl
  have hnew : (t.insert input id (isoText now)).2 =
      t.insertOrIgnore (s.newRow input id now).stored := by
    rw [TextStore.insert, hrowid]
    rfl
  have hold : (s.insert input id now).2 = s.insertOrIgnore (s.newRow input id now) := rfl
  rw [hnew, hold]
  constructor
  · exact Table.insertOrIgnore_map clash_stored h.rows _
  · intro r hr
    rcases Table.mem_of_mem_insertOrIgnore s _ hr with hmem | rfl
    · exact h.writable r hmem
    · exact ⟨hpayload, hnow, hnow⟩

/-- The row of a key is the same row. -/
theorem Shows.find (h : Shows canon s t) (key : String) :
    t.rows.find? (·.idempotencyKey = key) = (s.selectByKey key).map (·.stored) := by
  rw [h.rows, List.find?_map, OfflineActionStore.selectByKey]
  rfl

theorem Shows.claimable (h : Shows canon s t) :
    (t.rows.filter (·.claimable)).argmin StoredRow.order = s.findClaimable.map (·.stored) := by
  have hfilter : t.rows.filter (·.claimable) =
      (s.rows.filter OfflineActionRecord.Claimable).map (·.stored) := by
    rw [h.rows, List.filter_map]
    congr 1
    refine List.filter_congr fun r _ => ?_
    rw [Function.comp_apply, Bool.eq_iff_iff, claimable_stored, decide_eq_true_eq]
  rw [hfilter, OfflineActionStore.findClaimable]
  refine argmin_map fun a ha b hb => ?_
  have hmem := List.mem_of_mem_filter ha
  have hmem' := List.mem_of_mem_filter hb
  exact order_stored hmem hmem' (h.writable a hmem) (h.writable b hmem')

theorem Shows.count (h : Shows canon s t) (status : ActionStatus) :
    t.rows.countP (·.status = status.text) = s.rows.countP (·.status = status) := by
  rw [h.rows, List.countP_map]
  refine List.countP_congr fun r _ => ?_
  rw [Function.comp_apply, decide_eq_true_eq, decide_eq_true_eq]
  exact status_stored r status

theorem recordAnswer_stored {r : OfflineActionRecord} (h : r.Writable canon) :
    recordAnswer canon (some r.stored) = .record r.read := by
  rw [recordAnswer, Option.bind_some, rowToRecord_stored h]

theorem Shows.counts (h : Shows canon s t) : t.countByStatus = s.countByStatus := by
  rw [TextStore.countByStatus, OfflineActionStore.countByStatus]
  congr 1
  · exact h.count .pending
  · exact h.count .processing
  · exact h.count .failed
  · exact h.count .completed

theorem Shows.oldest (h : Shows canon s t) :
    t.oldestPendingTs = s.oldestPendingTs.map (↑) := by
  have hfilter : t.rows.filter (fun r => r.status = "PENDING" || r.status = "FAILED" ||
      r.status = "PROCESSING") = (s.rows.filter (·.status ≠ .completed)).map (·.stored) := by
    rw [h.rows, List.filter_map]
    congr 1
    refine List.filter_congr fun r _ => ?_
    rw [Function.comp_apply, OfflineActionRecord.stored]
    cases r.status <;> rfl
  have hshort : ∀ n ∈ (s.rows.filter (·.status ≠ .completed)).map (·.createdAt), ShortTime n := by
    intro n hn
    obtain ⟨r, hr, rfl⟩ := List.mem_map.mp hn
    exact (h.writable r (List.mem_of_mem_filter hr)).createdAt
  have htexts : ((s.rows.filter (·.status ≠ .completed)).map (·.stored)).map (·.createdAt) =
      ((s.rows.filter (·.status ≠ .completed)).map (·.createdAt)).map
        fun n : ℕ => isoText n := by
    rw [List.map_map, List.map_map]
    rfl
  rw [TextStore.oldestPendingTs, hfilter, htexts, min?_map, OfflineActionStore.oldestPendingTs]
  · cases hmin : ((s.rows.filter (·.status ≠ .completed)).map (·.createdAt)).min? with
    | none => rfl
    | some n =>
      rw [Option.map_some, Option.bind_some, Option.map_some]
      exact readIso_isoText (hshort n (List.min?_mem hmin)).bounds
  · intro a ha b hb
    rw [isoText_le_iff (hshort a ha).bounds (hshort b hb).bounds]
    omega

/-- Each call is answered as by the store of values, and leaves its rows. -/
theorem call_shows (h : Shows canon s t) {call : StoreCall} (hfits : call.Fits canon) :
    (t.call canon call).1 = (s.call call).1 ∧ Shows canon (s.call call).2 (t.call canon call).2 := by
  cases call with
  | insert input id now =>
    have hnext := h.insert hfits.1 hfits.2 id
    have hrow : (t.insert input id (isoText now)).1 =
        (s.insert input id now).1.map (·.stored) := hnext.find input.idempotencyKey
    have hmem : ∀ r ∈ (s.insert input id now).1, r ∈ (s.insert input id now).2.rows := fun r hr =>
      (OfflineActionStore.selectByKey_eq_some.mp hr).1
    rw [TextStore.call, OfflineActionStore.call]
    cases hins : s.insert input id now with
    | mk row s' =>
      rw [hins] at hnext hrow hmem
      cases row with
      | none => exact ⟨by simp only [hrow]; rfl, hnext⟩
      | some r =>
        have hwritable := hnext.writable r (hmem r rfl)
        exact ⟨by simp only [hrow, Option.map_some]; exact recordAnswer_stored hwritable, hnext⟩
  | claimNext now =>
    have hfind := h.claimable
    rw [TextStore.call, OfflineActionStore.call, TextStore.claimNext, OfflineActionStore.claimNext,
      hfind]
    cases hrow : s.findClaimable with
    | none => exact ⟨rfl, h⟩
    | some row =>
      have hwritable := h.writable row (OfflineActionStore.findClaimable_eq_some hrow).1
      refine ⟨recordAnswer_stored (r := row.claimed now) ?_, ?_⟩
      · exact ⟨hwritable.payload, hwritable.createdAt, hfits⟩
      · change Shows canon (s.setWhere (·.id = row.id) (·.claimed now) (keepsKeys_claimed now))
          (t.setWhere (·.id = row.id) (·.claimed (isoText now)) fun _ => ⟨rfl, rfl, rfl⟩)
        exact h.setWhere (stored_claimed now) (keepsKeys_claimed now) (fun _ => ⟨rfl, rfl, rfl⟩)
          (fun r _ => rfl) fun r hr => ⟨hr.payload, hr.createdAt, hfits⟩
  | markComplete id now =>
    refine ⟨rfl, ?_⟩
    exact h.setWhere (stored_completed now) (keepsKeys_completed now) (fun _ => ⟨rfl, rfl, rfl⟩)
      (fun r _ => rfl) fun r hr => ⟨hr.payload, hr.createdAt, hfits⟩
  | markFailed id error now =>
    refine ⟨rfl, ?_⟩
    exact h.setWhere (stored_failed error now) (keepsKeys_failed error now)
      (fun _ => ⟨rfl, rfl, rfl⟩) (fun r _ => rfl) fun r hr => ⟨hr.payload, hr.createdAt, hfits⟩
  | requeueStaleProcessing beforeMs now =>
    have hstale : ∀ r ∈ s.rows, r.stored.stale (isoText (now - beforeMs)) =
        decide (OfflineActionStore.Stale beforeMs now r) := by
      intro r hr
      rw [Bool.eq_iff_iff, stale_stored (h.writable r hr) hfits.1 hfits.2, decide_eq_true_eq]
    have hcount : t.rows.countP (·.stale (isoText (now - beforeMs))) =
        s.rows.countP (OfflineActionStore.Stale beforeMs now) := by
      rw [h.rows, List.countP_map]
      refine List.countP_congr fun r hr => ?_
      rw [Function.comp_apply, hstale r hr]
    refine ⟨congrArg StoreAnswer.changes hcount, ?_⟩
    exact h.setWhere (stored_requeued now) (keepsKeys_requeued now) (fun _ => ⟨rfl, rfl, rfl⟩)
      hstale fun r hr => ⟨hr.payload, hr.createdAt, hfits.1⟩
  | countByStatus => exact ⟨congrArg StoreAnswer.counts h.counts, h⟩
  | oldestPendingTs => exact ⟨congrArg StoreAnswer.time h.oldest, h⟩

theorem shows_empty : Shows canon Table.empty Table.empty :=
  ⟨rfl, fun _ hr => absurd hr List.not_mem_nil⟩

theorem answers_text {calls : List StoreCall} (h : ∀ call ∈ calls, call.Fits canon) :
    answers (TextStore.call canon) Table.empty calls =
      answers OfflineActionStore.call Table.empty calls :=
  (answers_eq (R := Shows canon) (fun _ _ _ hst hcall => (call_shows hst hcall).2)
    (fun _ _ _ hst hcall => (call_shows hst hcall).1.symm) shows_empty h).symm

theorem rows_text {calls : List StoreCall} (h : ∀ call ∈ calls, call.Fits canon) :
    (after (TextStore.call canon) Table.empty calls).rows =
      (after OfflineActionStore.call Table.empty calls).rows.map (·.stored) :=
  (after_rel (R := Shows canon) (fun _ _ _ hst hcall => (call_shows hst hcall).2)
    shows_empty h).rows

/-- In every run from an empty table, the texts are answered from as the values would be, and show
the same rows. -/
theorem text_store_answers {calls : List StoreCall} (h : ∀ call ∈ calls, call.Fits canon) :
    answers (TextStore.call canon) Table.empty calls =
        answers OfflineActionStore.call Table.empty calls ∧
      (after (TextStore.call canon) Table.empty calls).rows =
        (after OfflineActionStore.call Table.empty calls).rows.map (·.stored) :=
  ⟨answers_text h, rows_text h⟩

/-- A check-in with the room and the number of nights. -/
def checkinInput : SyncEnqueueInput where
  idempotencyKey := "desk-checkin-0001"
  actionType := "checkin"
  payload := [("room", .str "101"), ("nights", .num "2")]

theorem held_checkinInput : (Json.obj checkinInput.payload).Held id := by
  have hnights : NumberText "2".toList := numberText_digit (c := '2') (by decide) (by decide)
  refine .obj _ (fun f hf => ?_) (List.pairwise_pair.mpr (by decide))
  rcases List.mem_pair.mp hf with rfl | rfl
  · exact .str "101"
  · exact .num "2" hnights rfl

/-- The check-in fails once, is sent back after a restart, and is claimed again. -/
def checkinCalls : List StoreCall :=
  [.insert checkinInput "a1" 1700000000000, .claimNext 1700000001000,
    .markFailed "a1" "delivery failed" 1700000002000, .claimNext 1700000003000,
    .requeueStaleProcessing 30000 1700000060000, .countByStatus, .oldestPendingTs,
    .claimNext 1700000061000]

theorem fits_checkinCalls : ∀ call ∈ checkinCalls, call.Fits id := by
  have hshort : ∀ now ≤ 1700000061000, ShortTime now := by
    intro now hnow
    rw [ShortTime, lastIso]
    omega
  simp only [checkinCalls, List.forall_mem_cons, StoreCall.Fits]
  refine ⟨⟨held_checkinInput, hshort _ (by omega)⟩, hshort _ (by omega), hshort _ (by omega),
    hshort _ (by omega), ⟨hshort _ (by omega), by omega⟩, trivial, trivial, hshort _ (by omega), ?_⟩
  exact fun call hcall => absurd hcall List.not_mem_nil

theorem text_store_answers_checkin :
    answers (TextStore.call id) Table.empty checkinCalls =
        answers OfflineActionStore.call Table.empty checkinCalls ∧
      (after (TextStore.call id) Table.empty checkinCalls).rows =
        (after OfflineActionStore.call Table.empty checkinCalls).rows.map (·.stored) :=
  text_store_answers fits_checkinCalls

end Shows

end Hotelia.Offline
