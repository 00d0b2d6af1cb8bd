import Hotelia.Foundation.Table
import Hotelia.Shared.Validators
import Mathlib.Data.List.MinMax
import Mathlib.Data.Prod.Lex

/-!
# The offline action store

The `offline_actions` table and the operations on it
(`apps/console/src/main/offline/store.ts`). Each operation is one SQLite
transaction. Times are milliseconds; an ISO timestamp orders as its time does.

## Main definitions

- `OfflineActionStore` — the table, with its primary key and its unique column
- `insert`, `claimNext`, `markComplete`, `markFailed`, `requeueStaleProcessing`
- `Ticket` — the place of a row in the claim order
-/

namespace Hotelia.Offline
open Foundation

inductive ActionStatus where
  | pending | processing | failed | completed
  deriving DecidableEq, Repr

def maxRetryCount : ℕ := 8

/-- A row of `offline_actions`. `rowid` is SQLite's own row number. -/
structure OfflineActionRecord where
  rowid : ℕ
  id : String
  actionType : String
  payload : JsonRecord
  idempotencyKey : String
  status : ActionStatus
  createdAt : ℕ
  updatedAt : ℕ
  retryCount : ℕ
  lastError : Option String

namespace OfflineActionRecord

/-- `id TEXT PRIMARY KEY` and `idempotency_key TEXT UNIQUE`, next to the rowid. -/
def Clash (a b : OfflineActionRecord) : Prop :=
  a.id = b.id ∨ a.idempotencyKey = b.idempotencyKey ∨ a.rowid = b.rowid

instance : DecidableRel Clash := fun a b =>
  inferInstanceAs (Decidable (a.id = b.id ∨ a.idempotencyKey = b.idempotencyKey ∨ a.rowid = b.rowid))

theorem Clash.symm (a b : OfflineActionRecord) (h : Clash a b) : Clash b a :=
  h.imp Eq.symm (Or.imp Eq.symm Eq.symm)

/-- `status = 'PENDING' OR (status = 'FAILED' AND retry_count < ?)`. -/
def Claimable (r : OfflineActionRecord) : Prop :=
  r.status = .pending ∨ (r.status = .failed ∧ r.retryCount < maxRetryCount)

instance : DecidablePred Claimable := fun r =>
  inferInstanceAs (Decidable (r.status = .pending ∨ (r.status = .failed ∧ r.retryCount < maxRetryCount)))

/-- A claimable row is not `PROCESSING`. -/
theorem Claimable.not_processing {r : OfflineActionRecord} (h : r.Claimable) :
    r.status ≠ .processing := by
  intro hp
  simp [Claimable, hp] at h

theorem Claimable.not_completed {r : OfflineActionRecord} (h : r.Claimable) :
    r.status ≠ .completed := by
  intro hp
  simp [Claimable, hp] at h

/-- `CASE status WHEN 'PENDING' THEN 0 WHEN 'FAILED' THEN 1 ELSE 2 END`. -/
def rank (r : OfflineActionRecord) : ℕ :=
  match r.status with
  | .pending => 0
  | .failed => 1
  | _ => 2

/-- `SET status='PROCESSING', updated_at=?`. -/
def claimed (now : ℕ) (r : OfflineActionRecord) : OfflineActionRecord :=
  { r with status := .processing, updatedAt := now }

/-- `SET status='COMPLETED', updated_at=?, last_error=NULL`. -/
def completed (now : ℕ) (r : OfflineActionRecord) : OfflineActionRecord :=
  { r with status := .completed, updatedAt := now, lastError := none }

/-- `SET status='FAILED', retry_count=retry_count+1, last_error=?, updated_at=?`. -/
def failed (error : String) (now : ℕ) (r : OfflineActionRecord) : OfflineActionRecord :=
  { r with status := .failed, retryCount := r.retryCount + 1, lastError := some error,
           updatedAt := now }

/-- `SET status='PENDING', updated_at=?`. -/
def requeued (now : ℕ) (r : OfflineActionRecord) : OfflineActionRecord :=
  { r with status := .pending, updatedAt := now }

end OfflineActionRecord

open OfflineActionRecord

/-- The place of a row in the order in which rows are claimed: the `ORDER BY` of
`claimNext`, rows that tie being read in rowid order. -/
structure Ticket where
  rank : ℕ
  createdAt : ℕ
  rowid : ℕ
  id : String
  retryCount : ℕ
  deriving DecidableEq, Repr

namespace Ticket

def key (t : Ticket) : ℕ ×ₗ ℕ ×ₗ ℕ ×ₗ String ×ₗ ℕ :=
  toLex (t.rank, toLex (t.createdAt, toLex (t.rowid, toLex (t.id, t.retryCount))))

theorem key_injective : Function.Injective key := by
  intro a b h
  cases a
  cases b
  simpa [key] using h

instance : LinearOrder Ticket := LinearOrder.lift' key key_injective

theorem lt_iff {a b : Ticket} : a < b ↔ a.rank < b.rank ∨ a.rank = b.rank ∧
    (a.createdAt < b.createdAt ∨ a.createdAt = b.createdAt ∧
      (a.rowid < b.rowid ∨ a.rowid = b.rowid ∧
        (a.id < b.id ∨ a.id = b.id ∧ a.retryCount < b.retryCount))) := by
  show a.key < b.key ↔ _
  simp only [key, Prod.Lex.toLex_lt_toLex]

end Ticket

def OfflineActionRecord.ticket (r : OfflineActionRecord) : Ticket :=
  ⟨r.rank, r.createdAt, r.rowid, r.id, r.retryCount⟩

/-- The `offline_actions` table. -/
abbrev OfflineActionStore := Table OfflineActionRecord Clash

/-- An `UPDATE` may set any column but the row's keys. -/
def KeepsKeys (f : OfflineActionRecord → OfflineActionRecord) : Prop :=
  ∀ r, (f r).rowid = r.rowid ∧ (f r).id = r.id ∧ (f r).idempotencyKey = r.idempotencyKey

theorem keepsKeys_claimed (now : ℕ) : KeepsKeys (claimed now) := fun _ => ⟨rfl, rfl, rfl⟩

theorem keepsKeys_completed (now : ℕ) : KeepsKeys (completed now) := fun _ => ⟨rfl, rfl, rfl⟩

theorem keepsKeys_failed (error : String) (now : ℕ) : KeepsKeys (failed error now) :=
  fun _ => ⟨rfl, rfl, rfl⟩

theorem keepsKeys_requeued (now : ℕ) : KeepsKeys (requeued now) := fun _ => ⟨rfl, rfl, rfl⟩

namespace OfflineActionStore

/-- `UPDATE offline_actions SET f WHERE sel`. -/
def setWhere (s : OfflineActionStore) (sel : OfflineActionRecord → Bool)
    (f : OfflineActionRecord → OfflineActionRecord) (hf : KeepsKeys f) : OfflineActionStore :=
  s.update (fun r => if sel r then f r else r) <| by
    have hkeys : KeepsKeys fun r => if sel r then f r else r := by
      intro r
      dsimp only
      split
      · exact hf r
      · exact ⟨rfl, rfl, rfl⟩
    intro a b hc
    simpa only [Clash, hkeys a, hkeys b] using hc

/-- `SELECT … WHERE idempotency_key = ?`. -/
def selectByKey (s : OfflineActionStore) (key : String) : Option OfflineActionRecord :=
  s.rows.find? fun r => r.idempotencyKey = key

/-- The rowid that SQLite gives the next row. -/
def nextRowid (s : OfflineActionStore) : ℕ := (s.rows.map (·.rowid)).foldr max 0 + 1

/-- `insert(input, now)`, with `id` the value of `randomUUID()`. There is no
record to return only if the id was taken already. -/
def insert (s : OfflineActionStore) (input : SyncEnqueueInput) (id : String) (now : ℕ) :
    Option OfflineActionRecord × OfflineActionStore :=
  let s' : OfflineActionStore := s.insertOrIgnore
    { rowid := s.nextRowid, id, actionType := input.actionType, payload := input.payload,
      idempotencyKey := input.idempotencyKey, status := .pending, createdAt := now,
      updatedAt := now, retryCount := 0, lastError := none }
  (s'.selectByKey input.idempotencyKey, s')

/-- The row that `claimNext` finds: `ORDER BY … LIMIT 1`. -/
def findClaimable (s : OfflineActionStore) : Option OfflineActionRecord :=
  (s.rows.filter Claimable).argmin ticket

/-- `claimNext(now)`. -/
def claimNext (s : OfflineActionStore) (now : ℕ) :
    Option (OfflineActionRecord × OfflineActionStore) :=
  match s.findClaimable with
  | none => none
  | some row =>
    some (row.claimed now, s.setWhere (·.id = row.id) (claimed now) (keepsKeys_claimed now))

/-- `markComplete(id, now)`. -/
def markComplete (s : OfflineActionStore) (id : String) (now : ℕ) : OfflineActionStore :=
  s.setWhere (·.id = id) (completed now) (keepsKeys_completed now)

/-- `markFailed(id, error, now)`. -/
def markFailed (s : OfflineActionStore) (id error : String) (now : ℕ) : OfflineActionStore :=
  s.setWhere (·.id = id) (failed error now) (keepsKeys_failed error now)

/-- How a claimed row is marked once its delivery went well, or failed. -/
def mark (s : OfflineActionStore) (id : String) (ok : Bool) (error : String) (now : ℕ) :
    OfflineActionStore :=
  if ok then s.markComplete id now else s.markFailed id error now

/-- `status='PROCESSING' AND updated_at < cutoff`, the cutoff being `beforeMs` ago. -/
def Stale (beforeMs now : ℕ) (r : OfflineActionRecord) : Prop :=
  r.status = .processing ∧ r.updatedAt + beforeMs < now

instance (beforeMs now : ℕ) : DecidablePred (Stale beforeMs now) := fun r =>
  inferInstanceAs (Decidable (r.status = .processing ∧ r.updatedAt + beforeMs < now))

/-- `requeueStaleProcessing(beforeMs, now)`: how many rows went back, and the store. -/
def requeueStaleProcessing (s : OfflineActionStore) (beforeMs now : ℕ) : ℕ × OfflineActionStore :=
  (s.rows.countP (Stale beforeMs now),
    s.setWhere (Stale beforeMs now) (requeued now) (keepsKeys_requeued now))

/-- The default of `beforeMs`. -/
def staleAfterMs : ℕ := 30000

structure ActionStatusCounts where
  pending : ℕ
  processing : ℕ
  failed : ℕ
  completed : ℕ

/-- `countByStatus()`. -/
def countByStatus (s : OfflineActionStore) : ActionStatusCounts where
  pending := s.rows.countP (·.status = .pending)
  processing := s.rows.countP (·.status = .processing)
  failed := s.rows.countP (·.status = .failed)
  completed := s.rows.countP (·.status = .completed)

/-- `oldestPendingTs()`. -/
def oldestPendingTs (s : OfflineActionStore) : Option ℕ :=
  ((s.rows.filter (·.status ≠ .completed)).map (·.createdAt)).min?

/-! ## Rows after an update -/

@[simp] theorem setWhere_rows (s : OfflineActionStore) (sel : OfflineActionRecord → Bool) (f) (hf) :
    (s.setWhere sel f hf).rows = s.rows.map fun r => if sel r then f r else r := rfl

/-- A row is determined by its id. -/
theorem eq_of_id_eq (s : OfflineActionStore) {a b : OfflineActionRecord} (ha : a ∈ s.rows)
    (hb : b ∈ s.rows) (h : a.id = b.id) : a = b :=
  s.eq_of_clash Clash.symm ha hb (.inl h)

/-! ## What a claim does -/

theorem findClaimable_eq_none {s : OfflineActionStore} :
    s.findClaimable = none ↔ ∀ r ∈ s.rows, ¬ r.Claimable := by
  simp [findClaimable, List.argmin_eq_none, List.filter_eq_nil_iff]

/-- The claimed row is claimable, and no claimable row comes before it. -/
theorem findClaimable_eq_some {s : OfflineActionStore} {row : OfflineActionRecord}
    (h : s.findClaimable = some row) :
    row ∈ s.rows ∧ row.Claimable ∧ ∀ r ∈ s.rows, r.Claimable → row.ticket ≤ r.ticket := by
  have hmem := List.mem_filter.mp (List.argmin_mem (Option.mem_def.mpr h))
  refine ⟨hmem.1, of_decide_eq_true hmem.2, ?_⟩
  intro r hr hc
  exact List.le_of_mem_argmin (List.mem_filter.mpr ⟨hr, decide_eq_true hc⟩) (Option.mem_def.mpr h)

theorem claimNext_eq_none {s : OfflineActionStore} {now : ℕ} :
    s.claimNext now = none ↔ ∀ r ∈ s.rows, ¬ r.Claimable := by
  rw [← findClaimable_eq_none]
  rw [claimNext]
  split <;> simp_all

/-- A claim marks the first claimable row, and no other, as `PROCESSING`. -/
theorem claimNext_eq_some {s s' : OfflineActionStore} {now : ℕ} {c : OfflineActionRecord}
    (h : s.claimNext now = some (c, s')) :
    ∃ row, s.findClaimable = some row ∧ c = row.claimed now ∧
      s'.rows = s.rows.map fun r => if r.id = row.id then r.claimed now else r := by
  rw [claimNext] at h
  split at h
  · cases h
  · next row hrow =>
    simp only [Option.some.injEq, Prod.mk.injEq] at h
    obtain ⟨rfl, rfl⟩ := h
    exact ⟨row, hrow, rfl, by simp⟩

end OfflineActionStore

end Hotelia.Offline
