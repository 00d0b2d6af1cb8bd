import Hotelia.Database.Inventory
import Hotelia.Database.References
import Mathlib.Data.List.Nodup

/-!
# The count of a channel among transactions

The transactions of `lockChannelInventory`, statement by statement. `SELECT … FOR UPDATE`
waits for whoever has locked the row, and then reads what was committed; a transaction
may also be refused while it waits. The count is written back as a value, which the lock
keeps true of the row until it is committed.

## Main definitions

- `Locks` — the committed tables, where each transaction stands, and what was returned
- `step` — what a statement does, if its turn can come

## Main results

- `run_lock`: a transaction by itself does what the call does.
- `conserved`: the committed calls on a row account for what its count has lost.
-/

namespace Hotelia
open Foundation

namespace Database

/-- Where a transaction of `lockChannelInventory` stands. -/
inductive LockStage where
  /-- The row is locked, and its count has been read. -/
  | locked (row : ChannelInventory)
  /-- The count was positive. -/
  | checked (row : ChannelInventory)
  /-- The count is written. -/
  | updated (row : ChannelInventory) (now : ℤ)
  /-- Committed, or aborted. -/
  | over

/-- The row that a transaction has locked, as it has read it. -/
def LockStage.row : LockStage → Option ChannelInventory
  | .locked row => some row
  | .checked row => some row
  | .updated row _ => some row
  | .over => none

inductive LockEvent where
  /-- `SELECT … FOR UPDATE` -/
  | lock (input : LockChannelInventoryInput)
  /-- A transaction that would have to wait is refused. -/
  | refuse
  | check (i : ℕ)
  /-- `UPDATE channel_inventory` -/
  | update (i : ℕ) (now : ℤ)
  | commit (i : ℕ)
  | abort (i : ℕ)

structure Locks where
  /-- What has been committed. -/
  db : Database
  transactions : List LockStage
  /-- What the committed calls have returned, each with the id of its row. -/
  returned : List (String × ℤ)

namespace Locks

/-- Before the first statement. -/
def start (db : Database) : Locks := ⟨db, [], []⟩

variable (s : Locks)

def begin (stage : LockStage) : Locks := { s with transactions := s.transactions ++ [stage] }

def setStage (i : ℕ) (stage : LockStage) : Locks :=
  { s with transactions := s.transactions.set i stage }

/-- Somebody has locked the row. -/
def Held (rowId : String) : Prop := ∃ p ∈ s.transactions, ∃ row ∈ p.row, row.id = rowId

instance (rowId : String) : Decidable (s.Held rowId) :=
  inferInstanceAs (Decidable (∃ p ∈ s.transactions, ∃ row ∈ p.row, row.id = rowId))

/-- What a statement does, if its turn can come. -/
def step : LockEvent → Option Locks
  | .lock input =>
    match s.db.findInventory input with
    | some row => if s.Held row.id then none else some (s.begin (.locked row))
    | none => some (s.begin .over)
  | .refuse => some (s.begin .over)
  | .check i =>
    match s.transactions[i]? with
    | some (.locked row) =>
      if row.available ≤ 0 then some (s.setStage i .over) else some (s.setStage i (.checked row))
    | _ => none
  | .update i now =>
    match s.transactions[i]? with
    | some (.checked row) => some (s.setStage i (.updated row now))
    | _ => none
  | .commit i =>
    match s.transactions[i]? with
    | some (.updated row now) => some {
        db := s.db.setAvailable row.id (row.available - 1) now
        transactions := s.transactions.set i .over
        returned := s.returned ++ [(row.id, row.available - 1)] }
    | _ => none
  | .abort i =>
    match s.transactions[i]? with
    | some _ => some (s.setStage i .over)
    | none => none

/-- What the committed calls on a row have returned, the oldest first. -/
def returnedOf (rowId : String) : List ℤ := (s.returned.filter (·.1 = rowId)).map (·.2)

variable {s} {db db' : Database}

/-- A transaction by itself does what `lockChannelInventory` does. -/
theorem run_lock {input : LockChannelInventoryInput} {now after : ℤ}
    (h : db.lockChannelInventory input now = .ok (db', after)) :
    ∃ rowId, run step (start db) [.lock input, .check 0, .update 0 now, .commit 0] =
      some ⟨db', [.over], [(rowId, after)]⟩ := by
  obtain ⟨row, hrow, havailable, rfl, rfl⟩ := lockChannelInventory_eq_ok h
  refine ⟨row.id, run_cons_eq_some.mpr ⟨⟨db, [.locked row], []⟩, ?_, ?_⟩⟩
  · have hfree : ¬ (start db).Held row.id := by
      rintro ⟨p, hp, -⟩
      cases hp
    simp only [step]
    rw [show (start db).db.findInventory input = some row from hrow]
    exact if_neg hfree
  · have hpositive : ¬ row.available ≤ 0 := by omega
    simp [run, step, setStage, hpositive]

/-! ## Counts -/

/-- The row as it is committed. -/
def rowOf (db : Database) (rowId : String) : Option ChannelInventory :=
  db.channelInventory.rows.find? fun row => row.id = rowId

theorem rowOf_of_mem {row : ChannelInventory} (h : row ∈ db.channelInventory.rows) :
    rowOf db row.id = some row := by
  cases hf : rowOf db row.id with
  | none =>
    have := List.find?_eq_none.mp hf row h
    simp at this
  | some other =>
    have hid : other.id = row.id := by simpa using List.find?_some hf
    rw [db.channelInventory.eq_of_clash ChannelInventory.Clash.symm (List.mem_of_find?_eq_some hf) h
      (.inl hid)]

theorem rowOf_setAvailable (id rowId : String) (available now : ℤ) :
    rowOf (db.setAvailable id available now) rowId = (rowOf db rowId).map fun row =>
      if row.id = id then { row with available, lastSyncedAt := now } else row := by
  show (db.channelInventory.rows.map _).find? _ = _
  rw [List.find?_map, rowOf]
  congr 2
  funext row
  show decide ((if row.id = id then { row with available, lastSyncedAt := now } else row).id =
    rowId) = decide (row.id = rowId)
  split <;> rfl

theorem id_of_rowOf {rowId : String} {row : ChannelInventory} (h : rowOf db rowId = some row) :
    row.id = rowId := by
  simpa using List.find?_some h

/-- The numbers below `a`, from `a - 1` down, `n` of them. -/
def countDown (a : ℤ) (n : ℕ) : List ℤ := (List.range n).map fun k : ℕ => a - 1 - k

theorem countDown_succ (a : ℤ) (n : ℕ) : countDown a (n + 1) = countDown a n ++ [a - 1 - n] := by
  rw [countDown, List.range_succ, List.map_append, List.map_singleton, countDown]

theorem length_countDown (a : ℤ) (n : ℕ) : (countDown a n).length = n := by
  rw [countDown, List.length_map, List.length_range]

theorem nodup_countDown (a : ℤ) (n : ℕ) : (countDown a n).Nodup := by
  refine List.Nodup.map (fun k l hkl => ?_) List.nodup_range
  have hsub : a - 1 - (k : ℤ) = a - 1 - (l : ℤ) := hkl
  omega

/-- The count that a transaction has checked was positive. -/
def Positive : LockStage → Prop
  | .checked row => 0 < row.available
  | .updated row _ => 0 < row.available
  | _ => True

/-- The calls on a row have counted down from what it was, and a count that was not negative
is not. -/
def Counted (before : ChannelInventory) (s : Locks) : Prop :=
  ∃ n : ℕ, ∃ now, rowOf s.db before.id = some now ∧ now.available = before.available - n ∧
    s.returnedOf before.id = countDown before.available n ∧
    (0 ≤ before.available → 0 ≤ now.available)

/-- The row that a transaction has locked. -/
def rowAt (s : Locks) (i : ℕ) : Option ChannelInventory := s.transactions[i]?.bind LockStage.row

/-- What holds in every state that a run reaches. -/
structure Sound (db : Database) (s : Locks) : Prop where
  /-- The row of a lock is as it was read. -/
  reads : ∀ i row, s.rowAt i = some row → rowOf s.db row.id = some row
  /-- A row is locked once. -/
  exclusive : ∀ i j row other, s.rowAt i = some row → s.rowAt j = some other →
    row.id = other.id → i = j
  positive : ∀ p ∈ s.transactions, Positive p
  counted : ∀ row ∈ db.channelInventory.rows, Counted row s

theorem rowOf_of_findInventory {input : LockChannelInventoryInput} {row : ChannelInventory}
    (h : db.findInventory input = some row) : rowOf db row.id = some row :=
  rowOf_of_mem (List.mem_of_find?_eq_some h)

/-- A row is held exactly if some transaction has it. -/
theorem held_of_rowAt {i : ℕ} {row : ChannelInventory} (h : s.rowAt i = some row) :
    s.Held row.id := by
  obtain ⟨p, hp, hrow⟩ := Option.bind_eq_some_iff.mp h
  exact ⟨p, List.mem_of_getElem? hp, row, hrow, rfl⟩

theorem rowAt_begin {stage : LockStage} {i : ℕ} {row : ChannelInventory}
    (h : (s.begin stage).rowAt i = some row) :
    s.rowAt i = some row ∨ (i = s.transactions.length ∧ stage.row = some row) := by
  obtain ⟨p, hp, hrow⟩ := Option.bind_eq_some_iff.mp h
  rw [begin, List.getElem?_append] at hp
  split at hp
  · exact .inl (Option.bind_eq_some_iff.mpr ⟨p, hp, hrow⟩)
  · obtain ⟨hlt, rfl⟩ := List.getElem?_eq_some_iff.mp hp
    rw [List.getElem_singleton] at hrow
    rw [List.length_singleton] at hlt
    exact .inr ⟨by omega, hrow⟩

/-- What a transaction has after it went on is what it had, or nothing. -/
theorem rowAt_set {i j : ℕ} {stage next : LockStage} {row : ChannelInventory}
    (hstage : s.transactions[i]? = some stage)
    (hnext : ∀ row, next.row = some row → stage.row = some row)
    (h : ((s.transactions.set i next)[j]?.bind LockStage.row) = some row) :
    s.rowAt j = some row := by
  obtain ⟨p, hp, hrow⟩ := Option.bind_eq_some_iff.mp h
  obtain ⟨rfl, rfl⟩ | ⟨-, hold⟩ := getElem?_set_cases hp
  · exact Option.bind_eq_some_iff.mpr ⟨stage, hstage, hnext row hrow⟩
  · exact Option.bind_eq_some_iff.mpr ⟨p, hold, hrow⟩

/-- A commit counts the row that it has read down by one, and no other. -/
theorem Counted.commit {before row : ChannelInventory} {transactions : List LockStage} {now : ℤ}
    (h : Counted before s) (hread : rowOf s.db row.id = some row) (hchecked : 0 < row.available) :
    Counted before {
      db := s.db.setAvailable row.id (row.available - 1) now
      transactions
      returned := s.returned ++ [(row.id, row.available - 1)] } := by
  obtain ⟨n, current, hcurrent, havailable, hreturned, hpositive⟩ := h
  have hid := id_of_rowOf hcurrent
  by_cases hrow : row.id = before.id
  · obtain rfl : current = row := by
      rw [hrow, hcurrent] at hread
      exact Option.some.inj hread
    refine ⟨n + 1, { current with available := current.available - 1, lastSyncedAt := now },
      ?_, ?_, ?_, fun _ => ?_⟩
    · rw [rowOf_setAvailable, hcurrent, Option.map_some, if_pos rfl]
    · show current.available - 1 = before.available - (n + 1 : ℕ)
      omega
    · rw [returnedOf, List.filter_append, List.map_append, ← returnedOf, hreturned,
        countDown_succ]
      simp only [hrow, decide_true, List.filter_cons_of_pos, List.filter_nil, List.map_singleton]
      rw [havailable]
      congr 2
      omega
    · show 0 ≤ current.available - 1
      omega
  · refine ⟨n, current, ?_, havailable, ?_, hpositive⟩
    · rw [rowOf_setAvailable, hcurrent, Option.map_some, if_neg (by rwa [hid, eq_comm])]
    · rw [returnedOf, List.filter_append, List.map_append, ← returnedOf, hreturned]
      simp [hrow]

namespace Sound

/-- A transaction begins, with a row that nobody has locked. -/
theorem begin {stage : LockStage} (h : Sound db s) (hpositive : Positive stage)
    (hrow : ∀ row, stage.row = some row → rowOf s.db row.id = some row ∧ ¬ s.Held row.id) :
    Sound db (s.begin stage) := by
  refine ⟨?_, ?_, ?_, h.counted⟩
  · intro i row hi
    rcases rowAt_begin hi with hi | ⟨-, hstage⟩
    · exact h.reads i row hi
    · exact (hrow row hstage).1
  · intro i j row other hi hj hid
    rcases rowAt_begin hi with hi | ⟨rfl, hstage⟩
    · rcases rowAt_begin hj with hj | ⟨rfl, hstage⟩
      · exact h.exclusive i j row other hi hj hid
      · exact absurd (hid ▸ held_of_rowAt hi) (hrow other hstage).2
    · rcases rowAt_begin hj with hj | ⟨rfl, -⟩
      · exact absurd (hid ▸ held_of_rowAt hj) (hrow row hstage).2
      · rfl
  · exact forall_mem_concat h.positive hpositive

/-- A transaction goes on, and nothing is committed. -/
theorem setStage {i : ℕ} {stage next : LockStage} (h : Sound db s)
    (hstage : s.transactions[i]? = some stage) (hpositive : Positive next)
    (hnext : ∀ row, next.row = some row → stage.row = some row) :
    Sound db (s.setStage i next) := by
  refine ⟨fun j row hj => h.reads j row (rowAt_set hstage hnext hj), ?_,
    forall_mem_set i h.positive hpositive, h.counted⟩
  intro j k row other hj hk hid
  exact h.exclusive j k row other (rowAt_set hstage hnext hj) (rowAt_set hstage hnext hk) hid

/-- A commit counts its row down by one, and leaves the rows of the other locks alone. -/
theorem commit {i : ℕ} {row : ChannelInventory} {now : ℤ} (h : Sound db s)
    (hstage : s.transactions[i]? = some (.updated row now)) :
    Sound db {
      db := s.db.setAvailable row.id (row.available - 1) now
      transactions := s.transactions.set i .over
      returned := s.returned ++ [(row.id, row.available - 1)] } := by
  have hi : s.rowAt i = some row := Option.bind_eq_some_iff.mpr ⟨_, hstage, rfl⟩
  have hover : ∀ other, LockStage.over.row = some other →
      (LockStage.updated row now).row = some other := fun _ h => nomatch h
  refine ⟨?_, ?_, forall_mem_set i h.positive trivial, ?_⟩
  · intro j other hj
    have hother := rowAt_set hstage hover hj
    have hne : other.id ≠ row.id := by
      intro hid
      obtain rfl : j = i := h.exclusive j i other row hother hi hid
      obtain ⟨hlt, -⟩ := List.getElem?_eq_some_iff.mp hstage
      rw [rowAt, List.getElem?_set_self hlt] at hj
      exact nomatch hj
    rw [rowOf_setAvailable, h.reads j other hother, Option.map_some, if_neg hne]
  · intro j k other another hj hk hid
    exact h.exclusive j k other another (rowAt_set hstage hover hj) (rowAt_set hstage hover hk) hid
  · exact fun before hbefore =>
      (h.counted before hbefore).commit (h.reads i row hi) (h.positive _ (List.mem_of_getElem? hstage))

theorem step {t : Locks} {e : LockEvent} (h : Sound db s) (hstep : s.step e = some t) :
    Sound db t := by
  have hnone : ∀ row, LockStage.over.row = some row → rowOf s.db row.id = some row ∧
      ¬ s.Held row.id := fun _ h => nomatch h
  cases e with
  | lock input =>
    simp only [Locks.step] at hstep
    split at hstep
    · next row hrow =>
      split at hstep
      · cases hstep
      · next hfree =>
        cases hstep
        refine h.begin trivial fun other hother => ?_
        obtain rfl : row = other := Option.some.inj hother
        exact ⟨rowOf_of_findInventory hrow, hfree⟩
    · cases hstep
      exact h.begin trivial hnone
  | refuse =>
    cases hstep
    exact h.begin trivial hnone
  | check i =>
    simp only [Locks.step] at hstep
    split at hstep
    · next row hstage =>
      split at hstep
      · cases hstep
        exact h.setStage hstage trivial fun _ h => nomatch h
      · next hpositive =>
        cases hstep
        exact h.setStage hstage (show 0 < row.available by omega) fun _ h => h
    · cases hstep
  | update i now =>
    simp only [Locks.step] at hstep
    split at hstep
    · next row hstage =>
      cases hstep
      have hpositive : 0 < row.available := h.positive _ (List.mem_of_getElem? hstage)
      exact h.setStage hstage hpositive fun _ h => h
    · cases hstep
  | commit i =>
    simp only [Locks.step] at hstep
    split at hstep
    · next row now hstage =>
      cases hstep
      exact h.commit hstage
    · cases hstep
  | abort i =>
    simp only [Locks.step] at hstep
    split at hstep
    · next stage hstage =>
      cases hstep
      exact h.setStage hstage trivial fun _ h => nomatch h
    · cases hstep

end Sound

theorem sound_start (db : Database) : Sound db (start db) := by
  refine ⟨fun i row hi => ?_, fun i j row other hi => ?_, List.forall_mem_nil _, ?_⟩
  · simp [rowAt, start] at hi
  · simp [rowAt, start] at hi
  · intro row hrow
    exact ⟨0, row, rowOf_of_mem hrow, by omega, rfl, id⟩

/-- The count of a row never falls below zero, and what it has lost is the number of committed
calls on the row, no two of which have returned the same. -/
theorem conserved {es : List LockEvent} {t : Locks} {row : ChannelInventory}
    (hrun : run step (start db) es = some t) (hrow : row ∈ db.channelInventory.rows) :
    ∃ now ∈ t.db.channelInventory.rows, now.id = row.id ∧
      (0 ≤ row.available → 0 ≤ now.available) ∧
      row.available - now.available = (t.returnedOf row.id).length ∧
      (t.returnedOf row.id).Nodup := by
  have hsound : Sound db t :=
    run_invariant (I := Sound db) (fun _ _ _ h hstep => h.step hstep) (sound_start db) hrun
  obtain ⟨n, now, hnow, havailable, hreturned, hpositive⟩ := hsound.counted row hrow
  refine ⟨now, List.mem_of_find?_eq_some hnow, id_of_rowOf hnow, hpositive, ?_, ?_⟩
  · rw [hreturned, length_countDown]
    omega
  · rw [hreturned]
    exact nodup_countDown _ _

/-- Two suites that a channel may sell for the first day. -/
def sampleSuites : ChannelInventory := ⟨"suites", "hotel", .suite, "expedia", 0, 2, 0⟩

def sellable : Database :=
  { sample with channelInventory := ⟨[sampleSuites], List.pairwise_singleton _ _⟩ }

def sampleLock : LockChannelInventoryInput := ⟨"hotel", "expedia", 0, .suite⟩

/-- Two suites are sold, a third call is given up, and a fourth is refused. -/
def soldOut : List LockEvent :=
  [.lock sampleLock, .refuse, .check 0, .update 0 0, .commit 0, .lock sampleLock, .check 2, .abort 2,
    .lock sampleLock, .check 3, .update 3 0, .commit 3, .lock sampleLock, .check 4]

theorem conserved_soldOut :
    ∃ t, run step (start sellable) soldOut = some t ∧
      ∃ now ∈ t.db.channelInventory.rows, now.id = sampleSuites.id ∧
        (0 ≤ sampleSuites.available → 0 ≤ now.available) ∧
        sampleSuites.available - now.available = (t.returnedOf sampleSuites.id).length ∧
        (t.returnedOf sampleSuites.id).Nodup := by
  have hsome : (run step (start sellable) soldOut).isSome = true := by
    decide +kernel
  obtain ⟨t, ht⟩ := Option.isSome_iff_exists.mp hsome
  exact ⟨t, ht, conserved ht List.mem_cons_self⟩

end Locks

end Database

end Hotelia
