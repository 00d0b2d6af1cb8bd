import Mathlib.Data.List.AList

/-!
# Maps whose entries expire

A map that stamps each entry with the time of its writing. An entry counts for
`ttl` units of time and is as good as absent afterwards, whether or not it has
been purged: two maps agree from some time on if they hold the same live entries at
every later time.
-/

namespace Foundation

/-- A value with the time at which it was written. -/
structure Stamped (β : Type*) where
  time : ℕ
  value : β

/-- A map from keys to stamped values. -/
abbrev ExpiringMap (κ β : Type*) := AList fun _ : κ => Stamped β

namespace ExpiringMap

variable {κ β : Type*} [DecidableEq κ] (ttl : ℕ)

/-- The entry of `k`, unless it has expired. -/
def peek (m : ExpiringMap κ β) (now : ℕ) (k : κ) : Option (Stamped β) :=
  (m.lookup k).filter fun e => now < e.time + ttl

/-- Write an entry, in place of the one that was there. -/
def record (m : ExpiringMap κ β) (now : ℕ) (k : κ) (v : β) : ExpiringMap κ β :=
  m.insert k ⟨now, v⟩

omit [DecidableEq κ] in
/-- Delete the entries that are older than `ttl`. -/
def purge (m : ExpiringMap κ β) (now : ℕ) : ExpiringMap κ β where
  entries := m.entries.filter fun e => ¬ e.2.time + ttl < now
  nodupKeys := m.nodupKeys.sublist List.filter_sublist

variable {ttl}

theorem peek_eq_some {m : ExpiringMap κ β} {now : ℕ} {k : κ} {e : Stamped β} :
    peek ttl m now k = some e ↔ m.lookup k = some e ∧ now < e.time + ttl := by
  simp [peek, Option.filter_eq_some_iff]

theorem lookup_purge (m : ExpiringMap κ β) (now : ℕ) (k : κ) :
    (purge ttl m now).lookup k = (m.lookup k).filter fun e => ¬ e.time + ttl < now := by
  ext e
  rw [Option.filter_eq_some_iff, ← Option.mem_def, ← Option.mem_def, AList.mem_lookup_iff,
    AList.mem_lookup_iff, purge, List.mem_filter]

/-- A purge is not observable: what it deletes has expired. -/
theorem peek_purge (m : ExpiringMap κ β) {now t : ℕ} (ht : now ≤ t) (k : κ) :
    peek ttl (purge ttl m now) t k = peek ttl m t k := by
  rw [peek, peek, lookup_purge, Option.filter_filter]
  congr 1
  funext e
  simp only [decide_not, Bool.and_eq_decide]
  grind

theorem peek_record_self (m : ExpiringMap κ β) (now t : ℕ) (k : κ) (v : β) :
    peek ttl (m.record now k v) t k = if t < now + ttl then some ⟨now, v⟩ else none := by
  simp [peek, record, Option.filter_some]

theorem peek_record_ne (m : ExpiringMap κ β) (now t : ℕ) {k k' : κ} (v : β) (h : k' ≠ k) :
    peek ttl (m.record now k v) t k' = peek ttl m t k' := by
  rw [peek, peek, record, AList.lookup_insert_ne h]

/-! ## Agreement -/

variable (ttl) in
/-- The maps recall the same from `now` on. -/
def Agree (now : ℕ) (m m' : ExpiringMap κ β) : Prop :=
  ∀ t, now ≤ t → ∀ k, peek ttl m t k = peek ttl m' t k

theorem agree_refl (now : ℕ) (m : ExpiringMap κ β) : Agree ttl now m m := fun _ _ _ => rfl

theorem Agree.mono {now later : ℕ} {m m' : ExpiringMap κ β} (h : Agree ttl now m m')
    (hle : now ≤ later) : Agree ttl later m m' :=
  fun t ht k => h t (le_trans hle ht) k

theorem Agree.record {now : ℕ} {m m' : ExpiringMap κ β} (h : Agree ttl now m m') (k : κ) (v : β) :
    Agree ttl now (m.record now k v) (m'.record now k v) := by
  intro t ht k'
  by_cases hk : k' = k
  · subst hk
    rw [peek_record_self, peek_record_self]
  · rw [peek_record_ne m now t v hk, peek_record_ne m' now t v hk, h t ht k']

theorem Agree.purge_left {now : ℕ} {m m' : ExpiringMap κ β} (h : Agree ttl now m m') :
    Agree ttl now (purge ttl m now) m' := by
  intro t ht k
  rw [peek_purge m ht k, h t ht k]

end ExpiringMap

end Foundation
