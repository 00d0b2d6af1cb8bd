import Mathlib.Data.List.DropRight

/-!
# The last event of a kind

A history is a list of events, the oldest first. What the present depends on is often the last
event of a kind, and what has happened since.

## Main definitions

- `last`, `lastAt` — the last event with a property, and its place in the history
- `since` — the events that have come after it
-/

namespace Foundation.Timeline

variable {ε : Type*} (p : ε → Bool)

/-- The events up to the last one with `p`. -/
def upTo (es : List ε) : List ε := es.rdropWhile fun e => !p e

/-- The events after the last one with `p`, and all of them if there is none. -/
def since (es : List ε) : List ε := es.rtakeWhile fun e => !p e

/-- The last event with `p`. -/
def last (es : List ε) : Option ε := (upTo p es).getLast?

/-- The place of the last event with `p`, counted from one; zero if there is none. -/
def lastAt (es : List ε) : ℕ := (upTo p es).length

variable {p} {es : List ε} {e : ε}

theorem upTo_concat_of_pos (h : p e = true) : upTo p (es ++ [e]) = es ++ [e] := by
  apply List.rdropWhile_concat_neg
  simp [h]

theorem upTo_concat_of_neg (h : p e = false) : upTo p (es ++ [e]) = upTo p es := by
  apply List.rdropWhile_concat_pos
  simp [h]

theorem since_concat_of_pos (h : p e = true) : since p (es ++ [e]) = [] := by
  apply List.rtakeWhile_concat_neg
  simp [h]

theorem since_concat_of_neg (h : p e = false) : since p (es ++ [e]) = since p es ++ [e] := by
  apply List.rtakeWhile_concat_pos
  simp [h]

theorem mem_of_mem_since (h : e ∈ since p es) : e ∈ es :=
  (List.rtakeWhile_suffix _ _).subset h

theorem last_concat_of_pos (h : p e = true) : last p (es ++ [e]) = some e := by
  rw [last, upTo_concat_of_pos h, List.getLast?_concat]

theorem last_concat_of_neg (h : p e = false) : last p (es ++ [e]) = last p es := by
  rw [last, upTo_concat_of_neg h, last]

theorem lastAt_concat_of_pos (h : p e = true) : lastAt p (es ++ [e]) = es.length + 1 := by
  rw [lastAt, upTo_concat_of_pos h, List.length_append, List.length_singleton]

theorem lastAt_concat_of_neg (h : p e = false) : lastAt p (es ++ [e]) = lastAt p es := by
  rw [lastAt, upTo_concat_of_neg h, lastAt]

theorem lastAt_le_length : lastAt p es ≤ es.length := (List.rdropWhile_prefix _ _).length_le

end Foundation.Timeline
