import Mathlib.Data.List.Basic

/-!
# Readers that give back what was written

A reader takes something off the front of a text. A text that is written from parts is read back
part by part, as long as no part can be mistaken for a longer one: what follows a part has to
keep the reader from going on.

## Main definitions

- `Reader`, `Reads` — a reader, and what it finds where a text stands
- `run`, `cat` — runs of letters, and texts one after the other
- `upTo`, `items` — items up to a closing letter, without and with separators

## Main results

- `Reads.then`, `Reads.cat`: two readers after another.
- `reads_run`: a run of letters ends where a letter of another kind follows.
- `reads_items`: items that are written with separators.
-/

namespace Foundation

variable {α β γ : Type*}

/-- What is found at the front of a text, and the rest of it. -/
abbrev Reader (α β : Type*) := List α → Option (β × List α)

/-- The reader finds `b` where `text` stands, provided that `next` holds of what follows. -/
def Reads (reader : Reader α β) (text : List α) (b : β) (next : List α → Prop) : Prop :=
  ∀ rest, next rest → reader (text ++ rest) = some (b, rest)

/-- Nothing follows, or a letter with `p`. -/
def Starts (p : α → Bool) (rest : List α) : Prop := ∀ c ∈ rest.head?, p c = true

theorem starts_cons {p : α → Bool} {c : α} {rest : List α} : Starts p (c :: rest) ↔ p c = true := by
  simp [Starts]

theorem Starts.imp {p q : α → Bool} {rest : List α} (h : Starts p rest)
    (hpq : ∀ c, p c = true → q c = true) : Starts q rest := fun c hc => hpq c (h c hc)

namespace Reader

/-- What the second reader finds behind what the first has found. -/
def next (reader : Reader α β) (f : β → Reader α γ) : Reader α γ := fun text =>
  (reader text).bind fun found => f found.1 found.2

/-- The value of what is found. -/
def map (f : β → γ) (reader : Reader α β) : Reader α γ := fun text =>
  (reader text).map fun found => (f found.1, found.2)

/-- Two parts of a text as one. -/
def cat (first second : Reader α (List α)) : Reader α (List α) :=
  first.next fun front => second.map fun back => front ++ back

/-- The longest run of letters with `p`. -/
def run (p : α → Bool) : Reader α (List α) := fun text =>
  some (text.takeWhile p, text.dropWhile p)

/-- One letter. -/
def letter : Reader α (List α)
  | [] => none
  | c :: rest => some ([c], rest)

/-- A run that is not empty. -/
def someRun (p : α → Bool) : Reader α (List α) := fun text =>
  if text.takeWhile p = [] then none else run p text

/-- What is read if the text starts with a letter with `p`, and nothing otherwise. -/
def ifStarts (p : α → Bool) (reader : Reader α (List α)) : Reader α (List α) := fun text =>
  if text.head?.any p then reader text else some ([], text)

/-- Items one after the other, up to a letter `close`; so many at most. -/
def upTo [DecidableEq α] (item : Reader α β) (close : α) : ℕ → Reader α (List β)
  | 0, _ => none
  | n + 1, text =>
    if text.head? = some close then some ([], text.tail)
    else (item text).bind fun found =>
      (upTo item close n found.2).map fun more => (found.1 :: more.1, more.2)

/-- Items with `sep` between any two of them, up to `close`; so many at most. -/
def items [DecidableEq α] (item : Reader α β) (sep close : α) : ℕ → Reader α (List β)
  | 0, _ => none
  | n + 1, text =>
    match item text with
    | none => none
    | some (_, []) => none
    | some (b, c :: rest) =>
      if c = close then some ([b], rest)
      else if c = sep then (items item sep close n rest).map fun found => (b :: found.1, found.2)
      else none

end Reader

/-! ## One after the other -/

section Sequence

variable {first : Reader α β} {text text' : List α} {b : β} {next next' : List α → Prop}

theorem Reads.imp {reader : Reader α β} (h : Reads reader text b next)
    (himp : ∀ rest, next' rest → next rest) : Reads reader text b next' :=
  fun rest hrest => h rest (himp rest hrest)

theorem Reads.map (h : Reads first text b next) (f : β → γ) :
    Reads (first.map f) text (f b) next := by
  intro rest hrest
  rw [Reader.map, h rest hrest]
  rfl

/-- The second reader is where the first has stopped. -/
theorem Reads.then {second : β → Reader α γ} {c : γ} (h : Reads first text b next)
    (h' : Reads (second b) text' c next') (hnext : ∀ rest, next' rest → next (text' ++ rest)) :
    Reads (first.next second) (text ++ text') c next' := by
  intro rest hrest
  rw [Reader.next, List.append_assoc, h _ (hnext rest hrest)]
  exact h' rest hrest

theorem Reads.cat {first second : Reader α (List α)} (h : Reads first text text next)
    (h' : Reads second text' text' next') (hnext : ∀ rest, next' rest → next (text' ++ rest)) :
    Reads (first.cat second) (text ++ text') (text ++ text') next' :=
  h.then (h'.map (text ++ ·)) hnext

end Sequence

/-! ## Letters -/

section Letters

theorem Starts.takeWhile_eq_nil {p : α → Bool} {rest : List α} (h : Starts (!p ·) rest) :
    rest.takeWhile p = [] := by
  cases rest with
  | nil => rfl
  | cons c rest =>
    have hc : p c = false := by simpa using starts_cons.mp h
    rw [List.takeWhile_cons_of_neg (by simp [hc])]

theorem Starts.dropWhile_eq {p : α → Bool} {rest : List α} (h : Starts (!p ·) rest) :
    rest.dropWhile p = rest := by
  cases rest with
  | nil => rfl
  | cons c rest =>
    have hc : p c = false := by simpa using starts_cons.mp h
    rw [List.dropWhile_cons_of_neg (by simp [hc])]

/-- A run ends where another letter follows. -/
theorem reads_run {p : α → Bool} {text : List α} (h : ∀ c ∈ text, p c = true) :
    Reads (Reader.run p) text text (Starts (!p ·)) := by
  intro rest hrest
  rw [Reader.run, List.takeWhile_append_of_pos h, List.dropWhile_append_of_pos h,
    hrest.takeWhile_eq_nil, hrest.dropWhile_eq, List.append_nil]

theorem reads_someRun {p : α → Bool} {text : List α} (hne : text ≠ [])
    (h : ∀ c ∈ text, p c = true) : Reads (Reader.someRun p) text text (Starts (!p ·)) := by
  intro rest hrest
  have hrun : (text ++ rest).takeWhile p = text := by
    rw [List.takeWhile_append_of_pos h, hrest.takeWhile_eq_nil, List.append_nil]
  rw [Reader.someRun, hrun, if_neg hne]
  exact reads_run h rest hrest

theorem reads_letter (c : α) : Reads Reader.letter [c] [c] fun _ => True := fun _ _ => rfl

theorem reads_ifStarts {p : α → Bool} {c : α} (hc : p c = true) {reader : Reader α (List α)}
    {text : List α} {next : List α → Prop} (h : Reads reader (c :: text) (c :: text) next) :
    Reads (reader.ifStarts p) (c :: text) (c :: text) next := by
  intro rest hrest
  have hstarts : ((c :: text) ++ rest).head?.any p = true := by simpa using hc
  rw [Reader.ifStarts, if_pos hstarts]
  exact h rest hrest

theorem reads_ifStarts_nil (p : α → Bool) (reader : Reader α (List α)) :
    Reads (reader.ifStarts p) [] [] (Starts (!p ·)) := by
  intro rest hrest
  have hother : ¬ rest.head?.any p = true := by
    cases rest with
    | nil => simp
    | cons c rest => simpa using starts_cons.mp hrest
  rw [List.nil_append, Reader.ifStarts, if_neg hother]

end Letters

/-! ## Separated items -/

section Items

variable [DecidableEq α] {item : Reader α β} {sep close : α}

/-- Items that are each read back, and none of which starts as the end does. -/
theorem reads_upTo {entries : List (List α × β)} {n : ℕ} (hn : entries.length < n)
    (hclose : ∀ entry ∈ entries, entry.1.head? ≠ some close ∧ entry.1 ≠ [])
    (h : ∀ entry ∈ entries, Reads item entry.1 entry.2 fun _ => True) :
    Reads (item.upTo close n) ((entries.map (·.1)).flatten ++ [close]) (entries.map (·.2))
      fun _ => True := by
  intro rest _
  induction entries generalizing n with
  | nil =>
    obtain ⟨n, rfl⟩ : ∃ m, n = m + 1 := ⟨n - 1, by omega⟩
    simp [Reader.upTo]
  | cons entry entries ih =>
    rw [List.length_cons] at hn
    obtain ⟨n, rfl⟩ : ∃ m, n = m + 1 := ⟨n - 1, by omega⟩
    obtain ⟨hhead, hne⟩ := hclose entry List.mem_cons_self
    have hless : entries.length < n := by omega
    have hrest := ih hless (fun e he => hclose e (List.mem_cons_of_mem entry he))
      fun e he => h e (List.mem_cons_of_mem entry he)
    have hfirst := h entry List.mem_cons_self ((entries.map (·.1)).flatten ++ [close] ++ rest) trivial
    have hother : (entry.1 ++ ((entries.map (·.1)).flatten ++ [close] ++ rest)).head? ≠ some close := by
      rwa [List.head?_append_of_ne_nil _ hne]
    rw [List.map_cons, List.flatten_cons, List.append_assoc, List.append_assoc,
      ← List.append_assoc _ [close], Reader.upTo, if_neg hother, hfirst, Option.bind_some, hrest]
    rfl

/-- Items that are each read back are read back one after the other. -/
theorem reads_items (hne : sep ≠ close) {entries : List (List α × β)} (hentries : entries ≠ [])
    {n : ℕ} (hn : entries.length ≤ n)
    (h : ∀ entry ∈ entries, Reads item entry.1 entry.2 (Starts fun c => c = sep ∨ c = close)) :
    Reads (item.items sep close n) (List.intercalate [sep] (entries.map (·.1)) ++ [close])
      (entries.map (·.2)) fun _ => True := by
  intro rest _
  induction entries generalizing n with
  | nil => exact absurd rfl hentries
  | cons entry entries ih =>
    obtain ⟨n, rfl⟩ : ∃ m, n = m + 1 := by
      obtain _ | m := n
      · exact absurd hn (by simp)
      · exact ⟨m, rfl⟩
    have hfirst := h entry List.mem_cons_self
    cases entries with
    | nil =>
      have hread : item (entry.1 ++ close :: rest) = some (entry.2, close :: rest) :=
        hfirst _ (starts_cons.mpr (by simp))
      simp [Reader.items, hread]
    | cons other entries =>
      have hrest := ih (by simp) (Nat.le_of_succ_le_succ hn)
        fun e he => h e (List.mem_cons_of_mem entry he)
      have htext : List.intercalate [sep] ((entry :: other :: entries).map (·.1)) ++ [close] ++ rest =
          entry.1 ++ sep :: (List.intercalate [sep] ((other :: entries).map (·.1)) ++ [close] ++
            rest) := by
        simp [List.intercalate]
      have hread : item (entry.1 ++ sep :: (List.intercalate [sep] ((other :: entries).map (·.1)) ++
          [close] ++ rest)) = some (entry.2, sep :: (List.intercalate [sep]
            ((other :: entries).map (·.1)) ++ [close] ++ rest)) :=
        hfirst _ (starts_cons.mpr (by simp))
      rw [htext, Reader.items, hread]
      simp only [if_neg hne, if_true]
      rw [hrest]
      rfl

end Items

end Foundation
