import Mathlib.Data.List.Chain

/-!
# Frames that arrive in pieces

A text is a list of letters, one of which, `nl`, ends lines. Two line ends in a row end a
frame. A reader that is handed the text in pieces keeps what follows the last end of a
frame until the next piece has come.

## Main results

- `splitFrames_append`: what is kept is all that the rest of the text needs.
- `receiveAll_eq`: the frames do not depend on how the text is cut.
- `splitFrames_framesText`: the frames of a text that is written frame by frame.
-/

namespace Foundation

variable {α : Type*} {nl : α}

/-! ## Frames -/

/-- A frame that does not end before it is ended: it has no two line ends in a row, and none at
its end. -/
def Solid (nl : α) (f : List α) : Prop := (f ++ [nl]).IsChain fun a b => ¬ (a = nl ∧ b = nl)

/-- The frames, each with its end. -/
def framesText (nl : α) (fs : List (List α)) : List α := (fs.map (· ++ [nl, nl])).flatten

theorem Solid.cons {c : α} {f : List α} (hc : c ≠ nl) (h : Solid nl f) : Solid nl (c :: f) := by
  cases f with
  | nil => exact List.isChain_cons_cons.mpr ⟨fun hcc => hc hcc.1, h⟩
  | cons d f => exact List.isChain_cons_cons.mpr ⟨fun hcc => hc hcc.1, h⟩

theorem Solid.append {l f : List α} (hl : nl ∉ l) (h : Solid nl f) : Solid nl (l ++ f) := by
  induction l with
  | nil => exact h
  | cons c l ih =>
    rw [List.mem_cons, not_or] at hl
    exact (ih hl.2).cons (Ne.symm hl.1)

/-- A line is a frame. -/
theorem solid_of_not_mem {l : List α} (h : nl ∉ l) : Solid nl l := by
  rw [← List.append_nil l]
  exact Solid.append h (.singleton nl)

/-- A line on top of a frame that does not start with a line end. -/
theorem Solid.line {l f : List α} {c : α} (hl : nl ∉ l) (hc : c ≠ nl) (h : Solid nl (c :: f)) :
    Solid nl (l ++ nl :: c :: f) :=
  Solid.append hl (List.isChain_cons_cons.mpr ⟨fun hcc => hc hcc.2, h⟩)

/-! ## A reader -/

variable [DecidableEq α] (nl)

/-- Put a letter before the first of the pieces. -/
def consPiece (c : α) : List (List α) × List α → List (List α) × List α
  | ([], last) => ([], c :: last)
  | (f :: fs, last) => ((c :: f) :: fs, last)

/-- The pieces between pairs of line ends, from left to right: all but the last, and the
last. -/
def splitFrames : List α → List (List α) × List α
  | [] => ([], [])
  | [c] => ([], [c])
  | c :: d :: rest =>
    if c = nl ∧ d = nl then ([] :: (splitFrames rest).1, (splitFrames rest).2)
    else consPiece c (splitFrames (d :: rest))

/-- The frames that end in the pieces of a text, and what is kept after the last of them. -/
def receiveAll (buffer : List α) : List (List α) → List (List α) × List α
  | [] => ([], buffer)
  | chunk :: chunks =>
    ((splitFrames nl (buffer ++ chunk)).1 ++
        (receiveAll (splitFrames nl (buffer ++ chunk)).2 chunks).1,
      (receiveAll (splitFrames nl (buffer ++ chunk)).2 chunks).2)

variable {nl}

/-- A text without a frame is kept whole. -/
theorem splitFrames_of_nil {text : List α} (h : (splitFrames nl text).1 = []) :
    splitFrames nl text = ([], text) := by
  induction text using splitFrames.induct nl with
  | case1 => rfl
  | case2 c => rfl
  | case3 c d rest hnl ih => simp [splitFrames, hnl] at h
  | case4 c d rest hnl ih =>
    rw [splitFrames, if_neg hnl] at h ⊢
    cases hrest : splitFrames nl (d :: rest) with
    | mk fs last =>
      cases fs with
      | nil =>
        rw [ih (by rw [hrest])] at hrest
        cases hrest
        rfl
      | cons f fs =>
        rw [hrest] at h
        exact nomatch h

/-- What is kept after the frames of the beginning is all that the rest needs. -/
theorem splitFrames_append (text rest : List α) :
    splitFrames nl (text ++ rest) =
      ((splitFrames nl text).1 ++ (splitFrames nl ((splitFrames nl text).2 ++ rest)).1,
        (splitFrames nl ((splitFrames nl text).2 ++ rest)).2) := by
  induction text using splitFrames.induct nl with
  | case1 => rfl
  | case2 c => rfl
  | case3 c d tail hnl ih =>
    simp only [List.cons_append, splitFrames, if_pos hnl, ih]
  | case4 c d tail hnl ih =>
    have hsplit : splitFrames nl (c :: d :: tail ++ rest) =
        consPiece c (splitFrames nl (d :: tail ++ rest)) := by
      simp only [List.cons_append, splitFrames, if_neg hnl]
    rw [hsplit]
    cases hfirst : splitFrames nl (d :: tail) with
    | mk fs last =>
      have hwhole : splitFrames nl (c :: d :: tail) = consPiece c (fs, last) := by
        rw [splitFrames, if_neg hnl, hfirst]
      rw [hwhole]
      cases fs with
      | nil =>
        -- no frame ends yet, and everything is kept
        have hempty : (splitFrames nl (d :: tail)).1 = [] := by rw [hfirst]
        have hkept := splitFrames_of_nil hempty
        rw [hkept] at hfirst
        cases hfirst
        rw [← hsplit]
        rfl
      | cons f fs =>
        rw [ih, hfirst]
        rfl

/-- What is kept has no frame in it. -/
theorem splitFrames_kept (text : List α) :
    splitFrames nl (splitFrames nl text).2 = ([], (splitFrames nl text).2) := by
  have happend : splitFrames nl (text ++ []) = _ := splitFrames_append text []
  have h := congrArg (fun p => p.1.length) happend
  simp only [List.append_nil, List.length_append] at h
  refine splitFrames_of_nil (List.eq_nil_of_length_eq_zero ?_)
  omega

/-- The frames do not depend on how the text is cut. -/
theorem receiveAll_eq {buffer : List α} (h : splitFrames nl buffer = ([], buffer))
    (chunks : List (List α)) :
    receiveAll nl buffer chunks = splitFrames nl (buffer ++ chunks.flatten) := by
  induction chunks generalizing buffer with
  | nil => rw [List.flatten_nil, List.append_nil, h, receiveAll]
  | cons chunk chunks ih =>
    rw [List.flatten_cons, ← List.append_assoc, splitFrames_append, receiveAll,
      ih (splitFrames_kept _)]

/-! ## A text written frame by frame -/

theorem splitFrames_frame {f : List α} (h : Solid nl f) (rest : List α) :
    splitFrames nl (f ++ nl :: nl :: rest) =
      (f :: (splitFrames nl rest).1, (splitFrames nl rest).2) := by
  induction f with
  | nil => simp [splitFrames]
  | cons c f ih =>
    have htail : Solid nl f := List.IsChain.tail h
    cases f with
    | nil =>
      have hc : ¬ (c = nl ∧ nl = nl) := (List.isChain_cons_cons.mp h).1
      rw [List.singleton_append, splitFrames, if_neg hc]
      rw [List.nil_append] at ih
      rw [ih htail]
      rfl
    | cons d f =>
      have hc : ¬ (c = nl ∧ d = nl) := (List.isChain_cons_cons.mp h).1
      rw [List.cons_append, List.cons_append, splitFrames, if_neg hc, ← List.cons_append, ih htail]
      rfl

/-- The frames of a text are those that it was written from. -/
theorem splitFrames_framesText {fs : List (List α)} (h : ∀ f ∈ fs, Solid nl f) :
    splitFrames nl (framesText nl fs) = (fs, []) := by
  induction fs with
  | nil => rfl
  | cons f fs ih =>
    have hrest := ih fun g hg => h g (List.mem_cons_of_mem f hg)
    have htext : framesText nl (f :: fs) = f ++ nl :: nl :: framesText nl fs := by
      simp [framesText]
    rw [htext, splitFrames_frame (h f List.mem_cons_self), hrest]

end Foundation
