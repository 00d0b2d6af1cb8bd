import Hotelia.Foundation.Timeline
import Hotelia.Kitchen.Board

/-!
# The board as a function of the frames

The page changes its orders frame by frame. What it shows in the end can be read from the
list of all frames: an order is shown from its last placement on, until it is completed or
cancelled, in the column of the last frame since then that has set one.

## Main definitions

- `OrderFrame` — a frame with a payload that has an order id
- `Shown`, `placedAt`, `cardAfter` — what the frames say of an order

## Main results

- `board_eq_history`: the board is what the frames say.
-/

namespace Hotelia.Kitchen
open Foundation

/-- A frame of the stream whose data is an order with an id. -/
structure OrderFrame (parse : String → Option JsonRecord) where
  event : String
  data : String
  order : JsonRecord
  id : String
  parsed : parse data = some order
  orderId_eq : orderId order = some (.str id)

/-- The column that a frame of this event sets. -/
def columnOf (event : String) : Option Column :=
  if event = "order.confirmed" then some .pending
  else if event = "order.preparing" then some .preparing
  else if event = "order.ready" then some .ready
  else none

variable {parse : String → Option JsonRecord}

namespace OrderFrame

variable (f : OrderFrame parse)

/-- The arguments of `handleFrame`. -/
def call : String × String := (f.event, f.data)

/-- It places the order `id`. -/
def places (id : String) : Bool := f.event == "order.placed" && f.id == id

/-- It completes or cancels the order `id`. -/
def removes (id : String) : Bool :=
  (f.event == "order.completed" || f.event == "order.cancelled") && f.id == id

/-- The column that it sets for the order `id`. -/
def column (id : String) : Option Column := if f.id = id then columnOf f.event else none

variable {f} {id : String}

theorem places_of_ne (h : id ≠ f.id) : f.places id = false := by simp [places, h.symm]

theorem removes_of_ne (h : id ≠ f.id) : f.removes id = false := by simp [removes, h.symm]

theorem column_of_ne (h : id ≠ f.id) : f.column id = none := if_neg h.symm

end OrderFrame

/-! ## What the frames say -/

section History

variable (fs : List (OrderFrame parse)) (id : String)

/-- The frames since the last placement of an order. -/
def sincePlaced : List (OrderFrame parse) := Timeline.since (·.places id) fs

/-- The last placement of an order. -/
def placement : Option (OrderFrame parse) := Timeline.last (·.places id) fs

/-- The place of its last placement among the frames. -/
def placedAt : ℕ := Timeline.lastAt (·.places id) fs

/-- The order has been placed, and has not been completed or cancelled since. -/
def Shown : Prop :=
  (∃ f ∈ fs, f.places id = true) ∧ ∀ f ∈ sincePlaced fs id, f.removes id = false

/-- The order as it was placed last, and the column that was set last since then. -/
def cardAfter : OrderCard where
  order := ((placement fs id).map (·.order)).getD []
  column := ((sincePlaced fs id).filterMap (·.column id)).getLast?.getD .pending

end History

section Concat

variable {fs : List (OrderFrame parse)} {f : OrderFrame parse} {id : String}

theorem placedAt_le_length : placedAt fs id ≤ fs.length := Timeline.lastAt_le_length

/-! ### A placement -/

theorem sincePlaced_concat_of_places (h : f.places id = true) : sincePlaced (fs ++ [f]) id = [] :=
  Timeline.since_concat_of_pos h

theorem placement_concat_of_places (h : f.places id = true) :
    placement (fs ++ [f]) id = some f := Timeline.last_concat_of_pos h

theorem placedAt_concat_of_places (h : f.places id = true) :
    placedAt (fs ++ [f]) id = fs.length + 1 := Timeline.lastAt_concat_of_pos h

theorem shown_concat_of_places (h : f.places id = true) : Shown (fs ++ [f]) id := by
  constructor
  · exact ⟨f, List.mem_append_right _ List.mem_cons_self, h⟩
  · rw [sincePlaced_concat_of_places h]
    exact List.forall_mem_nil _

theorem cardAfter_concat_of_places (h : f.places id = true) :
    cardAfter (fs ++ [f]) id = ⟨f.order, .pending⟩ := by
  rw [cardAfter, sincePlaced_concat_of_places h, placement_concat_of_places h]
  rfl

/-! ### Any other frame -/

theorem sincePlaced_concat (h : f.places id = false) :
    sincePlaced (fs ++ [f]) id = sincePlaced fs id ++ [f] := Timeline.since_concat_of_neg h

theorem placement_concat (h : f.places id = false) : placement (fs ++ [f]) id = placement fs id :=
  Timeline.last_concat_of_neg h

theorem placedAt_concat (h : f.places id = false) : placedAt (fs ++ [f]) id = placedAt fs id :=
  Timeline.lastAt_concat_of_neg h

theorem shown_concat (h : f.places id = false) :
    Shown (fs ++ [f]) id ↔ Shown fs id ∧ f.removes id = false := by
  rw [Shown, Shown, sincePlaced_concat h, and_assoc, List.forall_mem_append,
    List.forall_mem_singleton]
  simp [or_and_right, exists_or, h]

theorem cardAfter_concat (h : f.places id = false) :
    cardAfter (fs ++ [f]) id =
      { cardAfter fs id with column := (f.column id).getD (cardAfter fs id).column } := by
  rw [cardAfter, cardAfter, sincePlaced_concat h, placement_concat h, List.filterMap_append,
    List.getLast?_append]
  cases hcolumn : f.column id with
  | none => simp [hcolumn]
  | some column => simp [hcolumn]

theorem cardAfter_concat_of_quiet (h : f.places id = false) (hcolumn : f.column id = none) :
    cardAfter (fs ++ [f]) id = cardAfter fs id := by
  rw [cardAfter_concat h, hcolumn]
  rfl

/-! ### Orders that are not placed by it -/

theorem newest_concat {ids : List String} (h : ∀ id ∈ ids, f.places id = false)
    (hnewest : ids.Pairwise fun a b => placedAt fs b < placedAt fs a) :
    ids.Pairwise fun a b => placedAt (fs ++ [f]) b < placedAt (fs ++ [f]) a := by
  apply hnewest.imp_of_mem
  intro a b ha hb hlt
  rwa [placedAt_concat (h a ha), placedAt_concat (h b hb)]

theorem cards_concat_of_quiet {ids : List String} (h : ∀ id ∈ ids, f.places id = false)
    (hcolumn : ∀ id ∈ ids, f.column id = none) :
    ids.map (cardAfter (fs ++ [f])) = ids.map (cardAfter fs) :=
  List.map_congr_left fun id hid => cardAfter_concat_of_quiet (h id hid) (hcolumn id hid)

end Concat

/-! ## What a frame does to the cards -/

section Cards

variable {ids : List String} {card : String → OrderCard}

theorem strictEq_str (a b : String) : strictEq (some (.str a)) (some (.str b)) = (a == b) := rfl

/-- The other orders keep their places, behind the order. -/
theorem upsert_eq (cards : List OrderCard) (f : OrderFrame parse) :
    upsert cards f.order = ⟨f.order, .pending⟩ :: removeOrder cards (some (.str f.id)) := by
  rw [upsert, f.orderId_eq, removeOrder]

theorem removeOrder_map (hnamed : ∀ i ∈ ids, orderId (card i).order = some (.str i)) (id : String) :
    removeOrder (ids.map card) (some (.str id)) = (ids.filter (· ≠ id)).map card := by
  rw [removeOrder, List.filter_map]
  apply congrArg (List.map card)
  apply List.filter_congr
  intro i hi
  rw [Function.comp_apply, hnamed i hi, strictEq_str]
  by_cases heq : i = id
  · simp [heq]
  · simp [heq]

theorem move_map (hnamed : ∀ i ∈ ids, orderId (card i).order = some (.str i)) (id : String)
    (column : Column) : move (ids.map card) (some (.str id)) column =
      ids.map fun i => if i = id then { card i with column } else card i := by
  rw [move, List.map_map]
  apply List.map_congr_left
  intro i hi
  rw [Function.comp_apply, hnamed i hi, strictEq_str]
  by_cases heq : i = id
  · simp [heq]
  · simp [heq]

theorem move_cardAfter {fs : List (OrderFrame parse)} {f : OrderFrame parse}
    (hnamed : ∀ i ∈ ids, orderId (cardAfter fs i).order = some (.str i))
    (hplaces : ∀ i ∈ ids, f.places i = false) {column : Column}
    (hcolumn : columnOf f.event = some column) :
    move (ids.map (cardAfter fs)) (some (.str f.id)) column =
      ids.map (cardAfter (fs ++ [f])) := by
  rw [move_map hnamed]
  apply List.map_congr_left
  intro i hi
  rw [cardAfter_concat (hplaces i hi), OrderFrame.column, hcolumn]
  by_cases heq : i = f.id
  · rw [if_pos heq, if_pos heq.symm]
    rfl
  · rw [if_neg heq, if_neg (Ne.symm heq)]
    rfl

end Cards

/-- A frame places its order, removes it, or sets its column. -/
theorem handleFrame_call (cards : List OrderCard) (f : OrderFrame parse) :
    handleFrame cards parse f.call =
      if f.event = "order.placed" then upsert cards f.order
      else if f.event = "order.completed" ∨ f.event = "order.cancelled" then
        removeOrder cards (some (.str f.id))
      else
        match columnOf f.event with
        | some column => move cards (some (.str f.id)) column
        | none => cards := by
  obtain ⟨event, data, order, id, hparsed, hid⟩ := f
  rw [OrderFrame.call, handleFrame, hparsed]
  dsimp only
  rw [hid, columnOf]
  by_cases hplaced : event = "order.placed"
  · rw [if_pos hplaced, if_pos hplaced]
  by_cases hconfirmed : event = "order.confirmed"
  · subst hconfirmed
    rfl
  by_cases hpreparing : event = "order.preparing"
  · subst hpreparing
    rfl
  by_cases hready : event = "order.ready"
  · subst hready
    rfl
  simp only [hplaced, hconfirmed, hpreparing, hready, if_false, or_comm]

/-! ## What the frames leave -/

/-- The cards of the orders `ids` are those that the frames say, the newest placement first. -/
structure Reflects (fs : List (OrderFrame parse)) (ids : List String) (cards : List OrderCard) :
    Prop where
  newest : ids.Pairwise fun a b => placedAt fs b < placedAt fs a
  shown : ∀ id, id ∈ ids ↔ Shown fs id
  cards : cards = ids.map (cardAfter fs)
  named : ∀ id ∈ ids, orderId (cardAfter fs id).order = some (.str id)

section Step

variable {fs : List (OrderFrame parse)} {f : OrderFrame parse} {ids : List String}
  {cards : List OrderCard}

theorem Reflects.placed (h : Reflects fs ids cards) (hplaced : f.event = "order.placed") :
    Reflects (fs ++ [f]) (f.id :: ids.filter (· ≠ f.id)) (upsert cards f.order) := by
  have hself : f.places f.id = true := by simp [OrderFrame.places, hplaced]
  have hne {id : String} (hid : id ∈ ids.filter (· ≠ f.id)) : id ∈ ids ∧ id ≠ f.id := by
    simpa using hid
  have hplaces : ∀ id ∈ ids.filter (· ≠ f.id), f.places id = false :=
    fun _ hid => OrderFrame.places_of_ne (hne hid).2
  have hcolumn : ∀ id ∈ ids.filter (· ≠ f.id), f.column id = none :=
    fun _ hid => OrderFrame.column_of_ne (hne hid).2
  constructor
  · rw [List.pairwise_cons]
    refine ⟨fun id hid => ?_, newest_concat hplaces (h.newest.filter _)⟩
    rw [placedAt_concat (hplaces id hid), placedAt_concat_of_places hself]
    exact Nat.lt_succ_of_le placedAt_le_length
  · intro id
    by_cases hid : id = f.id
    · subst hid
      exact iff_of_true List.mem_cons_self (shown_concat_of_places hself)
    · rw [shown_concat (OrderFrame.places_of_ne hid), ← h.shown]
      simp [hid, OrderFrame.removes_of_ne hid]
  · rw [upsert_eq, h.cards, removeOrder_map h.named, List.map_cons,
      cardAfter_concat_of_places hself, cards_concat_of_quiet hplaces hcolumn]
  · intro id hid
    obtain rfl | hid := List.mem_cons.mp hid
    · rw [cardAfter_concat_of_places hself]
      exact f.orderId_eq
    · rw [cardAfter_concat_of_quiet (hplaces id hid) (hcolumn id hid)]
      exact h.named id (hne hid).1

theorem Reflects.removed (h : Reflects fs ids cards)
    (hremoved : f.event = "order.completed" ∨ f.event = "order.cancelled") :
    Reflects (fs ++ [f]) (ids.filter (· ≠ f.id)) (removeOrder cards (some (.str f.id))) := by
  have hplaces (id : String) : f.places id = false := by
    obtain hevent | hevent := hremoved
    · simp [OrderFrame.places, hevent]
    · simp [OrderFrame.places, hevent]
  have hcolumn (id : String) : f.column id = none := by
    obtain hevent | hevent := hremoved
    · simp [OrderFrame.column, hevent, columnOf]
    · simp [OrderFrame.column, hevent, columnOf]
  have hremoves (id : String) : f.removes id = false ↔ id ≠ f.id := by
    have hevent : (f.event == "order.completed" || f.event == "order.cancelled") = true := by
      simpa using hremoved
    rw [OrderFrame.removes, hevent, Bool.true_and, beq_eq_false_iff_ne]
    exact ne_comm
  constructor
  · exact newest_concat (fun id _ => hplaces id) (h.newest.filter _)
  · intro id
    rw [shown_concat (hplaces id), hremoves, ← h.shown, List.mem_filter, decide_eq_true_eq]
  · rw [h.cards, removeOrder_map h.named]
    exact (cards_concat_of_quiet (fun id _ => hplaces id) fun id _ => hcolumn id).symm
  · intro id hid
    rw [cardAfter_concat_of_quiet (hplaces id) (hcolumn id)]
    exact h.named id (List.mem_of_mem_filter hid)

/-- A frame that neither places nor removes leaves the orders as they are. -/
theorem Reflects.kept (h : Reflects fs ids cards) (hplaced : f.event ≠ "order.placed")
    (hremoved : ¬ (f.event = "order.completed" ∨ f.event = "order.cancelled")) :
    Reflects (fs ++ [f]) ids
      (match columnOf f.event with
        | some column => move cards (some (.str f.id)) column
        | none => cards) := by
  have hplaces (id : String) : f.places id = false := by simp [OrderFrame.places, hplaced]
  have hremoves (id : String) : f.removes id = false := by
    rw [not_or] at hremoved
    simp [OrderFrame.removes, hremoved]
  constructor
  · exact newest_concat (fun id _ => hplaces id) h.newest
  · intro id
    rw [shown_concat (hplaces id), ← h.shown]
    exact (and_iff_left (hremoves id)).symm
  · rw [h.cards]
    cases hevent : columnOf f.event with
    | none =>
      have hcolumn (id : String) : f.column id = none := by
        rw [OrderFrame.column, hevent, ite_self]
      exact (cards_concat_of_quiet (fun id _ => hplaces id) fun id _ => hcolumn id).symm
    | some column => exact move_cardAfter h.named (fun id _ => hplaces id) hevent
  · intro id hid
    rw [cardAfter_concat (hplaces id)]
    exact h.named id hid

end Step

theorem exists_reflects (fs : List (OrderFrame parse)) :
    ∃ ids, Reflects fs ids ((fs.map OrderFrame.call).foldl (handleFrame · parse ·) []) := by
  induction fs using List.reverseRecOn with
  | nil =>
    refine ⟨[], List.Pairwise.nil, fun id => ?_, rfl, List.forall_mem_nil _⟩
    refine iff_of_false List.not_mem_nil ?_
    rintro ⟨⟨f, hf, -⟩, -⟩
    cases hf
  | append_singleton fs f ih =>
    obtain ⟨ids, h⟩ := ih
    rw [List.map_append, List.map_singleton, List.foldl_append, List.foldl_cons, List.foldl_nil,
      handleFrame_call]
    by_cases hplaced : f.event = "order.placed"
    · rw [if_pos hplaced]
      exact ⟨_, h.placed hplaced⟩
    rw [if_neg hplaced]
    by_cases hremoved : f.event = "order.completed" ∨ f.event = "order.cancelled"
    · rw [if_pos hremoved]
      exact ⟨_, h.removed hremoved⟩
    · rw [if_neg hremoved]
      exact ⟨_, h.kept hplaced hremoved⟩

/-- For every sequence of frames: the board has one card for each order that has been placed and
not been completed or cancelled since, and no other; the cards are in the order of the last
placements, the newest first, each in the column that was set last since then. -/
theorem board_eq_history (fs : List (OrderFrame parse)) :
    ∃ ids : List String, ids.Nodup ∧ (∀ id, id ∈ ids ↔ Shown fs id) ∧
      ids.Pairwise (fun a b => placedAt fs b < placedAt fs a) ∧
      (fs.map OrderFrame.call).foldl (handleFrame · parse ·) [] = ids.map (cardAfter fs) ∧
      ∀ id ∈ ids, orderId (cardAfter fs id).order = some (.str id) := by
  obtain ⟨ids, h⟩ := exists_reflects fs
  have hnodup : ids.Nodup :=
    h.newest.imp fun hlt hsame => hlt.ne (congrArg (placedAt fs) hsame.symm)
  exact ⟨ids, hnodup, h.shown, h.newest, h.cards, h.named⟩

end Hotelia.Kitchen
