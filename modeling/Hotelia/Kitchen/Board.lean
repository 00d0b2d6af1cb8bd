import Hotelia.Broker.Ingress
import Hotelia.Kitchen.Page

/-!
# The board of the kitchen display

What `handleFrame` of `apps/kds/app/page.tsx` makes of the frames that the page reads, over
all the connections that it opens, one after the other.

## Main definitions

- `handleFrame` — the change of the orders for a frame
- `Connection`, `board` — the connections of a page, and the orders after them
- `ordersAfter` — the orders that the packets of the broker leave

## Main results

- `board_of_accepted`: a page whose list is accepted follows the broker.
- `follows_iff`: the page with its own list follows it exactly if no order is left.
-/

namespace Hotelia.Kitchen
open Broker

/-- `SUBSCRIBED`. -/
def subscribed : List String :=
  ["order.placed", "order.confirmed", "order.preparing", "order.ready", "order.cancelled",
    "order.completed"]

/-- What the server makes of the query of the page. -/
def requestedByPage : List String := requestedEvents (.text (",".intercalate subscribed))

inductive Column where
  | pending
  | preparing
  | ready

/-- `OrderCard`: the order as it was sent, and the column of its card. -/
structure OrderCard where
  order : JsonRecord
  column : Column

/-- `e.orderId`, which is `undefined` where the order has none. -/
def orderId (order : JsonRecord) : Option Json := order.lookup "orderId"

/-- `a === b` for values that were parsed apart, so that no two objects are one. -/
def strictEq : Option Json → Option Json → Bool
  | none, none => true
  | some .null, some .null => true
  | some (.bool a), some (.bool b) => a == b
  | some (.num a), some (.num b) => a == b
  | some (.str a), some (.str b) => a == b
  | _, _ => false

section Orders

variable (orders : List OrderCard)

def move (id : Option Json) (column : Column) : List OrderCard :=
  orders.map fun o => if strictEq (orderId o.order) id then { o with column } else o

def removeOrder (id : Option Json) : List OrderCard :=
  orders.filter fun o => !strictEq (orderId o.order) id

def upsert (e : JsonRecord) : List OrderCard :=
  ⟨e, .pending⟩ :: orders.filter fun o => !strictEq (orderId o.order) (orderId e)

/-- `handleFrame(event, data)`: the orders after a call. -/
def handleFrame (parse : String → Option JsonRecord) (call : String × String) : List OrderCard :=
  match parse call.2 with
  -- a malformed frame is ignored
  | none => orders
  | some e =>
    if call.1 = "order.placed" then upsert orders e
    else if call.1 = "order.confirmed" then move orders (orderId e) .pending
    else if call.1 = "order.preparing" then move orders (orderId e) .preparing
    else if call.1 = "order.ready" then move orders (orderId e) .ready
    else if call.1 = "order.cancelled" ∨ call.1 = "order.completed" then
      removeOrder orders (orderId e)
    else orders

end Orders

/-! ## The broker -/

/-- What happens at the broker while a page listens: a request to `POST /packet`, or a ping. -/
inductive BrokerStep where
  | packet (a : Arrival)
  | ping

/-- The broker after a request. -/
def afterPacket (b : LocalServer) (a : Arrival) : LocalServer :=
  (handlePacket purgeLarge b a.ip a.request a.time).2

/-- The packet that a request has published, if any. -/
def newsOf (b : LocalServer) (a : Arrival) : List PacketInput :=
  ((afterPacket b a).published.drop b.published.length).map (·.event)

/-- The packets that the broker accepts and publishes. -/
def news (b : LocalServer) : List BrokerStep → List PacketInput
  | [] => []
  | .ping :: steps => news b steps
  | .packet a :: steps => newsOf b a ++ news (afterPacket b a) steps

def afterSteps (b : LocalServer) : List BrokerStep → LocalServer
  | [] => b
  | .ping :: steps => afterSteps b steps
  | .packet a :: steps => afterSteps (afterPacket b a) steps

/-! ## The connections of a page -/

/-- One connection of a page: the bus at its request, what happens from then on until the page
asks again, and the pieces in which a response is read. -/
structure Connection where
  bus : StreamBus
  client : ℕ
  fresh : bus.Without client
  steps : List BrokerStep
  cut : String → List String
  whole : ∀ text, String.join (cut text) = text

section Connections

variable (parse : String → Option JsonRecord) (stringify : JsonRecord → JsonText)
  (requested : List String)

/-- What the bus publishes, and the pings in between. -/
def streamEvents (b : LocalServer) : List BrokerStep → List StreamEvent
  | [] => []
  | .ping :: steps => .ping :: streamEvents b steps
  | .packet a :: steps =>
    (newsOf b a).map (fun e => .publish e.type (stringify e.payload)) ++
      streamEvents (afterPacket b a) steps

/-- The calls of `handleFrame` during a connection. -/
def Connection.calls (b : LocalServer) (c : Connection) : List (String × String) :=
  consume (c.cut (String.join (respond c.bus c.client requested (streamEvents stringify b c.steps))))

/-- The orders after the connections of a page, which are made one after the other. -/
def board (b : LocalServer) (orders : List OrderCard) : List Connection → List OrderCard
  | [] => orders
  | c :: cs =>
    board (afterSteps b c.steps) ((c.calls stringify requested b).foldl (handleFrame · parse ·) orders)
      cs

end Connections

/-! ## What the board should show -/

/-- What a packet does to the orders of the kitchen. -/
def takeOrder (orders : List OrderCard) (e : PacketInput) : List OrderCard :=
  if e.type = "order.placed" then upsert orders e.payload
  else if e.type = "order.confirmed" then move orders (orderId e.payload) .pending
  else if e.type = "order.preparing" then move orders (orderId e.payload) .preparing
  else if e.type = "order.ready" then move orders (orderId e.payload) .ready
  else if e.type = "order.completed" then removeOrder orders (orderId e.payload)
  else orders

/-- The orders that the packets leave. -/
def ordersAfter (packets : List PacketInput) : List OrderCard := packets.foldl takeOrder []

/-- An order of this id is completed among the packets. -/
def Completed (id : Option Json) (packets : List PacketInput) : Prop :=
  ∃ e ∈ packets, e.type = "order.completed" ∧ strictEq id (orderId e.payload) = true

/-- Every order that is placed is completed later. -/
def Cleared : List PacketInput → Prop
  | [] => True
  | e :: packets =>
    (e.type = "order.placed" → Completed (orderId e.payload) packets) ∧ Cleared packets

/-! ## When no order is left -/

theorem eq_of_strictEq {a b : Option Json} (h : strictEq a b = true) : a = b := by
  revert h
  fun_cases strictEq a b with
  | case1 => exact fun _ => rfl
  | case2 => exact fun _ => rfl
  | case3 a b => exact fun h => by rw [eq_of_beq h]
  | case4 a b => exact fun h => by rw [eq_of_beq h]
  | case5 a b => exact fun h => by rw [eq_of_beq h]
  | case6 => exact fun h => nomatch h

theorem completed_cons {id : Option Json} {e : PacketInput} {packets : List PacketInput} :
    Completed id (e :: packets) ↔
      (e.type = "order.completed" ∧ strictEq id (orderId e.payload) = true) ∨
        Completed id packets := List.exists_mem_cons_iff ..

theorem orders_move (orders : List OrderCard) (id : Option Json) (column : Column) :
    (move orders id column).map (·.order) = orders.map (·.order) := by
  rw [move, List.map_map]
  refine List.map_congr_left fun o _ => ?_
  show (if strictEq (orderId o.order) id then { o with column } else o).order = o.order
  split <;> rfl

/-- A packet places an order, completes one, or keeps the orders where they are. -/
theorem takeOrder_cases (orders : List OrderCard) (e : PacketInput) :
    (e.type = "order.placed" ∧ takeOrder orders e = upsert orders e.payload) ∨
    (e.type = "order.completed" ∧ takeOrder orders e = removeOrder orders (orderId e.payload)) ∨
    (e.type ≠ "order.placed" ∧ e.type ≠ "order.completed" ∧
      (takeOrder orders e).map (·.order) = orders.map (·.order)) := by
  rw [takeOrder]
  by_cases hplaced : e.type = "order.placed"
  · exact .inl ⟨hplaced, if_pos hplaced⟩
  by_cases hcompleted : e.type = "order.completed"
  · refine .inr (.inl ⟨hcompleted, ?_⟩)
    rw [hcompleted]
    rfl
  refine .inr (.inr ⟨hplaced, hcompleted, ?_⟩)
  rw [if_neg hplaced]
  split
  · exact orders_move _ _ _
  split
  · exact orders_move _ _ _
  split
  · exact orders_move _ _ _
  · rfl

/-- The orders after a packet will all have been completed exactly if those before it will
have been, and the order that it places. -/
theorem completed_takeOrder (orders : List OrderCard) (e : PacketInput)
    (packets : List PacketInput) :
    (∀ o ∈ takeOrder orders e, Completed (orderId o.order) packets) ↔
      (∀ o ∈ orders, Completed (orderId o.order) (e :: packets)) ∧
        (e.type = "order.placed" → Completed (orderId e.payload) packets) := by
  simp only [completed_cons]
  rcases takeOrder_cases orders e with ⟨htype, heq⟩ | ⟨htype, heq⟩ | ⟨hplaced, hcompleted, heq⟩
  · rw [heq, upsert, List.forall_mem_cons, htype]
    constructor
    · rintro ⟨hnew, hold⟩
      refine ⟨fun o ho => .inr ?_, fun _ => hnew⟩
      cases hsame : strictEq (orderId o.order) (orderId e.payload) with
      | true => rwa [eq_of_strictEq hsame]
      | false => exact hold o (List.mem_filter.mpr ⟨ho, by rw [hsame]; rfl⟩)
    · rintro ⟨hold, hnew⟩
      refine ⟨hnew rfl, fun o ho => ?_⟩
      exact (hold o (List.mem_of_mem_filter ho)).resolve_left fun h => absurd h.1 (by decide)
  · rw [heq, removeOrder, htype]
    constructor
    · refine fun h => ⟨fun o ho => ?_, fun hp => absurd hp (by decide)⟩
      cases hsame : strictEq (orderId o.order) (orderId e.payload) with
      | true => exact .inl ⟨rfl, rfl⟩
      | false => exact .inr (h o (List.mem_filter.mpr ⟨ho, by rw [hsame]; rfl⟩))
    · rintro ⟨hold, -⟩ o ho
      obtain ⟨hmem, hdiffers⟩ := List.mem_filter.mp ho
      refine (hold o hmem).resolve_left fun h => ?_
      rw [h.2] at hdiffers
      exact absurd hdiffers (by decide)
  · have hmap : (∀ o ∈ takeOrder orders e, Completed (orderId o.order) packets) ↔
        ∀ o ∈ orders, Completed (orderId o.order) packets := by
      rw [← List.forall_mem_map (f := OrderCard.order) (P := fun o => Completed (orderId o) packets),
        heq, List.forall_mem_map]
    rw [hmap]
    simp only [hplaced, hcompleted, false_and, false_or, false_implies, and_true]

/-- No order is left exactly if those at the beginning and those that are placed are completed. -/
theorem foldl_takeOrder_eq_nil (orders : List OrderCard) (packets : List PacketInput) :
    packets.foldl takeOrder orders = [] ↔
      (∀ o ∈ orders, Completed (orderId o.order) packets) ∧ Cleared packets := by
  induction packets generalizing orders with
  | nil =>
    have hnone : ∀ id, ¬ Completed id [] := fun id ⟨_, hmem, _⟩ => nomatch hmem
    simp only [List.foldl_nil, hnone, Cleared, and_true]
    exact List.eq_nil_iff_forall_not_mem
  | cons e packets ih =>
    rw [List.foldl_cons, ih, completed_takeOrder, and_assoc]
    rfl

theorem ordersAfter_eq_nil (packets : List PacketInput) :
    ordersAfter packets = [] ↔ Cleared packets := by
  rw [ordersAfter, foldl_takeOrder_eq_nil]
  exact and_iff_right (List.forall_mem_nil _)

/-! ## The page with its own list -/

/-- The list of the page is refused for one of its names. -/
theorem unknownEvents_requestedByPage : unknownEvents requestedByPage = ["order.cancelled"] := by
  decide +kernel

/-- A frame of another event leaves the orders alone. -/
theorem handleFrame_of_not_mem {event : String} (h : event ∉ subscribed)
    (parse : String → Option JsonRecord) (orders : List OrderCard) (data : String) :
    handleFrame orders parse (event, data) = orders := by
  simp only [subscribed, List.mem_cons, List.not_mem_nil, or_false, not_or] at h
  simp only [handleFrame, h, or_self, if_false]
  cases parse data with
  | none => rfl
  | some e => rfl

/-- The page never shows an order. -/
theorem board_requestedByPage (parse : String → Option JsonRecord)
    (stringify : JsonRecord → JsonText) (b : LocalServer) (orders : List OrderCard)
    (cs : List Connection) : board parse stringify requestedByPage b orders cs = orders := by
  have hrefused : unknownEvents requestedByPage ≠ [] := by
    rw [unknownEvents_requestedByPage]
    exact List.cons_ne_nil _ _
  induction cs generalizing b with
  | nil => rfl
  | cons c cs ih =>
    have hcalls := stream_refused c.fresh hrefused (streamEvents stringify b c.steps)
      (c.whole (String.join (respond c.bus c.client requestedByPage _)))
    rw [board, Connection.calls, hcalls, List.foldl_cons, handleFrame_of_not_mem (by decide),
      List.foldl_nil, ih]

/-- The page shows what the packets of the broker leave exactly if they leave nothing: if every
order that is placed is completed later. -/
theorem follows_iff (parse : String → Option JsonRecord) (stringify : JsonRecord → JsonText)
    (b : LocalServer) (cs : List Connection) :
    board parse stringify requestedByPage b [] cs = ordersAfter (news b (cs.flatMap (·.steps))) ↔
      Cleared (news b (cs.flatMap (·.steps))) := by
  rw [board_requestedByPage, eq_comm]
  exact ordersAfter_eq_nil _

/-- An order that is placed while the page is connected. -/
def placedOrder : Connection where
  bus := ⟨[]⟩
  client := 0
  fresh := List.forall_mem_nil _
  steps := [.packet ⟨"127.0.0.1", ⟨"order-0001", .obj [("type", .str "order.placed"),
    ("payload", .obj [("orderId", .str "o1")])]⟩, 0⟩]
  cut text := [text]
  whole text := by simp [String.join]

theorem not_follows :
    ¬ ∀ (parse : String → Option JsonRecord) (stringify : JsonRecord → JsonText) (b : LocalServer)
      (cs : List Connection), board parse stringify requestedByPage b [] cs =
        ordersAfter (news b (cs.flatMap (·.steps))) := by
  intro h
  have hboard := h (fun _ => some [("orderId", .str "o1")]) (fun _ => sampleOrder) .fresh
    [placedOrder]
  rw [board_requestedByPage] at hboard
  have hcleared := (ordersAfter_eq_nil _).mp hboard.symm
  have htypes : (news .fresh ([placedOrder].flatMap (·.steps))).map (·.type) = ["order.placed"] := by
    decide +kernel
  -- nothing comes after the order that could complete it
  cases hnews : news .fresh ([placedOrder].flatMap (·.steps)) with
  | nil =>
    rw [hnews] at htypes
    exact nomatch htypes
  | cons e packets =>
    rw [hnews, List.map_cons, List.cons.injEq, List.map_eq_nil_iff] at htypes
    rw [hnews, htypes.2] at hcleared
    obtain ⟨e', hmem, -⟩ := hcleared.1 htypes.1
    exact nomatch hmem

/-! ## A page whose list is accepted -/

/-- What a request publishes is in the registry. -/
theorem isValid_of_newsOf (b : LocalServer) (a : Arrival) :
    ∀ e ∈ newsOf b a, Events.isValid e.type = true := by
  intro e he
  rw [newsOf, afterPacket] at he
  rcases handlePacket_cases purgeLarge b a.ip a.request a.time with
    ⟨r, -, heq⟩ | ⟨parsed, -, -, hvalid, -, heq⟩
  · rw [heq] at he
    simp [LocalServer.refuse] at he
  · rw [heq] at he
    simp only [LocalServer.accept, List.drop_left, List.map_singleton, List.mem_singleton] at he
    rwa [he]

section Accepted

variable {parse : String → Option JsonRecord} {stringify : JsonRecord → JsonText}
  {requested : List String}

/-- The display makes of the frames of packets what the packets do. -/
theorem foldl_told (hparse : ∀ r, parse (stringify r).text = some r)
    (hshown : ∀ name ∈ subscribed, Events.isValid name → name ∈ subscribedEvents requested)
    {packets : List PacketInput} (hvalid : ∀ e ∈ packets, Events.isValid e.type = true)
    (orders : List OrderCard) :
    ((packets.map fun e => StreamEvent.publish e.type (stringify e.payload)).filterMap
        (told requested)).foldl (handleFrame · parse ·) orders =
      packets.foldl takeOrder orders := by
  induction packets generalizing orders with
  | nil => rfl
  | cons e packets ih =>
    have htype := hvalid e List.mem_cons_self
    have hrest := fun orders => ih (fun e' he' => hvalid e' (List.mem_cons_of_mem e he')) orders
    have hnot : e.type ≠ "order.cancelled" := fun h => by
      rw [h] at htype
      exact absurd htype (by decide)
    rw [List.map_cons, List.foldl_cons, List.filterMap_cons]
    by_cases hin : e.type ∈ subscribedEvents requested
    · rw [told, if_pos hin, List.foldl_cons, hrest]
      congr 1
      simp only [handleFrame, hparse, takeOrder, hnot, false_or]
    · rw [told, if_neg hin, hrest]
      have hother : ∀ name ∈ subscribed, e.type ≠ name := fun name hname he =>
        hin (he ▸ hshown name hname (he ▸ htype))
      congr 1
      simp only [takeOrder, hother "order.placed" (by decide), hother "order.confirmed" (by decide),
        hother "order.preparing" (by decide), hother "order.ready" (by decide),
        hother "order.completed" (by decide), if_false]

theorem foldl_streamEvents (hparse : ∀ r, parse (stringify r).text = some r)
    (hshown : ∀ name ∈ subscribed, Events.isValid name → name ∈ subscribedEvents requested)
    (b : LocalServer) (steps : List BrokerStep) (orders : List OrderCard) :
    ((streamEvents stringify b steps).filterMap (told requested)).foldl (handleFrame · parse ·)
        orders = (news b steps).foldl takeOrder orders := by
  induction steps generalizing b orders with
  | nil => rfl
  | cons step steps ih =>
    cases step with
    | ping => exact ih b orders
    | packet a =>
      rw [streamEvents, news, List.filterMap_append, List.foldl_append, List.foldl_append,
        foldl_told hparse hshown (isValid_of_newsOf b a), ih]

/-- A page that asks for the events of an order, and for none that the registry does not have,
follows the broker. -/
theorem board_of_accepted (hparse : ∀ r, parse (stringify r).text = some r)
    (haccepted : unknownEvents requested = [])
    (hshown : ∀ name ∈ subscribed, Events.isValid name → name ∈ subscribedEvents requested)
    (b : LocalServer) (c : Connection) :
    board parse stringify requested b [] [c] = ordersAfter (news b c.steps) := by
  have hcalls := stream_faithful c.fresh haccepted (streamEvents stringify b c.steps)
    (c.whole (String.join (respond c.bus c.client requested _)))
  rw [board, board, Connection.calls, hcalls, List.foldl_cons, handleFrame_of_not_mem (by decide),
    foldl_streamEvents hparse hshown, ordersAfter]

end Accepted

end Hotelia.Kitchen
