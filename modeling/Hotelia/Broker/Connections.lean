import Hotelia.Broker.Stream
import Hotelia.Foundation.Run

/-!
# The connections of the event stream

Many connections to `GET /stream` share one bus. Each that is accepted registers a handler
for each event that it shows, and one for all events; `cleanup` takes them off again. It is
called from several events of a connection, so that it can run more than once.

## Main results

- `Accounted.step`: the handlers of the bus are those of the open connections.
- `clients_accounted`: the count of the clients, and the handlers that are gone.
-/

namespace Hotelia.Broker
open Foundation

/-- A connection, with the list of events it has asked for. -/
structure Connection where
  client : ℕ
  requested : List String
  cleanedUp : Bool
  deriving DecidableEq

namespace Connection

variable (c : Connection)

/-- The list of events has been accepted. -/
def Accepted : Prop := unknownEvents c.requested = []

instance : Decidable c.Accepted := inferInstanceAs (Decidable (unknownEvents c.requested = []))

/-- It has been accepted, and not been cleaned up. -/
def IsOpen : Prop := c.Accepted ∧ c.cleanedUp = false

instance : Decidable c.IsOpen := inferInstanceAs (Decidable (c.Accepted ∧ c.cleanedUp = false))

/-- The handlers that an accepted connection registers, as `unsubscribers` has them. -/
def handlers : List (String × Listener) :=
  (subscribedEvents c.requested).map (·, .forward c.client) ++ [(allEvents, .keepAlive c.client)]

/-- What it has on the bus. -/
def registered : List (String × Listener) := if c.IsOpen then c.handlers else []

end Connection

/-- The bus, and all connections so far. -/
structure StreamServer where
  bus : StreamBus
  connections : List Connection

/-- What can happen. A number of a client is never used again. -/
inductive ServerEvent where
  /-- `GET /stream` behind the token check -/
  | connect (client : ℕ) (requested : List String)
  /-- `bus.publish(name, payload)`; the handlers write to responses, and leave the bus alone. -/
  | publish (name : String) (data : JsonText)
  /-- `cleanup()`, which only an accepted connection has -/
  | cleanup (client : ℕ)

namespace StreamServer

def start : StreamServer := ⟨⟨[]⟩, []⟩

/-- `for (const off of unsubscribers) off()`. -/
def unsubscribeAll (bus : StreamBus) (handlers : List (String × Listener)) : StreamBus :=
  handlers.foldl (fun bus h => bus.unsubscribe h.1 h.2) bus

def step (s : StreamServer) : ServerEvent → Option StreamServer
  | .connect client requested =>
    if s.connections.any (·.client = client) then none
    else
      some {
        bus := (openStream s.bus client requested).bus
        connections := s.connections ++ [⟨client, requested, false⟩] }
  | .publish _ _ => some s
  | .cleanup client =>
    match s.connections.find? (·.client = client) with
    | none => none
    | some c =>
      if c.Accepted then
        some {
          bus := unsubscribeAll s.bus c.handlers
          connections := s.connections.map fun d =>
            if d.client = client then { d with cleanedUp := true } else d }
      else none

/-! ## Handlers -/

theorem unsubscribeAll_handlers (bus : StreamBus) (handlers : List (String × Listener)) :
    (unsubscribeAll bus handlers).handlers = bus.handlers.filter (· ∉ handlers) := by
  induction handlers generalizing bus with
  | nil => simp [unsubscribeAll]
  | cons h handlers ih =>
    have hcons : unsubscribeAll bus (h :: handlers) =
        unsubscribeAll (bus.unsubscribe h.1 h.2) handlers := rfl
    rw [hcons, ih, StreamBus.unsubscribe, List.filter_filter]
    apply List.filter_congr
    intro x _
    simp [Bool.and_comm]

theorem subscribe_foldl_handlers (bus : StreamBus) (names : List String) (l : Listener) :
    (names.foldl (·.subscribe · l) bus).handlers = bus.handlers ++ names.map (·, l) := by
  induction names generalizing bus with
  | nil => simp
  | cons name names ih =>
    rw [List.foldl_cons, ih, StreamBus.subscribe, List.append_assoc]
    rfl

/-- A new connection registers its handlers if it is accepted, and nothing else. -/
theorem openStream_handlers (bus : StreamBus) (client : ℕ) (requested : List String) :
    (openStream bus client requested).bus.handlers =
      bus.handlers ++ Connection.registered ⟨client, requested, false⟩ := by
  by_cases haccepted : unknownEvents requested = []
  · have hopen : Connection.IsOpen ⟨client, requested, false⟩ := ⟨haccepted, rfl⟩
    rw [openStream, if_neg (not_not_intro haccepted), Connection.registered, if_pos hopen]
    dsimp only
    rw [StreamBus.subscribe, subscribe_foldl_handlers, List.append_assoc]
    rfl
  · have hclosed : ¬ Connection.IsOpen ⟨client, requested, false⟩ := fun h => haccepted h.1
    rw [openStream, if_pos haccepted, Connection.registered, if_neg hclosed, List.append_nil]

theorem client_of_mem_handlers {c : Connection} {h : String × Listener} (hh : h ∈ c.handlers) :
    h.2.client = c.client := by
  rw [Connection.handlers, List.mem_append, List.mem_map, List.mem_singleton] at hh
  obtain ⟨name, -, rfl⟩ | rfl := hh
  · rfl
  · rfl

theorem client_of_mem_registered {c : Connection} {h : String × Listener}
    (hh : h ∈ c.registered) : h.2.client = c.client := by
  rw [Connection.registered] at hh
  split at hh
  · exact client_of_mem_handlers hh
  · cases hh

/-- An open connection is counted once. -/
theorem count_registered (c : Connection) :
    c.registered.countP (·.1 = allEvents) = if c.IsOpen then 1 else 0 := by
  rw [Connection.registered]
  split
  · have hnone : ((subscribedEvents c.requested).map (·, Listener.forward c.client)).countP
        (·.1 = allEvents) = 0 := by
      rw [List.countP_eq_zero]
      intro h hh
      obtain ⟨name, hname, rfl⟩ := List.mem_map.mp hh
      intro hall
      exact not_mem_subscribedEvents c.requested (of_decide_eq_true hall ▸ hname)
    rw [Connection.handlers, List.countP_append, hnone]
    rfl
  · rfl

/-! ## The invariant -/

/-- The handlers on the bus are those of the open connections, and no two connections have
the same number. -/
structure Accounted (s : StreamServer) : Prop where
  distinct : (s.connections.map (·.client)).Nodup
  handlers : s.bus.handlers = s.connections.flatMap Connection.registered

variable {s t : StreamServer}

theorem Accounted.connect (h : s.Accounted) {client : ℕ} (requested : List String)
    (hnew : ∀ c ∈ s.connections, c.client ≠ client) :
    Accounted ⟨(openStream s.bus client requested).bus,
      s.connections ++ [⟨client, requested, false⟩]⟩ where
  distinct := by
    rw [List.map_append, List.map_singleton, List.nodup_append]
    refine ⟨h.distinct, List.nodup_singleton _, ?_⟩
    intro a ha b hb
    obtain ⟨c, hc, rfl⟩ := List.mem_map.mp ha
    rw [List.mem_singleton.mp hb]
    exact hnew c hc
  handlers := by
    rw [openStream_handlers, h.handlers, List.flatMap_append, List.flatMap_singleton]

theorem eq_of_client_eq (h : s.Accounted) {c d : Connection} (hc : c ∈ s.connections)
    (hd : d ∈ s.connections) (hclient : c.client = d.client) : c = d :=
  List.inj_on_of_nodup_map h.distinct hc hd hclient

theorem Accounted.cleanup (h : s.Accounted) {c : Connection} (hc : c ∈ s.connections) :
    Accounted {
      bus := unsubscribeAll s.bus c.handlers
      connections := s.connections.map fun d =>
        if d.client = c.client then { d with cleanedUp := true } else d } where
  distinct := by
    have hsame : (s.connections.map fun d =>
        if d.client = c.client then { d with cleanedUp := true } else d).map (·.client) =
          s.connections.map (·.client) := by
      rw [List.map_map]
      apply List.map_congr_left
      intro d _
      rw [Function.comp_apply]
      split <;> rfl
    rw [hsame]
    exact h.distinct
  handlers := by
    rw [unsubscribeAll_handlers, h.handlers, List.filter_flatMap, List.flatMap_map]
    apply List.flatMap_congr
    intro d hd
    by_cases hclient : d.client = c.client
    -- the connection itself, which may have been cleaned up before
    · obtain rfl := eq_of_client_eq h hd hc hclient
      have hclosed : ¬ Connection.IsOpen { d with cleanedUp := true } := by
        rintro ⟨-, hopen⟩
        cases hopen
      have hnone : Connection.registered { d with cleanedUp := true } = [] := if_neg hclosed
      rw [if_pos rfl, hnone, List.filter_eq_nil_iff]
      intro x hx
      rw [Connection.registered] at hx
      split at hx
      · simpa using hx
      · cases hx
    · rw [if_neg hclient, List.filter_eq_self]
      intro x hx
      refine decide_eq_true fun hmem => hclient ?_
      rw [← client_of_mem_registered hx, client_of_mem_handlers hmem]

theorem Accounted.step {e : ServerEvent} (h : s.Accounted) (hs : s.step e = some t) :
    t.Accounted := by
  cases e with
  | connect client requested =>
    rw [StreamServer.step] at hs
    split at hs
    · cases hs
    · next hnew =>
      cases hs
      apply h.connect
      simpa using hnew
  | publish name data =>
    cases hs
    exact h
  | cleanup client =>
    rw [StreamServer.step] at hs
    split at hs
    · cases hs
    · next c hfound =>
      obtain rfl : c.client = client := by simpa using List.find?_some hfound
      split at hs
      · cases hs
        exact h.cleanup (List.mem_of_find?_eq_some hfound)
      · cases hs

theorem accounted_start : start.Accounted := ⟨List.nodup_nil, rfl⟩

theorem Accounted.clientCount (h : s.Accounted) :
    s.bus.clientCount = s.connections.countP (·.IsOpen) := by
  rw [StreamBus.clientCount, StreamBus.listeners, List.length_map, ← List.countP_eq_length_filter,
    h.handlers]
  induction s.connections with
  | nil => rfl
  | cons c cs ih =>
    rw [List.flatMap_cons, List.countP_append, ih, count_registered, List.countP_cons]
    simp [add_comm]

/-- In every run: `clientCount` is the number of the connections that have been accepted and not
been cleaned up, and a connection that has been cleaned up has no handler on the bus. -/
theorem clients_accounted {es : List ServerEvent} (h : run step start es = some s) :
    s.bus.clientCount = s.connections.countP (fun c => c.Accepted ∧ c.cleanedUp = false) ∧
      ∀ c ∈ s.connections, c.cleanedUp = true → ∀ handler ∈ s.bus.handlers,
        handler.2.client ≠ c.client := by
  have haccounted : s.Accounted :=
    run_invariant (I := Accounted) (fun _ _ _ h hs => h.step hs) accounted_start h
  refine ⟨haccounted.clientCount, ?_⟩
  intro c hc hcleaned handler hhandler hclient
  rw [haccounted.handlers] at hhandler
  obtain ⟨d, hd, hregistered⟩ := List.mem_flatMap.mp hhandler
  have hdc : d.client = c.client := (client_of_mem_registered hregistered).symm.trans hclient
  obtain rfl := eq_of_client_eq haccounted hd hc hdc
  have hclosed : ¬ d.IsOpen := by
    rintro ⟨-, hopen⟩
    rw [hcleaned] at hopen
    cases hopen
  rw [Connection.registered, if_neg hclosed] at hregistered
  cases hregistered

/-- A kitchen display that is closed twice, one that stays, and one with a list that is refused. -/
def threeDisplays : List ServerEvent :=
  [.connect 0 ["order.placed"], .connect 1 [], .connect 2 ["order.lost"], .cleanup 0, .cleanup 0]

theorem clients_accounted_displays :
    ∃ s, run step start threeDisplays = some s ∧
      s.bus.clientCount = s.connections.countP (fun c => c.Accepted ∧ c.cleanedUp = false) ∧
      ∀ c ∈ s.connections, c.cleanedUp = true → ∀ handler ∈ s.bus.handlers,
        handler.2.client ≠ c.client := by
  have hsome : (run step start threeDisplays).isSome = true := by decide +kernel
  obtain ⟨s, hs⟩ := Option.isSome_iff_exists.mp hsome
  exact ⟨s, hs, clients_accounted hs⟩

end StreamServer

end Hotelia.Broker
