import Hotelia.Events.Emitter
import Hotelia.Foundation.Timeline

/-!
# Who hears an event

The bus of domain events over the whole of its use: subscriptions, the calls of the functions that
they return, which take out every subscription of the same handler, and new stream clients.

## Main definitions

- `BusCall`, `busAfter` — the calls of the bus, and the bus after them
- `standing` — the subscriptions to a type that were not taken out since

## Main results

- `bus_history`: an event goes to the standing subscriptions, in their order.
-/

namespace Hotelia.Events
open Foundation

/-- A call of the bus. -/
inductive BusCall (η κ : Type*) where
  | subscribe (eventType : String) (handler : η)
  /-- The function that `subscribe(eventType, handler)` has returned is called. -/
  | unsubscribe (eventType : String) (handler : η)
  | setStreamClient (client : Option κ)

namespace BusCall

variable {η κ : Type*} [DecidableEq η]

def act (bus : EventBus η κ) : BusCall η κ → EventBus η κ
  | .subscribe eventType handler => bus.subscribe eventType handler
  | .unsubscribe eventType handler => bus.unsubscribe eventType handler
  | .setStreamClient client => bus.setStreamClient client

omit [DecidableEq η] in
/-- The handler that a call brings for a type. -/
def brings (eventType : String) : BusCall η κ → Option η
  | .subscribe eventType' handler => if eventType' = eventType then some handler else none
  | _ => none

def removes (eventType : String) (handler : η) : BusCall η κ → Bool
  | .unsubscribe eventType' handler' => eventType' = eventType && handler' = handler
  | _ => false

end BusCall

section History

variable {η κ : Type*} [DecidableEq η]

/-- The bus after the calls. -/
def busAfter (calls : List (BusCall η κ)) : EventBus η κ := calls.foldl BusCall.act .new

/-- The handlers that were brought for a type, but for those that a later call removes. -/
def standing (eventType : String) : List (BusCall η κ) → List η
  | [] => []
  | call :: later =>
    ((call.brings eventType).filter fun h => !later.any (·.removes eventType h)).toList ++
      standing eventType later

/-! ## The handlers of a type -/

omit [DecidableEq η] in
theorem handlersOf_subscribe_of_ne (bus : EventBus η κ) {eventType eventType' : String} (handler : η)
    (h : eventType ≠ eventType') :
    (bus.subscribe eventType handler).handlersOf eventType' = bus.handlersOf eventType' := by
  rw [EventBus.subscribe, EventBus.handlersOf]
  dsimp only
  rw [Function.update_of_ne h.symm]
  rfl

theorem handlersOf_unsubscribe_of_ne (bus : EventBus η κ) {eventType eventType' : String}
    (handler : η) (h : eventType ≠ eventType') :
    (bus.unsubscribe eventType handler).handlersOf eventType' = bus.handlersOf eventType' := by
  rw [EventBus.unsubscribe, EventBus.handlersOf]
  dsimp only
  rw [Function.update_of_ne h.symm]
  rfl

/-- A call takes out what it removes, and puts what it brings behind the rest. -/
theorem handlersOf_act (bus : EventBus η κ) (call : BusCall η κ) (eventType : String) :
    (call.act bus).handlersOf eventType =
      (bus.handlersOf eventType).filter (fun h => !call.removes eventType h) ++
        (call.brings eventType).toList := by
  cases call with
  | subscribe eventType' handler =>
    have hkept : (bus.handlersOf eventType).filter (fun h => !BusCall.removes eventType h
        (.subscribe eventType' handler : BusCall η κ)) = bus.handlersOf eventType :=
      List.filter_eq_self.mpr fun _ _ => rfl
    rw [BusCall.act, hkept]
    by_cases htype : eventType' = eventType
    · subst htype
      rw [EventBus.handlersOf_subscribe, BusCall.brings, if_pos rfl]
      rfl
    · rw [handlersOf_subscribe_of_ne bus handler htype, BusCall.brings, if_neg htype]
      exact (List.append_nil _).symm
  | unsubscribe eventType' handler =>
    change (bus.unsubscribe eventType' handler).handlersOf eventType = _ ++ []
    rw [List.append_nil]
    by_cases htype : eventType' = eventType
    · subst htype
      rw [EventBus.handlersOf_unsubscribe]
      apply List.filter_congr
      intro other _
      simp [BusCall.removes, eq_comm]
    · rw [handlersOf_unsubscribe_of_ne bus handler htype]
      symm
      rw [List.filter_eq_self]
      intro other _
      simp [BusCall.removes, htype]
  | setStreamClient client =>
    change bus.handlersOf eventType = _ ++ []
    rw [List.append_nil]
    exact (List.filter_eq_self.mpr fun _ _ => rfl).symm

theorem handlersOf_foldl (calls : List (BusCall η κ)) (bus : EventBus η κ) (eventType : String) :
    (calls.foldl BusCall.act bus).handlersOf eventType =
      (bus.handlersOf eventType).filter (fun h => !calls.any (·.removes eventType h)) ++
        standing eventType calls := by
  induction calls generalizing bus with
  | nil =>
    rw [standing, List.append_nil]
    exact (List.filter_eq_self.mpr fun _ _ => rfl).symm
  | cons call later ih =>
    rw [List.foldl_cons, ih, handlersOf_act, List.filter_append, List.filter_filter,
      List.append_assoc, standing, Option.toList_filter]
    congr 1
    apply List.filter_congr
    intro h _
    rw [List.any_cons, Bool.not_or, Bool.and_comm]

theorem handlersOf_busAfter (calls : List (BusCall η κ)) (eventType : String) :
    (busAfter calls).handlersOf eventType = standing eventType calls := by
  rw [busAfter, handlersOf_foldl]
  rfl

theorem standing_concat (calls : List (BusCall η κ)) (call : BusCall η κ) (eventType : String) :
    standing eventType (calls ++ [call]) =
      (standing eventType calls).filter (fun h => !call.removes eventType h) ++
        (call.brings eventType).toList := by
  rw [← handlersOf_busAfter, busAfter, List.foldl_concat, handlersOf_act, ← busAfter,
    handlersOf_busAfter]

/-- A handler stands for a type as often as it was brought since it was last removed. -/
theorem count_standing (eventType : String) (handler : η) (calls : List (BusCall η κ)) :
    (standing eventType calls).count handler =
      (Timeline.since (·.removes eventType handler) calls).countP
        (·.brings eventType = some handler) := by
  induction calls using List.reverseRecOn with
  | nil => rfl
  | append_singleton calls call ih =>
    rw [standing_concat, List.count_append]
    cases hremoves : call.removes eventType handler with
    | true =>
      have hnone : call.brings eventType = none := by
        cases call with
        | unsubscribe eventType' handler' => rfl
        | subscribe eventType' handler' => cases hremoves
        | setStreamClient client => cases hremoves
      have hgone : handler ∉
          (standing eventType calls).filter (fun h => !call.removes eventType h) := by
        intro hmem
        have hkept := (List.mem_filter.mp hmem).2
        rw [hremoves] at hkept
        cases hkept
      rw [Timeline.since_concat_of_pos hremoves, hnone, List.count_eq_zero.mpr hgone]
      rfl
    | false =>
      have hkept : ((standing eventType calls).filter
          (fun h => !call.removes eventType h)).count handler =
            (standing eventType calls).count handler :=
        List.count_filter (by rw [hremoves]; rfl)
      rw [Timeline.since_concat_of_neg hremoves, List.countP_append, hkept, ih]
      congr 1
      rw [List.countP_singleton]
      cases call.brings eventType with
      | none => rfl
      | some h => simp [List.count_singleton]

end History

/-! ## An event -/

section Event

open EventBus

variable {η δ κ σ : Type*} {env : Subscribers η δ κ σ}

/-- The handlers are called in their order: all of them, or those up to the first that throws. -/
theorem called_cases (handlers : List η) (w : σ) :
    ((callHandlers env handlers w).1 = handlers ∧ .thrown ∉ outcomes env handlers w) ∨
      ∃ front handler rest, handlers = front ++ handler :: rest ∧
        (callHandlers env handlers w).1 = front ++ [handler] ∧
        .thrown ∉ outcomes env front w ∧ (env.call handler (worldAfter env front w)).1 = .thrown := by
  induction handlers generalizing w with
  | nil => exact .inl ⟨rfl, List.not_mem_nil⟩
  | cons first handlers ih =>
    by_cases hthrown : (env.call first w).1 = .thrown
    · rw [callHandlers_of_thrown hthrown]
      exact .inr ⟨[], first, handlers, rfl, rfl, List.not_mem_nil, hthrown⟩
    · rw [callHandlers_of_not_thrown hthrown]
      rcases ih (env.call first w).2 with
        ⟨hall, hnone⟩ | ⟨front, handler, rest, rfl, hcalled, hnone, hlast⟩
      · refine .inl ⟨by rw [hall], ?_⟩
        rw [outcomes, List.mem_cons, not_or]
        exact ⟨Ne.symm hthrown, hnone⟩
      · refine .inr ⟨first :: front, handler, rest, rfl, by rw [hcalled]; rfl, ?_, hlast⟩
        rw [outcomes, List.mem_cons, not_or]
        exact ⟨Ne.symm hthrown, hnone⟩

/-- Whatever was subscribed and unsubscribed before, and in whatever order: an event is given to
the standing subscriptions of its type, the oldest first, to all of them if none throws, and else
up to the first that does. Each handler stands there as often as it was subscribed since it was
last unsubscribed, once for all its subscriptions. -/
theorem bus_history [DecidableEq η] {calls : List (BusCall η κ)} (env : Subscribers η δ κ σ) {w : σ}
    (hbus : env.bus w = busAfter calls) :
    let event := env.event w
    ((emit env w).called = standing event.type calls ∧
          .thrown ∉ outcomes env (standing event.type calls) w ∨
        ∃ front handler rest, standing event.type calls = front ++ handler :: rest ∧
          (emit env w).called = front ++ [handler] ∧ .thrown ∉ outcomes env front w ∧
          (env.call handler (worldAfter env front w)).1 = .thrown) ∧
      ∀ handler, (standing event.type calls).count handler =
        (Timeline.since (·.removes event.type handler) calls).countP
          (·.brings event.type = some handler) := by
  intro event
  refine ⟨?_, fun handler => count_standing event.type handler calls⟩
  have hcalled : (emit env w).called = (callHandlers env (standing event.type calls) w).1 := by
    rw [emit_called, hbus, handlersOf_busAfter]
  rw [hcalled]
  exact called_cases _ w

/-- Three subscriptions, one of which is taken out again; the first handler throws. -/
def threeCalls : List (BusCall ℕ Unit) :=
  [.subscribe "order.placed" 1, .subscribe "order.placed" 2, .unsubscribe "order.placed" 1,
    .subscribe "order.placed" 3]

def threeSubscribers : Subscribers ℕ Unit Unit Unit where
  bus _ := busAfter threeCalls
  event _ := ⟨"evt_1", "order.placed", "2026-01-01T00:00:00.000Z", "p1", none, ()⟩
  call handler _ := (if handler = 2 then .thrown else .fulfilled, ())
  settle := id
  stringify _ := some "{}"
  xAdd _ _ _ := (true, ())

theorem bus_history_threeSubscribers :
    ((emit threeSubscribers ()).called = standing "order.placed" threeCalls ∧
          .thrown ∉ outcomes threeSubscribers (standing "order.placed" threeCalls) () ∨
        ∃ front handler rest, standing "order.placed" threeCalls = front ++ handler :: rest ∧
          (emit threeSubscribers ()).called = front ++ [handler] ∧
          .thrown ∉ outcomes threeSubscribers front () ∧
          (threeSubscribers.call handler (worldAfter threeSubscribers front ())).1 = .thrown) ∧
      ∀ handler, (standing "order.placed" threeCalls).count handler =
        (Timeline.since (·.removes "order.placed" handler) threeCalls).countP
          (·.brings "order.placed" = some handler) :=
  bus_history threeSubscribers rfl

end Event

end Hotelia.Events
