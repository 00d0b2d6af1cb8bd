import Mathlib.Logic.Function.Basic

/-!
# The bus of domain events

`EventBus` of `packages/events/src/emitter/index.ts`. What a handler does is part of the world
outside: it may return, with a promise or without, or throw before it has returned anything.

## Main definitions

- `EventBus`, `subscribe`, `unsubscribe` — the handlers of each type of event
- `emit` — the handlers that are called, and what the stream of the client gets

## Main results

- `emit_delivers_iff`: when all handlers and the stream get an event.
-/

namespace Hotelia.Events

/-- `DomainEvent<T>`. -/
structure DomainEvent (δ : Type*) where
  id : String
  type : String
  timestamp : String
  propertyId : String
  userId : Option String
  data : δ

/-- What a call of a handler comes to: a value or a promise that is fulfilled, a promise that
is rejected, one that never settles, or an exception. -/
inductive HandlerResult where
  | fulfilled
  | rejected
  | pending
  | thrown
  deriving DecidableEq

/-- The fields of an entry of `stream:domain_events`. -/
structure StreamEntry where
  type : String
  propertyId : String
  payload : String
  timestamp : String
  deriving DecidableEq

structure EventBus (η κ : Type*) where
  handlers : String → Option (List η)
  streamClient : Option κ

/-- The world around an `emit`: what the bus and the event object have in it, the handlers, what
happens until `Promise.all` is fulfilled, `JSON.stringify`, which throws where it has no text, and
the `xAdd` of a stream client, which fails where it is `false`. -/
structure Subscribers (η δ κ σ : Type*) where
  bus : σ → EventBus η κ
  event : σ → DomainEvent δ
  call : η → σ → HandlerResult × σ
  settle : σ → σ
  stringify : δ → Option String
  xAdd : κ → StreamEntry → σ → Bool × σ

/-- How the promise of `emit` ends, if it does. -/
inductive Settled where
  | resolved
  | rejected
  | pending
  deriving DecidableEq

/-- The entry of an event. -/
def DomainEvent.entry {δ : Type*} (event : DomainEvent δ) (payload : String) : StreamEntry :=
  ⟨event.type, event.propertyId, payload, event.timestamp⟩

/-- The entry of an event, if its data has a text. -/
def Subscribers.entryOf {η δ κ σ : Type*} (env : Subscribers η δ κ σ) (event : DomainEvent δ) :
    Option StreamEntry :=
  (env.stringify event.data).map event.entry

/-- An `emit`: the handlers it has called, the entries it has handed to `xAdd`, what it has
logged, and how it ends. -/
structure Emission (η σ : Type*) where
  called : List η
  sent : List StreamEntry
  logged : List String
  settled : Settled
  world : σ

namespace EventBus

variable {η δ κ σ : Type*}

/-- `new EventBus()`. -/
def new : EventBus η κ := ⟨fun _ => none, none⟩

/-- `this.handlers.get(eventType) ?? []`. -/
def handlersOf (bus : EventBus η κ) (eventType : String) : List η :=
  (bus.handlers eventType).getD []

/-- `subscribe(eventType, handler)`. -/
def subscribe (bus : EventBus η κ) (eventType : String) (handler : η) : EventBus η κ :=
  { bus with
    handlers :=
      Function.update bus.handlers eventType (some (bus.handlersOf eventType ++ [handler])) }

/-- The function that `subscribe(eventType, handler)` returns. -/
def unsubscribe [DecidableEq η] (bus : EventBus η κ) (eventType : String) (handler : η) :
    EventBus η κ :=
  { bus with
    handlers := Function.update bus.handlers eventType
      (some ((bus.handlersOf eventType).filter (· ≠ handler))) }

/-- `setStreamClient(client)`. -/
def setStreamClient (bus : EventBus η κ) (client : Option κ) : EventBus η κ :=
  { bus with streamClient := client }

section Emit

variable (env : Subscribers η δ κ σ)

/-- `handlers.map((handler) => handler(event))`: the handlers that are called, and the results
of all of them unless one throws. A handler that subscribes or unsubscribes does not change
the list that is gone through. -/
def callHandlers : List η → σ → List η × Option (List HandlerResult) × σ
  | [], w => ([], some [], w)
  | handler :: handlers, w =>
    let (result, w) := env.call handler w
    if result = .thrown then ([handler], none, w)
    else
      let (called, results, w) := callHandlers handlers w
      (handler :: called, results.map (result :: ·), w)

/-- `Promise.all(results)`. -/
def promiseAll (results : List HandlerResult) : Settled :=
  if .rejected ∈ results then .rejected
  else if .pending ∈ results then .pending
  else .resolved

/-- What is logged when the stream does not take an event. -/
def publishFailed (eventType : String) : String :=
  "[EventBus] Failed to publish event " ++ eventType ++ " to Redis:"

/-- `emit(event)`. The client and the fields of the event are read again when all handlers have
come to an end. -/
def emit (w : σ) : Emission η σ :=
  match callHandlers env ((env.bus w).handlersOf (env.event w).type) w with
  | (called, none, w) => ⟨called, [], [], .rejected, w⟩
  | (called, some results, w) =>
    match promiseAll results with
    | .rejected => ⟨called, [], [], .rejected, w⟩
    | .pending => ⟨called, [], [], .pending, w⟩
    | .resolved =>
      let w := env.settle w
      match (env.bus w).streamClient with
      | none => ⟨called, [], [], .resolved, w⟩
      | some client =>
        match env.entryOf (env.event w) with
        | none => ⟨called, [], [publishFailed (env.event w).type], .resolved, w⟩
        | some entry =>
          let (ok, w) := env.xAdd client entry w
          ⟨called, [entry], if ok then [] else [publishFailed (env.event w).type], .resolved, w⟩

/-- What the handlers come to if each is called in its turn, whatever those before it do. -/
def outcomes : List η → σ → List HandlerResult
  | [], _ => []
  | handler :: handlers, w =>
    (env.call handler w).1 :: outcomes handlers (env.call handler w).2

/-- The world after the handlers, if each is called in its turn. -/
def worldAfter (handlers : List η) (w : σ) : σ :=
  handlers.foldl (fun w handler => (env.call handler w).2) w

end Emit

/-! ## Subscriptions -/

theorem handlersOf_subscribe (bus : EventBus η κ) (eventType : String) (handler : η) :
    (bus.subscribe eventType handler).handlersOf eventType =
      bus.handlersOf eventType ++ [handler] := by
  rw [subscribe, handlersOf]
  dsimp only
  rw [Function.update_self, Option.getD_some]

theorem handlersOf_unsubscribe [DecidableEq η] (bus : EventBus η κ) (eventType : String)
    (handler : η) : (bus.unsubscribe eventType handler).handlersOf eventType =
      (bus.handlersOf eventType).filter (· ≠ handler) := by
  rw [unsubscribe, handlersOf]
  dsimp only
  rw [Function.update_self, Option.getD_some]

/-- A handler that was not there is gone after it has unsubscribed, and the others are still
there. -/
theorem handlersOf_unsubscribe_subscribe [DecidableEq η] {bus : EventBus η κ} {eventType : String}
    {handler : η} (h : handler ∉ bus.handlersOf eventType) :
    ((bus.subscribe eventType handler).unsubscribe eventType handler).handlersOf eventType =
      bus.handlersOf eventType := by
  rw [handlersOf_unsubscribe, handlersOf_subscribe, List.filter_append]
  have hkept : (bus.handlersOf eventType).filter (· ≠ handler) = bus.handlersOf eventType := by
    rw [List.filter_eq_self]
    intro other hother
    exact decide_eq_true fun heq => h (heq ▸ hother)
  rw [hkept]
  simp

/-! ## The calls -/

section Calls

variable {env : Subscribers η δ κ σ}

theorem callHandlers_of_thrown {handler : η} {w : σ} (h : (env.call handler w).1 = .thrown)
    (handlers : List η) : callHandlers env (handler :: handlers) w =
      ([handler], none, (env.call handler w).2) := by
  rw [callHandlers]
  exact if_pos h

theorem callHandlers_of_not_thrown {handler : η} {w : σ}
    (h : (env.call handler w).1 ≠ .thrown) (handlers : List η) :
    callHandlers env (handler :: handlers) w =
      (handler :: (callHandlers env handlers (env.call handler w).2).1,
        (callHandlers env handlers (env.call handler w).2).2.1.map
          ((env.call handler w).1 :: ·),
        (callHandlers env handlers (env.call handler w).2).2.2) := by
  rw [callHandlers]
  exact if_neg h

/-- All handlers are called exactly if none but the last throws. -/
theorem called_eq_iff (handlers : List η) (w : σ) :
    (callHandlers env handlers w).1 = handlers ↔
      ∀ r ∈ (outcomes env handlers w).dropLast, r ≠ .thrown := by
  induction handlers generalizing w with
  | nil => exact iff_of_true rfl (List.forall_mem_nil _)
  | cons handler handlers ih =>
    have hnext := ih (env.call handler w).2
    by_cases hthrown : (env.call handler w).1 = .thrown
    · rw [callHandlers_of_thrown hthrown, outcomes, hthrown]
      cases handlers with
      | nil => exact iff_of_true rfl (List.forall_mem_nil _)
      | cons next handlers =>
        refine iff_of_false (fun h => nomatch h) fun h => ?_
        exact h .thrown List.mem_cons_self rfl
    · rw [callHandlers_of_not_thrown hthrown, outcomes]
      dsimp only
      rw [List.cons_eq_cons, and_iff_right rfl, hnext]
      cases handlers with
      | nil => exact Iff.rfl
      | cons next handlers =>
        rw [outcomes, List.dropLast_cons_cons, List.forall_mem_cons, and_iff_right hthrown]

/-- The results come together unless a handler throws. -/
theorem results_eq (handlers : List η) (w : σ) :
    (callHandlers env handlers w).2.1 =
      if .thrown ∈ outcomes env handlers w then none
      else some (outcomes env handlers w) := by
  induction handlers generalizing w with
  | nil => rfl
  | cons handler handlers ih =>
    by_cases hthrown : (env.call handler w).1 = .thrown
    · rw [callHandlers_of_thrown hthrown, outcomes, hthrown, if_pos List.mem_cons_self]
    · rw [callHandlers_of_not_thrown hthrown, outcomes]
      dsimp only
      rw [ih]
      by_cases hlater : .thrown ∈ outcomes env handlers (env.call handler w).2
      · rw [if_pos hlater, if_pos (List.mem_cons_of_mem _ hlater), Option.map_none]
      · have hnone : .thrown ∉ (env.call handler w).1 ::
            outcomes env handlers (env.call handler w).2 := by
          rw [List.mem_cons, not_or]
          exact ⟨Ne.symm hthrown, hlater⟩
        rw [if_neg hlater, if_neg hnone, Option.map_some]

theorem world_eq {handlers : List η} {w : σ} (h : .thrown ∉ outcomes env handlers w) :
    (callHandlers env handlers w).2.2 = worldAfter env handlers w := by
  induction handlers generalizing w with
  | nil => rfl
  | cons handler handlers ih =>
    rw [outcomes, List.mem_cons, not_or] at h
    rw [callHandlers_of_not_thrown (Ne.symm h.1)]
    exact ih h.2

end Calls

theorem promiseAll_eq_resolved {results : List HandlerResult} :
    promiseAll results = .resolved ↔ .rejected ∉ results ∧ .pending ∉ results := by
  rw [promiseAll]
  by_cases hrejected : .rejected ∈ results
  · simp [hrejected]
  · by_cases hpending : .pending ∈ results
    · simp [hrejected, hpending]
    · simp [hrejected, hpending]

theorem forall_fulfilled_iff {results : List HandlerResult} :
    (∀ r ∈ results, r = .fulfilled) ↔ .thrown ∉ results ∧ promiseAll results = .resolved := by
  rw [promiseAll_eq_resolved]
  constructor
  · intro hall
    refine ⟨fun h => ?_, fun h => ?_, fun h => ?_⟩
    · cases hall _ h
    · cases hall _ h
    · cases hall _ h
  · rintro ⟨hthrown, hrejected, hpending⟩ r hr
    cases r with
    | fulfilled => rfl
    | rejected => exact absurd hr hrejected
    | pending => exact absurd hr hpending
    | thrown => exact absurd hr hthrown

/-! ## The event -/

section Event

variable {env : Subscribers η δ κ σ} {w : σ}

theorem emit_called : (emit env w).called =
    (callHandlers env ((env.bus w).handlersOf (env.event w).type) w).1 := by
  rw [emit]
  split
  · next heq => rw [heq]
  · next heq =>
    rw [heq]
    split
    · rfl
    · rfl
    · dsimp only
      split
      · rfl
      · split
        · rfl
        · rfl

/-- The stream is only asked after all handlers have come to a good end, if there is a client
then. -/
theorem emit_sent (env : Subscribers η δ κ σ) (w : σ) :
    let handlers := (env.bus w).handlersOf (env.event w).type
    let w' := env.settle (worldAfter env handlers w)
    (emit env w).sent =
      if ∀ r ∈ outcomes env handlers w, r = .fulfilled then
        ((env.bus w').streamClient.bind fun _ => env.entryOf (env.event w')).toList
      else [] := by
  intro handlers w'
  obtain ⟨called, results, after, hcall⟩ : ∃ called results after,
      callHandlers env handlers w = (called, results, after) := ⟨_, _, _, rfl⟩
  have hresults : (callHandlers env handlers w).2.1 = results := by rw [hcall]
  rw [results_eq] at hresults
  rw [emit, hcall]
  by_cases hthrown : .thrown ∈ outcomes env handlers w
  · rw [if_pos hthrown] at hresults
    rw [← hresults, if_neg fun hall => (forall_fulfilled_iff.mp hall).1 hthrown]
  · have hafter : after = worldAfter env handlers w := by
      rw [← world_eq hthrown, hcall]
    rw [if_neg hthrown] at hresults
    rw [← hresults]
    dsimp only
    cases hall : promiseAll (outcomes env handlers w) with
    | resolved =>
      have hlast : env.settle after = w' := by rw [hafter]
      rw [if_pos (forall_fulfilled_iff.mpr ⟨hthrown, hall⟩), hlast]
      dsimp only
      cases (env.bus w').streamClient with
      | none => rfl
      | some client =>
        rw [Option.bind_some]
        cases env.entryOf (env.event w') with
        | none => rfl
        | some entry => rfl
    | rejected =>
      rw [if_neg fun h => nomatch hall.symm.trans (forall_fulfilled_iff.mp h).2]
    | pending =>
      rw [if_neg fun h => nomatch hall.symm.trans (forall_fulfilled_iff.mp h).2]

/-- Whatever the handlers do, to the bus and to the event too: an event reaches each of its
handlers once, and the stream as it was emitted if a client is set, exactly if no handler but the
last throws and, with a client, all of them come to a good end, the data has a text, and they
leave a client set and the entry of the event as it was. -/
theorem emit_delivers_iff (env : Subscribers η δ κ σ) (w : σ) :
    let event := env.event w
    let handlers := (env.bus w).handlersOf event.type
    let w' := env.settle (worldAfter env handlers w)
    ((emit env w).called = handlers ∧
      ((env.bus w).streamClient ≠ none → ∃ entry, env.entryOf event = some entry ∧
        (emit env w).sent = [entry])) ↔
      (∀ r ∈ (outcomes env handlers w).dropLast, r ≠ .thrown) ∧
        ((env.bus w).streamClient ≠ none →
          (∀ r ∈ outcomes env handlers w, r = .fulfilled) ∧ env.entryOf event ≠ none ∧
            (env.bus w').streamClient ≠ none ∧
              env.entryOf (env.event w') = env.entryOf event) := by
  intro event handlers w'
  rw [emit_called, called_eq_iff]
  refine and_congr_right fun _ => forall_congr' fun _ => ?_
  have hstream : (emit env w).sent = _ := emit_sent env w
  rw [hstream]
  constructor
  · rintro ⟨entry, hentry, hsent⟩
    split at hsent
    · next hall =>
      have hbind : ((env.bus w').streamClient.bind fun _ => env.entryOf (env.event w')) =
          some entry := Option.toList_eq_singleton_iff.mp hsent
      obtain ⟨client, hclient, hkept⟩ := Option.bind_eq_some_iff.mp hbind
      exact ⟨hall, by simp [hentry], by simp [hclient], hkept.trans hentry.symm⟩
    · cases hsent
  · rintro ⟨hall, htext, hclient, hkept⟩
    obtain ⟨entry, hentry⟩ := Option.ne_none_iff_exists'.mp htext
    obtain ⟨client, hset⟩ := Option.ne_none_iff_exists'.mp hclient
    refine ⟨entry, hentry, ?_⟩
    rw [if_pos hall, hset, Option.bind_some, hkept, hentry]
    rfl

end Event

/-- The first of two handlers throws, and the second is not called. -/
theorem not_emit_delivers :
    ¬ ∀ (env : Subscribers Bool Unit Unit Unit), env.entryOf (env.event ()) ≠ none →
      (emit env ()).called = (env.bus ()).handlersOf (env.event ()).type ∧
        ((env.bus ()).streamClient ≠ none → ∃ entry, env.entryOf (env.event ()) = some entry ∧
          (emit env ()).sent = [entry]) := by
  intro h
  have hcalled := (h {
    bus := fun _ => ((new.subscribe "order.placed" true).subscribe "order.placed" false).setStreamClient
      (some ())
    event := fun _ => ⟨"evt_1", "order.placed", "2026-01-01T00:00:00.000Z", "p1", none, ()⟩
    call := fun first _ => (if first then .thrown else .fulfilled, ())
    settle := id
    stringify := fun _ => some "{}"
    xAdd := fun _ _ _ => (true, ()) } (Option.some_ne_none _)).1
  revert hcalled
  decide

end EventBus

end Hotelia.Events
