import Hotelia.Events.Registry
import Mathlib.Data.List.Nodup

/-!
# The event stream

`GET /stream` of `apps/console/src/main/server.ts` behind the token check, and the bus
that it listens to: what is written to the response of one client while its connection
is open.

## Main definitions

- `StreamBus` — who listens to which event
- `requestedEvents`, `openStream` — the request
- `respond` — what is written for the publications and pings that follow

## Main results

- `written_respond`: the writes to a client whose list was accepted.
-/

namespace Hotelia.Broker

/-! ## JSON texts -/

/-- What `JSON.stringify` makes of an object: it is not empty, and on one line. -/
structure JsonText where
  text : String
  nonempty : text ≠ ""
  oneLine : '\n' ∉ text.toList

/-- A hexadecimal digit. -/
def hexDigit (d : ℕ) : Char := if d < 10 then Char.ofNat (48 + d) else Char.ofNat (87 + d)

/-- A letter inside of a JSON string. -/
def escapeChar (c : Char) : List Char :=
  match c.toNat with
  | 34 => "\\\"".toList
  | 92 => "\\\\".toList
  | 8 => "\\b".toList
  | 12 => "\\f".toList
  | 10 => "\\n".toList
  | 13 => "\\r".toList
  | 9 => "\\t".toList
  | n => if n < 32 then "\\u00".toList ++ [hexDigit (n / 16), hexDigit (n % 16)] else [c]

/-- `JSON.stringify(s)` of a string. -/
def jsonString (s : String) : String := "\"" ++ String.ofList (s.toList.flatMap escapeChar) ++ "\""

/-- `JSON.stringify(items)` of strings. -/
def jsonStrings (items : List String) : String := "[" ++ ",".intercalate (items.map jsonString) ++ "]"

theorem hexDigit_ne (d : ℕ) (h : d < 16) : hexDigit d ≠ '\n' := by
  revert d
  decide

theorem not_mem_escapeChar (c : Char) : '\n' ∉ escapeChar c := by
  rw [escapeChar]
  split
  · decide
  · decide
  · decide
  · decide
  · decide
  · decide
  · decide
  · next hline _ _ =>
    split
    · next hn =>
      rw [List.mem_append, not_or]
      refine ⟨by decide, fun hmem => ?_⟩
      rcases List.mem_pair.mp hmem with he | he
      · exact hexDigit_ne _ (by omega) he.symm
      · exact hexDigit_ne _ (by omega) he.symm
    · intro hmem
      rw [List.mem_singleton] at hmem
      exact hline (by rw [← hmem]; rfl)

theorem not_mem_jsonString (s : String) : '\n' ∉ (jsonString s).toList := by
  have hinner : '\n' ∉ s.toList.flatMap escapeChar := by
    rw [List.mem_flatMap]
    rintro ⟨c, -, hc⟩
    exact not_mem_escapeChar c hc
  simp only [jsonString, String.toList_append, String.toList_ofList, List.mem_append, not_or]
  exact ⟨⟨by decide, hinner⟩, by decide⟩

theorem not_mem_jsonStrings (items : List String) : '\n' ∉ (jsonStrings items).toList := by
  have hinner : '\n' ∉ (",".intercalate (items.map jsonString)).toList := by
    induction items with
    | nil => decide
    | cons s items ih =>
      cases items with
      | nil =>
        rw [List.map_singleton, String.intercalate_singleton]
        exact not_mem_jsonString s
      | cons t items =>
        rw [List.map_cons, List.map_cons, String.intercalate_cons_cons]
        simp only [String.toList_append, List.mem_append, not_or]
        exact ⟨⟨not_mem_jsonString s, by decide⟩, ih⟩
  simp only [jsonStrings, String.toList_append, List.mem_append, not_or]
  exact ⟨⟨by decide, hinner⟩, by decide⟩

/-- An object of one line around a text. -/
def JsonText.around (front inner back : String) (hfront : front ≠ "" ∧ '\n' ∉ front.toList)
    (hinner : '\n' ∉ inner.toList) (hback : '\n' ∉ back.toList) : JsonText where
  text := front ++ inner ++ back
  nonempty h := by
    have hlist := congrArg String.toList h
    simp only [String.toList_append, String.toList_empty, List.append_eq_nil_iff] at hlist
    exact hfront.1 (String.toList_inj.mp hlist.1.1)
  oneLine := by
    simp only [String.toList_append, List.mem_append, not_or]
    exact ⟨⟨hfront.2, hinner⟩, hback⟩

/-! ## The bus -/

/-- A handler that a connection has registered. -/
inductive Listener where
  /-- It writes the event to the response of the client. -/
  | forward (client : ℕ)
  /-- It does nothing, and lets `clientCount` count the client. -/
  | keepAlive (client : ℕ)
  deriving DecidableEq

def Listener.client : Listener → ℕ
  | .forward client => client
  | .keepAlive client => client

/-- `LocalStreamBus`: the handlers with the name they are registered under, the oldest first. -/
structure StreamBus where
  handlers : List (String × Listener)

/-- `eventRegistry.ALL`. -/
def allEvents : String := "*"

/-- `event: … data: …` and the end of the frame. -/
def eventFrame (event : String) (data : JsonText) : String :=
  "event: " ++ event ++ "\ndata: " ++ data.text ++ "\n\n"

/-- What a handler writes, and to which response. -/
def Listener.write (name : String) (data : JsonText) : Listener → Option (ℕ × String)
  | .forward client => some (client, eventFrame name data)
  | .keepAlive _ => none

namespace StreamBus

variable (bus : StreamBus)

def subscribe (name : String) (listener : Listener) : StreamBus :=
  ⟨bus.handlers ++ [(name, listener)]⟩

/-- The function that `subscribe` returns: it takes the handler off the list of its name. -/
def unsubscribe (name : String) (listener : Listener) : StreamBus :=
  ⟨bus.handlers.filter (· ≠ (name, listener))⟩

def listeners (name : String) : List Listener := (bus.handlers.filter (·.1 = name)).map (·.2)

/-- `clientCount()`. -/
def clientCount : ℕ := (bus.listeners allEvents).length

/-- `publish(name, payload)`: the handlers of the name, and then those of all events. -/
def publish (name : String) (data : JsonText) : List (ℕ × String) :=
  (bus.listeners name ++ bus.listeners allEvents).filterMap (·.write name data)

/-- What is written to the response of one client. -/
def writesTo (client : ℕ) (name : String) (data : JsonText) : List String :=
  ((bus.publish name data).filter (·.1 = client)).map (·.2)

end StreamBus

/-! ## The request -/

/-- The letters that `trim` takes off. -/
def isSpace (c : Char) : Bool :=
  [9, 10, 11, 12, 13, 32, 160, 5760, 8192, 8193, 8194, 8195, 8196, 8197, 8198, 8199, 8200, 8201,
    8202, 8232, 8233, 8239, 8287, 12288, 65279].contains c.toNat

/-- `s.trim()`. -/
def trim (s : List Char) : String :=
  String.ofList ((s.dropWhile isSpace).reverse.dropWhile isSpace).reverse

/-- `req.query.events`: the texts of an array, or the text of anything else. -/
inductive EventsQuery where
  | items (events : List String)
  | text (events : String)

/-- `requested`. -/
def requestedEvents : EventsQuery → List String
  | .items events => (events.map fun e => trim e.toList).filter (· ≠ "")
  | .text events => ((events.toList.splitOn ',').map trim).filter (· ≠ "")

section Request

variable (requested : List String)

/-- `unknown`. -/
def unknownEvents : List String :=
  requested.filter fun e => e ≠ allEvents && !Events.isValid e

def showsAll : Bool := requested.isEmpty || requested.contains allEvents

/-- The names that a client is subscribed to. -/
def subscribedEvents : List String :=
  Events.eventTypes.filter fun name => showsAll requested || requested.contains name

/-- The data of the frame `hello`. -/
def helloText : JsonText :=
  .around "\x7b\"ok\":true,\"subscribed\":"
    (if showsAll requested then "\"all\"" else jsonStrings requested) ",\"tokenProtected\":true\x7d"
    (by decide) (by split; exacts [by decide, not_mem_jsonStrings _]) (by decide)

/-- The data of the frame `error`. -/
def errorText (unknown : List String) : JsonText :=
  .around "\x7b\"code\":\"EVENT_FILTER_INVALID\",\"unknown\":" (jsonStrings unknown) "\x7d"
    (by decide) (not_mem_jsonStrings _) (by decide)

end Request

/-- A connection: the bus, what has been written to its response, and whether the timer of its
pings runs. -/
structure Stream where
  bus : StreamBus
  written : List String
  heartbeat : Bool

/-- The answer to `GET /stream`. -/
def openStream (bus : StreamBus) (client : ℕ) (requested : List String) : Stream :=
  if unknownEvents requested ≠ [] then
    -- the response is ended, and nothing has been subscribed
    { bus, written := [": connected\n\n", eventFrame "error" (errorText (unknownEvents requested))],
      heartbeat := false }
  else
    { bus := ((subscribedEvents requested).foldl (·.subscribe · (.forward client)) bus).subscribe
        allEvents (.keepAlive client)
      written := [": connected\n\n", eventFrame "hello" (helloText requested)]
      heartbeat := true }

/-- What happens while the connection is open. -/
inductive StreamEvent where
  /-- `bus.publish(name, payload)` -/
  | publish (name : String) (data : JsonText)
  /-- The timer of the pings -/
  | ping

def Stream.respond (client : ℕ) (s : Stream) : StreamEvent → Stream
  | .publish name data => { s with written := s.written ++ s.bus.writesTo client name data }
  | .ping => if s.heartbeat then { s with written := s.written ++ [": ping\n\n"] } else s

/-- The response of a client after a request and what has happened since. -/
def respond (bus : StreamBus) (client : ℕ) (requested : List String) (es : List StreamEvent) :
    List String :=
  (es.foldl (·.respond client ·) (openStream bus client requested)).written

/-! ## What is written -/

section Written

variable {bus : StreamBus} {client : ℕ} {requested : List String}

/-- The client has no handlers on the bus yet. -/
def StreamBus.Without (bus : StreamBus) (client : ℕ) : Prop :=
  ∀ h ∈ bus.handlers, h.2.client ≠ client

theorem StreamBus.listeners_subscribe (bus : StreamBus) (name other : String) (l : Listener) :
    (bus.subscribe name l).listeners other =
      bus.listeners other ++ if name = other then [l] else [] := by
  rw [listeners, subscribe, List.filter_append, List.map_append, listeners]
  congr 1
  by_cases h : name = other
  · simp [h]
  · simp [h]

theorem StreamBus.listeners_foldl (bus : StreamBus) (names : List String) (name : String)
    (l : Listener) :
    (names.foldl (·.subscribe · l) bus).listeners name =
      bus.listeners name ++ List.replicate (names.count name) l := by
  induction names generalizing bus with
  | nil => simp
  | cons first names ih =>
    rw [List.foldl_cons, ih, listeners_subscribe, List.append_assoc]
    congr 1
    by_cases h : first = name
    · rw [if_pos h, h, List.count_cons_self, List.replicate_succ]
      rfl
    · rw [if_neg h, List.count_cons_of_ne h, List.nil_append]

/-- The handlers of other clients write nothing to the response of this one. -/
theorem StreamBus.Without.writes (h : bus.Without client) (name other : String)
    (data : JsonText) :
    ((bus.listeners name).filterMap (·.write other data)).filter (·.1 = client) = [] := by
  rw [List.filter_eq_nil_iff]
  intro write hwrite
  obtain ⟨l, hl, hlwrite⟩ := List.mem_filterMap.mp hwrite
  obtain ⟨handler, hhandler, rfl⟩ := List.mem_map.mp hl
  have hother := h handler (List.mem_of_mem_filter hhandler)
  revert hlwrite hother
  cases handler.2 with
  | keepAlive c => exact fun hnone => nomatch hnone
  | forward c =>
    intro hsome hne
    cases hsome
    simpa [Listener.client] using hne

theorem count_subscribedEvents (requested : List String) (name : String) :
    (subscribedEvents requested).count name = if name ∈ subscribedEvents requested then 1 else 0 := by
  have hnodup : (subscribedEvents requested).Nodup :=
    List.Nodup.filter _ (by decide : Events.eventTypes.Nodup)
  split
  · next h => exact List.count_eq_one_of_mem hnodup h
  · next h => exact List.count_eq_zero_of_not_mem h

theorem not_mem_subscribedEvents (requested : List String) :
    allEvents ∉ subscribedEvents requested := fun h =>
  absurd (List.mem_of_mem_filter h) (by decide)

/-- A client that was subscribed is written each event that it has asked for, once. -/
theorem writesTo_openStream (hnew : bus.Without client) (haccepted : unknownEvents requested = [])
    (name : String) (data : JsonText) :
    (openStream bus client requested).bus.writesTo client name data =
      if name ∈ subscribedEvents requested then [eventFrame name data] else [] := by
  have hall : (subscribedEvents requested).count allEvents = 0 :=
    List.count_eq_zero_of_not_mem (not_mem_subscribedEvents requested)
  have hpings : ∀ other, (if allEvents = other then [Listener.keepAlive client] else []).filterMap
      (·.write name data) = [] := by
    intro other
    split <;> rfl
  simp only [openStream, haccepted, ne_eq, not_true_eq_false, if_false, StreamBus.writesTo,
    StreamBus.publish, StreamBus.listeners_subscribe, StreamBus.listeners_foldl, hall,
    List.replicate_zero, List.append_nil, List.filterMap_append, hpings, List.filter_append,
    hnew.writes, List.nil_append, count_subscribedEvents]
  split
  · simp [Listener.write]
  · simp [Listener.write]

/-- What is written for a publication or a ping. -/
def writesFor (requested : List String) : StreamEvent → List String
  | .publish name data => if name ∈ subscribedEvents requested then [eventFrame name data] else []
  | .ping => [": ping\n\n"]

/-- The response of a client whose list was accepted: the greeting, and then what it has asked
for in the order of the publications, with the pings in between. -/
theorem written_respond (hnew : bus.Without client) (haccepted : unknownEvents requested = [])
    (es : List StreamEvent) :
    respond bus client requested es =
      [": connected\n\n", eventFrame "hello" (helloText requested)] ++
        es.flatMap (writesFor requested) := by
  have hstart : (openStream bus client requested).written =
      [": connected\n\n", eventFrame "hello" (helloText requested)] := by
    simp [openStream, haccepted]
  have hbeat : (openStream bus client requested).heartbeat = true := by
    simp [openStream, haccepted]
  have hwrites := writesTo_openStream hnew haccepted
  rw [← hstart, respond]
  generalize openStream bus client requested = s at hbeat hwrites
  induction es generalizing s with
  | nil => simp
  | cons e es ih =>
    rw [List.foldl_cons, List.flatMap_cons, ← List.append_assoc]
    cases e with
    | publish name data =>
      rw [ih (s.respond client (.publish name data)) hbeat hwrites]
      simp [Stream.respond, hwrites, writesFor]
    | ping =>
      have hping : s.respond client .ping = { s with written := s.written ++ [": ping\n\n"] } :=
        if_pos hbeat
      rw [hping, ih { s with written := s.written ++ [": ping\n\n"] } hbeat hwrites]
      rfl

/-- A client whose list was refused is told so, and nothing after that. -/
theorem refused_respond (hnew : bus.Without client) (hrefused : unknownEvents requested ≠ [])
    (es : List StreamEvent) :
    respond bus client requested es =
      [": connected\n\n", eventFrame "error" (errorText (unknownEvents requested))] := by
  have hopen : openStream bus client requested = ⟨bus,
      [": connected\n\n", eventFrame "error" (errorText (unknownEvents requested))], false⟩ :=
    if_pos hrefused
  have hwrites : ∀ name data, bus.writesTo client name data = [] := by
    intro name data
    rw [StreamBus.writesTo, StreamBus.publish, List.filterMap_append, List.filter_append,
      hnew.writes, hnew.writes]
    rfl
  have hstays : ∀ s : Stream, s.bus = bus → s.heartbeat = false → ∀ e, s.respond client e = s := by
    rintro ⟨_, written, _⟩ rfl rfl e
    cases e with
    | publish name data => simp [Stream.respond, hwrites]
    | ping => simp [Stream.respond]
  rw [respond, hopen]
  induction es with
  | nil => rfl
  | cons e es ih => rw [List.foldl_cons, hstays _ rfl rfl e, ih]

end Written

end Hotelia.Broker
