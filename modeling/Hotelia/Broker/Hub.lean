import Hotelia.Broker.Connections
import Hotelia.Kitchen.Page

/-!
# What every connection is written

The responses of all connections to `GET /stream` while they come and go: publications, the pings
of each connection, sockets that are closed by the other side or destroyed because a ping did not
get through, and `cleanup`.

## Main definitions

- `Hub.step` — what can happen
- `heard` — what a connection is there for

## Main results

- `Hub.written_run`: the response of a connection depends on what it has asked for and on what
  has happened until its socket was shut.
- `pages_hear`: what a page is told, in every run.
-/

namespace Hotelia.Broker
open Foundation

/-- What `res.write(': ping\n\n')` does. -/
inductive PingOutcome where
  | accepted
  /-- It returns `false`: the ping is written, and the socket is destroyed. -/
  | full
  /-- It throws. -/
  | failed
  deriving DecidableEq

inductive HubEvent where
  /-- `GET /stream` behind the token check -/
  | connect (client : ℕ) (requested : List String)
  /-- `bus.publish(name, payload)` -/
  | publish (name : String) (data : JsonText)
  /-- The timer of the pings of a connection -/
  | ping (client : ℕ) (outcome : PingOutcome)
  /-- The other side closes the connection. -/
  | gone (client : ℕ)
  | cleanup (client : ℕ)

/-- The bus and the connections, the responses, the sockets that are ended or destroyed, and the
timers that run. -/
structure Hub where
  server : StreamServer
  written : ℕ → List String
  shut : ℕ → Bool
  beating : ℕ → Bool

namespace Hub

def start : Hub := ⟨.start, fun _ => [], fun _ => false, fun _ => false⟩

/-- A handler writes unless the socket is shut. -/
def publish (h : Hub) (name : String) (data : JsonText) : Hub :=
  { h with
    written := fun c => h.written c ++ if h.shut c then [] else h.server.bus.writesTo c name data }

/-- The timer of the pings. -/
def ping (h : Hub) (client : ℕ) (outcome : PingOutcome) : Hub :=
  if h.shut client then { h with beating := Function.update h.beating client false }
  else
    match outcome with
    | .accepted =>
      { h with written := Function.update h.written client (h.written client ++ [": ping\n\n"]) }
    | .full =>
      { h with
        written := Function.update h.written client (h.written client ++ [": ping\n\n"])
        shut := Function.update h.shut client true }
    | .failed => { h with shut := Function.update h.shut client true }

def step (h : Hub) : HubEvent → Option Hub
  | .connect client requested =>
    let opened := openStream h.server.bus client requested
    (h.server.step (.connect client requested)).map fun server =>
      { server
        written := Function.update h.written client opened.written
        shut := Function.update h.shut client (unknownEvents requested ≠ [])
        beating := Function.update h.beating client opened.heartbeat }
  | .publish name data => some (h.publish name data)
  | .ping client outcome => if h.beating client then some (h.ping client outcome) else none
  | .gone client =>
    if h.server.connections.any (·.client = client) then
      some { h with shut := Function.update h.shut client true }
    else none
  | .cleanup client =>
    (h.server.step (.cleanup client)).map fun server =>
      { h with
        server
        shut := Function.update h.shut client true
        beating := Function.update h.beating client false }

end Hub

/-- What a connection is there for: all that happens until its socket is shut, but not the pings
of other connections. -/
def heard (client : ℕ) : List HubEvent → List StreamEvent
  | [] => []
  | .publish name data :: es => .publish name data :: heard client es
  | .ping c outcome :: es =>
    if c = client then
      match outcome with
      | .accepted => .ping :: heard client es
      | .full => [.ping]
      | .failed => []
    else heard client es
  | .gone c :: es => if c = client then [] else heard client es
  | .cleanup c :: es => if c = client then [] else heard client es
  | .connect _ _ :: es => heard client es

namespace Hub

variable {h h' : Hub} {client : ℕ} {requested : List String}

/-! ## The connections of the bus -/

theorem server_ping (h : Hub) (c : ℕ) (outcome : PingOutcome) :
    (h.ping c outcome).server = h.server := by
  unfold ping
  split
  · rfl
  · cases outcome <;> rfl

/-- The connections of a hub are those of a server that has made the same steps. -/
theorem accounted_step {e : HubEvent} (hacc : h.server.Accounted) (hs : h.step e = some h') :
    h'.server.Accounted := by
  cases e with
  | connect c requested =>
    obtain ⟨server, hserver, rfl⟩ := Option.map_eq_some_iff.mp hs
    exact hacc.step hserver
  | publish name data =>
    cases hs
    exact hacc
  | ping c outcome =>
    rw [step] at hs
    split at hs
    · cases hs
      rwa [server_ping]
    · cases hs
  | gone c =>
    rw [step] at hs
    split at hs
    · cases hs
      exact hacc
    · cases hs
  | cleanup c =>
    obtain ⟨server, hserver, rfl⟩ := Option.map_eq_some_iff.mp hs
    exact hacc.step hserver

/-- Of the handlers of a list only those of the client write to its response. -/
theorem writes_filter (handlers : List (String × Listener)) (client : ℕ) (key name : String)
    (data : JsonText) :
    ((((handlers.filter (·.2.client = client)).filter (·.1 = key)).map (·.2)).filterMap
        (·.write name data)).filter (·.1 = client) =
      (((handlers.filter (·.1 = key)).map (·.2)).filterMap (·.write name data)).filter
        (·.1 = client) := by
  induction handlers with
  | nil => rfl
  | cons handler handlers ih =>
    obtain ⟨k, l⟩ := handler
    by_cases hkey : k = key
    · by_cases hclient : l.client = client
      · simp only [hclient, hkey, decide_true, List.filter_cons_of_pos, List.map_cons,
          List.filterMap_cons]
        cases l.write name data with
        | none => exact ih
        | some write =>
          rw [List.filter_cons, List.filter_cons, ih]
      · have hnone : ((l.write name data).toList).filter (·.1 = client) = [] := by
          cases l with
          | keepAlive c => rfl
          | forward c =>
            have hother : c ≠ client := hclient
            simp [Listener.write, hother]
        simp only [hclient, hkey, decide_true, decide_false, List.filter_cons_of_pos,
          List.map_cons, List.filterMap_cons, Bool.false_eq_true, not_false_eq_true,
          List.filter_cons_of_neg]
        rw [ih]
        cases hwrite : l.write name data with
        | none => rfl
        | some write =>
          rw [hwrite] at hnone
          simp only [Option.toList_some] at hnone
          rw [List.filter_cons_of_neg (by simpa using hnone)]
    · by_cases hclient : l.client = client
      · simp only [hclient, hkey, decide_true, decide_false, List.filter_cons_of_pos,
          Bool.false_eq_true, not_false_eq_true, List.filter_cons_of_neg]
        exact ih
      · simp only [hclient, hkey, decide_false, Bool.false_eq_true, not_false_eq_true,
          List.filter_cons_of_neg]
        exact ih

theorem writesTo_filter (bus : StreamBus) (client : ℕ) (name : String) (data : JsonText) :
    bus.writesTo client name data =
      StreamBus.writesTo ⟨bus.handlers.filter (·.2.client = client)⟩ client name data := by
  simp only [StreamBus.writesTo, StreamBus.publish, StreamBus.listeners, List.filterMap_append,
    List.filter_append, writes_filter]

/-- The handlers of a client are those of its connection. -/
theorem handlers_of_client {s : StreamServer} (hacc : s.Accounted) {c : Connection}
    (hc : c ∈ s.connections) :
    s.bus.handlers.filter (·.2.client = c.client) = c.registered := by
  have hown : ∀ d : Connection, d.registered.filter (·.2.client = c.client) =
      if d.client = c.client then d.registered else [] := by
    intro d
    split
    · next heq =>
      refine List.filter_eq_self.mpr fun handler hhandler => ?_
      rw [StreamServer.client_of_mem_registered hhandler, heq]
      exact decide_eq_true rfl
    · next hne =>
      refine List.filter_eq_nil_iff.mpr fun handler hhandler => ?_
      rw [StreamServer.client_of_mem_registered hhandler]
      simpa using hne
  have hnodup := hacc.distinct
  rw [hacc.handlers, List.filter_flatMap]
  simp only [hown]
  generalize s.connections = connections at hc hnodup
  induction connections with
  | nil => exact absurd hc List.not_mem_nil
  | cons d ds ih =>
    rw [List.map_cons, List.nodup_cons] at hnodup
    rw [List.flatMap_cons]
    rcases List.mem_cons.mp hc with rfl | hmem
    · rw [if_pos rfl, List.flatMap_eq_nil_iff.mpr, List.append_nil]
      intro e he
      refine if_neg fun heq => hnodup.1 ?_
      rw [← heq]
      exact List.mem_map_of_mem he
    · have hne : d.client ≠ c.client := by
        intro heq
        rw [heq] at hnodup
        exact hnodup.1 (List.mem_map_of_mem hmem)
      rw [if_neg hne, List.nil_append]
      exact ih hmem hnodup.2

/-- The bus writes to an open connection what it has asked for. -/
theorem writesTo_of_mem {s : StreamServer} (hacc : s.Accounted) {c : Connection}
    (hc : c ∈ s.connections) (hopen : c.IsOpen) (name : String) (data : JsonText) :
    s.bus.writesTo c.client name data = writesFor c.requested (.publish name data) := by
  have halone : (openStream ⟨[]⟩ c.client c.requested).bus = ⟨c.registered⟩ := by
    have hhandlers := StreamServer.openStream_handlers ⟨[]⟩ c.client c.requested
    have hfresh : Connection.registered ⟨c.client, c.requested, false⟩ = c.registered := by
      obtain ⟨client, requested, cleanedUp⟩ := c
      obtain ⟨-, hclean⟩ := hopen
      cases hclean
      rfl
    rw [hfresh, List.nil_append] at hhandlers
    rw [← hhandlers]
  rw [writesTo_filter, handlers_of_client hacc hc, ← halone]
  exact writesTo_openStream (List.forall_mem_nil _) hopen.1 name data

/-! ## One connection among the others -/

/-- The connection has been accepted, and its socket is not shut. -/
structure Open (client : ℕ) (requested : List String) (h : Hub) : Prop where
  accounted : h.server.Accounted
  accepted : unknownEvents requested = []
  mem : ⟨client, requested, false⟩ ∈ h.server.connections
  writable : h.shut client = false

/-- The connection has been made, and its socket is shut. -/
structure Shut (client : ℕ) (h : Hub) : Prop where
  known : ∃ c ∈ h.server.connections, c.client = client
  shut : h.shut client = true

/-- A number that is not known yet is that of no connection. -/
theorem connect_eq_some {s t : StreamServer} {c : ℕ} {requested : List String}
    (hs : s.step (.connect c requested) = some t) :
    (∀ d ∈ s.connections, d.client ≠ c) ∧ t.connections = s.connections ++ [⟨c, requested, false⟩] := by
  rw [StreamServer.step] at hs
  split at hs
  · cases hs
  · next hnew =>
    cases hs
    exact ⟨by simpa using hnew, rfl⟩

theorem cleanup_eq_some {s t : StreamServer} {c : ℕ} (hs : s.step (.cleanup c) = some t) :
    t.connections = s.connections.map fun d =>
      if d.client = c then { d with cleanedUp := true } else d := by
  rw [StreamServer.step] at hs
  split at hs
  · cases hs
  · split at hs
    · cases hs
      rfl
    · cases hs

/-- A connection stays known. -/
theorem known_step {e : HubEvent} (hknown : ∃ c ∈ h.server.connections, c.client = client)
    (hs : h.step e = some h') : ∃ c ∈ h'.server.connections, c.client = client := by
  obtain ⟨d, hd, hclient⟩ := hknown
  cases e with
  | connect c requested =>
    obtain ⟨server, hserver, rfl⟩ := Option.map_eq_some_iff.mp hs
    refine ⟨d, ?_, hclient⟩
    change d ∈ server.connections
    rw [(connect_eq_some hserver).2]
    exact List.mem_append_left _ hd
  | publish name data =>
    cases hs
    exact ⟨d, hd, hclient⟩
  | ping c outcome =>
    rw [step] at hs
    split at hs
    · cases hs
      exact ⟨d, by rwa [server_ping], hclient⟩
    · cases hs
  | gone c =>
    rw [step] at hs
    split at hs
    · cases hs
      exact ⟨d, hd, hclient⟩
    · cases hs
  | cleanup c =>
    obtain ⟨server, hserver, rfl⟩ := Option.map_eq_some_iff.mp hs
    change ∃ c ∈ server.connections, c.client = client
    rw [cleanup_eq_some hserver]
    refine ⟨_, List.mem_map_of_mem hd, ?_⟩
    split
    · exact hclient
    · exact hclient

/-- The pings of the others leave a connection alone. -/
theorem ping_of_ne {c : ℕ} (hne : client ≠ c) (outcome : PingOutcome) :
    (h.ping c outcome).written client = h.written client ∧
      (h.ping c outcome).shut client = h.shut client := by
  unfold ping
  split
  · exact ⟨rfl, rfl⟩
  · cases outcome with
    | accepted => exact ⟨Function.update_of_ne hne _ _, rfl⟩
    | full => exact ⟨Function.update_of_ne hne _ _, Function.update_of_ne hne _ _⟩
    | failed => exact ⟨rfl, Function.update_of_ne hne _ _⟩

/-- Nothing is written to a socket that is shut, and it stays shut. -/
theorem Shut.step {e : HubEvent} (hshut : Shut client h) (hs : h.step e = some h') :
    h'.written client = h.written client ∧ Shut client h' := by
  have hknown := known_step hshut.known hs
  cases e with
  | connect c requested =>
    obtain ⟨server, hserver, rfl⟩ := Option.map_eq_some_iff.mp hs
    obtain ⟨d, hd, hclient⟩ := hshut.known
    have hne : client ≠ c := hclient ▸ (connect_eq_some hserver).1 d hd
    exact ⟨Function.update_of_ne hne _ _, hknown, (Function.update_of_ne hne _ _).trans hshut.shut⟩
  | publish name data =>
    cases hs
    refine ⟨?_, hknown, hshut.shut⟩
    simp only [publish, hshut.shut, if_true, List.append_nil]
  | ping c outcome =>
    rw [Hub.step] at hs
    split at hs
    · cases hs
      by_cases hc : client = c
      · subst hc
        have hping : h.ping client outcome =
            { h with beating := Function.update h.beating client false } := if_pos hshut.shut
        rw [hping] at hknown ⊢
        exact ⟨rfl, hknown, hshut.shut⟩
      · obtain ⟨hwritten, hsame⟩ := ping_of_ne (h := h) hc outcome
        exact ⟨hwritten, hknown, hsame.trans hshut.shut⟩
    · cases hs
  | gone c =>
    rw [Hub.step] at hs
    split at hs
    · cases hs
      refine ⟨rfl, hknown, ?_⟩
      by_cases hc : client = c
      · rw [hc]
        exact Function.update_self c _ _
      · exact (Function.update_of_ne hc _ _).trans hshut.shut
    · cases hs
  | cleanup c =>
    obtain ⟨server, hserver, rfl⟩ := Option.map_eq_some_iff.mp hs
    refine ⟨rfl, hknown, ?_⟩
    by_cases hc : client = c
    · rw [hc]
      exact Function.update_self c _ _
    · exact (Function.update_of_ne hc _ _).trans hshut.shut

theorem Shut.run {es : List HubEvent} (hshut : Shut client h)
    (hr : Foundation.run Hub.step h es = some h') : h'.written client = h.written client := by
  induction es generalizing h with
  | nil => exact congrArg (·.written client) (Option.some.inj hr).symm
  | cons e es ih =>
    obtain ⟨t, ht, hrest⟩ := run_cons_eq_some.mp hr
    obtain ⟨hsame, hnext⟩ := hshut.step ht
    rw [ih hnext hrest, hsame]

/-- What an event adds to what an open connection is there for, and whether it stays open. -/
theorem Open.step {e : HubEvent} (hopen : Open client requested h) (hs : h.step e = some h') :
    ∃ news : List StreamEvent,
      h'.written client = h.written client ++ news.flatMap (writesFor requested) ∧
        ((Open client requested h' ∧ ∀ es, heard client (e :: es) = news ++ heard client es) ∨
          (Shut client h' ∧ ∀ es, heard client (e :: es) = news)) := by
  have hacc := accounted_step hopen.accounted hs
  have hknown := known_step ⟨_, hopen.mem, rfl⟩ hs
  cases e with
  | connect c other =>
    obtain ⟨server, hserver, rfl⟩ := Option.map_eq_some_iff.mp hs
    obtain ⟨hnew, hconnections⟩ := connect_eq_some hserver
    have hne : client ≠ c := hnew _ hopen.mem
    have hmem : ⟨client, requested, false⟩ ∈ server.connections := by
      rw [hconnections]
      exact List.mem_append_left _ hopen.mem
    refine ⟨[], ?_, .inl ⟨⟨hacc, hopen.accepted, hmem, ?_⟩, fun es => rfl⟩⟩
    · rw [List.flatMap_nil, List.append_nil]
      exact Function.update_of_ne hne _ _
    · exact (Function.update_of_ne hne _ _).trans hopen.writable
  | publish name data =>
    cases hs
    refine ⟨[.publish name data], ?_, .inl ⟨⟨hacc, hopen.accepted, hopen.mem, hopen.writable⟩,
      fun es => rfl⟩⟩
    have hwrites := writesTo_of_mem hopen.accounted hopen.mem ⟨hopen.accepted, rfl⟩ name data
    rw [List.flatMap_singleton]
    simp only [publish, hopen.writable, Bool.false_eq_true, if_false]
    rw [hwrites]
  | ping c outcome =>
    rw [Hub.step] at hs
    split at hs
    · cases hs
      by_cases hc : client = c
      · subst hc
        have hlive : ¬ h.shut client = true := by
          rw [hopen.writable]
          decide
        cases outcome with
        | accepted =>
          refine ⟨[.ping], ?_, .inl ⟨⟨hacc, hopen.accepted, by rw [server_ping]; exact hopen.mem, ?_⟩,
            fun es => if_pos rfl⟩⟩
          · unfold ping
            rw [if_neg hlive]
            exact Function.update_self client _ _
          · unfold ping
            rw [if_neg hlive]
            exact hopen.writable
        | full =>
          refine ⟨[.ping], ?_, .inr ⟨⟨hknown, ?_⟩, fun es => if_pos rfl⟩⟩
          · unfold ping
            rw [if_neg hlive]
            exact Function.update_self client _ _
          · unfold ping
            rw [if_neg hlive]
            exact Function.update_self client _ _
        | failed =>
          refine ⟨[], ?_, .inr ⟨⟨hknown, ?_⟩, fun es => if_pos rfl⟩⟩
          · unfold ping
            rw [if_neg hlive, List.flatMap_nil, List.append_nil]
          · unfold ping
            rw [if_neg hlive]
            exact Function.update_self client _ _
      · obtain ⟨hwritten, hsame⟩ := ping_of_ne (h := h) hc outcome
        refine ⟨[], ?_, .inl ⟨⟨hacc, hopen.accepted, by rw [server_ping]; exact hopen.mem,
          hsame.trans hopen.writable⟩, fun es => if_neg (Ne.symm hc)⟩⟩
        rw [hwritten, List.flatMap_nil, List.append_nil]
    · cases hs
  | gone c =>
    rw [Hub.step] at hs
    split at hs
    · cases hs
      refine ⟨[], (List.append_nil _).symm, ?_⟩
      by_cases hc : client = c
      · subst hc
        exact .inr ⟨⟨hknown, Function.update_self client _ _⟩, fun es => if_pos rfl⟩
      · exact .inl ⟨⟨hacc, hopen.accepted, hopen.mem,
          (Function.update_of_ne hc _ _).trans hopen.writable⟩, fun es => if_neg (Ne.symm hc)⟩
    · cases hs
  | cleanup c =>
    obtain ⟨server, hserver, rfl⟩ := Option.map_eq_some_iff.mp hs
    refine ⟨[], (List.append_nil _).symm, ?_⟩
    by_cases hc : client = c
    · subst hc
      exact .inr ⟨⟨hknown, Function.update_self client _ _⟩, fun es => if_pos rfl⟩
    · have hmem : ⟨client, requested, false⟩ ∈ server.connections := by
        rw [cleanup_eq_some hserver]
        exact List.mem_map.mpr ⟨_, hopen.mem, if_neg hc⟩
      exact .inl ⟨⟨hacc, hopen.accepted, hmem, (Function.update_of_ne hc _ _).trans hopen.writable⟩,
        fun es => if_neg (Ne.symm hc)⟩

theorem Open.run {es : List HubEvent} (hopen : Open client requested h)
    (hr : Foundation.run Hub.step h es = some h') :
    h'.written client = h.written client ++ (heard client es).flatMap (writesFor requested) := by
  induction es generalizing h with
  | nil =>
    rw [heard, List.flatMap_nil, List.append_nil]
    exact congrArg (·.written client) (Option.some.inj hr).symm
  | cons e es ih =>
    obtain ⟨t, ht, hrest⟩ := run_cons_eq_some.mp hr
    obtain ⟨news, hwritten, ⟨hnext, hheard⟩ | ⟨hshut, hheard⟩⟩ := hopen.step ht
    · rw [ih hnext hrest, hwritten, hheard, List.flatMap_append, List.append_assoc]
    · rw [hshut.run hrest, hwritten, hheard]

/-! ## Every connection -/

/-- A connection that is made in a run is written the greeting, and what it is there for. -/
theorem written_run {before es : List HubEvent} (haccepted : unknownEvents requested = [])
    (hr : Foundation.run Hub.step start (before ++ .connect client requested :: es) = some h) :
    h.written client = [": connected\n\n", eventFrame "hello" (helloText requested)] ++
      (heard client es).flatMap (writesFor requested) := by
  rw [run_append] at hr
  obtain ⟨s, hbefore, hr⟩ := Option.bind_eq_some_iff.mp hr
  obtain ⟨t, hconnect, hrest⟩ := run_cons_eq_some.mp hr
  have hacc : s.server.Accounted := run_invariant (I := fun h : Hub => h.server.Accounted)
    (fun _ _ _ hacc hs => accounted_step hacc hs) StreamServer.accounted_start hbefore
  have hacc' := accounted_step hacc hconnect
  obtain ⟨server, hserver, rfl⟩ := Option.map_eq_some_iff.mp hconnect
  have hmem : ⟨client, requested, false⟩ ∈ server.connections := by
    rw [(connect_eq_some hserver).2]
    exact List.mem_append_right _ List.mem_cons_self
  have hshut : Function.update s.shut client (unknownEvents requested ≠ []) client = false := by
    rw [Function.update_self, haccepted]
    rfl
  have hwritten : Function.update s.written client
      (openStream s.server.bus client requested).written client =
        [": connected\n\n", eventFrame "hello" (helloText requested)] := by
    rw [Function.update_self, openStream, if_neg (not_not_intro haccepted)]
  have hopen : Open client requested ⟨server, Function.update s.written client
      (openStream s.server.bus client requested).written, Function.update s.shut client
        (unknownEvents requested ≠ []), Function.update s.beating client
          (openStream s.server.bus client requested).heartbeat⟩ :=
    ⟨hacc', haccepted, hmem, hshut⟩
  rw [hopen.run hrest]
  change Function.update s.written client _ client ++ _ = _
  rw [hwritten]

/-- A connection whose list is refused is told so, and nothing after that. -/
theorem refused_run {before es : List HubEvent} (hrefused : unknownEvents requested ≠ [])
    (hr : Foundation.run Hub.step start (before ++ .connect client requested :: es) = some h) :
    h.written client =
      [": connected\n\n", eventFrame "error" (errorText (unknownEvents requested))] := by
  rw [run_append] at hr
  obtain ⟨s, hbefore, hr⟩ := Option.bind_eq_some_iff.mp hr
  obtain ⟨t, hconnect, hrest⟩ := run_cons_eq_some.mp hr
  obtain ⟨server, hserver, rfl⟩ := Option.map_eq_some_iff.mp hconnect
  have hmem : ⟨client, requested, false⟩ ∈ server.connections := by
    rw [(connect_eq_some hserver).2]
    exact List.mem_append_right _ List.mem_cons_self
  have hshut : Function.update s.shut client (unknownEvents requested ≠ []) client = true := by
    rw [Function.update_self]
    exact decide_eq_true hrefused
  have hwritten : Function.update s.written client
      (openStream s.server.bus client requested).written client =
        [": connected\n\n", eventFrame "error" (errorText (unknownEvents requested))] := by
    rw [Function.update_self, openStream, if_pos hrefused]
  have hend : Shut client ⟨server, Function.update s.written client
      (openStream s.server.bus client requested).written, Function.update s.shut client
        (unknownEvents requested ≠ []), Function.update s.beating client
          (openStream s.server.bus client requested).heartbeat⟩ := ⟨⟨_, hmem, rfl⟩, hshut⟩
  rw [hend.run hrest]
  exact hwritten

end Hub

/-- In every run, however connections come and go, a page that reads the bytes of the response of a
connection in any pieces is told of the greeting, and then of the publications that it has asked
for, each once and in their order, up to the moment when its socket is shut; of a refused list it
is told the error and nothing else. -/
theorem pages_hear {before es : List HubEvent} {client : ℕ} {requested : List String} {h : Hub}
    (hr : run Hub.step Hub.start (before ++ .connect client requested :: es) = some h)
    {pieces : List (List UInt8)}
    (hcut : pieces.flatten = Utf8.encode (String.join (h.written client)).toList) :
    Kitchen.consumeBytes pieces =
      if unknownEvents requested = [] then
        ("hello", (helloText requested).text) ::
          (heard client es).filterMap (Kitchen.told requested)
      else [("error", (errorText (unknownEvents requested)).text)] := by
  split
  · next haccepted =>
    rw [Hub.written_run haccepted hr] at hcut
    rw [Kitchen.consumeBytes_greeted (by decide) (helloText requested)
      (Kitchen.writes_flatMap requested (heard client es)) hcut, Kitchen.calls_flatMap]
  · next hrefused =>
    rw [Hub.refused_run hrefused hr] at hcut
    exact Kitchen.consumeBytes_greeted (by decide) _ .nil hcut

/-- Two displays, one of which loses its socket before an order is placed. -/
def twoDisplays : List HubEvent :=
  [.connect 1 [], .ping 0 .accepted, .gone 1, .publish "order.placed" Kitchen.sampleOrder,
    .ping 1 .accepted, .cleanup 1, .ping 0 .full, .publish "order.placed" Kitchen.sampleOrder]

theorem pages_hear_displays :
    ∃ h, run Hub.step Hub.start ([] ++ .connect 0 ["order.placed"] :: twoDisplays) = some h ∧
      Kitchen.consumeBytes [Utf8.encode (String.join (h.written 0)).toList] =
        if unknownEvents ["order.placed"] = [] then
          ("hello", (helloText ["order.placed"]).text) ::
            (heard 0 twoDisplays).filterMap (Kitchen.told ["order.placed"])
        else [("error", (errorText (unknownEvents ["order.placed"])).text)] := by
  have hsome : (run Hub.step Hub.start
      ([] ++ .connect 0 ["order.placed"] :: twoDisplays)).isSome = true := by
    decide +kernel
  obtain ⟨h, hr⟩ := Option.isSome_iff_exists.mp hsome
  exact ⟨h, hr, pages_hear hr (List.append_nil _)⟩

end Hotelia.Broker
