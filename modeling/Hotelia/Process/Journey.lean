import Hotelia.Kitchen.Page
import Hotelia.Offline.LocalDelivery
import Hotelia.Offline.TextStore

/-!
# The way of a payload

A payload is handed to the store, kept as a text, read again by a flush, posted to the console as
the text of a body, taken apart by the body parser and the schema of `POST /packet`, written to
the responses of `GET /stream`, and read by a page from the pieces that arrive.

## Main definitions

- `deliverBody`, `receiveBody` — the body that `deliver` posts, and what the server makes of it

## Main results

- `record_origin`: a record that the store hands out was inserted.
- `payload_arrives`: a page is told of the payload as it was inserted.
-/

namespace Hotelia.Process
open Foundation Broker Kitchen Offline

/-- The body that `deliver` posts for a record. -/
def deliverBody (r : ReadRecord) : Json :=
  .obj [("type", .str (eventTypeOf r.actionType)), ("payload", r.payload)]

/-- `256kb`. -/
def bodyLimit : ℕ := 262144

/-- What `express.json({ limit: '256kb' })` and the schema of `POST /packet` make of the text of a
body: an event, or the status of a refusal. -/
def receiveBody (canon : String → String) (text : List Char) : Except ℕ PacketInput :=
  if bodyLimit < (Utf8.encode text).length then .error 413
  else
    match (Json.parse canon text).bind packetSchema with
    | none => .error 400
    | some parsed => .ok parsed

/-! ## What the store hands out -/

section Origin

variable {P : SyncEnqueueInput → Prop} {s : OfflineActionStore}

/-- What a row was inserted with. -/
def inputOf (r : OfflineActionRecord) : SyncEnqueueInput :=
  ⟨r.idempotencyKey, r.actionType, r.payload⟩

/-- The call, if it is an insert, has an input with `P`. -/
def Inserts (P : SyncEnqueueInput → Prop) : StoreCall → Prop
  | .insert input _ _ => P input
  | _ => True

theorem inputs_setWhere (h : ∀ r ∈ s.rows, P (inputOf r)) {sel : OfflineActionRecord → Bool}
    {f : OfflineActionRecord → OfflineActionRecord} (hf : KeepsKeys f)
    (hinput : ∀ r, inputOf (f r) = inputOf r) : ∀ r ∈ (s.setWhere sel f hf).rows, P (inputOf r) := by
  intro r hr
  obtain ⟨r, hmem, rfl⟩ := List.mem_map.mp hr
  have hold := h r hmem
  split
  · rwa [hinput]
  · exact hold

/-- Each record that a call answers was inserted, and so was each row that it leaves. -/
theorem record_origin (h : ∀ r ∈ s.rows, P (inputOf r)) {call : StoreCall} (hcall : Inserts P call) :
    (∀ row, (s.call call).1 = .record row → ∃ r, P (inputOf r) ∧ row = r.read) ∧
      ∀ r ∈ (s.call call).2.rows, P (inputOf r) := by
  cases call with
  | insert input id now =>
    have hrows : ∀ r ∈ (s.insert input id now).2.rows, P (inputOf r) := by
      intro r hr
      rcases Table.mem_of_mem_insertOrIgnore s _ hr with hold | rfl
      · exact h r hold
      · exact hcall
    have hmem : ∀ r ∈ (s.insert input id now).1, r ∈ (s.insert input id now).2.rows := fun r hr =>
      (OfflineActionStore.selectByKey_eq_some.mp hr).1
    rw [OfflineActionStore.call]
    cases hins : s.insert input id now with
    | mk found s' =>
      rw [hins] at hrows hmem
      cases found with
      | none => exact ⟨(fun row hrow => by cases hrow), hrows⟩
      | some r =>
        refine ⟨fun row hrow => ⟨r, hrows r (hmem r rfl), ?_⟩, hrows⟩
        exact (StoreAnswer.record.inj hrow).symm
  | claimNext now =>
    rw [OfflineActionStore.call, OfflineActionStore.claimNext]
    cases hfind : s.findClaimable with
    | none => exact ⟨(fun row hrow => by cases hrow), h⟩
    | some r =>
      have hr := h r (OfflineActionStore.findClaimable_eq_some hfind).1
      refine ⟨fun row hrow => ⟨r.claimed now, hr, (StoreAnswer.record.inj hrow).symm⟩, ?_⟩
      exact inputs_setWhere h (keepsKeys_claimed now) fun _ => rfl
  | markComplete id now =>
    exact ⟨(fun row hrow => by cases hrow),
      inputs_setWhere h (keepsKeys_completed now) fun _ => rfl⟩
  | markFailed id error now =>
    exact ⟨(fun row hrow => by cases hrow),
      inputs_setWhere h (keepsKeys_failed error now) fun _ => rfl⟩
  | requeueStaleProcessing beforeMs now =>
    exact ⟨(fun row hrow => by cases hrow),
      inputs_setWhere h (keepsKeys_requeued now) fun _ => rfl⟩
  | countByStatus => exact ⟨(fun row hrow => by cases hrow), h⟩
  | oldestPendingTs => exact ⟨(fun row hrow => by cases hrow), h⟩

/-- A record that the store hands out in a run was inserted in it. -/
theorem exists_insert {canon : String → String} {calls : List StoreCall}
    (hfits : ∀ call ∈ calls, call.Fits canon) {row : ReadRecord}
    (hrow : .record row ∈ answers (TextStore.call canon) Table.empty calls) :
    ∃ r : OfflineActionRecord, row = r.read ∧
      ∃ id now, StoreCall.insert (inputOf r) id now ∈ calls := by
  let P : SyncEnqueueInput → Prop := fun input => ∃ id now, StoreCall.insert input id now ∈ calls
  let Q : StoreAnswer → Prop := fun answer =>
    ∀ row, answer = .record row → ∃ r, P (inputOf r) ∧ row = r.read
  have hinserts : ∀ call ∈ calls, Inserts P call := by
    intro call hcall
    cases call with
    | insert input id now => exact ⟨id, now, hcall⟩
    | _ => trivial
  have hrows : ∀ r ∈ (Table.empty : OfflineActionStore).rows, P (inputOf r) := fun r hr => nomatch hr
  let I : OfflineActionStore → Prop := fun s => ∀ r ∈ s.rows, P (inputOf r)
  have hall : ∀ answer ∈ answers OfflineActionStore.call Table.empty calls, Q answer :=
    forall_answers (I := I) (fun s call hs hcall => record_origin hs hcall) hrows hinserts
  rw [answers_text hfits] at hrow
  obtain ⟨r, horigin, heq⟩ := hall _ hrow row rfl
  exact ⟨r, heq, horigin⟩

end Origin

/-! ## What the pages are told -/

section Pages

variable {canon : String → String}

theorem held_zodRecord {record : JsonRecord} (h : (Json.obj record).Held canon) :
    (Json.obj (zodRecord record)).Held canon := by
  cases h with
  | obj _ hfields hkeys =>
    exact .obj _ (fun f hf => hfields f (List.mem_of_mem_filter hf)) (hkeys.filter _)

/-- The server makes of the body of a record the packet of its row, unless it is too large. -/
theorem receiveBody_deliverBody {r : OfflineActionRecord} (hheld : (Json.obj r.payload).Held canon)
    (hlisted : r.actionType ∈ actionToEvent.map Prod.fst) :
    receiveBody canon (deliverBody r.read).print =
      if bodyLimit < (Utf8.encode (deliverBody r.read).print).length then .error 413
      else .ok ⟨eventTypeOf r.actionType, zodRecord r.payload⟩ := by
  have hbody : (deliverBody r.read).Held canon := by
    have hkeys : precedes "type" "payload" = true := by decide
    refine .obj _ (fun f hf => ?_) (List.pairwise_pair.mpr hkeys)
    rcases List.mem_pair.mp hf with rfl | rfl
    · exact .str _
    · exact hheld
  have hparsed : packetSchema (deliverBody r.read) =
      some ⟨eventTypeOf r.actionType, zodRecord r.payload⟩ := (packetSchema_packet hlisted).1
  rw [receiveBody, parse_print hbody, Option.bind_some, hparsed]

/-- What a connection is told of an event among others. -/
theorem consume_published {bus : StreamBus} {client : ℕ} {requested : List String}
    (hnew : bus.Without client) (haccepted : unknownEvents requested = []) {name : String}
    (hname : name ∈ subscribedEvents requested) (data : JsonText) (es es' : List StreamEvent)
    {pieces : List (List UInt8)} (hcut : pieces.flatten = Utf8.encode (String.join
      (respond bus client requested (es ++ .publish name data :: es'))).toList) :
    consumeBytes pieces = ("hello", (helloText requested).text) :: es.filterMap (told requested) ++
      (name, data.text) :: es'.filterMap (told requested) := by
  have htold : told requested (.publish name data) = some (name, data.text) := if_pos hname
  rw [written_respond hnew haccepted] at hcut
  rw [consumeBytes_greeted (by decide) (helloText requested) (writes_flatMap requested _) hcut,
    calls_flatMap, List.filterMap_append, List.cons_append, List.filterMap_cons_some htold]

/-- A record that the store hands out is delivered with the payload that it was inserted with, if
its body is not too large, and each page that has asked for its event reads this payload, however
the bytes of the response are cut. Only a field `__proto__` is lost on the way. -/
theorem payload_arrives {calls : List StoreCall} (hfits : ∀ call ∈ calls, call.Fits canon)
    {row : ReadRecord} (hrow : .record row ∈ answers (TextStore.call canon) Table.empty calls)
    (hlisted : row.actionType ∈ actionToEvent.map Prod.fst) :
    ∃ input id now, StoreCall.insert input id now ∈ calls ∧
      row.idempotencyKey = input.idempotencyKey ∧ row.actionType = input.actionType ∧
      receiveBody canon (deliverBody row).print =
        (if bodyLimit < (Utf8.encode (deliverBody row).print).length then .error 413
        else .ok ⟨eventTypeOf input.actionType, zodRecord input.payload⟩) ∧
      ∃ data : JsonText, data.text = String.ofList (Json.obj (zodRecord input.payload)).print ∧
        Json.parse canon data.text.toList = some (.obj (zodRecord input.payload)) ∧
        ∀ (bus : StreamBus) (client : ℕ) (requested : List String) (es es' : List StreamEvent)
          (pieces : List (List UInt8)), bus.Without client → unknownEvents requested = [] →
          eventTypeOf input.actionType ∈ subscribedEvents requested →
          pieces.flatten = Utf8.encode (String.join (respond bus client requested
            (es ++ .publish (eventTypeOf input.actionType) data :: es'))).toList →
          consumeBytes pieces = ("hello", (helloText requested).text) :: es.filterMap (told requested) ++
            (eventTypeOf input.actionType, data.text) :: es'.filterMap (told requested) := by
  obtain ⟨r, rfl, id, now, hinsert⟩ := exists_insert hfits hrow
  have hheld : (Json.obj r.payload).Held canon := (hfits _ hinsert).1
  have hcopy := held_zodRecord hheld
  refine ⟨inputOf r, id, now, hinsert, rfl, rfl, receiveBody_deliverBody hheld hlisted,
    (Json.obj (zodRecord r.payload)).toText hcopy, rfl, parse_toText hcopy, ?_⟩
  intro bus client requested es es' pieces hnew haccepted hname hcut
  exact consume_published hnew haccepted hname _ es es' hcut

/-- The check-in as the store hands it out. -/
def checkinRecord : ReadRecord :=
  (OfflineActionStore.newRow Table.empty checkinInput "a1" 1700000000000).read

theorem payload_arrives_checkin :
    ∃ input id now, StoreCall.insert input id now ∈ checkinCalls ∧
      checkinRecord.idempotencyKey = input.idempotencyKey ∧
      checkinRecord.actionType = input.actionType ∧
      receiveBody (fun text => text) (deliverBody checkinRecord).print =
        (if bodyLimit < (Utf8.encode (deliverBody checkinRecord).print).length then .error 413
        else .ok ⟨eventTypeOf input.actionType, zodRecord input.payload⟩) ∧
      ∃ data : JsonText, data.text = String.ofList (Json.obj (zodRecord input.payload)).print ∧
        Json.parse (fun text => text) data.text.toList = some (.obj (zodRecord input.payload)) ∧
        ∀ (bus : StreamBus) (client : ℕ) (requested : List String) (es es' : List StreamEvent)
          (pieces : List (List UInt8)), bus.Without client → unknownEvents requested = [] →
          eventTypeOf input.actionType ∈ subscribedEvents requested →
          pieces.flatten = Utf8.encode (String.join (respond bus client requested
            (es ++ .publish (eventTypeOf input.actionType) data :: es'))).toList →
          consumeBytes pieces = ("hello", (helloText requested).text) :: es.filterMap (told requested) ++
            (eventTypeOf input.actionType, data.text) :: es'.filterMap (told requested) := by
  have hrow : .record checkinRecord ∈
      answers (TextStore.call fun text => text) Table.empty checkinCalls := by
    have hanswers := answers_text fits_checkinCalls
    change answers (TextStore.call fun text => text) Table.empty checkinCalls = _ at hanswers
    rw [hanswers]
    exact List.mem_cons_self
  exact payload_arrives fits_checkinCalls hrow (by decide)

end Pages

end Hotelia.Process
