import Hotelia.Broker.Stream
import Hotelia.Foundation.Frames
import Hotelia.Foundation.Utf8
import Mathlib.Data.List.Forall2

/-!
# What the kitchen display reads

The loop of `apps/kds/app/page.tsx` that takes the response of `GET /stream` apart, in
whatever pieces it arrives, and calls `handleFrame`.

## Main definitions

- `consume` — the calls of `handleFrame` for the pieces of a text
- `consumeBytes` — the same for the pieces of its bytes, which may cut a letter

## Main results

- `consume_eq`: the calls do not depend on how the text is cut.
- `stream_faithful`: the display is told what was published and subscribed to, in order.
- `stream_refused`: a request that was refused leaves it with an error.
-/

namespace Hotelia.Kitchen
open Foundation Broker

/-- The call of `handleFrame(event, data)` for a frame, if it has data. -/
def frameCall (frame : List Char) : Option (String × String) :=
  let lines := frame.splitOn '\n'
  let event := (lines.find? ("event: ".toList.isPrefixOf ·)).map (·.drop 7)
  match (lines.find? ("data: ".toList.isPrefixOf ·)).map (·.drop 6) with
  | none => none
  | some [] => none
  | some data => some (String.ofList (event.getD []), String.ofList data)

/-- `consume()`: the calls for the chunks that are read after `buffer`. -/
def consumeFrom (buffer : List Char) : List String → List (String × String)
  | [] => []
  | chunk :: chunks =>
    let frames := splitFrames '\n' (buffer ++ chunk.toList)
    frames.1.filterMap frameCall ++ consumeFrom frames.2 chunks

def consume (chunks : List String) : List (String × String) := consumeFrom [] chunks

theorem consumeFrom_eq (buffer : List Char) (chunks : List String) :
    consumeFrom buffer chunks =
      (receiveAll '\n' buffer (chunks.map String.toList)).1.filterMap frameCall := by
  induction chunks generalizing buffer with
  | nil => rfl
  | cons chunk chunks ih =>
    rw [consumeFrom, ih, List.map_cons, receiveAll, List.filterMap_append]

/-- The calls do not depend on how the text is cut. -/
theorem consume_eq (chunks : List String) :
    consume chunks = (splitFrames '\n' (String.join chunks).toList).1.filterMap frameCall := by
  rw [consume, consumeFrom_eq, receiveAll_eq rfl, List.nil_append, String.toList_join,
    List.flatMap_def]

/-! ## The frames of a response -/

/-- What is written as a whole: a frame and its end. -/
structure Writes (frame : List Char) (text : String) : Prop where
  toList : text.toList = frame ++ ['\n', '\n']
  solid : Solid '\n' frame

theorem toList_join_of_writes {frames : List (List Char)} {written : List String}
    (h : List.Forall₂ Writes frames written) :
    (String.join written).toList = framesText '\n' frames := by
  rw [String.toList_join]
  induction h with
  | nil => rfl
  | cons hfirst _ ih =>
    rw [List.flatMap_cons, ih, hfirst.toList]
    rfl

theorem solid_of_writes {frames : List (List Char)} {written : List String}
    (h : List.Forall₂ Writes frames written) : ∀ f ∈ frames, Solid '\n' f := by
  induction h with
  | nil => exact List.forall_mem_nil _
  | cons hfirst _ ih => exact List.forall_mem_cons.mpr ⟨hfirst.solid, ih⟩

/-- A response that is written frame by frame is read frame by frame. -/
theorem consume_of_writes {frames : List (List Char)} {written chunks : List String}
    (h : List.Forall₂ Writes frames written) (hcut : String.join chunks = String.join written) :
    consume chunks = frames.filterMap frameCall := by
  rw [consume_eq, hcut, toList_join_of_writes h, splitFrames_framesText (solid_of_writes h)]

/-- The frame of an event. -/
def eventLines (event : String) (data : JsonText) : List Char :=
  ("event: " ++ event).toList ++ '\n' :: ("data: " ++ data.text).toList

theorem not_mem_eventLine {event : String} (h : '\n' ∉ event.toList) :
    '\n' ∉ ("event: " ++ event).toList := by
  rw [String.toList_append, List.mem_append, not_or]
  exact ⟨by decide, h⟩

theorem not_mem_dataLine (data : JsonText) : '\n' ∉ ("data: " ++ data.text).toList := by
  rw [String.toList_append, List.mem_append, not_or]
  exact ⟨by decide, data.oneLine⟩

theorem writes_eventFrame {event : String} (h : '\n' ∉ event.toList) (data : JsonText) :
    Writes (eventLines event data) (eventFrame event data) := by
  constructor
  · simp [eventLines, eventFrame, String.toList_append]
  · have hfirst : ("data: " ++ data.text).toList = 'd' :: ("ata: ".toList ++ data.text.toList) := by
      rw [String.toList_append]
      rfl
    have hsolid := solid_of_not_mem (not_mem_dataLine data)
    rw [hfirst] at hsolid
    rw [eventLines, hfirst]
    exact hsolid.line (not_mem_eventLine h) (by decide)

theorem frameCall_eventLines {event : String} (h : '\n' ∉ event.toList) (data : JsonText) :
    frameCall (eventLines event data) = some (event, data.text) := by
  have hlines : (eventLines event data).splitOn '\n' =
      [("event: " ++ event).toList, ("data: " ++ data.text).toList] := by
    rw [eventLines, List.splitOn_append_cons_self_of_not_mem (not_mem_eventLine h),
      List.splitOn_eq_singleton (not_mem_dataLine data)]
  have hdata : data.text.toList ≠ [] := fun hnil => data.nonempty (String.toList_eq_nil_iff.mp hnil)
  simp only [frameCall, hlines, String.toList_append]
  have hevent : "event: ".toList.isPrefixOf ("event: ".toList ++ event.toList) = true :=
    List.isPrefixOf_iff_prefix.mpr (List.prefix_append _ _)
  have hother : "data: ".toList.isPrefixOf ("event: ".toList ++ event.toList) = false := rfl
  have hsecond : "data: ".toList.isPrefixOf ("data: ".toList ++ data.text.toList) = true :=
    List.isPrefixOf_iff_prefix.mpr (List.prefix_append _ _)
  rw [List.find?_cons_of_pos hevent, List.find?_cons_of_neg (by rw [hother]; decide),
    List.find?_cons_of_pos hsecond, Option.map_some, Option.map_some]
  have hdrop : ("data: ".toList ++ data.text.toList).drop 6 = data.text.toList := rfl
  have hname : ("event: ".toList ++ event.toList).drop 7 = event.toList := rfl
  rw [hdrop, hname]
  cases htext : data.text.toList with
  | nil => exact absurd htext hdata
  | cons c rest =>
    show some (String.ofList event.toList, String.ofList (c :: rest)) = _
    rw [← htext, String.ofList_toList, String.ofList_toList]

/-- A comment has no data. -/
theorem frameCall_comment {frame : List Char} (hline : '\n' ∉ frame) (hcolon : frame.head? = some ':') :
    frameCall frame = none := by
  obtain ⟨rest, rfl⟩ : ∃ rest, frame = ':' :: rest := by
    cases frame with
    | nil => cases hcolon
    | cons c rest =>
      cases hcolon
      exact ⟨rest, rfl⟩
  rw [frameCall, List.splitOn_eq_singleton hline]
  rfl

/-! ## The stream of a client -/

/-- The names of the registry are on one line. -/
theorem oneLine_of_subscribed {requested : List String} {name : String}
    (h : name ∈ subscribedEvents requested) : '\n' ∉ name.toList :=
  (by decide : ∀ name ∈ Events.eventTypes, '\n' ∉ name.toList) name (List.mem_of_mem_filter h)

/-- What an event is told to the display as. -/
def told (requested : List String) : StreamEvent → Option (String × String)
  | .publish name data => if name ∈ subscribedEvents requested then some (name, data.text) else none
  | .ping => none

/-- The frames of what is written for an event. -/
def framesFor (requested : List String) : StreamEvent → List (List Char)
  | .publish name data => if name ∈ subscribedEvents requested then [eventLines name data] else []
  | .ping => [": ping".toList]

theorem writes_framesFor (requested : List String) (e : StreamEvent) :
    List.Forall₂ Writes (framesFor requested e) (writesFor requested e) := by
  cases e with
  | ping => exact .cons ⟨rfl, solid_of_not_mem (by decide)⟩ .nil
  | publish name data =>
    simp only [framesFor, writesFor]
    split
    · next h => exact .cons (writes_eventFrame (oneLine_of_subscribed h) data) .nil
    · exact .nil

theorem calls_framesFor (requested : List String) (e : StreamEvent) :
    (framesFor requested e).filterMap frameCall = (told requested e).toList := by
  cases e with
  | ping => rfl
  | publish name data =>
    simp only [framesFor, told]
    split
    · next h => simp [frameCall_eventLines (oneLine_of_subscribed h)]
    · rfl

/-- The frames of what is written for the events, one after the other. -/
theorem writes_flatMap (requested : List String) (es : List StreamEvent) :
    List.Forall₂ Writes (es.flatMap (framesFor requested)) (es.flatMap (writesFor requested)) := by
  induction es with
  | nil => exact .nil
  | cons e es ih =>
    rw [List.flatMap_cons, List.flatMap_cons]
    exact List.rel_append (writes_framesFor requested e) ih

/-- The display is told of the events, one after the other. -/
theorem calls_flatMap (requested : List String) (es : List StreamEvent) :
    (es.flatMap (framesFor requested)).filterMap frameCall = es.filterMap (told requested) := by
  induction es with
  | nil => rfl
  | cons e es ih =>
    rw [List.flatMap_cons, List.filterMap_append, calls_framesFor, ih, List.filterMap_cons]
    cases told requested e <;> rfl

/-- After its first comment and an event, the display is told the event and then the rest. -/
theorem consume_greeted {event : String} (h : '\n' ∉ event.toList) (data : JsonText)
    {frames : List (List Char)} {written chunks : List String}
    (hrest : List.Forall₂ Writes frames written)
    (hcut : String.join chunks = String.join (": connected\n\n" :: eventFrame event data :: written)) :
    consume chunks = (event, data.text) :: frames.filterMap frameCall := by
  have hgreeting : Writes ": connected".toList ": connected\n\n" :=
    ⟨rfl, solid_of_not_mem (by decide)⟩
  have hwrites := List.Forall₂.cons hgreeting (.cons (writes_eventFrame h data) hrest)
  have hsilent : frameCall ": connected".toList = none := frameCall_comment (by decide) rfl
  rw [consume_of_writes hwrites hcut, List.filterMap_cons_none hsilent,
    List.filterMap_cons_some (frameCall_eventLines h data)]

/-- However the response of an accepted request is cut, the display is told of the greeting and
then of what was published and subscribed to, each event once and in its order. -/
theorem stream_faithful {bus : StreamBus} {client : ℕ} {requested : List String}
    (hnew : bus.Without client) (haccepted : unknownEvents requested = []) (es : List StreamEvent)
    {chunks : List String}
    (hcut : String.join chunks = String.join (respond bus client requested es)) :
    consume chunks = ("hello", (helloText requested).text) :: es.filterMap (told requested) := by
  rw [written_respond hnew haccepted] at hcut
  rw [consume_greeted (by decide) (helloText requested) (writes_flatMap requested es) hcut,
    calls_flatMap]

/-- Of a request that was refused the display is told the error, and nothing else. -/
theorem stream_refused {bus : StreamBus} {client : ℕ} {requested : List String}
    (hnew : bus.Without client) (hrefused : unknownEvents requested ≠ []) (es : List StreamEvent)
    {chunks : List String}
    (hcut : String.join chunks = String.join (respond bus client requested es)) :
    consume chunks = [("error", (errorText (unknownEvents requested)).text)] := by
  rw [refused_respond hnew hrefused] at hcut
  exact consume_greeted (by decide) _ .nil hcut

/-- An order. -/
def sampleOrder : JsonText := ⟨"\x7b\"orderId\":\"o1\"\x7d", by decide, by decide⟩

/-- An order that is placed while another event and a ping go by. -/
def sampleEvents : List StreamEvent :=
  [.publish "order.ready" sampleOrder, .ping, .publish "order.placed" sampleOrder]

theorem stream_faithful_letters :
    consume ((String.join (respond ⟨[]⟩ 0 ["order.placed"] sampleEvents)).toList.map
        String.singleton) =
      [("hello", (helloText ["order.placed"]).text), ("order.placed", sampleOrder.text)] :=
  have hnew : StreamBus.Without ⟨[]⟩ 0 := List.forall_mem_nil _
  have haccepted : unknownEvents ["order.placed"] = [] := by decide
  stream_faithful hnew haccepted sampleEvents (by decide +kernel)

/-! ## The bytes of a response -/

/-- `consume()`, for the pieces that `reader.read()` gives: the texts are those of
`decoder.decode(value, { stream: true })`. -/
def consumeBytes (pieces : List (List UInt8)) : List (String × String) :=
  consume (Utf8.decodeAll Utf8.fresh pieces)

/-- The greeting does not start with a byte order mark, so that the text is read from its bytes. -/
theorem consumeBytes_greeted {event : String} (h : '\n' ∉ event.toList) (data : JsonText)
    {frames : List (List Char)} {written : List String}
    (hrest : List.Forall₂ Writes frames written) {pieces : List (List UInt8)}
    (hcut : pieces.flatten = Utf8.encode
      (String.join (": connected\n\n" :: eventFrame event data :: written)).toList) :
    consumeBytes pieces = (event, data.text) :: frames.filterMap frameCall := by
  refine consume_greeted h data hrest (Utf8.join_decodeAll ?_ hcut)
  rw [String.toList_join, List.flatMap_cons]
  exact fun hmark => absurd (Option.some.inj hmark) (by decide)

end Hotelia.Kitchen
