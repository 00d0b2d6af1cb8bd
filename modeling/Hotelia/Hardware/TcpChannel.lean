import Hotelia.Broker.Stream
import Hotelia.Foundation.Separators
import Hotelia.Hardware.LockBridge

/-!
# The channel of a TCP encoder

`TcpLockChannel` of `apps/console/src/main/hardware/lockBridge.ts`: the packet that it
writes, and the handlers of its socket, of which the first to settle decides.

## Main definitions

- `buildPacket` — the bytes of a request
- `TcpLockChannel.handle`, `TcpLockChannel.encode` — the handlers, and what they make of a
  conversation

## Main results

- `answer_eq_iff`: when the pieces in which the encoder's answer arrives do not matter.
-/

namespace Hotelia.Hardware
open Foundation

/-! ## Bytes -/

/-- The UTF-16 code units of a letter. -/
def codeUnits (c : Char) : List ℕ :=
  if c.val < 0x10000 then [c.toNat]
  else [0xD800 + (c.toNat - 0x10000) / 0x400, 0xDC00 + (c.toNat - 0x10000) % 0x400]

/-- `Buffer.from(s, 'ascii')`, which keeps the low byte of each code unit. -/
def asciiBytes (s : String) : List UInt8 := (s.toList.flatMap codeUnits).map UInt8.ofNat

/-- `buffer.toString('ascii')`, which drops the high bit of each byte. -/
def asciiText (bytes : List UInt8) : List Char := bytes.map fun b => Char.ofNat (b.toNat % 128)

/-- `ENCODE_CMD`. -/
def encodeCmd : List UInt8 := asciiBytes "ENCODE"

/-- `buildPacket(req)`. -/
def buildPacket (req : EncodeRequest) : List UInt8 :=
  encodeCmd ++ asciiBytes (req.deviceId ++ "|" ++ req.roomNumber ++ "|" ++ req.credential) ++
    asciiBytes "\n"

/-! ## A conversation -/

/-- What happens to the socket, and the timer that is set beside it. -/
inductive SocketEvent where
  | connect
  | data (bytes : List UInt8)
  | timeout
  | error (message : String)
  | timer

/-- The socket of an encode, and the result that its promise has been resolved with. -/
structure TcpEncode where
  connected : Bool
  written : List (List UInt8)
  settled : Option EncodeResult

namespace TcpLockChannel

variable (req : EncodeRequest)

/-- `buildResult(req, status, error)`. -/
def buildResult (status : EncodeStatus) (error : Option String) (now : ℕ) : EncodeResult where
  deviceId := req.deviceId
  roomNumber := req.roomNumber
  credential := req.credential
  status := status
  queuedId := none
  error := error
  ts := now

/-- `settle(result)`. -/
def settle (s : TcpEncode) (result : EncodeResult) : TcpEncode :=
  match s.settled with
  | some _ => s
  | none => { s with settled := some result }

/-- The result that the first piece of an answer stands for. -/
def acknowledge (bytes : List UInt8) (now : ℕ) : EncodeResult :=
  let ack := Broker.trim (asciiText bytes)
  if "OK".toList.isPrefixOf ack.toList then buildResult req .encoded none now
  else buildResult req .error (some ("encoder NACK: " ++ ack)) now

/-- The handlers of an event. Settling destroys the socket, so that nothing is written
any more. -/
def handle (s : TcpEncode) : ℕ × SocketEvent → TcpEncode
  | (_, .connect) =>
    if s.settled.isSome then s
    else { s with connected := true, written := s.written ++ [buildPacket req] }
  | (now, .data bytes) => settle s (acknowledge req bytes now)
  | (now, .timeout) =>
    let s := settle s (buildResult req .queuedOffline
      (some "encoder timeout (no ACK within 5000ms)") now)
    -- the handler that a connected socket has got comes second
    if s.connected then
      settle s (buildResult req .queuedOffline (some "encoder read timeout (5000ms)") now)
    else s
  | (now, .error message) =>
    settle s (buildResult req .queuedOffline (some ("encoder unreachable: " ++ message)) now)
  | (now, .timer) =>
    settle s (buildResult req .queuedOffline (some "encoder timed out (5000ms)") now)

/-- `encode(req)`, with the events of its socket and the times they come at. -/
def encode (events : List (ℕ × SocketEvent)) : TcpEncode :=
  events.foldl (handle req) ⟨false, [], none⟩

theorem settle_of_settled {s : TcpEncode} {result : EncodeResult} (h : s.settled = some result)
    (other : EncodeResult) : settle s other = s := by
  rw [settle, h]

theorem handle_settled {s : TcpEncode} {result : EncodeResult} (h : s.settled = some result)
    (event : ℕ × SocketEvent) : handle req s event = s := by
  obtain ⟨now, event⟩ := event
  cases event with
  | connect => rw [handle, h, Option.isSome_some, if_pos rfl]
  | data bytes => exact settle_of_settled h _
  | timeout =>
    simp only [handle, settle_of_settled h]
    exact ite_self s
  | error message => exact settle_of_settled h _
  | timer => exact settle_of_settled h _

/-- What has settled stays as it is. -/
theorem foldl_handle_settled {s : TcpEncode} {result : EncodeResult} (h : s.settled = some result)
    (events : List (ℕ × SocketEvent)) : events.foldl (handle req) s = s := by
  induction events with
  | nil => rfl
  | cons event events ih => rw [List.foldl_cons, handle_settled req h, ih]

end TcpLockChannel

/-! ## An answer in pieces -/

/-- A stream of bytes on its way: the socket connects, the bytes arrive in pieces, none of
them empty, and then the timer runs out. -/
structure Delivery (stream : List UInt8) where
  connectedAt : ℕ
  pieces : List (ℕ × List UInt8)
  deadline : ℕ
  nonempty : ∀ piece ∈ pieces, piece.2 ≠ []
  whole : (pieces.map Prod.snd).flatten = stream

namespace Delivery

variable {stream : List UInt8} (d : Delivery stream)

def events : List (ℕ × SocketEvent) :=
  (d.connectedAt, .connect) :: d.pieces.map (fun piece => (piece.1, .data piece.2)) ++
    [(d.deadline, .timer)]

/-- The bytes of the first piece. -/
def first : List UInt8 := (d.pieces.map Prod.snd).headD []

/-- The status that the encode of a request resolves with. -/
def answer (req : EncodeRequest) : Option EncodeStatus :=
  (TcpLockChannel.encode req d.events).settled.map EncodeResult.status

end Delivery

/-- The stream says `OK`, behind blanks if any. -/
def Acknowledges (stream : List UInt8) : Prop :=
  "OK".toList <+: (asciiText stream).dropWhile Broker.isSpace

instance (stream : List UInt8) : Decidable (Acknowledges stream) :=
  inferInstanceAs (Decidable ("OK".toList <+: (asciiText stream).dropWhile Broker.isSpace))

/-- How many bytes the blanks and the `OK` are. -/
def ackEnd (stream : List UInt8) : ℕ := ((asciiText stream).takeWhile Broker.isSpace).length + 2

theorem ok_prefix_trim_iff (text : List Char) :
    "OK".toList <+: (Broker.trim text).toList ↔ "OK".toList <+: text.dropWhile Broker.isSpace := by
  have hlast : Broker.isSpace 'K' = false := by decide
  have htrim : (Broker.trim text).toList =
      (text.dropWhile Broker.isSpace).rdropWhile Broker.isSpace := String.toList_ofList
  have hok : "OK".toList = ['O'] ++ ['K'] := by decide
  rw [htrim, hok]
  exact prefix_rdropWhile_iff hlast

/-- A piece from the front of a stream is taken for an acknowledgement exactly if the stream
is one and the piece reaches to its end. -/
theorem ok_prefix_ack_iff {part stream : List UInt8} (h : part <+: stream) :
    "OK".toList <+: (Broker.trim (asciiText part)).toList ↔
      Acknowledges stream ∧ ackEnd stream ≤ part.length := by
  have htext : asciiText part <+: asciiText stream := h.map _
  have hlength : (asciiText part).length = part.length := List.length_map _
  rw [ok_prefix_trim_iff, prefix_dropWhile_iff (by decide) htext, hlength]
  rfl

theorem acknowledge_status (req : EncodeRequest) {part stream : List UInt8} (h : part <+: stream)
    (now : ℕ) : (TcpLockChannel.acknowledge req part now).status =
      if Acknowledges stream ∧ ackEnd stream ≤ part.length then .encoded else .error := by
  rw [TcpLockChannel.acknowledge]
  split
  · next hok =>
    rw [if_pos]
    · rfl
    · exact (ok_prefix_ack_iff h).mp (List.isPrefixOf_iff_prefix.mp hok)
  · next hno =>
    rw [if_neg]
    · rfl
    · exact fun hack => hno (List.isPrefixOf_iff_prefix.mpr ((ok_prefix_ack_iff h).mpr hack))

namespace Delivery

variable {stream : List UInt8} (d : Delivery stream)

theorem first_prefix : d.first <+: stream := by
  obtain ⟨connectedAt, pieces, deadline, nonempty, rfl⟩ := d
  cases pieces with
  | nil => exact List.nil_prefix
  | cons piece pieces => exact List.prefix_append _ _

/-- The first piece decides. -/
theorem answer_of_cons {req : EncodeRequest} {piece : ℕ × List UInt8}
    {pieces : List (ℕ × List UInt8)} (h : d.pieces = piece :: pieces) :
    d.answer req = some (TcpLockChannel.acknowledge req d.first piece.1).status := by
  have hfirst : d.first = piece.2 := by rw [first, h, List.map_cons, List.headD_cons]
  rw [answer, events, h, hfirst, TcpLockChannel.encode, List.map_cons, List.cons_append,
    List.cons_append, List.foldl_cons, List.foldl_cons]
  rw [TcpLockChannel.foldl_handle_settled req]
  · rfl
  · rfl

/-- Without a piece the timer decides. -/
theorem answer_of_nil {req : EncodeRequest} (h : d.pieces = []) :
    d.answer req = some .queuedOffline := by
  rw [answer, events, h]
  rfl

theorem pieces_eq_nil_iff : d.pieces = [] ↔ stream = [] := by
  obtain ⟨connectedAt, pieces, deadline, nonempty, rfl⟩ := d
  cases pieces with
  | nil => exact iff_of_true rfl rfl
  | cons piece pieces =>
    refine iff_of_false (List.cons_ne_nil _ _) fun hnil => ?_
    exact nonempty piece List.mem_cons_self (List.append_eq_nil_iff.mp hnil).1

end Delivery

/-- For every stream and every two ways in which it can arrive: the encode resolves with the
same status exactly if the stream does not open with `OK`, or the first piece of both or of
neither reaches to the end of that `OK`. -/
theorem answer_eq_iff (req : EncodeRequest) {stream : List UInt8} (a b : Delivery stream) :
    a.answer req = b.answer req ↔
      (Acknowledges stream →
        (ackEnd stream ≤ a.first.length ↔ ackEnd stream ≤ b.first.length)) := by
  cases ha : a.pieces with
  | nil =>
    have hstream := a.pieces_eq_nil_iff.mp ha
    have hb := b.pieces_eq_nil_iff.mpr hstream
    rw [a.answer_of_nil ha, b.answer_of_nil hb]
    refine iff_of_true rfl fun hack => ?_
    rw [hstream] at hack
    exact absurd (List.prefix_nil.mp hack) (by decide)
  | cons pa as =>
    cases hb : b.pieces with
    | nil =>
      have hnil := a.pieces_eq_nil_iff.mpr (b.pieces_eq_nil_iff.mp hb)
      rw [hnil] at ha
      cases ha
    | cons pb bs =>
      rw [a.answer_of_cons ha, b.answer_of_cons hb, acknowledge_status req a.first_prefix,
        acknowledge_status req b.first_prefix, Option.some_inj]
      by_cases hack : Acknowledges stream
      · by_cases hla : ackEnd stream ≤ a.first.length
        · by_cases hlb : ackEnd stream ≤ b.first.length
          · simp [hack, hla, hlb]
          · simp [hack, hla, hlb]
        · by_cases hlb : ackEnd stream ≤ b.first.length
          · simp [hack, hla, hlb]
          · simp [hack, hla, hlb]
      · simp [hack]

/-- `OK` and a line end, in one piece and in two. -/
theorem not_answer_eq :
    ¬ ∀ (req : EncodeRequest) (stream : List UInt8) (a b : Delivery stream),
      a.answer req = b.answer req := by
  intro h
  have heq := h ⟨"LDOOR-01", "204", "1234"⟩ [79, 75, 10]
    ⟨0, [(1, [79, 75, 10])], 5000, by decide, rfl⟩
    ⟨0, [(1, [79]), (2, [75, 10])], 5000, by decide, rfl⟩
  revert heq
  decide

end Hotelia.Hardware
