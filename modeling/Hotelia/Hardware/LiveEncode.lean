import Hotelia.Hardware.LockBridge
import Hotelia.Offline.RowHistory

/-!
# Live encodes of the lock bridge

`LockBridgeController` of `apps/console/src/main/hardware/lockBridge.ts` apart from
its drain: how it is set up, `encode` up to its `await` and after it, and
`persistOffline`, which puts a request that could not be encoded into the offline
store. The console gives the bridge a store that works.

## Main definitions

- `LockBridge.new`, `attach`, `registerDevice` — the set-up
- `encodeHead` — `encode` before its `await`
- `persistOffline` — the row that a failed request is kept in

## Main results

- `keepsFor_persistOffline_iff`: when that row can still deliver the request.
-/

namespace Hotelia.Hardware
open Offline OfflineActionStore

/-- How a channel prints in a message. -/
def LockChannel.text : LockChannel → String
  | .tcp => "tcp"
  | .serial => "serial"

/-- `endpointOrProvider`: an endpoint, or an object with a `write`. -/
inductive Attachment where
  | endpoint (text : String)
  | provider
  deriving DecidableEq, Repr

namespace LockBridge

/-- `new LockBridgeController(store)`: a serial channel without a provider. -/
def new : LockBridge where
  devices := ∅
  channels
    | .serial => some (.serial false)
    | .tcp => none
  breakers := ∅
  completed := []

def setChannel (c : LockBridge) (channel : LockChannel) (adapter : Adapter) : LockBridge :=
  { c with channels := Function.update c.channels channel (some adapter) }

/-- `attach(channel, endpointOrProvider)`. A text attached to the serial channel is
taken for a provider, unless it is empty. -/
def attach (c : LockBridge) : LockChannel → Option Attachment → LockBridge
  | .tcp, some (.endpoint text) => c.setChannel .tcp (.tcp text)
  | .serial, some (.endpoint text) => if text = "" then c else c.setChannel .serial (.serial true)
  | .serial, some .provider => c.setChannel .serial (.serial true)
  | _, _ => c

/-- `registerDevice(d)`. -/
def registerDevice (c : LockBridge) (d : LockDevice) : LockBridge :=
  { c with devices := c.devices.insert d.id { d with online := false } }

end LockBridge

/-- The bridge of a new process: one endpoint, and the encoders behind it. -/
def startBridge (endpoint : String) (devices : List LockDevice) : LockBridge :=
  devices.foldl LockBridge.registerDevice (LockBridge.new.attach .tcp (some (.endpoint endpoint)))

/-- The encoders that the console seeds. -/
def lobbyDevices (endpoint : String) : List LockDevice :=
  ["LDOOR-01", "LDOOR-02"].map fun id => ⟨id, .tcp, endpoint, "SALTO-BRIDGE", false⟩

/-- `lockEncodeSchema`, which the request passes on its way to `encode`. -/
def lockEncodeSchema (req : EncodeRequest) : Bool :=
  lengthBetween 1 100 req.deviceId && lengthBetween 1 10 req.roomNumber &&
    req.roomNumber.toList.all (fun c => c.isAlphanum || c == '-') && 4 ≤ req.credential.length

/-! ## Requests that are kept -/

/-- The key under which a request is kept. It leaves out the credential. -/
def EncodeRequest.offlineKey (req : EncodeRequest) : String :=
  "lock:" ++ req.deviceId ++ ":" ++ req.roomNumber

/-- The payload of the row. -/
def EncodeRequest.payload (req : EncodeRequest) : JsonRecord :=
  [("deviceId", .str req.deviceId), ("roomNumber", .str req.roomNumber),
    ("credential", .str req.credential)]

/-- The input of the insert. -/
def EncodeRequest.offlineInput (req : EncodeRequest) : SyncEnqueueInput where
  idempotencyKey := req.offlineKey
  actionType := lockActionType
  payload := req.payload

/-- `persistOffline(req)`: the id of the record it returns, and the store. `uuid` is
drawn by the insert, and `spare` for the record that stands in if the insert throws. -/
def persistOffline (s : OfflineActionStore) (req : EncodeRequest) (uuid spare : String) (now : ℕ) :
    String × OfflineActionStore :=
  match s.insert req.offlineInput uuid now with
  | (some record, s) => (record.id, s)
  | (none, s) => (spare, s)

theorem persistOffline_snd (s : OfflineActionStore) (req : EncodeRequest) (uuid spare : String)
    (now : ℕ) : (persistOffline s req uuid spare now).2 = (s.insert req.offlineInput uuid now).2 := by
  rw [persistOffline]
  split
  · next h => rw [h]
  · next h => rw [h]

/-- `PENDING`, `PROCESSING`, or `FAILED` with some of the budget left. -/
def Deliverable (r : OfflineActionRecord) : Prop := r.Claimable ∨ r.status = .processing

/-- The payload of the row is the request, field by field, and nothing else. -/
def AsksFor (r : OfflineActionRecord) (req : EncodeRequest) : Prop :=
  ∀ field, r.payload.lookup field = req.payload.lookup field

theorem AsksFor.text {r : OfflineActionRecord} {req : EncodeRequest} (h : AsksFor r req)
    (field : String) : r.payload.text field = req.payload.text field := by
  rw [JsonRecord.text, JsonRecord.text, h field]

/-- The row `id` is there to deliver the request. -/
def KeepsFor (s : OfflineActionStore) (id : String) (req : EncodeRequest) : Prop :=
  ∃ r ∈ s.rows, r.id = id ∧ Deliverable r ∧ AsksFor r req

/-- What the store has to be like for the request to be kept: under its key there is
no row, or one that can still deliver this very request. An id that was drawn before
makes the insert throw, and nothing but luck makes the spare id that of a good row. -/
def Queueable (s : OfflineActionStore) (req : EncodeRequest) (uuid spare : String) : Prop :=
  match s.selectByKey req.offlineKey with
  | some row => Deliverable row ∧ AsksFor row req
  | none => (∀ row ∈ s.rows, row.id ≠ uuid) ∨ KeepsFor s spare req

theorem keepsFor_persistOffline_iff (s : OfflineActionStore) (req : EncodeRequest)
    (uuid spare : String) (now : ℕ) :
    KeepsFor (persistOffline s req uuid spare now).2 (persistOffline s req uuid spare now).1 req ↔
      Queueable s req uuid spare := by
  have hkey : req.offlineInput.idempotencyKey = req.offlineKey := rfl
  obtain ⟨row, hrow, hinsert⟩ | ⟨hnone, ⟨row, hrow, hid⟩, hinsert⟩ | ⟨hnone, hfresh, hfst, hrows⟩ :=
    s.insert_cases req.offlineInput uuid now
  · rw [hkey] at hrow
    simp only [persistOffline, hinsert, Queueable, hrow]
    obtain ⟨hmem, -⟩ := selectByKey_eq_some.mp hrow
    constructor
    · rintro ⟨r, hr, hid, hgood⟩
      rwa [← s.eq_of_id_eq hr hmem hid]
    · exact fun hgood => ⟨row, hmem, rfl, hgood⟩
  · rw [hkey] at hnone
    simp only [persistOffline, hinsert, Queueable, hnone]
    exact (or_iff_right fun hfresh => hfresh row hrow hid).symm
  · rw [hkey] at hnone
    simp only [Queueable, hnone]
    refine iff_of_true ?_ (.inl hfresh)
    have hid : (persistOffline s req uuid spare now).1 = uuid := by
      rw [persistOffline]
      split
      · next record _ h =>
        have hrecord : some record = some (s.newRow req.offlineInput uuid now) := by rw [← hfst, h]
        rw [Option.some.inj hrecord]
        rfl
      · next h =>
        rw [h] at hfst
        cases hfst
    rw [hid, persistOffline_snd]
    refine ⟨s.newRow req.offlineInput uuid now, ?_, rfl, .inl (.inl rfl), fun _ => rfl⟩
    rw [hrows]
    exact List.mem_append_right _ (List.mem_singleton_self _)

/-! ## Encodes -/

/-- What `encode` finds before it asks an adapter. -/
inductive EncodeHead where
  | refused (error : String)
  /-- The breaker does not allow the encode. -/
  | fastFail
  | ask (adapter : Adapter)
  deriving DecidableEq, Repr

/-- `encode(req)` up to its `await`. -/
def encodeHead (c : LockBridge) (req : EncodeRequest) (now : ℕ) : EncodeHead × LockBridge :=
  match c.devices.lookup req.deviceId with
  | none => (.refused "unknown encoder device", c)
  | some dev =>
    match c.channels dev.channel with
    | none => (.refused ("no adapter for channel: " ++ dev.channel.text), c)
    | some adapter =>
      let (allowed, breaker) := (c.getBreaker req.deviceId).allow now
      (if allowed then .ask adapter else .fastFail, c.setBreaker req.deviceId breaker)

/-- An unknown device is refused. -/
theorem encodeHead_unknown {c : LockBridge} {req : EncodeRequest} (now : ℕ)
    (h : c.devices.lookup req.deviceId = none) :
    encodeHead c req now = (.refused "unknown encoder device", c) := by
  rw [encodeHead, h]

/-- A device whose channel has an adapter is left to its breaker. -/
theorem encodeHead_known {c : LockBridge} {req : EncodeRequest} {dev : LockDevice}
    {adapter : Adapter} (now : ℕ) (hdev : c.devices.lookup req.deviceId = some dev)
    (hadapter : c.channels dev.channel = some adapter) :
    encodeHead c req now =
      (if ((c.getBreaker req.deviceId).allow now).1 then .ask adapter else .fastFail,
        c.setBreaker req.deviceId ((c.getBreaker req.deviceId).allow now).2) := by
  rw [encodeHead, hdev]
  simp only [hadapter]

/-- `{ ...base, status, queuedId, error }`. -/
def EncodeRequest.result (req : EncodeRequest) (now : ℕ) (status : EncodeStatus)
    (queuedId error : Option String) : EncodeResult :=
  ⟨req.deviceId, req.roomNumber, req.credential, status, queuedId, error, now⟩

/-- The result of a request that an adapter did not encode, kept in the row `queuedId`. -/
def EncodeResult.queued (result : EncodeResult) (queuedId : String) : EncodeResult :=
  { result with
    status := .queuedOffline
    queuedId := some queuedId
    error := some (result.error.getD "encoder offline -> queued") }

/-! ## The wiring of the bridge -/

/-- The same encoders and the same adapters. -/
def SameWiring (b b' : LockBridge) : Prop :=
  b'.channels = b.channels ∧ ∀ id, (b'.devices.lookup id).isSome = (b.devices.lookup id).isSome

theorem SameWiring.refl (b : LockBridge) : SameWiring b b := ⟨rfl, fun _ => rfl⟩

theorem SameWiring.trans {b b' b'' : LockBridge} (h : SameWiring b b') (h' : SameWiring b' b'') :
    SameWiring b b'' :=
  ⟨h'.1.trans h.1, fun id => (h'.2 id).trans (h.2 id)⟩

theorem sameWiring_setBreaker (b : LockBridge) (id : String) (breaker : CircuitBreaker) :
    SameWiring b (b.setBreaker id breaker) := ⟨rfl, fun _ => rfl⟩

theorem sameWiring_setOnline (b : LockBridge) (id : String) (online : Bool) :
    SameWiring b (b.setOnline id online) := by
  rw [LockBridge.setOnline]
  split
  · exact .refl b
  · next dev hdev =>
    refine ⟨rfl, fun id' => ?_⟩
    rw [Bool.eq_iff_iff, AList.lookup_isSome, AList.lookup_isSome, AList.mem_replace]

theorem sameWiring_afterEncode (b : LockBridge) (id : String) (result : EncodeResult) (now : ℕ) :
    SameWiring b (b.afterEncode id result now) := by
  rw [LockBridge.afterEncode]
  split
  · exact ((sameWiring_setBreaker b id _).trans (sameWiring_setOnline _ id true)).trans ⟨rfl, fun _ => rfl⟩
  · exact (sameWiring_setBreaker b id _).trans (sameWiring_setOnline _ id false)

theorem sameWiring_drainStart (b : LockBridge) (record : OfflineActionRecord) (now : ℕ) :
    SameWiring b (drainStart b record now).2 := by
  rw [drainStart]
  split
  · exact .refl b
  · dsimp only
    split
    · exact .refl b
    · split
      · exact sameWiring_setBreaker b _ _
      · split <;> exact (sameWiring_setBreaker b _ _).trans (sameWiring_setBreaker _ _ _)

end Hotelia.Hardware
