import Hotelia.Hardware.LiveEncode

/-!
# Endpoints of devices

The bridge has one adapter for each channel, and a device has an endpoint of its own, which
is shown to the operator. Both are set by calls that can come in any order and number.

## Main results

- `cutsOnShown_iff`: which calls leave every device with the encoder that is shown for it.
-/

namespace Hotelia.Hardware
open Offline

/-- `host` and `port` of an endpoint. `number` is what `Number` makes of a text. -/
def address {ν : Type*} (number : String → ν) (endpoint : String) : String × ν :=
  let parts := endpoint.toList.splitOn ':'
  (String.ofList (parts.headD []), number ((parts[1]?.map String.ofList).getD "9100"))

/-- `list()`. The entries of the map are here in an order of their own. -/
def LockBridge.list (c : LockBridge) : List LockDevice := c.devices.entries.map Sigma.snd

/-- A call that sets the bridge up. -/
inductive SetupCall where
  | attach (channel : LockChannel) (given : Option Attachment)
  | registerDevice (d : LockDevice)

def LockBridge.setup (c : LockBridge) : SetupCall → LockBridge
  | .attach channel given => c.attach channel given
  | .registerDevice d => c.registerDevice d

/-- The device as `registerDevice` keeps it. -/
def LockDevice.registered (d : LockDevice) : LockDevice := { d with online := false }

/-- The bridge after some calls, the first of them first. -/
def afterCalls (calls : List SetupCall) : LockBridge := calls.foldl LockBridge.setup .new

/-! ## What the calls leave -/

/-- The endpoint that a call attaches to the TCP channel. -/
def SetupCall.endpoint : SetupCall → Option String
  | .attach .tcp (some (.endpoint text)) => some text
  | _ => none

/-- The device that a call registers under `id`. -/
def SetupCall.device (id : String) : SetupCall → Option LockDevice
  | .attach _ _ => none
  | .registerDevice d => if d.id = id then some d else none

/-- The endpoint that was attached last. -/
def lastEndpoint (calls : List SetupCall) : Option String :=
  (calls.filterMap SetupCall.endpoint).getLast?

/-- The device that was registered last under `id`. -/
def lastDevice (id : String) (calls : List SetupCall) : Option LockDevice :=
  (calls.filterMap (SetupCall.device id)).getLast?

theorem lastEndpoint_concat (calls : List SetupCall) (call : SetupCall) :
    lastEndpoint (calls ++ [call]) = call.endpoint.or (lastEndpoint calls) := by
  rw [lastEndpoint, List.filterMap_append, List.getLast?_append, lastEndpoint]
  cases h : call.endpoint with
  | none => simp [h]
  | some text => simp [h]

theorem lastDevice_concat (id : String) (calls : List SetupCall) (call : SetupCall) :
    lastDevice id (calls ++ [call]) = (call.device id).or (lastDevice id calls) := by
  rw [lastDevice, List.filterMap_append, List.getLast?_append, lastDevice]
  cases h : call.device id with
  | none => simp [h]
  | some d => simp [h]

theorem afterCalls_concat (calls : List SetupCall) (call : SetupCall) :
    afterCalls (calls ++ [call]) = (afterCalls calls).setup call := by
  rw [afterCalls, List.foldl_append]
  rfl

theorem setChannel_serial (c : LockBridge) (adapter : Adapter) :
    (c.setChannel .serial adapter).channels .tcp = c.channels .tcp := by
  have hne : LockChannel.tcp ≠ .serial := by decide
  show Function.update c.channels .serial (some adapter) .tcp = c.channels .tcp
  rw [Function.update_of_ne hne]

/-- The adapter of the TCP channel is for the last endpoint. -/
theorem channels_setup (c : LockBridge) (call : SetupCall) :
    (c.setup call).channels .tcp = (call.endpoint.map Adapter.tcp).or (c.channels .tcp) := by
  cases call with
  | registerDevice d => rfl
  | attach channel given =>
    cases channel with
    | tcp =>
      rcases given with _ | ⟨text⟩ | _
      · rfl
      · exact Function.update_self LockChannel.tcp _ c.channels
      · rfl
    | serial =>
      rcases given with _ | ⟨text⟩ | _
      · rfl
      · show (if text = "" then c else c.setChannel .serial (.serial true)).channels .tcp = _
        split
        · rfl
        · exact setChannel_serial c (.serial true)
      · exact setChannel_serial c (.serial true)

theorem channels_afterCalls (calls : List SetupCall) :
    (afterCalls calls).channels .tcp = (lastEndpoint calls).map Adapter.tcp := by
  induction calls using List.reverseRecOn with
  | nil => rfl
  | append_singleton calls call ih =>
    rw [afterCalls_concat, channels_setup, lastEndpoint_concat, ih]
    cases call.endpoint with
    | none => rfl
    | some text => rfl

/-- A call that attaches leaves the devices and the breakers alone. -/
theorem attach_devices (c : LockBridge) (channel : LockChannel) (given : Option Attachment) :
    (c.attach channel given).devices = c.devices ∧
      (c.attach channel given).breakers = c.breakers := by
  unfold LockBridge.attach
  split
  · exact ⟨rfl, rfl⟩
  · split <;> exact ⟨rfl, rfl⟩
  · exact ⟨rfl, rfl⟩
  · exact ⟨rfl, rfl⟩

theorem lookup_setup (c : LockBridge) (call : SetupCall) (id : String) :
    (c.setup call).devices.lookup id =
      ((call.device id).map LockDevice.registered).or (c.devices.lookup id) := by
  cases call with
  | attach channel given =>
    show (c.attach channel given).devices.lookup id = _
    rw [(attach_devices c channel given).1]
    rfl
  | registerDevice d =>
    show (c.devices.insert d.id d.registered).lookup id = _
    by_cases h : d.id = id
    · subst h
      rw [AList.lookup_insert]
      simp [SetupCall.device]
    · rw [AList.lookup_insert_ne (Ne.symm h)]
      simp [SetupCall.device, h]

theorem lookup_afterCalls (calls : List SetupCall) (id : String) :
    (afterCalls calls).devices.lookup id =
      (lastDevice id calls).map LockDevice.registered := by
  induction calls using List.reverseRecOn with
  | nil => exact AList.lookup_empty id
  | append_singleton calls call ih =>
    rw [afterCalls_concat, lookup_setup, lastDevice_concat, ih]
    cases call.device id with
    | none => rfl
    | some d => rfl

theorem breakers_afterCalls (calls : List SetupCall) : (afterCalls calls).breakers = ∅ := by
  induction calls using List.reverseRecOn with
  | nil => rfl
  | append_singleton calls call ih =>
    rw [afterCalls_concat]
    cases call with
    | attach channel given => exact (attach_devices _ channel given).2.trans ih
    | registerDevice d => exact ih

theorem lastDevice_id {id : String} {calls : List SetupCall} {d : LockDevice}
    (h : lastDevice id calls = some d) : d.id = id := by
  obtain ⟨call, -, hcall⟩ := List.mem_filterMap.mp (List.mem_of_getLast? h)
  cases call with
  | attach channel given => cases hcall
  | registerDevice d' =>
    rw [SetupCall.device] at hcall
    split at hcall
    · next hid => exact Option.some.inj hcall ▸ hid
    · cases hcall

/-! ## Devices and encoders -/

section Shown

variable {ν : Type*} (number : String → ν)

/-- The requests for the device, and those of the rows that the drain claims, go to the
endpoint that the device is listed with. -/
structure CutsOnShown (c : LockBridge) (d : LockDevice) : Prop where
  encode : ∀ (req : EncodeRequest) now, req.deviceId = d.id →
    ∃ e, (encodeHead c req now).1 = .ask (.tcp e) ∧ address number e = address number d.endpoint
  drain : ∀ (record : OfflineActionRecord) now, record.actionType = lockActionType →
    (encodeRequestOf record).deviceId = d.id →
    ∃ e, (drainStart c record now).1 = .ok (.tcp e) ∧ address number e = address number d.endpoint

variable {number}

theorem allow_fresh (now : ℕ) : (CircuitBreaker.fresh.allow now).1 = true := rfl

theorem getBreaker_of_empty {c : LockBridge} (h : c.breakers = ∅) (id : String) :
    c.getBreaker id = .fresh := by
  rw [LockBridge.getBreaker, h, AList.lookup_empty]
  rfl

/-- The drain too leaves a device whose channel has an adapter to its breaker. -/
theorem drainStart_known {c : LockBridge} {record : OfflineActionRecord} {dev : LockDevice}
    {adapter : Adapter} (now : ℕ) (hlock : record.actionType = lockActionType)
    (hdev : c.devices.lookup (encodeRequestOf record).deviceId = some dev)
    (hadapter : c.channels dev.channel = some adapter)
    (hallow : ((c.getBreaker (encodeRequestOf record).deviceId).allow now).1 = true) :
    (drainStart c record now).1 = .ok adapter := by
  have hchannel (id : String) (b : CircuitBreaker) :
      (c.setBreaker id b).channels dev.channel = some adapter := hadapter
  rw [drainStart, if_neg (not_not_intro hlock)]
  dsimp only
  rw [hdev]
  dsimp only
  rw [hchannel]
  dsimp only
  rw [hallow]
  rfl

/-- Before the first encode, the adapter of the channel decides. -/
theorem cutsOnShown_device {c : LockBridge} {d : LockDevice}
    (hdevice : c.devices.lookup d.id = some d) (htcp : d.channel = .tcp) (hnew : c.breakers = ∅) :
    CutsOnShown number c d ↔
      ∃ e, c.channels .tcp = some (.tcp e) ∧ address number e = address number d.endpoint := by
  constructor
  · intro h
    obtain ⟨e, hask, haddress⟩ := h.encode ⟨d.id, "", ""⟩ 0 rfl
    refine ⟨e, ?_, haddress⟩
    cases hadapter : c.channels .tcp with
    | none =>
      rw [encodeHead, hdevice] at hask
      simp only [htcp, hadapter] at hask
      cases hask
    | some adapter =>
      rw [encodeHead_known 0 hdevice (htcp ▸ hadapter), getBreaker_of_empty hnew] at hask
      exact congrArg some (EncodeHead.ask.inj hask)
  · rintro ⟨e, hadapter, haddress⟩
    constructor
    · intro req now hid
      refine ⟨e, ?_, haddress⟩
      rw [encodeHead_known now (hid ▸ hdevice) (htcp ▸ hadapter), getBreaker_of_empty hnew,
        if_pos (allow_fresh now)]
    · intro record now hlock hid
      refine ⟨e, ?_, haddress⟩
      apply drainStart_known now hlock (hid ▸ hdevice) (htcp ▸ hadapter)
      rw [getBreaker_of_empty hnew]
      exact allow_fresh now

theorem mem_list_afterCalls {calls : List SetupCall} {d : LockDevice} :
    d ∈ (afterCalls calls).list ↔ (afterCalls calls).devices.lookup d.id = some d := by
  rw [LockBridge.list, List.mem_map]
  constructor
  · rintro ⟨⟨id, d'⟩, hmem, rfl⟩
    have hlookup := AList.mem_lookup_iff.mpr hmem
    have hid : d'.id = id := by
      rw [lookup_afterCalls] at hlookup
      obtain ⟨registered, hlast, hd⟩ := Option.map_eq_some_iff.mp hlookup
      rw [← hd]
      exact lastDevice_id (d := registered) hlast
    rw [hid]
    exact hlookup
  · intro h
    exact ⟨⟨d.id, d⟩, AList.mem_lookup_iff.mp h, rfl⟩

/-- After every sequence of calls: all devices on the TCP channel are encoded at the endpoint
that they are listed with, exactly if an endpoint has been attached and the last one has the
address of the endpoint in each last registration on that channel. -/
theorem cutsOnShown_iff (number : String → ν) (calls : List SetupCall) :
    (∀ d ∈ (afterCalls calls).list, d.channel = .tcp →
      CutsOnShown number (afterCalls calls) d) ↔
      ∀ id d, lastDevice id calls = some d → d.channel = .tcp →
        ∃ e, lastEndpoint calls = some e ∧ address number e = address number d.endpoint := by
  have hadapter (e : String) : (afterCalls calls).channels .tcp = some (.tcp e) ↔
      lastEndpoint calls = some e := by
    rw [channels_afterCalls]
    simp
  constructor
  · intro h id d hlast htcp
    obtain rfl := lastDevice_id hlast
    have hlookup : (afterCalls calls).devices.lookup d.registered.id = some d.registered := by
      show (afterCalls calls).devices.lookup d.id = _
      rw [lookup_afterCalls, hlast]
      rfl
    have hcuts := h d.registered (mem_list_afterCalls.mpr hlookup) htcp
    obtain ⟨e, he, haddress⟩ :=
      (cutsOnShown_device hlookup htcp (breakers_afterCalls calls)).mp hcuts
    exact ⟨e, (hadapter e).mp he, haddress⟩
  · intro h d hmem htcp
    have hlookup := mem_list_afterCalls.mp hmem
    apply (cutsOnShown_device hlookup htcp (breakers_afterCalls calls)).mpr
    rw [lookup_afterCalls] at hlookup
    obtain ⟨registered, hlast, rfl⟩ := Option.map_eq_some_iff.mp hlookup
    obtain ⟨e, he, haddress⟩ := h _ registered hlast htcp
    exact ⟨e, (hadapter e).mpr he, haddress⟩

end Shown

/-- The encoders of the console, and then a link to another endpoint. -/
def relinked : List SetupCall :=
  [.attach .tcp (some (.endpoint "127.0.0.1:9100")),
    .registerDevice ⟨"LDOOR-01", .tcp, "127.0.0.1:9100", "SALTO-BRIDGE", false⟩,
    .registerDevice ⟨"LDOOR-02", .tcp, "127.0.0.1:9100", "SALTO-BRIDGE", false⟩,
    .attach .tcp (some (.endpoint "192.168.1.20:9100"))]

/-- The two endpoints have different hosts, whatever their ports are read as. -/
theorem not_cutsOnShown :
    ¬ ∃ (ν : Type) (number : String → ν), ∀ (calls : List SetupCall),
      ∀ d ∈ (afterCalls calls).list, d.channel = .tcp →
        CutsOnShown number (afterCalls calls) d := by
  rintro ⟨ν, number, h⟩
  have hcuts := h relinked ⟨"LDOOR-01", .tcp, "127.0.0.1:9100", "SALTO-BRIDGE", false⟩
    (List.mem_cons_of_mem _ List.mem_cons_self) rfl
  obtain ⟨e, hask, haddress⟩ := hcuts.encode ⟨"LDOOR-01", "204", "1234"⟩ 0 rfl
  have hother : (encodeHead (afterCalls relinked) ⟨"LDOOR-01", "204", "1234"⟩ 0).1 =
      .ask (.tcp "192.168.1.20:9100") := rfl
  cases hother.symm.trans hask
  have hhost := congrArg Prod.fst haddress
  have hsame : (address id "192.168.1.20:9100").1 = (address id "127.0.0.1:9100").1 := hhost
  revert hsame
  decide

end Hotelia.Hardware
