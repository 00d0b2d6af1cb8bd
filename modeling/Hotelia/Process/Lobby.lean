import Hotelia.Hardware.LiveEncode
import Hotelia.Process.Interleaving

/-!
# The front desk and its encoders

A console whose front desk encodes cards. A call of `encode` runs to its `await`,
waits for the adapter, and goes on with the answer, while the passes over the
store do the same with theirs. Next to the console stands what is needed to say
what an encode was for: the acknowledgements of the adapters, and the rows that
were kept for requests that failed.

## Main definitions

- `Lobby` — the console, the calls of `encode`, and what came of them
- `step` — what an event does, if it can happen
- `Effect` — the few ways in which a step can touch rows, calls and acknowledgements

## Main results

- `steps_of_step`: what an event can do, and what it asks for.
- `effect_of_step`: each step has one of these effects.
- `Sound.step`: the rows in hand stay `PROCESSING`, and the records of them true.
-/

namespace Hotelia.Process
open Foundation Offline Hardware

/-- Where a call of `encode` stands. -/
inductive Call where
  /-- `await adapter.encode(req)` -/
  | waiting (req : EncodeRequest)
  | over
  deriving DecidableEq

/-- On whose behalf an adapter was asked: a call of `encode`, or the row that a drain
was working on. -/
inductive Source where
  | call (i : ℕ)
  | row (id : String)
  deriving DecidableEq

/-- An `adapter.encode(request)` that returned the status `encoded`. -/
structure Ack where
  source : Source
  request : EncodeRequest
  deriving DecidableEq

/-- A call of `encode` that ends, with its result unless it rejects. -/
structure Ended where
  call : ℕ
  request : EncodeRequest
  result : Option EncodeResult
  deriving DecidableEq

/-- A console with its encodes. A number of a call is never used again. -/
structure Lobby where
  console : Console
  calls : ℕ → Option Call
  /-- Whether the loop of `ensureRetryLoop` has been started. -/
  retryTimer : Bool
  acks : List Ack
  /-- The rows that `persistOffline` has written, with the calls it did so for. -/
  persisted : List (ℕ × String)
  /-- The call that the last step has ended. -/
  ended : Option Ended

inductive LobbyEvent where
  /-- A new process, which attaches an endpoint and registers its encoders. -/
  | boot (endpoint : String) (devices : List LockDevice) (now : ℕ)
  /-- The process is killed. -/
  | crash
  /-- Something happens to the queue, or to a pass over it. -/
  | queue (e : Event)
  /-- `attach(channel, endpointOrProvider)` -/
  | attach (channel : LockChannel) (target : Option Attachment)
  /-- `encode(req)` is called. -/
  | encode (i : ℕ) (req : EncodeRequest) (uuid spare : String) (now : ℕ)
  /-- The adapter answers a call of `encode`, or rejects. -/
  | answered (i : ℕ) (result : Option EncodeResult) (uuid spare : String) (now : ℕ)
  /-- `shutdown()` -/
  | shutdown

/-- Only these events reach the rows through the queue. -/
def LobbyEvent.isQueue : LobbyEvent → Bool
  | .queue _ => true
  | _ => false

/-! ## How a row is completed -/

namespace Console

/-- The event marks the row `id` as `COMPLETED`: the broker has taken the packet of a
flush, or an adapter has encoded for a drain. -/
def Completes (c : Console) : Event → String → Prop
  | .answered i answer _, id => deliverOk answer = true ∧
    ∃ claimed delivered, c.passes i = some (.delivering claimed delivered) ∧ claimed.id = id
  | .encoded i (some result) _, id => result.status = .encoded ∧
    ∃ record, c.passes i = some (.encoding record) ∧ record.id = id
  | _, _ => False

end Console

namespace Lobby

variable (s : Lobby)

abbrev store : OfflineActionStore := s.console.store

def withBridge (bridge : LockBridge) : Lobby :=
  { s with console := { s.console with bridge } }

/-- The call `i` ends. -/
def finish (i : ℕ) (req : EncodeRequest) (result : Option EncodeResult) : Lobby :=
  { s with calls := Function.update s.calls i (some .over), ended := some ⟨i, req, result⟩ }

/-- The rows that a table has and did not have before an insert. -/
def inserted (before after : OfflineActionStore) : List OfflineActionRecord :=
  after.rows.drop before.rows.length

/-- `persistOffline(req)` for the call `i`. -/
def persist (i : ℕ) (req : EncodeRequest) (uuid spare : String) (now : ℕ) : String × Lobby :=
  let (queuedId, store) := persistOffline s.store req uuid spare now
  (queuedId, { s with
    console := s.console.withStore store
    persisted := s.persisted ++ (inserted s.store store).map fun row => (i, row.id) })

/-- `encode(req)` up to its `await`, or to its end. -/
def encode (i : ℕ) (req : EncodeRequest) (uuid spare : String) (now : ℕ) : Lobby :=
  match encodeHead s.console.bridge req now with
  | (.refused error, _) => s.finish i req (some (req.result now .error none (some error)))
  | (.fastFail, bridge) =>
    let (queuedId, s) := (s.withBridge bridge).persist i req uuid spare now
    s.finish i req (some (req.result now .queuedOffline (some queuedId)
      (some "circuit open (fast-fail)->queued")))
  | (.ask _, bridge) =>
    { s.withBridge bridge with
      calls := Function.update s.calls i (some (.waiting req)), ended := none }

/-- `encode(req)` after its `await`. -/
def answer (i : ℕ) (req : EncodeRequest) (result : Option EncodeResult) (uuid spare : String)
    (now : ℕ) : Lobby :=
  match result with
  -- nothing catches the rejection
  | none => s.finish i req none
  | some result =>
    let s := s.withBridge (s.console.bridge.afterEncode req.deviceId result now)
    if result.status = .encoded then
      let ack : Ack := ⟨.call i, req⟩
      { s with acks := s.acks ++ [ack] }.finish i req (some result)
    else
      let (queuedId, s) := s.persist i req uuid spare now
      { s with retryTimer := true }.finish i req (some (result.queued queuedId))

/-- The acknowledgement that comes with an event of the queue. -/
def ackOf (c : Console) : Event → List Ack
  | .encoded i (some result) _ =>
    match c.passes i with
    | some (.encoding record) =>
      if result.status = .encoded then [⟨.row record.id, encodeRequestOf record⟩] else []
    | _ => []
  | _ => []

/-- The events of the queue. A drain is started by the timer, and only encodes change
the bridge or insert rows behind the engine's back. -/
def allows : Event → Bool
  | .boot _ _ | .crash | .insert _ _ _ | .hardware _ => false
  | .drain _ => s.retryTimer
  | _ => true

/-- A process starts or ends: its timer and its calls are gone. -/
def reset (console : Console) : Lobby :=
  { s with console, calls := fun i => (s.calls i).map fun _ => .over, retryTimer := false,
           ended := none }

theorem reset_calls (console : Console) (i : ℕ) :
    (s.reset console).calls i = s.calls i ∨
      (s.calls i ≠ none ∧ (s.reset console).calls i = some .over) := by
  cases h : s.calls i with
  | none => left; simp [reset, h]
  | some call => right; simp [reset, h]

/-- One event. -/
def step : LobbyEvent → Option Lobby
  | .boot endpoint devices now =>
    (Process.step s.console (.boot (startBridge endpoint devices) now)).map s.reset
  | .crash => (Process.step s.console .crash).map s.reset
  | .queue e =>
    if s.allows e then
      (Process.step s.console e).map fun console =>
        { s with console, acks := s.acks ++ ackOf s.console e, ended := none }
    else none
  | .attach channel target =>
    (Process.step s.console (.hardware (s.console.bridge.attach channel target))).map fun console =>
      { s with console, ended := none }
  | .encode i req uuid spare now =>
    if s.console.running && (s.calls i).isNone then some (s.encode i req uuid spare now) else none
  | .answered i result uuid spare now =>
    match s.calls i with
    | some (.waiting req) =>
      if s.console.running then some (s.answer i req result uuid spare now) else none
    | _ => none
  | .shutdown => if s.console.running then some { s with retryTimer := false, ended := none } else none

/-- A console that was never started. -/
def fresh : Lobby := ⟨.off, fun _ => none, false, [], [], none⟩

/-! ## What a step can do -/

/-- The changes that an event can make, each with what it has asked for. -/
inductive Steps (s : Lobby) : LobbyEvent → Lobby → Prop
  | boot (endpoint : String) (devices : List LockDevice) (now : ℕ)
      (stopped : s.console.running = false) :
      Steps s (.boot endpoint devices now)
        (s.reset (s.console.boot (startBridge endpoint devices) now))
  | crash (running : s.console.running = true) :
      Steps s .crash (s.reset { s.console with passes := fun _ => none, running := false })
  | queue (e : Event) (console : Console) (allowed : s.allows e = true)
      (happens : Process.step s.console e = some console) :
      Steps s (.queue e) { s with console, acks := s.acks ++ ackOf s.console e, ended := none }
  | attach (channel : LockChannel) (target : Option Attachment) (running : s.console.running = true) :
      Steps s (.attach channel target) { s with
        console := { s.console with bridge := s.console.bridge.attach channel target }
        ended := none }
  | encode (i : ℕ) (req : EncodeRequest) (uuid spare : String) (now : ℕ)
      (running : s.console.running = true) (free : s.calls i = none) :
      Steps s (.encode i req uuid spare now) (s.encode i req uuid spare now)
  | answered (i : ℕ) (result : Option EncodeResult) (uuid spare : String) (now : ℕ)
      (req : EncodeRequest) (waiting : s.calls i = some (.waiting req))
      (running : s.console.running = true) :
      Steps s (.answered i result uuid spare now) (s.answer i req result uuid spare now)
  | shutdown (running : s.console.running = true) :
      Steps s .shutdown { s with retryTimer := false, ended := none }

theorem steps_of_step {s s' : Lobby} {e : LobbyEvent} (h : s.step e = some s') : s.Steps e s' := by
  cases e with
  | boot endpoint devices now =>
    obtain ⟨console, hstep, rfl⟩ := Option.map_eq_some_iff.mp h
    obtain ⟨-, hact⟩ | ⟨_, _, ⟨⟩, hstopped, rfl⟩ := step_cases hstep
    · cases hact
    · exact .boot endpoint devices now hstopped
  | crash =>
    obtain ⟨console, hstep, rfl⟩ := Option.map_eq_some_iff.mp h
    obtain ⟨hrun, hact⟩ | ⟨_, _, hboot, -⟩ := step_cases hstep
    · cases hact
      exact .crash hrun
    · cases hboot
  | queue e =>
    simp only [step] at h
    split at h
    · next hallowed =>
      obtain ⟨console, hstep, rfl⟩ := Option.map_eq_some_iff.mp h
      exact .queue e console hallowed hstep
    · cases h
  | attach channel target =>
    obtain ⟨console, hstep, rfl⟩ := Option.map_eq_some_iff.mp h
    obtain ⟨hrun, hact⟩ | ⟨_, _, hboot, -⟩ := step_cases hstep
    · cases hact
      exact .attach channel target hrun
    · cases hboot
  | encode i req uuid spare now =>
    simp only [step, Bool.and_eq_true, Option.isNone_iff_eq_none] at h
    split at h
    · next hfree =>
      cases h
      exact .encode i req uuid spare now hfree.1 hfree.2
    · cases h
  | answered i result uuid spare now =>
    simp only [step] at h
    split at h
    · next req hwaiting =>
      split at h
      · next hrun =>
        cases h
        exact .answered i result uuid spare now req hwaiting hrun
      · cases h
    · cases h
  | shutdown =>
    simp only [step] at h
    split at h
    · next hrun =>
      cases h
      exact .shutdown hrun
    · cases h

/-- The ways in which a step touches the rows, the calls and the acknowledgements. -/
inductive Effect (s s' : Lobby) : LobbyEvent → Prop
  /-- Something happens to the queue. -/
  | queue (ev : Event) (console : Process.step s.console ev = some s'.console)
      (calls : s'.calls = s.calls) (acks : s'.acks = s.acks ++ ackOf s.console ev)
      (persisted : s'.persisted = s.persisted) : Effect s s' (.queue ev)
  /-- The process or its adapters change; calls may die. -/
  | process (e : LobbyEvent) (event : e.isQueue = false) (ev : Event)
      (console : Process.step s.console ev = some s'.console)
      (quiet : ∀ id, ¬ s.console.Completes ev id)
      (calls : ∀ i, s'.calls i = s.calls i ∨ (s.calls i ≠ none ∧ s'.calls i = some .over))
      (acks : s'.acks = s.acks) (persisted : s'.persisted = s.persisted) : Effect s s' e
  /-- A new call waits for its adapter. -/
  | ask (e : LobbyEvent) (event : e.isQueue = false) (i : ℕ) (req : EncodeRequest)
      (free : s.calls i = none) (desk : s'.console.desk = s.console.desk)
      (calls : s'.calls = Function.update s.calls i (some (.waiting req)))
      (acks : s'.acks = s.acks) (persisted : s'.persisted = s.persisted) : Effect s s' e
  /-- A call ends, and nothing comes of it. -/
  | fail (e : LobbyEvent) (event : e.isQueue = false) (i : ℕ) (going : s.calls i ≠ some .over)
      (desk : s'.console.desk = s.console.desk)
      (calls : s'.calls = Function.update s.calls i (some .over))
      (acks : s'.acks = s.acks) (persisted : s'.persisted = s.persisted) : Effect s s' e
  /-- A call ends with an acknowledgement. -/
  | ack (i : ℕ) (result : EncodeResult) (uuid spare : String) (now : ℕ) (req : EncodeRequest)
      (waiting : s.calls i = some (.waiting req)) (encoded : result.status = .encoded)
      (desk : s'.console.desk = s.console.desk)
      (calls : s'.calls = Function.update s.calls i (some .over))
      (acks : s'.acks = s.acks ++ [⟨.call i, req⟩]) (persisted : s'.persisted = s.persisted) :
      Effect s s' (.answered i (some result) uuid spare now)
  /-- A call ends with its request kept. -/
  | keep (e : LobbyEvent) (event : e.isQueue = false) (i : ℕ) (req : EncodeRequest)
      (uuid spare : String) (now : ℕ) (going : s.calls i ≠ some .over)
      (desk : s'.console.desk =
        ⟨(persistOffline s.store req uuid spare now).2, s.console.desk.held⟩)
      (calls : s'.calls = Function.update s.calls i (some .over)) (acks : s'.acks = s.acks)
      (persisted : s'.persisted = s.persisted ++
        (inserted s.store (persistOffline s.store req uuid spare now).2).map fun row => (i, row.id)) :
      Effect s s' e

theorem effect_encode {s : Lobby} {i : ℕ} (hfree : s.calls i = none) (req : EncodeRequest)
    (uuid spare : String) (now : ℕ) :
    Effect s (s.encode i req uuid spare now) (.encode i req uuid spare now) := by
  have hgoing : s.calls i ≠ some .over := by simp [hfree]
  rw [encode]
  split
  · exact .fail _ rfl i hgoing rfl rfl rfl rfl
  · exact .keep _ rfl i req uuid spare now hgoing rfl rfl rfl rfl
  · exact .ask _ rfl i req hfree rfl rfl rfl rfl

theorem effect_answer {s : Lobby} {i : ℕ} {req : EncodeRequest}
    (hwaiting : s.calls i = some (.waiting req)) (result : Option EncodeResult)
    (uuid spare : String) (now : ℕ) :
    Effect s (s.answer i req result uuid spare now) (.answered i result uuid spare now) := by
  have hgoing : s.calls i ≠ some .over := by simp [hwaiting]
  cases result with
  | none => exact .fail _ rfl i hgoing rfl rfl rfl rfl
  | some result =>
    simp only [answer]
    split
    · next hencoded => exact .ack i result uuid spare now req hwaiting hencoded rfl rfl rfl rfl
    · exact .keep _ rfl i req uuid spare now hgoing rfl rfl rfl rfl

theorem effect_of_step {s s' : Lobby} {e : LobbyEvent} (h : s.step e = some s') :
    Effect s s' e := by
  cases steps_of_step h with
  | boot endpoint devices now stopped =>
    have hstep : Process.step s.console (.boot (startBridge endpoint devices) now) =
        some (s.console.boot (startBridge endpoint devices) now) := if_neg (by simp [stopped])
    exact .process _ rfl _ hstep (fun _ hc => hc) (reset_calls s _) rfl rfl
  | crash running =>
    exact .process _ rfl .crash (if_pos running) (fun _ hc => hc) (reset_calls s _) rfl rfl
  | queue e console allowed happens => exact .queue e happens rfl rfl rfl
  | attach channel target running =>
    exact .process _ rfl (.hardware _) (if_pos running) (fun _ hc => hc) (fun _ => .inl rfl) rfl rfl
  | encode i req uuid spare now running free => exact effect_encode free req uuid spare now
  | answered i result uuid spare now req waiting running =>
    exact effect_answer waiting result uuid spare now
  | shutdown running =>
    exact .process _ rfl (.hardware s.console.bridge) (if_pos running) (fun _ hc => hc)
      (fun _ => .inl rfl) rfl rfl

variable {s s' : Lobby} {e : LobbyEvent}

theorem Effect.move (h : Effect s s' e) : Move s.console.desk s'.console.desk := by
  cases h with
  | queue ev console => exact move_of_step console
  | process _ event ev console => exact move_of_step console
  | ask _ event i req free desk => rw [desk]; exact .stay _
  | fail _ event i going desk => rw [desk]; exact .stay _
  | ack i result uuid spare now req waiting encoded desk => rw [desk]; exact .stay _
  | keep _ event i req uuid spare now going desk =>
    rw [desk, persistOffline_snd]
    exact .insert _ _ _ _

/-- No acknowledgement is ever taken back. -/
theorem Effect.acks_subset (h : Effect s s' e) : s.acks ⊆ s'.acks := by
  cases h with
  | queue ev console calls acks => rw [acks]; exact List.subset_append_left _ _
  | process _ event ev console quiet calls acks => rw [acks]; exact List.Subset.refl _
  | ask _ event i req free desk calls acks => rw [acks]; exact List.Subset.refl _
  | fail _ event i going desk calls acks => rw [acks]; exact List.Subset.refl _
  | ack i result uuid spare now req waiting encoded desk calls acks =>
    rw [acks]; exact List.subset_append_left _ _
  | keep _ event i req uuid spare now going desk calls acks => rw [acks]; exact List.Subset.refl _

/-- The rows in hand are safe, and the records of them are up to date. -/
structure Sound (s : Lobby) : Prop where
  safe : Safe s.console.desk
  faithful : Faithful s.console.desk

theorem sound_fresh : fresh.Sound := ⟨safe_off, fun _ _ h => nomatch h⟩

theorem Sound.step (h : s.Sound) (he : Effect s s' e) : s'.Sound :=
  ⟨h.safe.move he.move, h.faithful.move he.move⟩

end Lobby

end Hotelia.Process
