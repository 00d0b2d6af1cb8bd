import Hotelia.Process.Lobby

/-!
# What a call of `encode` ends with

A keycard is said to be guaranteed: either the encoder has acknowledged it, or the
exact request is durable and retried. Which runs keep that promise depends on the
row that the store has under the key of the request when the encode fails.

## Main results

- `ended_well_iff`: in which runs every call ends as promised.
-/

namespace Hotelia.Process
open Foundation Offline Hardware

namespace Lobby

def Registered (s : Lobby) (req : EncodeRequest) : Prop :=
  (s.console.bridge.devices.lookup req.deviceId).isSome

/-- The call that has just ended was for a registered encoder only if it did not reject
and has an acknowledgement to show, or a row that can still deliver its request. -/
def EndedWell (s : Lobby) : Prop :=
  ∀ e, s.ended = some e → s.Registered e.request → ∃ result, e.result = some result ∧
    ((result.status = .encoded ∧ ⟨.call e.call, e.request⟩ ∈ s.acks) ∨
      (result.status = .queuedOffline ∧
        ∃ id, result.queuedId = some id ∧ KeepsFor s.store id e.request))

/-- A call that its breaker does not let through, or whose adapter does not encode,
finds the store fit to keep the request. No adapter rejects. -/
def EndsWell (s : Lobby) : LobbyEvent → Prop
  | .encode _ req uuid spare now =>
    s.Registered req → ((s.console.bridge.getBreaker req.deviceId).allow now).1 = false →
      Queueable s.store req uuid spare
  | .answered i result uuid spare _ =>
    ∀ req, s.calls i = some (.waiting req) →
      ∃ r, result = some r ∧ (r.status ≠ .encoded → Queueable s.store req uuid spare)
  | _ => True

end Lobby

/-! ## The wiring -/

namespace Console

theorem bridge_begin {c c' : Console} {i : ℕ} {p : Pass} (h : c.begin i p = some c') :
    c'.bridge = c.bridge := by
  obtain ⟨-, rfl⟩ := begin_eq_some.mp h
  rfl

/-- No pass attaches an adapter, or registers or forgets an encoder. -/
theorem sameWiring_act {c c' : Console} {e : Event} (h : c.act e = some c')
    (he : ∀ bridge, e ≠ .hardware bridge) : SameWiring c.bridge c'.bridge := by
  have hsame : c'.bridge = c.bridge → SameWiring c.bridge c'.bridge := by
    intro heq
    rw [heq]
    exact .refl _
  cases acts_of_act h with
  | crash => exact hsame rfl
  | enqueue input uuid now =>
    obtain ⟨engine, -, henqueue⟩ := c.enqueue_eq input uuid now
    rw [henqueue]
    exact .refl _
  | insert => exact hsame rfl
  | hardware bridge => exact absurd rfl (he bridge)
  | flush i _ begun => exact hsame (bridge_begin begun)
  | drain i _ begun => exact hsame (bridge_begin begun)
  | probed => exact hsame rfl
  | flushGuard i now delivered =>
    obtain ⟨engine, p, hguard⟩ := c.flushGuard_eq i delivered now
    rw [hguard]
    exact .refl _
  | drainHead i now =>
    obtain ⟨engine, p, hhead⟩ := c.drainHead_eq i now
    rw [hhead]
    exact .refl _
  | answered => exact hsame rfl
  | turn i now record =>
    have hstart := sameWiring_drainStart c.bridge record now
    rw [drainBody]
    split
    · next hstarted => rwa [hstarted] at hstart
    · next hstarted => rwa [hstarted] at hstart
  | encoded i result now record =>
    cases result with
    | none => exact hsame rfl
    | some result => exact sameWiring_afterEncode c.bridge _ result now

end Console

namespace Lobby

variable {s s' : Lobby}

/-- While the process runs every channel has an adapter, and calls wait only for
registered encoders. -/
structure Wired (s : Lobby) : Prop where
  adapters : s.console.running = true → ∀ channel, s.console.bridge.channels channel ≠ none
  registered : ∀ i req, s.calls i = some (.waiting req) → s.Registered req

theorem wired_fresh : fresh.Wired := ⟨fun h => (nomatch h), fun _ _ h => nomatch h⟩

theorem adapters_startBridge (endpoint : String) (devices : List LockDevice) (channel : LockChannel) :
    (startBridge endpoint devices).channels channel ≠ none := by
  have hfold : ∀ (devices : List LockDevice) (b : LockBridge),
      (devices.foldl LockBridge.registerDevice b).channels = b.channels := by
    intro devices
    induction devices with
    | nil => exact fun b => rfl
    | cons d devices ih => exact fun b => ih (b.registerDevice d)
  rw [startBridge, hfold]
  cases channel <;> simp [LockBridge.attach, LockBridge.setChannel, LockBridge.new]

theorem adapters_attach {b : LockBridge} (h : ∀ channel, b.channels channel ≠ none)
    (channel : LockChannel) (target : Option Attachment) :
    ∀ channel', (b.attach channel target).channels channel' ≠ none := by
  have hset : ∀ adapter channel', (b.setChannel channel adapter).channels channel' ≠ none := by
    intro adapter channel'
    by_cases he : channel' = channel
    · subst he
      simp [LockBridge.setChannel]
    · simpa [LockBridge.setChannel, he] using h channel'
  unfold LockBridge.attach
  split
  · exact hset _
  · split
    · exact h
    · exact hset _
  · exact hset _
  · exact h

theorem devices_attach (b : LockBridge) (channel : LockChannel) (target : Option Attachment) :
    (b.attach channel target).devices = b.devices := by
  unfold LockBridge.attach
  split
  · rfl
  · split <;> rfl
  · rfl
  · rfl

theorem not_waiting_reset (s : Lobby) (console : Console) (i : ℕ) (req : EncodeRequest) :
    (s.reset console).calls i ≠ some (.waiting req) := by
  simp only [reset, ne_eq, Option.map_eq_some_iff, not_exists, not_and]
  rintro call - ⟨⟩

/-- Calls may end, and one may begin to wait for a registered encoder. -/
theorem Wired.rewire (h : s.Wired)
    (hrun : s'.console.running = true → s.console.running = true)
    (hbridge : SameWiring s.console.bridge s'.console.bridge)
    (hcalls : ∀ i req, s'.calls i = some (.waiting req) →
      s.calls i = some (.waiting req) ∨ s.Registered req) : s'.Wired where
  adapters hr channel := by
    rw [hbridge.1]
    exact h.adapters (hrun hr) channel
  registered i req hi := by
    rw [Registered, hbridge.2]
    cases hcalls i req hi with
    | inl hold => exact h.registered i req hold
    | inr hnew => exact hnew

/-! ## How a call begins -/

section Encode

variable {i : ℕ} {req : EncodeRequest}

/-- A call for an encoder that nobody has registered ends with an error. -/
theorem encode_unregistered (s : Lobby) (i : ℕ) (uuid spare : String) (now : ℕ)
    (h : ¬ s.Registered req) :
    s.encode i req uuid spare now = s.finish i req
      (some (req.result now .error none (some "unknown encoder device"))) := by
  have hlookup : s.console.bridge.devices.lookup req.deviceId = none := by
    simpa [Registered] using h
  rw [encode, encodeHead_unknown now hlookup]

/-- A call for a registered encoder has an adapter to ask, if its breaker lets it. -/
theorem Wired.encodeHead (hw : s.Wired) (hrun : s.console.running = true) (h : s.Registered req)
    (now : ℕ) : ∃ adapter bridge, SameWiring s.console.bridge bridge ∧
      encodeHead s.console.bridge req now =
        (if ((s.console.bridge.getBreaker req.deviceId).allow now).1 then .ask adapter
          else .fastFail, bridge) := by
  obtain ⟨dev, hdev⟩ := Option.isSome_iff_exists.mp h
  obtain ⟨adapter, hadapter⟩ := Option.ne_none_iff_exists'.mp (hw.adapters hrun dev.channel)
  exact ⟨adapter, _, sameWiring_setBreaker _ req.deviceId _, encodeHead_known now hdev hadapter⟩

/-- A call that its breaker does not let through ends with its request kept. -/
theorem encode_fastFail (hw : s.Wired) (hrun : s.console.running = true) (h : s.Registered req)
    (uuid spare : String) {now : ℕ}
    (hbreaker : ((s.console.bridge.getBreaker req.deviceId).allow now).1 = false) :
    ∃ bridge, SameWiring s.console.bridge bridge ∧ s.encode i req uuid spare now =
      ((s.withBridge bridge).persist i req uuid spare now).2.finish i req
        (some (req.result now .queuedOffline
          (some ((s.withBridge bridge).persist i req uuid spare now).1)
          (some "circuit open (fast-fail)->queued"))) := by
  obtain ⟨adapter, bridge, hbridge, hhead⟩ := hw.encodeHead hrun h now
  refine ⟨bridge, hbridge, ?_⟩
  rw [encode, hhead, hbreaker]
  rfl

/-- Any other call waits for its adapter. -/
theorem encode_ask (hw : s.Wired) (hrun : s.console.running = true) (h : s.Registered req)
    (uuid spare : String) {now : ℕ}
    (hbreaker : ((s.console.bridge.getBreaker req.deviceId).allow now).1 = true) :
    ∃ bridge, SameWiring s.console.bridge bridge ∧ s.encode i req uuid spare now =
      { s.withBridge bridge with
        calls := Function.update s.calls i (some (.waiting req)), ended := none } := by
  obtain ⟨adapter, bridge, hbridge, hhead⟩ := hw.encodeHead hrun h now
  refine ⟨bridge, hbridge, ?_⟩
  rw [encode, hhead, hbreaker]
  rfl

end Encode

/-- A call that waits after another has ended has waited before. -/
theorem waiting_of_update {calls : ℕ → Option Call} {i j : ℕ} {req : EncodeRequest}
    (h : Function.update calls i (some .over) j = some (.waiting req)) :
    calls j = some (.waiting req) := by
  cases update_eq_some h with
  | inl hnew => cases hnew.2
  | inr hold => exact hold.2

theorem wired_encode (h : s.Wired) (hrun : s.console.running = true) (i : ℕ) (req : EncodeRequest)
    (uuid spare : String) (now : ℕ) : (s.encode i req uuid spare now).Wired := by
  by_cases hreg : s.Registered req
  · cases hbreaker : ((s.console.bridge.getBreaker req.deviceId).allow now).1 with
    | true =>
      obtain ⟨bridge, hbridge, heq⟩ := encode_ask (i := i) h hrun hreg uuid spare hbreaker
      rw [heq]
      refine h.rewire (fun _ => hrun) hbridge ?_
      intro j req' hj
      cases update_eq_some hj with
      | inl hnew =>
        obtain ⟨rfl, hreq⟩ := hnew
        cases hreq
        exact .inr hreg
      | inr hold => exact .inl hold.2
    | false =>
      obtain ⟨bridge, hbridge, heq⟩ := encode_fastFail (i := i) h hrun hreg uuid spare hbreaker
      rw [heq]
      exact h.rewire (fun _ => hrun) hbridge fun j req' hj => .inl (waiting_of_update hj)
  · rw [encode_unregistered s i uuid spare now hreg]
    exact h.rewire (fun _ => hrun) (.refl _) fun j req' hj => .inl (waiting_of_update hj)

theorem wired_answer (h : s.Wired) (hrun : s.console.running = true) (i : ℕ) (req : EncodeRequest)
    (result : Option EncodeResult) (uuid spare : String) (now : ℕ) :
    (s.answer i req result uuid spare now).Wired := by
  cases result with
  | none => exact h.rewire (fun _ => hrun) (.refl _) fun j req' hj => .inl (waiting_of_update hj)
  | some result =>
    have hbridge := sameWiring_afterEncode s.console.bridge req.deviceId result now
    simp only [answer]
    split
    · exact h.rewire (fun _ => hrun) hbridge fun j req' hj => .inl (waiting_of_update hj)
    · exact h.rewire (fun _ => hrun) hbridge fun j req' hj => .inl (waiting_of_update hj)

theorem wired_of_step {e : LobbyEvent} (h : s.Wired) (hs : s.step e = some s') : s'.Wired := by
  have hreset : ∀ console, (console.running = true → ∀ channel, console.bridge.channels channel ≠ none) →
      (s.reset console).Wired :=
    fun console hadapters => ⟨hadapters, fun i req hi => absurd hi (not_waiting_reset s console i req)⟩
  cases steps_of_step hs with
  | boot endpoint devices => exact hreset _ fun _ => adapters_startBridge endpoint devices
  | crash => exact hreset _ fun hrun => nomatch hrun
  | queue e console allowed happens =>
    obtain ⟨hrun, hact⟩ | ⟨_, _, rfl, -⟩ := step_cases happens
    · refine h.rewire (fun _ => hrun) (Console.sameWiring_act hact ?_) fun _ _ hi => .inl hi
      rintro bridge rfl
      cases allowed
    · cases allowed
  | attach channel target =>
    refine ⟨fun hrun => adapters_attach (h.adapters hrun) channel target, ?_⟩
    intro i req hi
    have hreg := h.registered i req hi
    rw [Registered] at hreg ⊢
    rwa [devices_attach]
  | encode i req uuid spare now running => exact wired_encode h running i req uuid spare now
  | answered i result uuid spare now req _ running =>
    exact wired_answer h running i req result uuid spare now
  | shutdown => exact h.rewire (fun hrun => hrun) (.refl _) fun _ _ hi => .inl hi

/-! ## How a call ends -/

theorem endedWell_of_none (h : s.ended = none) : s.EndedWell := by
  intro e he
  rw [h] at he
  cases he

/-- A call that ends with its request kept ends well if the store was fit to keep it. -/
theorem endedWell_persist_iff {t : Lobby} {i : ℕ} {req : EncodeRequest} {uuid spare : String}
    {now : ℕ} {result : EncodeResult} (hreg : t.Registered req)
    (hstore : t.store = (persistOffline s.store req uuid spare now).2)
    (hended : t.ended = some ⟨i, req, some result⟩) (hstatus : result.status = .queuedOffline)
    (hid : result.queuedId = some (persistOffline s.store req uuid spare now).1) :
    t.EndedWell ↔ Queueable s.store req uuid spare := by
  rw [← keepsFor_persistOffline_iff s.store req uuid spare now, ← hstore]
  constructor
  · intro h
    obtain ⟨_, ⟨⟩, hencoded | ⟨-, id, hid', hkeeps⟩⟩ := h _ hended hreg
    · rw [hstatus] at hencoded
      cases hencoded.1
    · rw [hid, Option.some.injEq] at hid'
      rwa [hid']
  · intro hkeeps e he _
    rw [hended, Option.some.injEq] at he
    subst he
    exact ⟨result, rfl, .inr ⟨hstatus, _, hid, hkeeps⟩⟩

theorem endedWell_encode_iff (hw : s.Wired) (hrun : s.console.running = true) (i : ℕ)
    (req : EncodeRequest) (uuid spare : String) (now : ℕ) :
    (s.encode i req uuid spare now).EndedWell ↔ s.EndsWell (.encode i req uuid spare now) := by
  by_cases hreg : s.Registered req
  · cases hbreaker : ((s.console.bridge.getBreaker req.deviceId).allow now).1 with
    | true =>
      obtain ⟨bridge, -, heq⟩ := encode_ask (i := i) hw hrun hreg uuid spare hbreaker
      rw [heq]
      refine iff_of_true (endedWell_of_none rfl) ?_
      intro _ hfalse
      rw [hbreaker] at hfalse
      cases hfalse
    | false =>
      obtain ⟨bridge, hbridge, heq⟩ := encode_fastFail (i := i) hw hrun hreg uuid spare hbreaker
      have hregistered : (s.encode i req uuid spare now).Registered req := by
        rw [heq, Registered]
        exact (hbridge.2 req.deviceId).trans hreg
      have hstore : (s.encode i req uuid spare now).store =
          (persistOffline s.store req uuid spare now).2 := by
        rw [heq]
        rfl
      have hended : (s.encode i req uuid spare now).ended = some ⟨i, req, some (req.result now
          .queuedOffline (some (persistOffline s.store req uuid spare now).1)
          (some "circuit open (fast-fail)->queued"))⟩ := by
        rw [heq]
        rfl
      rw [endedWell_persist_iff hregistered hstore hended rfl rfl]
      exact ⟨fun hq _ _ => hq, fun h => h hreg hbreaker⟩
  · rw [encode_unregistered s i uuid spare now hreg]
    refine iff_of_true ?_ fun hreg' => absurd hreg' hreg
    intro e he hreg'
    cases he
    exact absurd hreg' hreg

theorem endedWell_answer_iff (hw : s.Wired) {i : ℕ} {req : EncodeRequest}
    (hwaiting : s.calls i = some (.waiting req)) (result : Option EncodeResult)
    (uuid spare : String) (now : ℕ) :
    (s.answer i req result uuid spare now).EndedWell ↔
      s.EndsWell (.answered i result uuid spare now) := by
  have hreg := hw.registered i req hwaiting
  have hends : s.EndsWell (.answered i result uuid spare now) ↔
      ∃ r, result = some r ∧ (r.status ≠ .encoded → Queueable s.store req uuid spare) := by
    constructor
    · exact fun h => h req hwaiting
    · intro h req' hreq'
      rw [hwaiting, Option.some.injEq, Call.waiting.injEq] at hreq'
      exact hreq' ▸ h
  rw [hends]
  cases result with
  | none =>
    refine iff_of_false ?_ (fun ⟨_, h, _⟩ => nomatch h)
    intro h
    obtain ⟨_, hnone, -⟩ := h ⟨i, req, none⟩ rfl hreg
    cases hnone
  | some result =>
    have hbridge := sameWiring_afterEncode s.console.bridge req.deviceId result now
    have hreg' : ∀ t : Lobby, t.console.bridge = s.console.bridge.afterEncode req.deviceId result now →
        t.Registered req := by
      intro t ht
      rw [Registered, ht]
      exact (hbridge.2 req.deviceId).trans hreg
    simp only [Option.some.injEq, exists_eq_left']
    by_cases hstatus : result.status = .encoded
    · simp only [answer, if_pos hstatus]
      refine iff_of_true ?_ fun hne => absurd hstatus hne
      rintro e ⟨⟩ -
      exact ⟨result, rfl, .inl ⟨hstatus, List.mem_append_right _ (List.mem_singleton_self _)⟩⟩
    · simp only [answer, ne_eq, hstatus, not_false_eq_true, forall_const]
      exact endedWell_persist_iff (s := s) (hreg' _ rfl) rfl rfl rfl rfl

theorem endedWell_of_step_iff {e : LobbyEvent} (hw : s.Wired) (hs : s.step e = some s') :
    s'.EndedWell ↔ s.EndsWell e := by
  have hquiet : s'.ended = none → s.EndsWell e → (s'.EndedWell ↔ s.EndsWell e) :=
    fun hnone hwell => iff_of_true (endedWell_of_none hnone) hwell
  cases steps_of_step hs with
  | boot => exact hquiet rfl trivial
  | crash => exact hquiet rfl trivial
  | queue => exact hquiet rfl trivial
  | attach => exact hquiet rfl trivial
  | encode i req uuid spare now running => exact endedWell_encode_iff hw running i req uuid spare now
  | answered i result uuid spare now req waiting =>
    exact endedWell_answer_iff hw waiting result uuid spare now
  | shutdown => exact hquiet rfl trivial

/-- In every run: each call for a registered encoder ends without a rejection, and with
an acknowledgement of its request or a row that can still deliver exactly it, if and
only if no adapter rejects and each call that is not encoded finds under its key
no row, or one that can still deliver this very request. -/
theorem ended_well_iff {es : List LobbyEvent} (h : run step fresh es = some s) :
    (∀ pre s', pre <+: es → run step fresh pre = some s' → s'.EndedWell) ↔
      Along step EndsWell fresh es := by
  apply forall_prefix_iff_along (J := Wired) _ _ wired_fresh (endedWell_of_none rfl) h
  · exact fun s e s' hw hs => wired_of_step hw hs
  · exact fun s e s' hw _ hs => endedWell_of_step_iff hw hs

/-- Two guests of one room: the encoder is offline when the card of the first is to be
written, and when the card of the second is. -/
def secondGuest : List LobbyEvent :=
  let offline : EncodeResult := ⟨"LDOOR-01", "101", "KEY-101-A", .queuedOffline, none, none, 2⟩
  [.boot "127.0.0.1:9100" (lobbyDevices "127.0.0.1:9100") 0,
    .encode 0 ⟨"LDOOR-01", "101", "KEY-101-ADE"⟩ "" "" 1, .answered 0 (some offline) "a1" "a2" 2,
    .encode 1 ⟨"LDOOR-01", "101", "KEY-101-OTIENO"⟩ "" "" 3,
    .answered 1 (some offline) "b1" "b2" 4]

theorem ended_well_iff_secondGuest :
    ∃ s, run step fresh secondGuest = some s ∧
      ((∀ pre s', pre <+: secondGuest → run step fresh pre = some s' → s'.EndedWell) ↔
        Along step EndsWell fresh secondGuest) := by
  have hsome : (run step fresh secondGuest).isSome = true := by decide +kernel
  obtain ⟨s, hs⟩ := Option.isSome_iff_exists.mp hsome
  exact ⟨s, hs, ended_well_iff hs⟩

/-- The second call is told the row of the first, which has the credential of the first. -/
theorem not_ended_well :
    ¬ ∀ es s, run step fresh es = some s → s.EndedWell := by
  intro h
  have hsome : (run step fresh secondGuest).isSome = true := by decide +kernel
  have hlost : ∀ s ∈ run step fresh secondGuest, ∃ e ∈ s.ended,
      (s.console.bridge.devices.lookup e.request.deviceId).isSome = true ∧
      ∀ r ∈ e.result, r.status ≠ .encoded ∧ ∀ row ∈ s.store.rows, some row.id = r.queuedId →
        row.payload.text "credential" ≠ e.request.payload.text "credential" := by
    decide +kernel
  obtain ⟨s, hs⟩ := Option.isSome_iff_exists.mp hsome
  obtain ⟨e, he, hreg, hresult⟩ := hlost s hs
  obtain ⟨r, hr, hwell⟩ := h secondGuest s hs e he hreg
  obtain ⟨hstatus, hrows⟩ := hresult r hr
  obtain hencoded | ⟨-, id, hid, row, hrow, hrowid, -, hasks⟩ := hwell
  · exact hstatus hencoded.1
  · exact hrows row hrow (hid ▸ congrArg some hrowid) (hasks.text "credential")

end Lobby

end Hotelia.Process
