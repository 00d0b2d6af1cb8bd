import Hotelia.Process.Lobby

/-!
# Whether queued key work is watched

The loop that drains the queue is started by a call of `encode` whose adapter has failed,
and lives as long as its process, until `shutdown`. Rows of keys enter the queue in more
ways than that.

## Main results

- `watched_iff_keepsWatch`: in which runs the loop is running whenever there is key work.
-/

namespace Hotelia.Process
open Foundation Offline OfflineActionRecord OfflineActionStore Hardware

/-! ## Key work -/

/-- There is a row of a key that can be claimed. -/
def KeyWork (s : OfflineActionStore) : Prop :=
  ∃ r ∈ s.rows, r.actionType = lockActionType ∧ r.Claimable

/-- The row of an insert is there already, or its id is. -/
def Known (s : OfflineActionStore) (key uuid : String) : Prop :=
  ∃ row ∈ s.rows, row.idempotencyKey = key ∨ row.id = uuid

section Store

variable {s s' : OfflineActionStore}

theorem keyWork_insert_iff (s : OfflineActionStore) (input : SyncEnqueueInput) (uuid : String)
    (now : ℕ) : KeyWork (s.insert input uuid now).2 ↔
      KeyWork s ∨ (input.actionType = lockActionType ∧ ¬ Known s input.idempotencyKey uuid) := by
  obtain ⟨row, hrow, hinsert⟩ | ⟨-, ⟨row, hrow, hid⟩, hinsert⟩ | ⟨hnone, hfresh, -, hrows⟩ :=
    s.insert_cases input uuid now
  · obtain ⟨hmem, hkey⟩ := selectByKey_eq_some.mp hrow
    have hknown : Known s input.idempotencyKey uuid := ⟨row, hmem, .inl hkey⟩
    rw [hinsert, or_iff_left fun h => h.2 hknown]
  · have hknown : Known s input.idempotencyKey uuid := ⟨row, hrow, .inr hid⟩
    rw [hinsert, or_iff_left fun h => h.2 hknown]
  · have hunknown : ¬ Known s input.idempotencyKey uuid := by
      rintro ⟨row, hrow, hkey | hid⟩
      · exact selectByKey_eq_none.mp hnone row hrow hkey
      · exact hfresh row hrow hid
    have hnew : (s.newRow input uuid now).Claimable := .inl rfl
    rw [KeyWork, hrows]
    simp only [List.mem_append, List.mem_singleton, or_and_right, exists_or, exists_eq_left]
    refine or_congr_right ?_
    exact and_congr_right fun _ => iff_of_true hnew hunknown

/-- A claim leaves no key work that was not there. -/
theorem KeyWork.of_claim {record : OfflineActionRecord} {now : ℕ}
    (hclaim : s.claimNext now = some (record, s')) (h : KeyWork s') : KeyWork s := by
  obtain ⟨row, -, -, hrows⟩ := claimNext_eq_some hclaim
  obtain ⟨r', hr', hlock, hc⟩ := h
  rw [hrows] at hr'
  obtain ⟨r, hr, rfl⟩ := List.mem_map.mp hr'
  split at hlock
  · next hid =>
    rw [if_pos hid] at hc
    exact absurd rfl hc.not_processing
  · next hid =>
    rw [if_neg hid] at hc
    exact ⟨r, hr, hlock, hc⟩

/-- If there was no key work, a mark leaves some exactly if it fails a row of a key that has
tries left. -/
theorem keyWork_mark_iff (h : ¬ KeyWork s) (id : String) (ok : Bool) (error : String) (now : ℕ) :
    KeyWork (s.mark id ok error now) ↔ ok = false ∧
      ∃ r ∈ s.rows, r.id = id ∧ r.actionType = lockActionType ∧
        r.retryCount + 1 < maxRetryCount := by
  rw [KeyWork, mark_rows]
  constructor
  · rintro ⟨r', hr', hlock, hc⟩
    obtain ⟨r, hr, rfl⟩ := List.mem_map.mp hr'
    by_cases hid : r.id = id
    · rw [if_pos hid] at hlock hc
      rw [marked_actionType] at hlock
      cases ok with
      | true => exact absurd rfl hc.not_completed
      | false =>
        refine ⟨rfl, r, hr, hid, hlock, ?_⟩
        simpa [Claimable, marked, failed] using hc
    · rw [if_neg hid] at hlock hc
      exact absurd ⟨r, hr, hlock, hc⟩ h
  · rintro ⟨rfl, r, hr, hid, hlock, htries⟩
    refine ⟨_, List.mem_map_of_mem hr, ?_⟩
    rw [if_pos hid]
    exact ⟨hlock, .inr ⟨rfl, htries⟩⟩

theorem keyWork_requeue_iff (s : OfflineActionStore) (beforeMs now : ℕ) :
    KeyWork (s.requeueStaleProcessing beforeMs now).2 ↔
      ∃ r ∈ s.rows, r.actionType = lockActionType ∧ (r.Claimable ∨ Stale beforeMs now r) := by
  constructor
  · rintro ⟨r', hr', hlock, hc⟩
    obtain ⟨r, hr, rfl⟩ := List.mem_map.mp hr'
    by_cases hstale : Stale beforeMs now r
    · simp only [hstale, decide_true, if_true] at hlock
      exact ⟨r, hr, hlock, .inr hstale⟩
    · simp only [hstale, decide_false, Bool.false_eq_true, if_false] at hlock hc
      exact ⟨r, hr, hlock, .inl hc⟩
  · rintro ⟨r, hr, hlock, hc⟩
    refine ⟨_, List.mem_map_of_mem hr, ?_⟩
    by_cases hstale : Stale beforeMs now r
    · simp only [hstale, decide_true, if_true]
      exact ⟨hlock, .inl rfl⟩
    · simp only [hstale, decide_false, Bool.false_eq_true, if_false]
      exact ⟨hlock, hc.resolve_right hstale⟩

end Store

/-! ## Passes -/

/-- The pass is a call of `drainRetryQueue`. -/
def Pass.IsDrain : Pass → Prop
  | .draining | .turning _ | .encoding _ => True
  | _ => False

namespace Console

variable {c c' : Console} {e : Event}

/-- Only a crash ends the process. -/
theorem running_of_acts (h : c.Acts e c') (hcrash : e ≠ .crash) : c'.running = c.running := by
  cases h with
  | crash => exact absurd rfl hcrash
  | enqueue input uuid now =>
    obtain ⟨engine, -, henqueue⟩ := c.enqueue_eq input uuid now
    rw [henqueue]
  | insert input uuid now => rfl
  | hardware bridge => rfl
  | flush i c' begun | drain i c' begun =>
    obtain ⟨-, rfl⟩ := begin_eq_some.mp begun
    rfl
  | probed i ok pass => rfl
  | flushGuard i now delivered pass =>
    obtain ⟨engine, p, hguard⟩ := c.flushGuard_eq i delivered now
    rw [hguard]
    rfl
  | drainHead i now pass =>
    obtain ⟨engine, p, hhead⟩ := c.drainHead_eq i now
    rw [hhead]
    rfl
  | answered i answer now claimed delivered pass => rfl
  | turn i now record pass =>
    rw [drainBody]
    split <;> rfl
  | encoded i result now record pass =>
    cases result with
    | none => rfl
    | some result => rfl

/-- The pass `i` has been set, and the others are as they were. -/
theorem passes_of_setPass {c : Console} {i j : ℕ} {p : Option Pass} {q : Pass}
    (hq : (c.setPass i p).passes j = some q) : (i = j ∧ p = some q) ∨ c.passes j = some q := by
  by_cases hj : j = i
  · subst hj
    left
    simpa [setPass] using hq
  · right
    simpa [setPass, hj] using hq

/-- There is no new drain where a pass ends or something else is set. -/
theorem drain_of_set_other {c : Console} {i j : ℕ} {p : Option Pass} {q : Pass}
    (hp : ∀ r, p = some r → ¬ r.IsDrain) (hd : q.IsDrain)
    (hq : (c.setPass i p).passes j = some q) : c.passes j = some q := by
  obtain ⟨-, hset⟩ | hq := passes_of_setPass hq
  · exact absurd hd (hp q hset)
  · exact hq

/-- There is no new drain in the place of one. -/
theorem drain_of_set_drain {c : Console} {i j : ℕ} {p : Option Pass} {q r : Pass}
    (hr : c.passes i = some r) (hdr : r.IsDrain) (hd : q.IsDrain)
    (hq : (c.setPass i p).passes j = some q) : ∃ q, c.passes j = some q ∧ q.IsDrain := by
  obtain ⟨rfl, -⟩ | hq := passes_of_setPass hq
  · exact ⟨r, hr, hdr⟩
  · exact ⟨q, hq, hd⟩

theorem drain_of_endFlush {c : Console} {i j delivered : ℕ} {q : Pass} (hd : q.IsDrain)
    (hq : (c.endFlush i delivered).passes j = some q) : c.passes j = some q := by
  obtain ⟨engine, -, hend⟩ := c.endFlush_eq i delivered
  rw [hend] at hq
  exact drain_of_set_other (by simp) hd hq

theorem drain_of_flushGuard {c : Console} {i j delivered now : ℕ} {q : Pass} (hd : q.IsDrain)
    (hq : (c.flushGuard i delivered now).passes j = some q) : c.passes j = some q := by
  rw [flushGuard] at hq
  split at hq
  · exact drain_of_endFlush hd hq
  · next claimed store _ =>
    dsimp only at hq
    split at hq
    · exact drain_of_set_other (c := c.withStore store) (by simp [Pass.IsDrain]) hd hq
    · exact drain_of_endFlush (c := c.withStore store) hd hq

/-- A drain goes on until it ends, and begins only when it is called. -/
theorem drain_of_acts (h : c.Acts e c') {j : ℕ} {q : Pass} (hq : c'.passes j = some q)
    (hd : q.IsDrain) : (∃ p, c.passes j = some p ∧ p.IsDrain) ∨ e = .drain j := by
  have hold (hq : c.passes j = some q) : (∃ p, c.passes j = some p ∧ p.IsDrain) ∨ e = .drain j :=
    .inl ⟨q, hq, hd⟩
  cases h with
  | crash => cases hq
  | enqueue input uuid now =>
    obtain ⟨engine, -, henqueue⟩ := c.enqueue_eq input uuid now
    rw [henqueue] at hq
    exact hold hq
  | insert input uuid now => exact hold hq
  | hardware bridge => exact hold hq
  | flush i c' begun =>
    obtain ⟨-, rfl⟩ := begin_eq_some.mp begun
    exact hold (drain_of_set_other (by simp [Pass.IsDrain]) hd hq)
  | drain i c' begun =>
    obtain ⟨-, rfl⟩ := begin_eq_some.mp begun
    obtain ⟨rfl, -⟩ | hq := passes_of_setPass hq
    · exact .inr rfl
    · exact hold hq
  | probed i ok pass => exact hold (drain_of_set_other (by simp [Pass.IsDrain]) hd hq)
  | flushGuard i now delivered pass => exact hold (drain_of_flushGuard hd hq)
  | drainHead i now pass =>
    left
    rw [drainHead] at hq
    split at hq <;> exact drain_of_set_drain pass trivial hd hq
  | answered i answer now claimed delivered pass =>
    exact hold (drain_of_set_other (by simp [Pass.IsDrain]) hd hq)
  | turn i now record pass =>
    left
    rw [drainBody] at hq
    split at hq <;> exact drain_of_set_drain pass trivial hd hq
  | encoded i result now record pass =>
    left
    cases result with
    | none => exact drain_of_set_drain pass trivial hd hq
    | some result => exact drain_of_set_drain pass trivial hd hq

/-- A row of a key comes into the queue, or back into it, while no drain is under way. -/
def Enters (c : Console) : Event → Prop
  | .enqueue input uuid _ => input.actionType = lockActionType ∧
      ¬ Known c.store input.idempotencyKey uuid
  | .insert input uuid _ => input.actionType = lockActionType ∧
      ¬ Known c.store input.idempotencyKey uuid
  | .answered i answer _ => deliverOk answer = false ∧
      ∃ claimed delivered, c.passes i = some (.delivering claimed delivered) ∧
        ∃ r ∈ c.store.rows, r.id = claimed.id ∧ r.actionType = lockActionType ∧
          r.retryCount + 1 < maxRetryCount
  | _ => False

/-- Without a drain, only inserts and failed deliveries make key work. -/
theorem keyWork_acts_iff (h : c.Acts e c') (hnone : ¬ KeyWork c.store)
    (hdrain : ∀ i p, c.passes i = some p → ¬ p.IsDrain) : KeyWork c'.store ↔ c.Enters e := by
  have hsame (hstore : c'.store = c.store) : ¬ KeyWork c'.store := hstore ▸ hnone
  cases h with
  | crash => exact iff_of_false hnone id
  | enqueue input uuid now =>
    rw [store_enqueue, keyWork_insert_iff, or_iff_right hnone]
    rfl
  | insert input uuid now =>
    show KeyWork (c.store.insert input uuid now).2 ↔ _
    rw [keyWork_insert_iff, or_iff_right hnone]
    rfl
  | hardware bridge => exact iff_of_false hnone id
  | flush i c' begun => exact iff_of_false (hsame (store_begin begun)) id
  | drain i c' begun => exact iff_of_false (hsame (store_begin begun)) id
  | probed i ok pass =>
    exact iff_of_false (hsame (store_probeOnline c.engine ok)) id
  | flushGuard i now delivered pass =>
    refine iff_of_false ?_ id
    rw [flushGuard]
    split
    · rw [store_endFlush]
      exact hnone
    · next claimed s hclaim =>
      dsimp only
      split
      · exact fun hwork => hnone (hwork.of_claim hclaim)
      · rw [store_endFlush]
        exact fun hwork => hnone (hwork.of_claim hclaim)
  | drainHead i now pass => exact absurd trivial (hdrain i _ pass)
  | answered i answer now claimed delivered pass =>
    show KeyWork (c.store.settle claimed.id (deliverOk answer) now) ↔ _
    rw [keyWork_mark_iff hnone]
    refine and_congr_right fun _ => ⟨fun hrow => ⟨claimed, delivered, pass, hrow⟩, ?_⟩
    rintro ⟨claimed', delivered', pass', hrow⟩
    obtain ⟨rfl, rfl⟩ := Pass.delivering.inj (Option.some.inj (pass.symm.trans pass'))
    exact hrow
  | turn i now record pass => exact absurd trivial (hdrain i _ pass)
  | encoded i result now record pass => exact absurd trivial (hdrain i _ pass)

end Console

/-! ## The loop -/

/-- A lobby, and whether its process has been told to shut down. -/
structure Watch where
  lobby : Lobby
  down : Bool

namespace Watch

/-- Whether a process has been told to shut down after an event. -/
def downAfter (down : Bool) : LobbyEvent → Bool
  | .boot _ _ _ => false
  | .shutdown => true
  | _ => down

def step (w : Watch) (e : LobbyEvent) : Option Watch :=
  (w.lobby.step e).map fun lobby => ⟨lobby, downAfter w.down e⟩

def fresh : Watch := ⟨.fresh, false⟩

/-- A process that has not been told to shut down runs the loop whenever there is key work. -/
def Watched (w : Watch) : Prop :=
  w.lobby.console.running = true → w.down = false → KeyWork w.lobby.store →
    w.lobby.retryTimer = true

/-- The loop runs, or the process shuts down. -/
def Attended (w : Watch) : Prop := w.lobby.retryTimer = true ∨ w.down = true

/-- The breaker refuses the request, which is queued without a start of the loop. -/
def FastFails (w : Watch) (req : EncodeRequest) (now : ℕ) : Prop :=
  ∃ dev, w.lobby.console.bridge.devices.lookup req.deviceId = some dev ∧
    w.lobby.console.bridge.channels dev.channel ≠ none ∧
      ((w.lobby.console.bridge.getBreaker req.deviceId).allow now).1 = false

/-- What keeps key work watched: a process starts without any, and until its loop runs none
comes from the front desk, from a delivery that fails or from an encode that is refused. -/
def KeepsWatch (w : Watch) : LobbyEvent → Prop
  | .boot _ _ now => ∀ r ∈ w.lobby.store.rows, r.actionType = lockActionType →
      ¬ r.Claimable ∧ ¬ Stale staleAfterMs now r
  | .queue e => w.Attended ∨ ¬ w.lobby.console.Enters e
  | .encode _ req uuid _ now => w.Attended ∨ (w.FastFails req now →
      Known w.lobby.store req.offlineKey uuid)
  | _ => True

/-- A drain is only under way in a process that has run the loop. -/
def DrainsTimed (w : Watch) : Prop :=
  ∀ i p, w.lobby.console.passes i = some p → p.IsDrain → w.Attended

variable {w w' : Watch} {e : LobbyEvent}

theorem watched_iff (hrun : w.lobby.console.running = true) :
    w.Watched ↔ w.Attended ∨ ¬ KeyWork w.lobby.store := by
  rw [Watched, Attended]
  cases w.down with
  | true => simp
  | false =>
    by_cases hwork : KeyWork w.lobby.store
    · simp [hrun, hwork]
    · simp [hwork]

/-- A new process has not started its loop. -/
theorem watched_new_iff {s : Lobby} (hrun : s.console.running = true)
    (htimer : s.retryTimer = false) : Watched ⟨s, false⟩ ↔ ¬ KeyWork s.store := by
  rw [watched_iff hrun, Attended, htimer]
  simp

/-- Nothing has come into the queue. -/
theorem watched_of_store (hrun : w.lobby.console.running = true) (h : w.Watched)
    (hstore : w'.lobby.store = w.lobby.store) (htimer : w'.lobby.retryTimer = w.lobby.retryTimer)
    (hdown : w'.down = w.down) : w'.Watched := by
  intro _ hup hwork
  rw [htimer]
  exact h hrun (hdown ▸ hup) (hstore ▸ hwork)

/-! ### Encodes -/

theorem encodeHead_eq_fastFail_iff {req : EncodeRequest} {now : ℕ} :
    (encodeHead w.lobby.console.bridge req now).1 = .fastFail ↔ w.FastFails req now := by
  rw [FastFails]
  cases hdev : w.lobby.console.bridge.devices.lookup req.deviceId with
  | none =>
    rw [encodeHead_unknown now hdev]
    refine iff_of_false EncodeHead.noConfusion ?_
    rintro ⟨_, hdevice, _⟩
    cases hdevice
  | some dev =>
    cases hadapter : w.lobby.console.bridge.channels dev.channel with
    | none =>
      rw [encodeHead, hdev]
      simp [hadapter]
    | some adapter =>
      rw [encodeHead_known now hdev hadapter]
      simp [hadapter]

/-- A refused request is put into the queue, and nothing else of a call is. -/
theorem encode_store (s : Lobby) (i : ℕ) (req : EncodeRequest) (uuid spare : String) (now : ℕ) :
    (s.encode i req uuid spare now).store =
      if (encodeHead s.console.bridge req now).1 = .fastFail then
        (s.store.insert req.offlineInput uuid now).2
      else s.store := by
  rw [Lobby.encode]
  split
  · next h =>
    rw [h, if_neg EncodeHead.noConfusion]
    rfl
  · next h =>
    rw [h, if_pos rfl]
    exact persistOffline_snd s.store req uuid spare now
  · next h =>
    rw [h, if_neg EncodeHead.noConfusion]
    rfl

/-- Before its adapter has answered, a call changes neither the loop nor the passes. -/
theorem encode_frame (s : Lobby) (i : ℕ) (req : EncodeRequest) (uuid spare : String) (now : ℕ) :
    (s.encode i req uuid spare now).retryTimer = s.retryTimer ∧
      (s.encode i req uuid spare now).console.running = s.console.running ∧
        (s.encode i req uuid spare now).console.passes = s.console.passes := by
  rw [Lobby.encode]
  split <;> exact ⟨rfl, rfl, rfl⟩

/-- An answer ends with the loop running, or leaves the queue as it was. -/
theorem answer_frame (s : Lobby) (i : ℕ) (req : EncodeRequest) (result : Option EncodeResult)
    (uuid spare : String) (now : ℕ) :
    (s.answer i req result uuid spare now).console.passes = s.console.passes ∧
      ((s.answer i req result uuid spare now).retryTimer = true ∨
        ((s.answer i req result uuid spare now).store = s.store ∧
          (s.answer i req result uuid spare now).retryTimer = s.retryTimer)) := by
  cases result with
  | none => exact ⟨rfl, .inr ⟨rfl, rfl⟩⟩
  | some result =>
    rw [Lobby.answer]
    dsimp only
    split
    · exact ⟨rfl, .inr ⟨rfl, rfl⟩⟩
    · exact ⟨rfl, .inl rfl⟩

/-! ### Steps -/

theorem drainsTimed_step (h : w.DrainsTimed) (hs : w.step e = some w') : w'.DrainsTimed := by
  obtain ⟨lobby, hlobby, rfl⟩ := Option.map_eq_some_iff.mp hs
  cases Lobby.steps_of_step hlobby with
  | boot endpoint devices now stopped => exact fun i p hp => nomatch hp
  | crash running => exact fun i p hp => nomatch hp
  | queue e console allowed happens =>
    intro i p hp hd
    obtain ⟨-, hact⟩ | ⟨_, _, rfl, -⟩ := step_cases happens
    · obtain ⟨q, hq, hqd⟩ | rfl := Console.drain_of_acts (Console.acts_of_act hact) hp hd
      · exact h i q hq hqd
      -- the loop itself has called the drain
      · exact .inl allowed
    · cases allowed
  | attach channel target running => exact h
  | encode i req uuid spare now running free =>
    obtain ⟨htimer, -, hpasses⟩ := encode_frame w.lobby i req uuid spare now
    intro j p hp hd
    show (w.lobby.encode i req uuid spare now).retryTimer = true ∨ w.down = true
    rw [htimer]
    exact h j p (hpasses ▸ hp) hd
  | answered i result uuid spare now req waiting running =>
    obtain ⟨hpasses, htimer | ⟨-, htimer⟩⟩ := answer_frame w.lobby i req result uuid spare now
    · exact fun _ _ _ _ => .inl htimer
    · intro j p hp hd
      show (w.lobby.answer i req result uuid spare now).retryTimer = true ∨ w.down = true
      rw [htimer]
      exact h j p (hpasses ▸ hp) hd
  | shutdown running => exact fun _ _ _ _ => .inr rfl

/-- The queue changes. -/
theorem watched_acts_iff (hdrains : w.DrainsTimed) (h : w.Watched)
    (hrun : w.lobby.console.running = true) {ev : Event}
    (hacts : w.lobby.console.Acts ev w'.lobby.console) (hcrash : ev ≠ .crash)
    (htimer : w'.lobby.retryTimer = w.lobby.retryTimer) (hdown : w'.down = w.down) :
    w'.Watched ↔ w.Attended ∨ ¬ w.lobby.console.Enters ev := by
  have hrun' : w'.lobby.console.running = true :=
    (Console.running_of_acts hacts hcrash).trans hrun
  have hsame : w'.Attended ↔ w.Attended := by rw [Attended, Attended, htimer, hdown]
  rw [watched_iff hrun', hsame]
  by_cases hattended : w.Attended
  · simp [hattended]
  · have hnone := ((watched_iff hrun).mp h).resolve_left hattended
    have hdrain : ∀ i p, w.lobby.console.passes i = some p → ¬ p.IsDrain :=
      fun i p hp hd => hattended (hdrains i p hp hd)
    exact or_congr_right (not_congr (Console.keyWork_acts_iff hacts hnone hdrain))

/-- An encode is called. -/
theorem watched_encode_iff (h : w.Watched) (hrun : w.lobby.console.running = true) (i : ℕ)
    (req : EncodeRequest) (uuid spare : String) (now : ℕ) :
    Watched { w with lobby := w.lobby.encode i req uuid spare now } ↔
      w.Attended ∨ (w.FastFails req now → Known w.lobby.store req.offlineKey uuid) := by
  obtain ⟨htimer, hrunning, -⟩ := encode_frame w.lobby i req uuid spare now
  have hstore := encode_store w.lobby i req uuid spare now
  rw [watched_iff (hrunning.trans hrun), Attended, htimer, hstore]
  refine or_congr_right' fun hattended => ?_
  have hnone := ((watched_iff hrun).mp h).resolve_left hattended
  by_cases hfails : w.FastFails req now
  · rw [if_pos (encodeHead_eq_fastFail_iff.mpr hfails), keyWork_insert_iff, or_iff_right hnone]
    simp [hfails, EncodeRequest.offlineInput]
  · rw [if_neg (hfails ∘ encodeHead_eq_fastFail_iff.mp)]
    exact iff_of_true hnone fun hfalse => absurd hfalse hfails

theorem watched_step_iff (hdrains : w.DrainsTimed) (h : w.Watched) (hs : w.step e = some w') :
    w'.Watched ↔ w.KeepsWatch e := by
  obtain ⟨lobby, hlobby, rfl⟩ := Option.map_eq_some_iff.mp hs
  cases Lobby.steps_of_step hlobby with
  | boot endpoint devices now stopped =>
    refine (watched_new_iff rfl rfl).trans ?_
    show ¬ KeyWork (w.lobby.store.requeueStaleProcessing staleAfterMs now).2 ↔ _
    rw [keyWork_requeue_iff]
    simp only [not_exists, not_and, not_or]
    rfl
  | crash running =>
    refine iff_of_true ?_ trivial
    intro hrun
    cases hrun
  | queue e console allowed happens =>
    obtain ⟨hrun, hact⟩ | ⟨_, _, rfl, -⟩ := step_cases happens
    · have hcrash : e ≠ .crash := by
        rintro rfl
        cases allowed
      exact watched_acts_iff hdrains h hrun (Console.acts_of_act hact) hcrash rfl rfl
    · cases allowed
  | attach channel target running =>
    exact iff_of_true (watched_of_store running h rfl rfl rfl) trivial
  | encode i req uuid spare now running free =>
    exact watched_encode_iff h running i req uuid spare now
  | answered i result uuid spare now req waiting running =>
    refine iff_of_true ?_ trivial
    obtain ⟨-, htimer | ⟨hstore, htimer⟩⟩ := answer_frame w.lobby i req result uuid spare now
    · exact fun _ _ _ => htimer
    · exact watched_of_store running h hstore htimer rfl
  | shutdown running =>
    refine iff_of_true ?_ trivial
    intro _ hup
    cases hup

theorem watched_fresh : fresh.Watched := fun hrun => nomatch hrun

theorem drainsTimed_fresh : fresh.DrainsTimed := fun _ _ hp => nomatch hp

/-- In every run of the console: the loop runs, in every process that has not been told to shut
down, whenever a row of a key can be claimed, if and only if each process starts without such a
row, and none comes into the queue before the loop runs: not from the front desk, not from a
delivery that fails, and not from an encode that the breaker refuses. -/
theorem watched_iff_keepsWatch {es : List LobbyEvent} (h : run step fresh es = some w) :
    (∀ pre v, pre <+: es → run step fresh pre = some v → v.Watched) ↔
      Along step KeepsWatch fresh es := by
  apply forall_prefix_iff_along (J := DrainsTimed) _ _ drainsTimed_fresh watched_fresh h
  · exact fun _ _ _ hdrains hs => drainsTimed_step hdrains hs
  · exact fun _ _ _ hdrains hwatched hs => watched_step_iff hdrains hwatched hs

/-- The front desk queues a key. -/
def queuedKey : List LobbyEvent :=
  [.boot "127.0.0.1:9100" (lobbyDevices "127.0.0.1:9100") 0,
    .queue (.enqueue ⟨"room-key-101", "roomKeyGenerate", []⟩ "a1" 1)]

theorem watched_iff_keepsWatch_queuedKey :
    ∃ w, run step fresh queuedKey = some w ∧
      ((∀ pre v, pre <+: queuedKey → run step fresh pre = some v → v.Watched) ↔
        Along step KeepsWatch fresh queuedKey) := by
  have hsome : (run step fresh queuedKey).isSome = true := by decide +kernel
  obtain ⟨w, hw⟩ := Option.isSome_iff_exists.mp hsome
  exact ⟨w, hw, watched_iff_keepsWatch hw⟩

/-- No loop runs for it. -/
theorem not_watched : ¬ ∀ es w, run step fresh es = some w → w.Watched := by
  intro h
  have hsome : (run step fresh queuedKey).isSome = true := by decide +kernel
  have hlost : ∀ w ∈ run step fresh queuedKey, w.lobby.console.running = true ∧ w.down = false ∧
      (∃ r ∈ w.lobby.store.rows, r.actionType = lockActionType ∧ r.Claimable) ∧
        w.lobby.retryTimer = false := by
    decide +kernel
  obtain ⟨w, hw⟩ := Option.isSome_iff_exists.mp hsome
  obtain ⟨hrun, hup, hwork, htimer⟩ := hlost w hw
  have hwatched := h queuedKey w hw hrun hup hwork
  rw [htimer] at hwatched
  cases hwatched

end Watch

end Hotelia.Process
