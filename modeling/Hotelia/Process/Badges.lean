import Hotelia.Process.Lobby

/-!
# The badge of the window

The window shows the last `SyncStatus` that `onChanged` has pushed, or the one that it has
read at its mount. The engine pushes after what it does to the rows; the lock bridge writes
to the same rows and pushes nothing.

## Main definitions

- `Front` — the console with its badge, and what the bridge has done to rows since
- `bridgeMoves` — how an event of the bridge moves rows from status to status

## Main results

- `bearing_of_step`: what a step does to the counts and to the pushes.
- `shows_of_still`: it agrees with the store in runs in which the bridge moves no row.
- `badges_iff`: in which runs the badge agrees with the store.
-/

namespace Hotelia.Process
open Foundation Offline OfflineActionRecord OfflineActionStore Hardware

/-- A row that gets the status `target`, and had the status `source` if it was there before. -/
structure RowMove where
  source : Option ActionStatus
  target : ActionStatus
  deriving DecidableEq

/-- The rows that were moved into a status. -/
def entered (moves : List RowMove) (status : ActionStatus) : ℕ :=
  moves.countP fun m => m.target = status

/-- The rows that were moved out of a status. -/
def left (moves : List RowMove) (status : ActionStatus) : ℕ :=
  moves.countP fun m => m.source = some status

/-! ## What the bridge does to the rows -/

/-- `persistOffline(req)` adds a row. -/
def keepsRow (s : OfflineActionStore) (req : EncodeRequest) (uuid : String) : List RowMove :=
  if s.selectByKey req.offlineKey = none ∧ ∀ row ∈ s.rows, row.id ≠ uuid then [⟨none, .pending⟩]
  else []

/-- A drain claims a row, or marks the one that it has claimed. -/
def Console.drainMoves (c : Console) : Event → List RowMove
  | .claimNext i _ =>
    match c.passes i with
    | some .draining => (c.store.findClaimable.map fun row => ⟨some row.status, .processing⟩).toList
    | _ => []
  | .turn i now =>
    match c.passes i with
    | some (.turning record) =>
      match (drainStart c.bridge record now).1 with
      | .error _ => [⟨some .processing, .failed⟩]
      | .ok _ => []
    | _ => []
  | .encoded i (some result) _ =>
    match c.passes i with
    | some (.encoding _) =>
      [⟨some .processing, if (drainMark result).ok then .completed else .failed⟩]
    | _ => []
  | _ => []

/-- How the bridge moves rows. -/
def Lobby.bridgeMoves (s : Lobby) : LobbyEvent → List RowMove
  | .queue e => s.console.drainMoves e
  | .encode _ req uuid _ now =>
    if (encodeHead s.console.bridge req now).1 = .fastFail then keepsRow s.store req uuid else []
  | .answered i (some result) uuid _ _ =>
    match s.calls i with
    | some (.waiting req) => if result.status = .encoded then [] else keepsRow s.store req uuid
    | _ => []
  | _ => []

/-! ## The window -/

/-- A console with a window. -/
structure Front where
  lobby : Lobby
  /-- What was pushed last, or read at the mount. -/
  badge : Option SyncStatus
  /-- What the bridge has done to rows since. -/
  moves : List RowMove

inductive FrontEvent where
  /-- The window reads `status()`. -/
  | mount
  | lobby (e : LobbyEvent)

/-- A process starts or ends, and its window with it. -/
def LobbyEvent.isProcess : LobbyEvent → Bool
  | .boot _ _ _ | .crash => true
  | _ => false

/-- What `onChanged` has got last, of what it has got since. -/
def pushedSince (before after : SyncEngine) : Option SyncStatus :=
  (after.pushed.drop before.pushed.length).getLast?

namespace Front

variable (f : Front)

abbrev console : Console := f.lobby.console

/-- The window after an event. -/
def follow (e : LobbyEvent) (s : Lobby) : Front :=
  if e.isProcess then ⟨s, none, []⟩
  else
    match pushedSince f.console.engine s.console.engine with
    | some status => ⟨s, some status, []⟩
    | none => ⟨s, f.badge, f.moves ++ f.lobby.bridgeMoves e⟩

/-- One event. -/
def step : FrontEvent → Option Front
  | .mount => if f.console.running then some ⟨f.lobby, some f.console.engine.status, []⟩ else none
  | .lobby e => (f.lobby.step e).map (f.follow e)

/-- A console that was never started. -/
def fresh : Front := ⟨.fresh, none, []⟩

/-- No flush and no drain is in progress. -/
def Quiescent : Prop := ∀ i, f.console.passes i = none

/-- The counts of the badge are those of the store, unless a pass is in progress. -/
def Shows : Prop :=
  f.Quiescent → ∀ badge, f.badge = some badge →
    badge.queued = f.console.engine.status.queued ∧
      badge.processing = f.console.engine.status.processing ∧
      badge.failed = f.console.engine.status.failed

/-- Unless a pass is in progress, the bridge has moved as many rows into each status that is
shown as out of it. -/
def Balanced : Prop :=
  f.Quiescent → f.badge.isSome → ∀ status, status ≠ .completed →
    entered f.moves status = left f.moves status

end Front

/-! ## Counts -/

section Counts

variable {s s' : OfflineActionStore}

/-- The rows of a status. -/
def rowsOf (s : OfflineActionStore) (status : ActionStatus) : ℕ := s.rows.countP (·.status = status)

/-- The counts of a store, after rows were moved in another. -/
def Moved (moves : List RowMove) (s s' : OfflineActionStore) : Prop :=
  ∀ status, rowsOf s' status + left moves status = rowsOf s status + entered moves status

theorem moved_refl (s : OfflineActionStore) : Moved [] s s := fun _ => rfl

theorem rows_nodup (s : OfflineActionStore) : s.rows.Nodup :=
  s.distinct.imp fun h heq => h (.inl (congrArg OfflineActionRecord.id heq))

/-- A row that is updated moves from its status to the new one. -/
theorem moved_setWhere {row : OfflineActionRecord} (hrow : row ∈ s.rows)
    {f : OfflineActionRecord → OfflineActionRecord} (hf : KeepsKeys f) {target : ActionStatus}
    (htarget : (f row).status = target) :
    Moved [⟨some row.status, target⟩] s (s.setWhere (·.id = row.id) f hf) := by
  intro status
  have hother : ∀ r ∈ s.rows, r ≠ row → (if decide (r.id = row.id) then f r else r) = r := by
    intro r hr hne
    refine if_neg fun hid => hne ?_
    exact s.eq_of_id_eq hr hrow (of_decide_eq_true hid)
  have hcount := Table.countP_map_of_fixed (rows_nodup s) hrow hother (·.status = status)
  rw [if_pos (decide_eq_true rfl), htarget] at hcount
  simpa [rowsOf, left, entered, List.countP_cons, eq_comm] using hcount

theorem moved_claimNext {now : ℕ} {record : OfflineActionRecord}
    (h : s.claimNext now = some (record, s')) :
    ∃ row, s.findClaimable = some row ∧ Moved [⟨some row.status, .processing⟩] s s' := by
  rw [claimNext] at h
  split at h
  · cases h
  · next row hrow =>
    cases h
    exact ⟨row, hrow, moved_setWhere (findClaimable_eq_some hrow).1 (keepsKeys_claimed now) rfl⟩

/-- A claimed row that is marked moves out of `PROCESSING`. -/
theorem moved_mark {id : String} (h : ∃ r ∈ s.rows, r.id = id ∧ r.status = .processing) (ok : Bool)
    (error : String) (now : ℕ) :
    Moved [⟨some .processing, if ok then .completed else .failed⟩] s (s.mark id ok error now) := by
  obtain ⟨r, hr, rfl, hstatus⟩ := h
  rw [← hstatus]
  cases ok with
  | true => exact moved_setWhere hr (keepsKeys_completed now) rfl
  | false => exact moved_setWhere hr (keepsKeys_failed error now) rfl

theorem moved_persistOffline (s : OfflineActionStore) (req : EncodeRequest) (uuid spare : String)
    (now : ℕ) :
    Moved (keepsRow s req uuid) s (persistOffline s req uuid spare now).2 := by
  rw [persistOffline_snd]
  have hkey : req.offlineInput.idempotencyKey = req.offlineKey := rfl
  obtain ⟨row, hrow, hinsert⟩ | ⟨hnone, ⟨row, hrow, hid⟩, hinsert⟩ | ⟨hnone, hnew, -, hrows⟩ :=
    s.insert_cases req.offlineInput uuid now
  · rw [hkey] at hrow
    rw [hinsert, keepsRow, if_neg fun h => by rw [hrow] at h; cases h.1]
    exact moved_refl s
  · rw [hinsert, keepsRow, if_neg fun h => h.2 row hrow hid]
    exact moved_refl s
  · rw [hkey] at hnone
    rw [keepsRow, if_pos ⟨hnone, hnew⟩]
    intro status
    rw [rowsOf, hrows, List.countP_append]
    rfl

end Counts

/-! ## What a step does to the counts -/

namespace Console

/-- A flush that has claimed a row, and so pushes when it ends. -/
def Busy (c : Console) (i : ℕ) : Prop :=
  match c.passes i with
  | some (.flushing delivered) => 0 < delivered
  | some (.delivering _ _) => True
  | _ => False

/-- What a step does to the pushes and to the counts, apart from the ends of the process. -/
inductive Bearing (moves : List RowMove) (c c' : Console) : Prop
  /-- The status after the step is pushed. -/
  | push (h : c'.engine.pushed = c.engine.pushed ++ [c'.engine.status])
  /-- A flush that has claimed a row is in progress. -/
  | busy (pushed : c'.engine.pushed = c.engine.pushed) (h : ∃ i, c'.Busy i)
  /-- The counts change by the moves of the bridge, and the flushes that will push go on. -/
  | quiet (pushed : c'.engine.pushed = c.engine.pushed) (moved : Moved moves c.store c'.store)
      (kept : ∀ i, c.Busy i → c'.Busy i)

variable {c c' : Console} {i : ℕ}

theorem busy_setPass_of_ne {p : Option Pass} {j : ℕ} (h : j ≠ i) :
    (c.setPass i p).Busy j ↔ c.Busy j := by
  simp only [Busy, setPass, Function.update_of_ne h]

/-- What a pass that will not push does leaves those that will alone. -/
theorem busy_setPass (hidle : ¬ c.Busy i) (p : Option Pass) (j : ℕ) (h : c.Busy j) :
    (c.setPass i p).Busy j := by
  have hne : j ≠ i := fun he => hidle (he ▸ h)
  exact (busy_setPass_of_ne hne).mpr h

theorem not_busy_of_none (h : c.passes i = none) : ¬ c.Busy i := by
  simp [Busy, h]

theorem bearing_begin {p : Pass} (h : c.begin i p = some c') : Bearing [] c c' := by
  obtain ⟨hfree, rfl⟩ := begin_eq_some.mp h
  exact .quiet rfl (moved_refl _) (busy_setPass (not_busy_of_none hfree) _)

theorem bearing_probeOnline (h : c.passes i = some .probing) (ok : Option Bool) :
    Bearing [] c
      ({ c with engine := c.engine.probeOnline ok }.setPass i (some (.flushing 0))) := by
  have hidle : ¬ c.Busy i := by simp [Busy, h]
  have hpushed : (c.engine.probeOnline ok).pushed = c.engine.pushed ++ [(c.engine.probeOnline ok).status] ∨
      (c.engine.probeOnline ok).pushed = c.engine.pushed := by
    cases ok with
    | none =>
      unfold SyncEngine.probeOnline
      dsimp only
      split
      · exact .inl rfl
      · exact .inr rfl
    | some ok =>
      unfold SyncEngine.probeOnline
      dsimp only
      split
      · exact .inl rfl
      · exact .inr rfl
  cases hpushed with
  | inl hpushed => exact .push hpushed
  | inr hpushed =>
    refine .quiet hpushed ?_ (busy_setPass hidle _)
    show Moved [] c.engine.store (c.engine.probeOnline ok).store
    rw [store_probeOnline]
    exact moved_refl _

/-- A flush that has delivered pushes when it ends. -/
theorem bearing_endFlush {delivered : ℕ} (h : 0 < delivered) (s : OfflineActionStore)
    (moves : List RowMove) : Bearing moves c ((c.withStore s).endFlush i delivered) := by
  rw [endFlush, if_pos h]
  exact .push rfl

theorem bearing_flushGuard {delivered : ℕ} (h : c.passes i = some (.flushing delivered)) (now : ℕ) :
    Bearing [] c (c.flushGuard i delivered now) := by
  rw [flushGuard]
  split
  · by_cases hd : 0 < delivered
    · exact bearing_endFlush hd c.store []
    · have hidle : ¬ c.Busy i := by simpa [Busy, h] using hd
      rw [endFlush, if_neg hd]
      exact .quiet rfl (moved_refl _) (busy_setPass hidle _)
  · next claimed s hclaim =>
    dsimp only
    split
    · exact .busy rfl ⟨i, by simp [Busy, setPass]⟩
    -- at the ceiling
    · next hd => exact bearing_endFlush (by simp [flushCeiling] at hd; omega) s []

theorem bearing_drainHead (h : c.passes i = some .draining) (now : ℕ) :
    Bearing (c.drainMoves (.claimNext i now)) c (c.drainHead i now) := by
  have hidle : ¬ c.Busy i := by simp [Busy, h]
  simp only [drainMoves, h]
  rw [drainHead]
  split
  · next hnone =>
    have hempty : c.store.findClaimable = none :=
      findClaimable_eq_none.mpr (claimNext_eq_none.mp hnone)
    rw [hempty]
    exact .quiet rfl (moved_refl _) (busy_setPass hidle _)
  · next record s hclaim =>
    obtain ⟨row, hrow, hmoved⟩ := moved_claimNext hclaim
    rw [hrow]
    exact .quiet rfl hmoved (busy_setPass hidle _)

theorem bearing_drainBody {record : OfflineActionRecord} (hsafe : Safe c.desk)
    (h : c.passes i = some (.turning record)) (now : ℕ) :
    Bearing (c.drainMoves (.turn i now)) c (c.drainBody i record now) := by
  have hidle : ¬ c.Busy i := by simp [Busy, h]
  have hheld := hsafe.processing i record (held_of_pass h)
  simp only [drainMoves, h]
  rw [drainBody]
  cases hstart : drainStart c.bridge record now with
  | mk result bridge =>
    cases result with
    | error error => exact .quiet rfl (moved_mark hheld false error now) (busy_setPass hidle _)
    | ok adapter => exact .quiet rfl (moved_refl _) (busy_setPass hidle _)

theorem bearing_drainAnswer {record : OfflineActionRecord} (hsafe : Safe c.desk)
    (h : c.passes i = some (.encoding record)) (now : ℕ) (result : Option EncodeResult) :
    Bearing (c.drainMoves (.encoded i result now)) c (c.drainAnswer i record now result) := by
  have hidle : ¬ c.Busy i := by simp [Busy, h]
  have hheld := hsafe.processing i record (held_of_pass h)
  cases result with
  | none => exact .quiet rfl (moved_refl _) (busy_setPass hidle _)
  | some result =>
    simp only [drainMoves, h]
    exact .quiet rfl (moved_mark hheld _ _ now) (busy_setPass hidle _)

theorem bearing_enqueue (c : Console) (input : SyncEnqueueInput) (uuid : String) (now : ℕ) :
    Bearing [] c (c.enqueue input uuid now) := by
  dsimp only [enqueue]
  split
  · exact .push rfl
  · next hthrown =>
    -- the id was taken, and nothing was written
    have hsame : (c.store.insert input uuid now).2 = c.store := by
      obtain ⟨row, -, hinsert⟩ | ⟨-, -, hinsert⟩ | ⟨-, -, hrecord, -⟩ :=
        c.store.insert_cases input uuid now
      · rw [hinsert]
      · rw [hinsert]
      · rw [hrecord] at hthrown
        exact absurd rfl hthrown
    rw [hsame]
    exact .quiet rfl (moved_refl _) fun _ h => h

/-- Any event of the queue but an insert behind the back of the engine. -/
theorem bearing_of_act (hsafe : Safe c.desk) {e : Event} (hcrash : e ≠ .crash)
    (hinsert : ∀ input uuid now, e ≠ .insert input uuid now) (h : c.act e = some c') :
    Bearing (c.drainMoves e) c c' := by
  cases acts_of_act h with
  | crash => exact absurd rfl hcrash
  | enqueue input uuid now => exact bearing_enqueue c input uuid now
  | insert input uuid now => exact absurd rfl (hinsert input uuid now)
  | hardware bridge => exact .quiet rfl (moved_refl _) fun _ h => h
  | flush i _ begun => exact bearing_begin begun
  | drain i _ begun => exact bearing_begin begun
  | probed i ok pass => exact bearing_probeOnline pass ok
  | flushGuard i now delivered pass =>
    simp only [drainMoves, pass]
    exact bearing_flushGuard pass now
  | drainHead i now pass => exact bearing_drainHead pass now
  | answered i answer now claimed delivered pass => exact .busy rfl ⟨i, by simp [Busy, setPass]⟩
  | turn i now record pass => exact bearing_drainBody hsafe pass now
  | encoded i result now record pass => exact bearing_drainAnswer hsafe pass now result

end Console

namespace Lobby

open Console

variable {s s' : Lobby}

theorem bearing_encode (s : Lobby) (i : ℕ) (req : EncodeRequest) (uuid spare : String) (now : ℕ) :
    Bearing (s.bridgeMoves (.encode i req uuid spare now)) s.console
      (s.encode i req uuid spare now).console := by
  rw [bridgeMoves, encode]
  cases hhead : encodeHead s.console.bridge req now with
  | mk head bridge =>
    cases head with
    | refused error => exact .quiet rfl (moved_refl _) fun _ h => h
    | fastFail => exact .quiet rfl (moved_persistOffline s.store req uuid spare now) fun _ h => h
    | ask adapter => exact .quiet rfl (moved_refl _) fun _ h => h

theorem bearing_answer {i : ℕ} {req : EncodeRequest} (hwaiting : s.calls i = some (.waiting req))
    (result : Option EncodeResult) (uuid spare : String) (now : ℕ) :
    Bearing (s.bridgeMoves (.answered i result uuid spare now)) s.console
      (s.answer i req result uuid spare now).console := by
  cases result with
  | none => exact .quiet rfl (moved_refl _) fun _ h => h
  | some result =>
    simp only [bridgeMoves, hwaiting, answer]
    split
    · exact .quiet rfl (moved_refl _) fun _ h => h
    · exact .quiet rfl (moved_persistOffline s.store req uuid spare now) fun _ h => h

/-- While the process runs, a step pushes the status that it leaves, or has a flush in progress
that will, or changes the counts by the moves of the bridge. -/
theorem bearing_of_step (hsound : s.Sound) {e : LobbyEvent} (hlives : e.isProcess = false)
    (h : s.step e = some s') : Bearing (s.bridgeMoves e) s.console s'.console := by
  cases steps_of_step h with
  | boot => cases hlives
  | crash => cases hlives
  | queue e console allowed happens =>
    obtain ⟨-, hact⟩ | ⟨_, _, rfl, -⟩ := step_cases happens
    · refine bearing_of_act hsound.safe ?_ ?_ hact
      · rintro rfl
        cases allowed
      · rintro input uuid now rfl
        cases allowed
    · cases allowed
  | attach => exact .quiet rfl (moved_refl _) fun _ h => h
  | encode i req uuid spare now => exact bearing_encode s i req uuid spare now
  | answered i result uuid spare now req waiting => exact bearing_answer waiting result uuid spare now
  | shutdown => exact .quiet rfl (moved_refl _) fun _ h => h

end Lobby

/-! ## The badge -/

namespace Front

open Console

variable {f f' : Front}

/-- The counts of the badge are those of the store but for the moves of the bridge. -/
def Accounts (c : Console) (moves : List RowMove) (badge : SyncStatus) : Prop :=
  rowsOf c.store .pending + left moves .pending + badge.processing =
      badge.queued + entered moves .pending ∧
    rowsOf c.store .processing + left moves .processing =
      badge.processing + entered moves .processing ∧
    rowsOf c.store .failed + left moves .failed = badge.failed + entered moves .failed

/-- A status accounts for the counts that it was read from. -/
theorem accounts_status (c : Console) : Accounts c [] c.engine.status := ⟨rfl, rfl, rfl⟩

theorem Accounts.moved {c c' : Console} {moves more : List RowMove} {badge : SyncStatus}
    (h : Accounts c moves badge) (hmoved : Moved more c.store c'.store) :
    Accounts c' (moves ++ more) badge := by
  obtain ⟨hpending, hprocessing, hfailed⟩ := h
  have hp := hmoved .pending
  have hr := hmoved .processing
  have hf := hmoved .failed
  simp only [Accounts, left, entered, List.countP_append] at *
  omega

/-- The rows in hand are safe, and the badge accounts for the counts, or a flush will push. -/
structure Tracked (f : Front) : Prop where
  sound : f.lobby.Sound
  accounted : (∃ i, f.console.Busy i) ∨ ∀ badge, f.badge = some badge →
    Accounts f.console f.moves badge

theorem tracked_fresh : fresh.Tracked := ⟨Lobby.sound_fresh, .inr fun _ h => nomatch h⟩

theorem pushedSince_of_push {before after : SyncEngine} {status : SyncStatus}
    (h : after.pushed = before.pushed ++ [status]) : pushedSince before after = some status := by
  rw [pushedSince, h, List.drop_left, List.getLast?_singleton]

theorem pushedSince_of_quiet {before after : SyncEngine} (h : after.pushed = before.pushed) :
    pushedSince before after = none := by
  rw [pushedSince, h, List.drop_length, List.getLast?_nil]

/-- The badge keeps accounting for the counts. -/
theorem Tracked.follow (hf : f.Tracked) {e : LobbyEvent} {s : Lobby}
    (h : f.lobby.step e = some s) : (f.follow e s).Tracked := by
  have hsound : s.Sound := hf.sound.step (Lobby.effect_of_step h)
  rw [Front.follow]
  split
  · exact ⟨hsound, .inr fun _ hnone => nomatch hnone⟩
  · next hlives =>
    have hbearing := Lobby.bearing_of_step hf.sound (Bool.eq_false_of_not_eq_true hlives) h
    cases hbearing with
    | push hpushed =>
      rw [pushedSince_of_push hpushed]
      refine ⟨hsound, .inr ?_⟩
      rintro badge ⟨⟩
      exact accounts_status s.console
    | busy hpushed hbusy =>
      rw [pushedSince_of_quiet hpushed]
      exact ⟨hsound, .inl hbusy⟩
    | quiet hpushed hmoved hkept =>
      rw [pushedSince_of_quiet hpushed]
      refine ⟨hsound, hf.accounted.imp ?_ ?_⟩
      · exact fun ⟨i, hi⟩ => ⟨i, hkept i hi⟩
      · exact fun haccounts badge hbadge => (haccounts badge hbadge).moved hmoved

theorem Tracked.step {e : FrontEvent} (hf : f.Tracked) (h : f.step e = some f') : f'.Tracked := by
  cases e with
  | mount =>
    simp only [Front.step] at h
    split at h
    · cases h
      refine ⟨hf.sound, .inr ?_⟩
      rintro badge ⟨⟩
      exact accounts_status f.console
    · cases h
  | lobby e =>
    obtain ⟨s, hs, rfl⟩ := Option.map_eq_some_iff.mp h
    exact hf.follow hs

/-- A badge that accounts for the counts shows them exactly if the moves of the bridge cancel
out. -/
theorem shows_iff_balanced (hf : f.Tracked) : f.Shows ↔ f.Balanced := by
  refine forall_congr' fun hquiescent => ?_
  have hidle : ¬ ∃ i, f.console.Busy i := fun ⟨i, hi⟩ => not_busy_of_none (hquiescent i) hi
  have haccounts := hf.accounted.resolve_left hidle
  cases hbadge : f.badge with
  | none => exact iff_of_true (fun _ h => nomatch h) fun h => nomatch h
  | some badge =>
    obtain ⟨hpending, hprocessing, hfailed⟩ := haccounts badge hbadge
    have hqueued : f.console.engine.status.queued =
        rowsOf f.console.store .pending + rowsOf f.console.store .processing := rfl
    have hshown : f.console.engine.status.processing = rowsOf f.console.store .processing := rfl
    have hlost : f.console.engine.status.failed = rowsOf f.console.store .failed := rfl
    constructor
    · intro hshows _ status hstatus
      obtain ⟨h₁, h₂, h₃⟩ := hshows badge rfl
      cases status with
      | pending => omega
      | processing => omega
      | failed => omega
      | completed => exact absurd rfl hstatus
    · rintro hbalanced badge' ⟨⟩
      have hp := hbalanced rfl .pending (by decide)
      have hr := hbalanced rfl .processing (by decide)
      have hl := hbalanced rfl .failed (by decide)
      refine ⟨?_, ?_, ?_⟩
      · omega
      · omega
      · omega

/-- The event is not one by which the bridge moves a row. -/
def Still (f : Front) (e : FrontEvent) : Prop := ∀ e', e = .lobby e' → f.lobby.bridgeMoves e' = []

theorem moves_of_still {e : FrontEvent} (hstill : f.Still e) (hf : f.moves = [])
    (h : f.step e = some f') : f'.moves = [] := by
  cases e with
  | mount =>
    simp only [Front.step] at h
    split at h
    · cases h
      rfl
    · cases h
  | lobby e =>
    obtain ⟨s, -, rfl⟩ := Option.map_eq_some_iff.mp h
    rw [Front.follow]
    split
    · rfl
    · split
      · rfl
      · rw [hf, hstill e rfl]
        rfl

/-- What the engine does to the rows is shown by the time that its passes are over. -/
theorem shows_of_still {es : List FrontEvent} (hstill : Along step Still fresh es)
    (hr : run step fresh es = some f) : f.Shows := by
  have hmoves : fresh.moves = [] → f.moves = [] := by
    refine Along.rel (J := fun _ => True) (R := fun f f' : Front => f.moves = [] → f'.moves = [])
      (fun _ _ _ _ _ => trivial) (fun _ h => h) ?_ ?_ trivial hstill hr
    · exact fun f₁ f₂ f₃ _ h₁₂ h₂₃ h => h₂₃ (h₁₂ h)
    · exact fun f₁ e f₂ _ hs hgood hf => moves_of_still hgood hf hs
  have htracked : f.Tracked :=
    run_invariant (I := Tracked) (fun _ _ _ hf hs => hf.step hs) tracked_fresh hr
  refine (shows_iff_balanced htracked).mpr fun _ _ status _ => ?_
  rw [hmoves rfl]
  rfl

/-- In every run of starts, enqueues, flushes, encodes and drains: whenever no pass is in
progress the badge shows the counts of the store, if and only if the bridge has then moved as
many rows into each status that is shown as out of it. -/
theorem badges_iff (es : List FrontEvent) :
    (∀ pre f, pre <+: es → run step fresh pre = some f → f.Shows) ↔
      ∀ pre f, pre <+: es → run step fresh pre = some f → f.Balanced := by
  have htracked : ∀ pre f, run step fresh pre = some f → f.Tracked := fun pre f hr =>
    run_invariant (I := Tracked) (fun _ _ _ hf hs => hf.step hs) tracked_fresh hr
  exact forall₄_congr fun pre f _ hr => shows_iff_balanced (htracked pre f hr)

/-- A live encode that finds its encoder offline, while the window is open. -/
def keptEncode : List FrontEvent :=
  let offline : EncodeResult := ⟨"LDOOR-01", "101", "KEY-101-ADE", .queuedOffline, none, none, 2⟩
  [.lobby (.boot "127.0.0.1:9100" (lobbyDevices "127.0.0.1:9100") 0), .mount,
    .lobby (.encode 0 ⟨"LDOOR-01", "101", "KEY-101-ADE"⟩ "" "" 1),
    .lobby (.answered 0 (some offline) "a1" "a2" 2)]

/-- The row is `PENDING`, and the badge shows that nothing is queued. -/
theorem not_badges : ¬ ∀ es f, run step fresh es = some f → f.Shows := by
  intro h
  have hsome : (run step fresh keptEncode).isSome = true := by decide +kernel
  have hquiescent : (run step fresh keptEncode).map (fun f => f.console.passes) =
      some fun _ => none := rfl
  have hcounts : ∀ f ∈ run step fresh keptEncode, f.console.engine.status.queued = 1 ∧
      ∃ badge ∈ f.badge, badge.queued = 0 := by
    decide +kernel
  obtain ⟨f, hf⟩ := Option.isSome_iff_exists.mp hsome
  obtain ⟨hqueued, badge, hbadge, hzero⟩ := hcounts f hf
  rw [hf] at hquiescent
  have hshows := h keptEncode f hf (fun i => congrFun (Option.some.inj hquiescent) i) badge hbadge
  omega

end Front

end Hotelia.Process
