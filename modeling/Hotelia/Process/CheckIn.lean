import Hotelia.Process.Acknowledged

/-!
# The check-in of a guest

`checkIn` of `apps/console/src/renderer/views/FrontDesk.tsx`, run against the console:
it enqueues the check-in, enqueues the generation of the key, and asks for the
encode, with anything in between. Only the console process talks to the encoders,
so a card is an acknowledgement of the call, of the row of the key, or of the row
that was kept for the call.

## Main results

- `one_card_iff`: in which runs a check-in encodes one card at most.
-/

namespace Hotelia.Process
open Foundation Offline OfflineActionStore Hardware Console

/-- How the runtime trims a text and turns it into upper case. -/
structure Texts where
  trim : String → String
  toUpperCase : String → String

/-- What the form of the front desk holds. -/
structure FrontDesk where
  guest : String
  lastName : String
  room : String
  device : String
  propertyId : Option String

namespace FrontDesk

variable (t : Texts) (f : FrontDesk)

/-- The input of the first `enqueueCritical`. The `idempotencyKey` of the form goes into
the payload; the key of the row is a `randomUUID()`. -/
def checkinInput (ts idempotencyKey key : String) : SyncEnqueueInput where
  idempotencyKey := key
  actionType := "checkin"
  payload := [("guestName", .str (t.trim (f.guest ++ " " ++ f.lastName))),
    ("roomNumber", .str f.room), ("propertyId", f.propertyId.elim .null .str), ("ts", .str ts),
    ("idempotencyKey", .str idempotencyKey)]

def credential : String := "KEY-" ++ f.room ++ "-" ++ t.toUpperCase f.lastName

/-- The input of the second. -/
def keygenInput (idempotencyKey key : String) : SyncEnqueueInput where
  idempotencyKey := key
  actionType := "roomKeyGenerate"
  payload := [("deviceId", .str f.device), ("roomNumber", .str f.room),
    ("credential", .str (f.credential t)), ("idempotencyKey", .str idempotencyKey)]

/-- The request of `locks.encode`. -/
def encodeRequest : EncodeRequest := ⟨f.device, f.room, f.credential t⟩

end FrontDesk

/-- How far `checkIn` has come. -/
inductive Stage where
  | idle
  /-- The check-in is enqueued. -/
  | checkedIn
  /-- So is the generation of the key. -/
  | keyed
  /-- `locks.encode` was called, with this number. -/
  | encoding (i : ℕ)
  | failed
  deriving DecidableEq

/-- A flow that was still at work dies with the process. -/
def Stage.die : Stage → Stage
  | .checkedIn | .keyed => .failed
  | stage => stage

/-- The generation of the key is still to come. -/
def Stage.early : Stage → Bool
  | .idle | .checkedIn => true
  | _ => false

/-- A check-in, with the rows that its generation of the key has written. -/
structure CheckIn where
  lobby : Lobby
  stage : Stage
  keyRows : List String

inductive CheckInEvent where
  /-- Anything else happens at the console. -/
  | lobby (e : LobbyEvent)
  | checkin (ts idempotencyKey key uuid : String) (now : ℕ)
  | keygen (idempotencyKey key uuid : String) (now : ℕ)
  | encode (i : ℕ) (uuid spare : String) (now : ℕ)

namespace CheckIn

variable (t : Texts) (f : FrontDesk) (c : CheckIn)

/-- `sync:enqueue`: the console with its record, unless the input is refused or `rowToRecord`
throws. -/
def enqueue (input : SyncEnqueueInput) (uuid : String) (now : ℕ) (next : Stage) : Option CheckIn :=
  match syncEnqueueSchema input with
  | none => some { c with stage := .failed }
  | some input =>
    (c.lobby.step (.queue (.enqueue input uuid now))).map fun lobby =>
      { c with lobby, stage := if (c.lobby.store.insert input uuid now).1.isSome then next else .failed }

/-- One event. -/
def step : CheckInEvent → Option CheckIn
  | .lobby e => (c.lobby.step e).map fun lobby =>
    { c with lobby, stage := if e matches .crash then c.stage.die else c.stage }
  | .checkin ts idempotencyKey key uuid now =>
    if c.stage = .idle then c.enqueue (f.checkinInput t ts idempotencyKey key) uuid now .checkedIn
    else none
  | .keygen idempotencyKey key uuid now =>
    if c.stage = .checkedIn then
      (c.enqueue (f.keygenInput t idempotencyKey key) uuid now .keyed).map fun c' =>
        { c' with keyRows := (Lobby.inserted c.lobby.store c'.lobby.store).map (·.id) }
    else none
  | .encode i uuid spare now =>
    if c.stage = .keyed then
      if lockEncodeSchema (f.encodeRequest t) then
        (c.lobby.step (.encode i (f.encodeRequest t) uuid spare now)).map fun lobby =>
          { c with lobby, stage := .encoding i }
      else some { c with stage := .failed }
    else none

def fresh : CheckIn := ⟨.fresh, .idle, []⟩

/-! ## Cards -/

/-- An encode for the row that the flow itself has enqueued. -/
def KeyRow (a : Ack) : Prop := ∃ id ∈ c.keyRows, a.source = .row id

/-- An encode for the call of the flow, or for the row that was kept for it. -/
def LivePath (a : Ack) : Prop :=
  ∃ i, c.stage = .encoding i ∧
    (a.source = .call i ∨ ∃ id, (i, id) ∈ c.lobby.persisted ∧ a.source = .row id)

instance : DecidablePred c.KeyRow := fun a =>
  inferInstanceAs (Decidable (∃ id ∈ c.keyRows, a.source = .row id))

instance : DecidablePred c.LivePath := fun a =>
  match h : c.stage with
  | .encoding i => decidable_of_iff
      (a.source = .call i ∨ ∃ p ∈ c.lobby.persisted, p.1 = i ∧ a.source = .row p.2) <| by
    simp only [LivePath, h, Stage.encoding.injEq, exists_eq_left', Prod.exists]
    grind
  | .idle | .checkedIn | .keyed | .failed => .isFalse <| by simp [LivePath, h]

/-- The cards that the check-in has caused. -/
def cards : List Ack := c.lobby.acks.filter fun a => c.KeyRow a ∨ c.LivePath a

/-- An acknowledgement on one of the two paths comes only while there is none on the other. -/
def OnePath : CheckInEvent → Prop
  | .lobby e => ∀ a ∈ c.lobby.newAcks e,
    (c.KeyRow a → ∀ b ∈ c.lobby.acks, ¬ c.LivePath b) ∧
      (c.LivePath a → ∀ b ∈ c.lobby.acks, ¬ c.KeyRow b)
  | _ => True

/-! ## Steps -/

/-- The ways in which a step touches the flow. -/
inductive Tick (c c' : CheckIn) : CheckInEvent → Prop
  /-- The console takes a step of its own, which the flow may not survive. -/
  | lobby (e : LobbyEvent) (step : c.lobby.step e = some c'.lobby)
      (stage : c'.stage = c.stage ∨ (c'.stage = .failed ∧ ∀ i, c.stage ≠ .encoding i))
      (keyRows : c'.keyRows = c.keyRows) : Tick c c' (.lobby e)
  /-- The input of a call is refused. -/
  | refused (e : CheckInEvent) (event : ∀ e', e ≠ .lobby e') (lobby : c'.lobby = c.lobby)
      (stage : ∀ i, c.stage ≠ .encoding i) (stage' : c'.stage = .failed)
      (keyRows : c'.keyRows = c.keyRows ∨ (c'.keyRows = [] ∧ c.stage = .checkedIn)) : Tick c c' e
  /-- The check-in is enqueued. -/
  | checkin (e : CheckInEvent) (event : ∀ e', e ≠ .lobby e') (input : SyncEnqueueInput)
      (uuid : String) (now : ℕ) (step : c.lobby.step (.queue (.enqueue input uuid now)) = some c'.lobby)
      (stage : c.stage = .idle) (stage' : c'.stage = .checkedIn ∨ c'.stage = .failed)
      (keyRows : c'.keyRows = c.keyRows) : Tick c c' e
  /-- The generation of the key is enqueued. -/
  | keygen (e : CheckInEvent) (event : ∀ e', e ≠ .lobby e') (input : SyncEnqueueInput)
      (uuid : String) (now : ℕ) (step : c.lobby.step (.queue (.enqueue input uuid now)) = some c'.lobby)
      (stage : c.stage = .checkedIn) (stage' : c'.stage = .keyed ∨ c'.stage = .failed)
      (keyRows : c'.keyRows =
        (Lobby.inserted c.lobby.store (c.lobby.store.insert input uuid now).2).map (·.id)) : Tick c c' e
  /-- The encode is called. -/
  | encode (e : CheckInEvent) (event : ∀ e', e ≠ .lobby e') (i : ℕ) (req : EncodeRequest)
      (uuid spare : String) (now : ℕ)
      (step : c.lobby.step (.encode i req uuid spare now) = some c'.lobby)
      (stage : c.stage = .keyed) (stage' : c'.stage = .encoding i) (keyRows : c'.keyRows = c.keyRows) :
      Tick c c' e

variable {t f} {c c' : CheckIn} {e : CheckInEvent}

theorem store_of_enqueue {s s' : Lobby} {input : SyncEnqueueInput} {uuid : String} {now : ℕ}
    (hs : s.step (.queue (.enqueue input uuid now)) = some s') :
    s'.store = (s.store.insert input uuid now).2 := by
  obtain ⟨console, hstep, rfl⟩ := Option.map_eq_some_iff.mp hs
  obtain ⟨-, ⟨⟩⟩ | ⟨_, _, he, -⟩ := step_cases hstep
  · exact store_enqueue s.console input uuid now
  · cases he

theorem enqueue_eq_some {input : SyncEnqueueInput} {uuid : String} {now : ℕ} {next : Stage}
    (h : c.enqueue input uuid now next = some c') :
    c' = { c with stage := .failed } ∨
      ∃ parsed, c.lobby.step (.queue (.enqueue parsed uuid now)) = some c'.lobby ∧
        c'.keyRows = c.keyRows ∧ (c'.stage = next ∨ c'.stage = .failed) := by
  rw [enqueue] at h
  split at h
  · cases h
    exact .inl rfl
  · next parsed _ =>
    obtain ⟨lobby, hstep, rfl⟩ := Option.map_eq_some_iff.mp h
    refine .inr ⟨parsed, hstep, rfl, ?_⟩
    dsimp only
    split
    · exact .inl rfl
    · exact .inr rfl

theorem tick_of_step (h : c.step t f e = some c') : Tick c c' e := by
  cases e with
  | lobby e =>
    obtain ⟨lobby, hstep, rfl⟩ := Option.map_eq_some_iff.mp h
    refine .lobby e hstep ?_ rfl
    dsimp only
    split
    · cases hstage : c.stage <;> simp [Stage.die]
    · exact .inl rfl
  | checkin ts idempotencyKey key uuid now =>
    simp only [step] at h
    split at h
    · next hstage =>
      obtain rfl | ⟨parsed, hstep, hrows, hstage'⟩ := enqueue_eq_some h
      · exact .refused _ (fun _ => CheckInEvent.noConfusion) rfl (by simp [hstage]) rfl (.inl rfl)
      · exact .checkin _ (fun _ => CheckInEvent.noConfusion) parsed uuid now hstep hstage hstage' hrows
    · cases h
  | keygen idempotencyKey key uuid now =>
    simp only [step] at h
    split at h
    · next hstage =>
      obtain ⟨c₁, hc₁, rfl⟩ := Option.map_eq_some_iff.mp h
      obtain rfl | ⟨parsed, hstep, -, hstage'⟩ := enqueue_eq_some hc₁
      · refine .refused _ (fun _ => CheckInEvent.noConfusion) rfl (by simp [hstage]) rfl
          (.inr ⟨?_, hstage⟩)
        simp [Lobby.inserted]
      · refine .keygen _ (fun _ => CheckInEvent.noConfusion) parsed uuid now hstep hstage hstage' ?_
        rw [store_of_enqueue hstep]
    · cases h
  | encode i uuid spare now =>
    simp only [step] at h
    split at h
    · next hstage =>
      split at h
      · obtain ⟨lobby, hstep, rfl⟩ := Option.map_eq_some_iff.mp h
        exact .encode _ (fun _ => CheckInEvent.noConfusion) i _ uuid spare now hstep hstage rfl rfl
      · cases h
        exact .refused _ (fun _ => CheckInEvent.noConfusion) rfl (by simp [hstage]) rfl (.inl rfl)
    · cases h

/-! ## Two paths, each with one card at most -/

/-- What holds in every state of a check-in: the flow has written one row for the key at
most, and that row was not kept for any call. -/
structure Tidy (c : CheckIn) : Prop where
  sound : c.lobby.Sound
  settled : c.lobby.Settled
  one : c.keyRows.length ≤ 1
  rows : ∀ id ∈ c.keyRows, (∃ r ∈ c.lobby.store.rows, r.id = id) ∧ ∀ p ∈ c.lobby.persisted, p.2 ≠ id
  early : c.stage.early = true → c.keyRows = []

theorem tidy_fresh : fresh.Tidy where
  sound := Lobby.sound_fresh
  settled := Lobby.settled_fresh
  one := Nat.zero_le _
  rows _ hid := nomatch hid
  early _ := rfl

/-- A row that is there stays so, and is not among those that a step keeps for a call. -/
theorem row_kept {s s' : Lobby} {e : LobbyEvent} (hs : s.step e = some s') {id : String}
    (hrow : ∃ r ∈ s.store.rows, r.id = id) (hkept : ∀ p ∈ s.persisted, p.2 ≠ id) :
    (∃ r ∈ s'.store.rows, r.id = id) ∧ ∀ p ∈ s'.persisted, p.2 ≠ id := by
  have heffect := Lobby.effect_of_step hs
  obtain ⟨r, hr, hid⟩ := hrow
  obtain ⟨r', hr', hcontents⟩ := heffect.move.exists_row hr
  refine ⟨⟨r', hr', (congrArg Prod.fst hcontents).trans hid⟩, ?_⟩
  cases heffect with
  | keep _ event i req uuid spare now going desk calls acks persisted =>
    intro p hp
    rw [persisted, persistOffline_snd, List.mem_append, List.mem_map] at hp
    obtain hold | ⟨row, hrow, rfl⟩ := hp
    · exact hkept p hold
    · obtain ⟨-, -, hfresh⟩ := Lobby.mem_inserted hrow
      exact fun he => hfresh r hr (hid.trans he.symm)
  | queue ev console calls acks persisted => rw [persisted]; exact hkept
  | process _ event ev console quiet calls acks persisted => rw [persisted]; exact hkept
  | ask _ event i req free desk calls acks persisted => rw [persisted]; exact hkept
  | fail _ event i going desk calls acks persisted => rw [persisted]; exact hkept
  | ack i result uuid spare now req waiting encoded desk calls acks persisted =>
    rw [persisted]; exact hkept

theorem Tidy.lobby (h : c.Tidy) {le : LobbyEvent} (hs : c.lobby.step le = some c'.lobby)
    (hrows : c'.keyRows = c.keyRows)
    (hearly : c'.stage.early = true → c.stage.early = true) :
    c'.Tidy where
  sound := h.sound.step (Lobby.effect_of_step hs)
  settled := h.settled.step h.sound (Lobby.effect_of_step hs)
  one := hrows ▸ h.one
  rows id hid := row_kept hs (h.rows id (hrows ▸ hid)).1 (h.rows id (hrows ▸ hid)).2
  early hstage := hrows ▸ h.early (hearly hstage)

theorem Tidy.tick (h : c.Tidy) (ht : Tick c c' e) : c'.Tidy := by
  cases ht with
  | lobby e step stage keyRows =>
    apply h.lobby step keyRows
    obtain hsame | ⟨hfailed, -⟩ := stage
    · rw [hsame]; exact id
    · rw [hfailed]; exact fun h => nomatch h
  | refused _ event lobby stage stage' keyRows =>
    have hearly : c'.stage.early = true → c'.keyRows = [] := by
      rw [stage']
      exact fun h => nomatch h
    obtain hsame | ⟨hnil, -⟩ := keyRows
    · exact ⟨lobby ▸ h.sound, lobby ▸ h.settled, hsame ▸ h.one, by rw [hsame, lobby]; exact h.rows,
        hearly⟩
    · exact ⟨lobby ▸ h.sound, lobby ▸ h.settled, by simp [hnil], by simp [hnil], hearly⟩
  | checkin _ event input uuid now step stage stage' keyRows =>
    exact h.lobby step keyRows fun _ => stage ▸ rfl
  | keygen _ event input uuid now step stage stage' keyRows =>
    have heffect := Lobby.effect_of_step step
    refine ⟨h.sound.step heffect, h.settled.step h.sound heffect, ?_, ?_, ?_⟩
    · rw [keyRows, List.length_map]
      exact Lobby.length_inserted_le _ _ _ _
    · intro id hid
      rw [keyRows, List.mem_map] at hid
      obtain ⟨row, hrow, rfl⟩ := hid
      obtain ⟨hmem, -, hfresh⟩ := Lobby.mem_inserted hrow
      refine ⟨⟨row, store_of_enqueue step ▸ hmem, rfl⟩, ?_⟩
      have hpersisted : c'.lobby.persisted = c.lobby.persisted := by
        cases heffect with
        | queue ev console calls acks persisted => exact persisted
        | process _ event => cases event
        | ask _ event => cases event
        | fail _ event => cases event
        | keep _ event => cases event
      rw [hpersisted]
      intro p hp he
      obtain ⟨-, ⟨r, hr, hid⟩, -⟩ := h.settled.kept p hp
      exact hfresh r hr (hid.trans he)
    · obtain hkeyed | hfailed := stage'
      · rw [hkeyed]; exact fun h => nomatch h
      · rw [hfailed]; exact fun h => nomatch h
  | encode _ event i req uuid spare now step stage stage' keyRows =>
    apply h.lobby step keyRows
    rw [stage']
    exact fun h => nomatch h

namespace Tidy

theorem keyRow_eq (h : c.Tidy) {a b : Ack} (ha : c.KeyRow a) (hb : c.KeyRow b) :
    a.source = b.source := by
  obtain ⟨id, hid, ha⟩ := ha
  obtain ⟨id', hid', hb⟩ := hb
  match hrows : c.keyRows, h.one with
  | [], _ => rw [hrows] at hid; cases hid
  | [x], _ =>
    rw [hrows, List.mem_singleton] at hid hid'
    rw [ha, hb, hid, hid']

theorem livePath_eq (h : c.Tidy) {a b : Ack} (hina : a ∈ c.lobby.acks) (hinb : b ∈ c.lobby.acks)
    (ha : c.LivePath a) (hb : c.LivePath b) : a.source = b.source := by
  obtain ⟨i, hi, ha⟩ := ha
  obtain ⟨j, hj, hb⟩ := hb
  obtain rfl : i = j := by simpa [hi] using hj
  obtain hcall | ⟨id, hid, hrow⟩ := ha
  · obtain hcall' | ⟨id', hid', -⟩ := hb
    · rw [hcall, hcall']
    · exact absurd hcall ((h.settled.kept _ hid').2.2 a hina)
  · obtain hcall' | ⟨id', hid', hrow'⟩ := hb
    · exact absurd hcall' ((h.settled.kept _ hid).2.2 b hinb)
    · have hsame := List.inj_on_of_nodup_map h.settled.single hid hid' rfl
      rw [hrow, hrow', (Prod.mk.inj hsame).2]

theorem not_livePath_of_keyRow (h : c.Tidy) {a b : Ack} (ha : c.KeyRow a) (hb : c.LivePath b) :
    a.source ≠ b.source := by
  obtain ⟨id, hid, ha⟩ := ha
  obtain ⟨i, -, hcall | ⟨id', hid', hrow⟩⟩ := hb
  · rw [ha, hcall]
    exact Source.noConfusion
  · rw [ha, hrow]
    rintro ⟨⟩
    exact (h.rows id hid).2 (i, id) hid' rfl

/-- There are two cards exactly if there is one on each path. -/
theorem cards_le_one_iff (h : c.Tidy) :
    c.cards.length ≤ 1 ↔
      ¬ ((∃ a ∈ c.lobby.acks, c.KeyRow a) ∧ ∃ a ∈ c.lobby.acks, c.LivePath a) := by
  rw [cards, length_filter_le_one_iff h.settled.once]
  constructor
  · rintro hsame ⟨⟨a, ha, hkey⟩, b, hb, hlive⟩
    exact h.not_livePath_of_keyRow hkey hlive (hsame a ha b hb (.inl hkey) (.inr hlive))
  · rintro hnot a ha b hb (hkey | hlive) (hkey' | hlive')
    · exact h.keyRow_eq hkey hkey'
    · exact absurd ⟨⟨a, ha, hkey⟩, b, hb, hlive'⟩ hnot
    · exact absurd ⟨⟨b, hb, hkey'⟩, a, ha, hlive⟩ hnot
    · exact h.livePath_eq ha hb hlive hlive'

end Tidy

/-! ## What a step brings -/

/-- What a step keeps for a call has no acknowledgement yet. -/
theorem persisted_iff {s s' : Lobby} {le : LobbyEvent} (hs : s.step le = some s')
    (h' : s'.Settled) {a : Ack} (ha : a ∈ s'.acks) {id : String} (hsource : a.source = .row id)
    (i : ℕ) : (i, id) ∈ s'.persisted ↔ (i, id) ∈ s.persisted := by
  cases Lobby.effect_of_step hs with
  | keep _ event j req uuid spare now going desk calls acks persisted =>
    rw [persistOffline_snd] at desk persisted
    rw [persisted, List.mem_append, or_iff_left]
    rw [List.mem_map]
    rintro ⟨row, hrow, he⟩
    rw [← (Prod.mk.inj he).2] at hsource
    exact h'.source_ne_of_inserted (congrArg Desk.store desk) hrow ha hsource
  | queue ev console calls acks persisted => rw [persisted]
  | process _ event ev console quiet calls acks persisted => rw [persisted]
  | ask _ event j req free desk calls acks persisted => rw [persisted]
  | fail _ event j going desk calls acks persisted => rw [persisted]
  | ack j result uuid spare now req waiting encoded desk calls acks persisted => rw [persisted]

theorem not_livePath_of_stage (h : ∀ i, c.stage ≠ .encoding i) (a : Ack) : ¬ c.LivePath a := by
  rintro ⟨i, hi, -⟩
  exact h i hi

/-- A step puts no acknowledgement on another path than before. -/
theorem Tick.keyRow_iff (ht : Tick c c' e) (h : c.Tidy) (h' : c'.Tidy) {a : Ack}
    (ha : a ∈ c'.lobby.acks) : c'.KeyRow a ↔ c.KeyRow a := by
  have hnone : c.stage.early = true → ¬ c.KeyRow a := by
    rintro hstage ⟨id, hid, -⟩
    rw [h.early hstage] at hid
    cases hid
  cases ht with
  | lobby e step stage keyRows => rw [KeyRow, KeyRow, keyRows]
  | refused _ event lobby stage stage' keyRows =>
    obtain hsame | ⟨hnil, hstage⟩ := keyRows
    · rw [KeyRow, KeyRow, hsame]
    · refine iff_of_false ?_ (hnone (hstage ▸ rfl))
      rintro ⟨id, hid, -⟩
      rw [hnil] at hid
      cases hid
  | checkin _ event input uuid now step stage stage' keyRows => rw [KeyRow, KeyRow, keyRows]
  | keygen _ event input uuid now step stage stage' keyRows =>
    refine iff_of_false ?_ (hnone (stage ▸ rfl))
    rintro ⟨id, hid, hsource⟩
    rw [keyRows, List.mem_map] at hid
    obtain ⟨row, hrow, rfl⟩ := hid
    exact h'.settled.source_ne_of_inserted (store_of_enqueue step) hrow ha hsource
  | encode _ event i req uuid spare now step stage stage' keyRows => rw [KeyRow, KeyRow, keyRows]

theorem Tick.livePath_iff (ht : Tick c c' e) (h : c.Tidy) (h' : c'.Tidy) {a : Ack}
    (ha : a ∈ c'.lobby.acks) : c'.LivePath a ↔ c.LivePath a := by
  cases ht with
  | lobby e step stage keyRows =>
    obtain hsame | ⟨hfailed, hnone⟩ := stage
    · rw [LivePath, LivePath, hsame]
      refine exists_congr fun i => and_congr_right fun _ => or_congr_right ?_
      refine exists_congr fun id => and_congr_left fun hsource => ?_
      exact persisted_iff step h'.settled ha hsource i
    · refine iff_of_false (not_livePath_of_stage ?_ a) (not_livePath_of_stage hnone a)
      simp [hfailed]
  | refused _ event lobby stage stage' keyRows =>
    exact iff_of_false (not_livePath_of_stage (by simp [stage']) a) (not_livePath_of_stage stage a)
  | checkin _ event input uuid now step stage stage' keyRows =>
    refine iff_of_false (not_livePath_of_stage ?_ a) (not_livePath_of_stage (by simp [stage]) a)
    obtain hstage | hstage := stage' <;> simp [hstage]
  | keygen _ event input uuid now step stage stage' keyRows =>
    refine iff_of_false (not_livePath_of_stage ?_ a) (not_livePath_of_stage (by simp [stage]) a)
    obtain hstage | hstage := stage' <;> simp [hstage]
  | encode _ event i req uuid spare now step stage stage' keyRows =>
    refine iff_of_false ?_ (not_livePath_of_stage (by simp [stage]) a)
    rintro ⟨j, hj, hpath⟩
    obtain rfl : i = j := by simpa [stage'] using hj
    -- the number was free, so nothing was acknowledged or kept for the call before
    have hfree : c.lobby.calls i = none := by
      simp only [Lobby.step, Bool.and_eq_true, Option.isNone_iff_eq_none] at step
      split at step
      · next hfree => exact hfree.2
      · cases step
    have hacks : a ∈ c.lobby.acks := by
      have hsame := Lobby.acks_of_step step
      rw [show c.lobby.newAcks (.encode i req uuid spare now) = [] from rfl, List.append_nil] at hsame
      rwa [hsame] at ha
    obtain hcall | ⟨id, hid, hsource⟩ := hpath
    · have hover := h.settled.calls a hacks i hcall
      rw [hfree] at hover
      cases hover
    · rw [persisted_iff step h'.settled ha hsource i] at hid
      have hover := (h.settled.kept _ hid).1
      rw [hfree] at hover
      cases hover

/-- The acknowledgements after a step; only the console brings new ones. -/
theorem acks_of_tick (ht : Tick c c' e) :
    (∃ le, e = .lobby le ∧ c'.lobby.acks = c.lobby.acks ++ c.lobby.newAcks le) ∨
      ((∀ le, e ≠ .lobby le) ∧ c'.lobby.acks = c.lobby.acks) := by
  have hsame : ∀ {le}, c.lobby.step le = some c'.lobby → c.lobby.newAcks le = [] →
      c'.lobby.acks = c.lobby.acks := by
    intro le hs hnone
    rw [Lobby.acks_of_step hs, hnone, List.append_nil]
  cases ht with
  | lobby e step stage keyRows => exact .inl ⟨e, rfl, Lobby.acks_of_step step⟩
  | refused _ event lobby stage stage' keyRows => exact .inr ⟨event, by rw [lobby]⟩
  | checkin _ event input uuid now step stage stage' keyRows => exact .inr ⟨event, hsame step rfl⟩
  | keygen _ event input uuid now step stage stage' keyRows => exact .inr ⟨event, hsame step rfl⟩
  | encode _ event i req uuid spare now step stage stage' keyRows =>
    exact .inr ⟨event, hsame step rfl⟩

theorem onePath_of_not_lobby (h : ∀ le, e ≠ .lobby le) : c.OnePath e := by
  cases e with
  | lobby le => exact absurd rfl (h le)
  | _ => trivial

/-- While there is one card at most, a step keeps it so exactly if it stays on one path. -/
theorem cards_of_tick_iff (ht : Tick c c' e) (h : c.Tidy) (hone : c.cards.length ≤ 1) :
    c'.cards.length ≤ 1 ↔ c.OnePath e := by
  have h' := h.tick ht
  have hkey : (∃ a ∈ c'.lobby.acks, c'.KeyRow a) ↔ ∃ a ∈ c'.lobby.acks, c.KeyRow a :=
    exists_congr fun a => and_congr_right fun ha => ht.keyRow_iff h h' ha
  have hlive : (∃ a ∈ c'.lobby.acks, c'.LivePath a) ↔ ∃ a ∈ c'.lobby.acks, c.LivePath a :=
    exists_congr fun a => and_congr_right fun ha => ht.livePath_iff h h' ha
  rw [h.cards_le_one_iff] at hone
  rw [h'.cards_le_one_iff, hkey, hlive]
  obtain ⟨le, rfl, hacks⟩ | ⟨hevent, hacks⟩ := acks_of_tick ht
  · have hmem : ∀ p : Ack → Prop, (∃ a ∈ c'.lobby.acks, p a) ↔
        (∃ a ∈ c.lobby.acks, p a) ∨ ∃ a ∈ c.lobby.newAcks le, p a := by
      intro p
      simp only [hacks, List.mem_append, or_and_right, exists_or]
    rw [hmem, hmem, OnePath]
    cases hnew : c.lobby.newAcks le with
    | nil => simpa using hone
    | cons a rest =>
      have hsingle := c.lobby.length_newAcks_le le
      rw [hnew, List.length_cons, Nat.succ_le_succ_iff, Nat.le_zero,
        List.length_eq_zero_iff] at hsingle
      subst hsingle
      have hapart : ¬ (c.KeyRow a ∧ c.LivePath a) :=
        fun hboth => h.not_livePath_of_keyRow hboth.1 hboth.2 rfl
      simp only [List.mem_singleton, exists_eq_left, forall_eq]
      constructor
      · intro hnot
        refine ⟨fun hk b hb hl => hnot ⟨.inr hk, .inl ⟨b, hb, hl⟩⟩, ?_⟩
        exact fun hl b hb hk => hnot ⟨.inl ⟨b, hb, hk⟩, .inr hl⟩
      · rintro ⟨hkeyOnly, hliveOnly⟩ ⟨hk | hk, hl | hl⟩
        · exact hone ⟨hk, hl⟩
        · obtain ⟨b, hb, hk⟩ := hk
          exact hliveOnly hl b hb hk
        · obtain ⟨b, hb, hl⟩ := hl
          exact hkeyOnly hk b hb hl
        · exact hapart ⟨hk, hl⟩
  · rw [hacks]
    exact iff_of_true hone (onePath_of_not_lobby hevent)

/-- In every run of a check-in, with flushes, drains and answers in any order: it encodes one
card at most, if and only if the adapters acknowledge only the row that the front desk
has enqueued, or only the call and the row that was kept for it. -/
theorem one_card_iff {es : List CheckInEvent} (h : run (step t f) fresh es = some c) :
    (∀ pre c', pre <+: es → run (step t f) fresh pre = some c' → c'.cards.length ≤ 1) ↔
      Along (step t f) OnePath fresh es := by
  apply forall_prefix_iff_along (J := Tidy) _ _ tidy_fresh (Nat.zero_le 1) h
  · exact fun c e c' htidy hs => htidy.tick (tick_of_step hs)
  · exact fun c e c' htidy hone hs => cards_of_tick_iff (tick_of_step hs) htidy hone

/-- A guest of room 101. -/
def guest101 : FrontDesk := ⟨"Ade", "OBI", "101", "LDOOR-01", none⟩

/-- The encoder is offline for the call, and back when the drain comes by. -/
def twoCards : List CheckInEvent :=
  let result (status : EncodeStatus) : EncodeResult := ⟨"LDOOR-01", "101", "", status, none, none, 0⟩
  [.lobby (.boot "127.0.0.1:9100" (lobbyDevices "127.0.0.1:9100") 0),
    .checkin "" "checkin-1" "11111111-key" "a1" 1, .keygen "keygen-1" "22222222-key" "b1" 2,
    .encode 0 "" "" 3, .lobby (.answered 0 (some (result .queuedOffline)) "c1" "c2" 4),
    .lobby (.queue (.drain 0)), .lobby (.queue (.claimNext 0 5)), .lobby (.queue (.turn 0 5)),
    .lobby (.queue (.claimNext 0 6)), .lobby (.queue (.turn 0 6)),
    .lobby (.queue (.encoded 0 (some (result .encoded)) 7)),
    .lobby (.queue (.claimNext 0 8)), .lobby (.queue (.turn 0 8)),
    .lobby (.queue (.encoded 0 (some (result .encoded)) 9))]

theorem one_card_iff_twoCards :
    ∃ c, run (step ⟨id, id⟩ guest101) fresh twoCards = some c ∧
      ((∀ pre c', pre <+: twoCards → run (step ⟨id, id⟩ guest101) fresh pre = some c' →
          c'.cards.length ≤ 1) ↔
        Along (step ⟨id, id⟩ guest101) OnePath fresh twoCards) := by
  have hsome : (run (step ⟨id, id⟩ guest101) fresh twoCards).isSome = true := by decide +kernel
  obtain ⟨c, hc⟩ := Option.isSome_iff_exists.mp hsome
  exact ⟨c, hc, one_card_iff hc⟩

/-- The drain encodes the row of the key, and then the row that was kept for the call. -/
theorem not_one_card :
    ¬ ∀ t f es c, run (step t f) fresh es = some c → c.cards.length ≤ 1 := by
  intro h
  have hsome : (run (step ⟨id, id⟩ guest101) fresh twoCards).isSome = true := by decide +kernel
  have htwo : ∀ c ∈ run (step ⟨id, id⟩ guest101) fresh twoCards, ¬ c.cards.length ≤ 1 := by
    decide +kernel
  obtain ⟨c, hc⟩ := Option.isSome_iff_exists.mp hsome
  exact htwo c hc (h _ _ twoCards c hc)

end CheckIn

end Hotelia.Process
