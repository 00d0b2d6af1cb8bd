import Hotelia.Process.Lobby

/-!
# What `COMPLETED` means for the row of a failed encode

Rows of the lock bridge are taken by the flushes of the sync engine as well as by
the drains of the bridge. A drain completes a row when an adapter has encoded its
request; a flush does so when the broker has taken a packet.

## Main results

- `completed_of_step`: a row becomes `COMPLETED` in these two ways only.
- `vouched_iff`: in which runs every completed row of the bridge was encoded.
-/

namespace Hotelia.Process
open Foundation Offline OfflineActionStore Hardware Console

namespace Console

variable {c c' : Console} {e : Event} {r : OfflineActionRecord}

theorem completed_flushGuard {i delivered now : ℕ}
    (hr : r ∈ (c.flushGuard i delivered now).store.rows) (hdone : r.status = .completed) :
    r ∈ c.store.rows := by
  rw [flushGuard] at hr
  split at hr
  · rwa [store_endFlush] at hr
  · next claimed s hclaim =>
    apply mem_of_completed_claim hclaim _ hdone
    dsimp only at hr
    split at hr
    · exact hr
    · rwa [store_endFlush] at hr

theorem completed_drainHead {i now : ℕ} (hr : r ∈ (c.drainHead i now).store.rows)
    (hdone : r.status = .completed) : r ∈ c.store.rows := by
  rw [drainHead] at hr
  split at hr
  · exact hr
  · next record s hclaim => exact mem_of_completed_claim hclaim hr hdone

theorem completed_drainBody {i now : ℕ} {record : OfflineActionRecord}
    (hr : r ∈ (c.drainBody i record now).store.rows) (hdone : r.status = .completed) :
    r ∈ c.store.rows := by
  rw [drainBody] at hr
  split at hr
  · next error bridge _ =>
    obtain hold | ⟨hok, -⟩ : r ∈ c.store.rows ∨ (false = true ∧ r.id = record.id) :=
      mem_of_completed_mark hr hdone
    · exact hold
    · cases hok
  · exact hr

theorem completed_drainAnswer {i now : ℕ} {record : OfflineActionRecord}
    {result : Option EncodeResult} (hr : r ∈ (c.drainAnswer i record now result).store.rows)
    (hdone : r.status = .completed) :
    r ∈ c.store.rows ∨ ∃ res, result = some res ∧ res.status = .encoded ∧ record.id = r.id := by
  cases result with
  | none => exact .inl hr
  | some res =>
    obtain hold | ⟨hok, hid⟩ := mem_of_completed_mark hr hdone
    · exact .inl hold
    · refine .inr ⟨res, rfl, ?_, hid.symm⟩
      rw [drainMark] at hok
      split at hok
      · assumption
      · cases hok

/-- A row that is completed after an event was so before, or the event completes it. -/
theorem completed_of_act (h : c.act e = some c') (hr : r ∈ c'.store.rows)
    (hdone : r.status = .completed) : r ∈ c.store.rows ∨ c.Completes e r.id := by
  cases acts_of_act h with
  | crash => exact .inl hr
  | enqueue input uuid now =>
    rw [store_enqueue] at hr
    exact .inl (mem_of_completed_insert hr hdone)
  | insert input uuid now => exact .inl (mem_of_completed_insert hr hdone)
  | hardware bridge => exact .inl hr
  | flush i _ begun => rw [store_begin begun] at hr; exact .inl hr
  | drain i _ begun => rw [store_begin begun] at hr; exact .inl hr
  | probed i ok =>
    have hr' : r ∈ (c.engine.probeOnline ok).store.rows := hr
    rw [store_probeOnline] at hr'
    exact .inl hr'
  | flushGuard => exact .inl (completed_flushGuard hr hdone)
  | drainHead => exact .inl (completed_drainHead hr hdone)
  | answered i answer now claimed delivered pass =>
    obtain hold | ⟨hok, hid⟩ := mem_of_completed_mark hr hdone
    · exact .inl hold
    · exact .inr ⟨hok, claimed, delivered, pass, hid.symm⟩
  | turn => exact .inl (completed_drainBody hr hdone)
  | encoded i result now record pass =>
    obtain hold | ⟨res, rfl, hencoded, hid⟩ := completed_drainAnswer hr hdone
    · exact .inl hold
    · exact .inr ⟨hencoded, record, pass, hid⟩

theorem completed_of_step (h : step c e = some c') (hr : r ∈ c'.store.rows)
    (hdone : r.status = .completed) : r ∈ c.store.rows ∨ c.Completes e r.id := by
  cases step_cases h with
  | inl hact => exact completed_of_act hact.2 hr hdone
  | inr hboot =>
    obtain ⟨bridge, now, -, -, rfl⟩ := hboot
    exact .inl (mem_of_completed_requeue hr hdone)

/-- The pass that holds the row that an event completes. -/
theorem Completes.held {id : String} (h : c.Completes e id) :
    ∃ i record, c.desk.held i = some record ∧ record.id = id := by
  cases e with
  | answered i answer now =>
    obtain ⟨-, claimed, delivered, hpass, hid⟩ := h
    exact ⟨i, claimed, held_of_pass hpass, hid⟩
  | encoded i result now =>
    cases result with
    | none => cases h
    | some result =>
      obtain ⟨-, record, hpass, hid⟩ := h
      exact ⟨i, record, held_of_pass hpass, hid⟩
  | _ => cases h

/-- The row that an event completes is `COMPLETED` after it. -/
theorem Completes.row {id : String} (h : c.Completes e id) (hsafe : Safe c.desk)
    (hs : step c e = some c') : ∃ r ∈ c'.store.rows, r.id = id ∧ r.status = .completed := by
  obtain ⟨i, record, hheld, rfl⟩ := h.held
  obtain ⟨r, hr, hid, -⟩ := hsafe.processing i record hheld
  cases e with
  | answered i answer now =>
    obtain ⟨hok, claimed, delivered, hpass, hclaimed⟩ := h
    obtain hact | ⟨_, _, he, -⟩ := step_cases hs
    · have heq := hact.2
      simp only [act, hpass, hok, Option.some.injEq] at heq
      subst heq
      exact ⟨r.completed now, completed_mem_mark deliveryFailed hr (hid.trans hclaimed.symm), hid, rfl⟩
    · cases he
  | encoded i result now =>
    cases result with
    | none => cases h
    | some result =>
      obtain ⟨hencoded, record', hpass, hrecord⟩ := h
      obtain hact | ⟨_, _, he, -⟩ := step_cases hs
      · have heq := hact.2
        simp only [act, hpass, Option.some.injEq] at heq
        subst heq
        refine ⟨r.completed now, ?_, hid, rfl⟩
        have hmark : (drainMark result).ok = true := by rw [drainMark, if_pos hencoded]; rfl
        show _ ∈ (c.store.mark record'.id (drainMark result).ok (drainMark result).error now).rows
        rw [hmark]
        exact completed_mem_mark _ hr (hid.trans hrecord.symm)
      · cases he
  | _ => cases h

end Console

namespace Lobby

variable {s s' : Lobby}

/-- A kept row is `COMPLETED` only if some adapter has encoded its request. -/
def Vouched (s : Lobby) : Prop :=
  ∀ p ∈ s.persisted, ∀ r ∈ s.store.rows, r.id = p.2 → r.status = .completed →
    ∃ a ∈ s.acks, a.request = encodeRequestOf r

/-- The broker takes the packet of a kept row only after an adapter has encoded its request. -/
def TakenLate (s : Lobby) : LobbyEvent → Prop
  | .queue (.answered i answer _) => deliverOk answer = true →
    ∀ claimed delivered, s.console.passes i = some (.delivering claimed delivered) →
      (∃ p ∈ s.persisted, p.2 = claimed.id) → ∃ a ∈ s.acks, a.request = encodeRequestOf claimed
  | _ => True

theorem takenLate_of_not_queue {e : LobbyEvent} (h : e.isQueue = false) : s.TakenLate e := by
  cases e with
  | queue ev => cases h
  | _ => trivial

theorem encodeRequestOf_congr {r r' : OfflineActionRecord} (h : r.contents = r'.contents) :
    encodeRequestOf r = encodeRequestOf r' := by
  have hpayload : r.payload = r'.payload := congrArg (fun c => c.2.2.2) h
  simp only [encodeRequestOf, hpayload]

/-- A row asks for what the record in the hands of a pass asks for. -/
theorem encodeRequestOf_held {d d' : Desk ℕ} (hm : Move d d') (hf : Faithful d) {i : ℕ}
    {record r : OfflineActionRecord} (hi : d.held i = some record) (hr : r ∈ d'.store.rows)
    (hid : r.id = record.id) : encodeRequestOf r = encodeRequestOf record := by
  obtain ⟨x, hx, hcontents⟩ := hf i record hi
  obtain ⟨x', hx', hsame⟩ := hm.exists_row hx
  have hxid : x'.id = record.id := congrArg Prod.fst (hsame.trans hcontents)
  rw [d'.store.eq_of_id_eq hr hx' (hid.trans hxid.symm)]
  exact encodeRequestOf_congr (hsame.trans hcontents)

/-- What completes no row keeps the kept rows vouched for. -/
theorem Vouched.carry (h : s.Vouched) (hacks : s.acks ⊆ s'.acks)
    (hrows : ∀ r ∈ s'.store.rows, r.status = .completed → r ∈ s.store.rows)
    (hpersisted : ∀ p ∈ s'.persisted, p ∈ s.persisted ∨
      ∀ r ∈ s'.store.rows, r.id = p.2 → r.status ≠ .completed) : s'.Vouched := by
  intro p hp r hr hid hdone
  obtain hold | hnew := hpersisted p hp
  · obtain ⟨a, ha, hrequest⟩ := h p hold r (hrows r hr hdone) hid hdone
    exact ⟨a, hacks ha, hrequest⟩
  · exact absurd hdone (hnew r hr hid)

/-- A row that an insert has added is `PENDING`, and its id is new. -/
theorem mem_inserted {st : OfflineActionStore} {input : SyncEnqueueInput} {uuid : String} {now : ℕ}
    {r : OfflineActionRecord} (hr : r ∈ inserted st (st.insert input uuid now).2) :
    r ∈ (st.insert input uuid now).2.rows ∧ r.status = .pending ∧ ∀ x ∈ st.rows, x.id ≠ r.id := by
  refine ⟨List.mem_of_mem_drop hr, ?_⟩
  rw [inserted] at hr
  obtain ⟨row, -, hinsert⟩ | ⟨-, -, hinsert⟩ | ⟨-, hfresh, -, hrows⟩ := st.insert_cases input uuid now
  · simp [hinsert] at hr
  · simp [hinsert] at hr
  · rw [hrows, List.drop_left, List.mem_singleton] at hr
    subst hr
    exact ⟨rfl, hfresh⟩

/-- There is one such row at most. -/
theorem length_inserted_le (st : OfflineActionStore) (input : SyncEnqueueInput) (uuid : String)
    (now : ℕ) : (inserted st (st.insert input uuid now).2).length ≤ 1 := by
  rw [inserted]
  obtain ⟨row, -, hinsert⟩ | ⟨-, -, hinsert⟩ | ⟨-, -, -, hrows⟩ := st.insert_cases input uuid now
  · simp [hinsert]
  · simp [hinsert]
  · simp [hrows]

theorem vouched_queue_iff {ev : Event} (hsound : s.Sound) (hv : s.Vouched)
    (hstep : Process.step s.console ev = some s'.console)
    (hacks : s'.acks = s.acks ++ ackOf s.console ev) (hpersisted : s'.persisted = s.persisted) :
    s'.Vouched ↔ s.TakenLate (.queue ev) := by
  have hrequest : ∀ i record r, s.console.desk.held i = some record → r ∈ s'.store.rows →
      r.id = record.id → encodeRequestOf r = encodeRequestOf record :=
    fun i record r hi hr hid =>
      encodeRequestOf_held (move_of_step hstep) hsound.faithful hi hr hid
  constructor
  · intro hv'
    cases ev with
    | answered i answer now =>
      intro hok claimed delivered hpass hkept
      obtain ⟨p, hp, hpid⟩ := hkept
      -- the answer completes the kept row, so an acknowledgement must be there
      have hcompletes : s.console.Completes (.answered i answer now) claimed.id :=
        ⟨hok, claimed, delivered, hpass, rfl⟩
      obtain ⟨r, hr, hid, hdone⟩ := hcompletes.row hsound.safe hstep
      obtain ⟨a, ha, harequest⟩ := hv' p (hpersisted ▸ hp) r hr (hid.trans hpid.symm) hdone
      have hnone : ackOf s.console (.answered i answer now) = [] := rfl
      rw [hacks, hnone, List.append_nil] at ha
      exact ⟨a, ha, harequest.trans (hrequest i claimed r (held_of_pass hpass) hr hid)⟩
    | _ => trivial
  · intro hlate p hp r hr hid hdone
    rw [hpersisted] at hp
    obtain hold | hcompletes := completed_of_step hstep hr hdone
    · obtain ⟨a, ha, harequest⟩ := hv p hp r hold hid hdone
      exact ⟨a, hacks ▸ List.mem_append_left _ ha, harequest⟩
    · cases ev with
      | answered i answer now =>
        obtain ⟨hok, claimed, delivered, hpass, hclaimed⟩ := hcompletes
        obtain ⟨a, ha, harequest⟩ :=
          hlate hok claimed delivered hpass ⟨p, hp, hid.symm.trans hclaimed.symm⟩
        refine ⟨a, hacks ▸ List.mem_append_left _ ha, harequest.trans ?_⟩
        exact (hrequest i claimed r (held_of_pass hpass) hr hclaimed.symm).symm
      | encoded i result now =>
        cases result with
        | none => cases hcompletes
        | some result =>
          obtain ⟨hencoded, record, hpass, hrecord⟩ := hcompletes
          refine ⟨⟨.row record.id, encodeRequestOf record⟩, ?_, ?_⟩
          · rw [hacks]
            apply List.mem_append_right
            simp [ackOf, hpass, hencoded]
          · exact (hrequest i record r (held_of_pass hpass) hr hrecord.symm).symm
      | _ => cases hcompletes

theorem vouched_of_step_iff {e : LobbyEvent} (hsound : s.Sound) (hv : s.Vouched)
    (hs : s.step e = some s') : s'.Vouched ↔ s.TakenLate e := by
  have heffect := effect_of_step hs
  have hsame : s'.console.desk = s.console.desk → s'.persisted = s.persisted → s'.Vouched := by
    intro hdesk hpersisted
    have hstore : s'.store = s.store := congrArg Desk.store hdesk
    exact hv.carry heffect.acks_subset (fun r hr _ => hstore ▸ hr) fun p hp => .inl (hpersisted ▸ hp)
  cases heffect with
  | queue ev console calls acks persisted => exact vouched_queue_iff hsound hv console acks persisted
  | process _ event ev console quiet calls acks persisted =>
    refine iff_of_true ?_ (takenLate_of_not_queue event)
    refine hv.carry (acks ▸ List.Subset.refl _) ?_ fun p hp => .inl (persisted ▸ hp)
    intro r hr hdone
    exact (completed_of_step console hr hdone).resolve_right (quiet r.id)
  | ask _ event i req free desk calls acks persisted =>
    exact iff_of_true (hsame desk persisted) (takenLate_of_not_queue event)
  | fail _ event i going desk calls acks persisted =>
    exact iff_of_true (hsame desk persisted) (takenLate_of_not_queue event)
  | ack i result uuid spare now req waiting encoded desk calls acks persisted =>
    exact iff_of_true (hsame desk persisted) trivial
  | keep _ event i req uuid spare now going desk calls acks persisted =>
    refine iff_of_true ?_ (takenLate_of_not_queue event)
    have hstore : s'.store = (persistOffline s.store req uuid spare now).2 := congrArg Desk.store desk
    refine hv.carry (acks ▸ List.Subset.refl _) ?_ ?_
    · intro r hr hdone
      rw [hstore, persistOffline_snd] at hr
      exact mem_of_completed_insert hr hdone
    · intro p hp
      rw [persisted, List.mem_append, List.mem_map] at hp
      obtain hold | ⟨row, hrow, rfl⟩ := hp
      · exact .inl hold
      · right
        intro r hr hid
        rw [persistOffline_snd] at hrow hstore
        obtain ⟨hmem, hpending, -⟩ := mem_inserted hrow
        rw [s'.store.eq_of_id_eq hr (hstore ▸ hmem) hid, hpending]
        exact ActionStatus.noConfusion

theorem vouched_fresh : fresh.Vouched := fun _ h => nomatch h

/-- In every run of encodes, flushes, drains and answers: each row that was kept for a
failed encode is `COMPLETED` only after an adapter has encoded its request, if and only
if the broker takes the packet of such a row only after that. -/
theorem vouched_iff {es : List LobbyEvent} (h : run step fresh es = some s) :
    (∀ pre s', pre <+: es → run step fresh pre = some s' → s'.Vouched) ↔
      Along step TakenLate fresh es := by
  apply forall_prefix_iff_along (J := Sound) _ _ sound_fresh vouched_fresh h
  · exact fun s e s' hsound hs => hsound.step (effect_of_step hs)
  · exact fun s e s' hsound hv hs => vouched_of_step_iff hsound hv hs

/-- A flush takes the row that was kept while the encoder was offline, and the broker
publishes it. -/
def flushedKey : List LobbyEvent :=
  let offline : EncodeResult := ⟨"LDOOR-01", "101", "KEY-101-ADE", .queuedOffline, none, none, 2⟩
  [.boot "127.0.0.1:9100" (lobbyDevices "127.0.0.1:9100") 0,
    .encode 0 ⟨"LDOOR-01", "101", "KEY-101-ADE"⟩ "" "" 1, .answered 0 (some offline) "a1" "a2" 2,
    .queue (.flush 0), .queue (.probed 0 (some true)), .queue (.claimNext 0 3),
    .queue (.answered 0 (some 202) 4)]

theorem vouched_iff_flushedKey :
    ∃ s, run step fresh flushedKey = some s ∧
      ((∀ pre s', pre <+: flushedKey → run step fresh pre = some s' → s'.Vouched) ↔
        Along step TakenLate fresh flushedKey) := by
  have hsome : (run step fresh flushedKey).isSome = true := by decide +kernel
  obtain ⟨s, hs⟩ := Option.isSome_iff_exists.mp hsome
  exact ⟨s, hs, vouched_iff hs⟩

/-- The row is `COMPLETED`, and no adapter has encoded anything. -/
theorem not_vouched : ¬ ∀ es s, run step fresh es = some s → s.Vouched := by
  intro h
  have hsome : (run step fresh flushedKey).isSome = true := by decide +kernel
  have hlost : ∀ s ∈ run step fresh flushedKey, s.acks = [] ∧ ∃ p ∈ s.persisted,
      ∃ r ∈ s.store.rows, r.id = p.2 ∧ r.status = .completed := by
    decide +kernel
  obtain ⟨s, hs⟩ := Option.isSome_iff_exists.mp hsome
  obtain ⟨hacks, p, hp, r, hr, hid, hdone⟩ := hlost s hs
  obtain ⟨a, ha, -⟩ := h flushedKey s hs p hp r hr hid hdone
  rw [hacks] at ha
  cases ha

end Lobby

end Hotelia.Process
