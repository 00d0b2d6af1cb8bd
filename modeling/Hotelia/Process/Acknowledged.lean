import Hotelia.Process.KeptRows

/-!
# One acknowledgement for each call and for each row

A drain that has an acknowledgement completes its row, and a completed row is
never claimed again; a call that has one is over. So no row and no call is
acknowledged twice, and a call has an acknowledgement or a row, not both.

## Main results

- `Settled.step`: what an acknowledgement and a kept row say about their sources.
-/

namespace Hotelia.Process
open Foundation Offline OfflineActionStore Hardware Console

namespace Lobby

variable {s s' : Lobby} {e : LobbyEvent}

/-- An event brings an acknowledgement for the row that it completes, or none. -/
theorem ackOf_cases (c : Console) (ev : Event) :
    ackOf c ev = [] ∨ ∃ i record, c.passes i = some (.encoding record) ∧
      c.Completes ev record.id ∧ ackOf c ev = [⟨.row record.id, encodeRequestOf record⟩] := by
  cases ev with
  | encoded i result now =>
    cases result with
    | none => exact .inl rfl
    | some result =>
      cases hpass : c.passes i with
      | none => left; simp [ackOf, hpass]
      | some pass =>
        cases pass with
        | encoding record =>
          by_cases hencoded : result.status = .encoded
          · right
            exact ⟨i, record, hpass, ⟨hencoded, record, hpass, rfl⟩, by simp [ackOf, hpass, hencoded]⟩
          · left; simp [ackOf, hpass, hencoded]
        | _ => left; simp [ackOf, hpass]
  | _ => exact .inl rfl

/-- Every source is acknowledged once. A row that is acknowledged is `COMPLETED`, a call
that is acknowledged is over, and so is one with a row; no call has both. -/
structure Settled (s : Lobby) : Prop where
  once : (s.acks.map Ack.source).Nodup
  rows : ∀ a ∈ s.acks, ∀ id, a.source = .row id →
    ∃ r ∈ s.store.rows, r.id = id ∧ r.status = .completed
  calls : ∀ a ∈ s.acks, ∀ i, a.source = .call i → s.calls i = some .over
  kept : ∀ p ∈ s.persisted, s.calls p.1 = some .over ∧ (∃ r ∈ s.store.rows, r.id = p.2) ∧
    ∀ a ∈ s.acks, a.source ≠ .call p.1
  single : (s.persisted.map Prod.fst).Nodup

theorem settled_fresh : fresh.Settled where
  once := List.nodup_nil
  rows _ ha := nomatch ha
  calls _ ha := nomatch ha
  kept _ hp := nomatch hp
  single := List.nodup_nil

/-- A call that is over stays so. -/
theorem Effect.over (h : Effect s s' e) {i : ℕ} (hi : s.calls i = some .over) :
    s'.calls i = some .over := by
  have hupdate : ∀ j, s.calls j ≠ some .over → ∀ call, s'.calls = Function.update s.calls j call →
      s'.calls i = some .over := by
    intro j hj call hcalls
    have hne : i ≠ j := fun he => hj (he ▸ hi)
    rw [hcalls, Function.update_of_ne hne]
    exact hi
  cases h with
  | queue ev console calls => rw [calls]; exact hi
  | process _ event ev console quiet calls =>
    cases calls i with
    | inl hsame => rw [hsame]; exact hi
    | inr hover => exact hover.2
  | ask _ event j req free desk calls => exact hupdate j (by simp [free]) _ calls
  | fail _ event j going desk calls => exact hupdate j going _ calls
  | ack j result uuid spare now req waiting encoded desk calls =>
    exact hupdate j (by simp [waiting]) _ calls
  | keep _ event j req uuid spare now going desk calls => exact hupdate j going _ calls

namespace Settled

/-- With no new acknowledgement and no new kept row, everything stays accounted for. -/
theorem carry (h : s.Settled) (hsound : s.Sound) (he : Effect s s' e) (hacks : s'.acks = s.acks)
    (hpersisted : s'.persisted = s.persisted) : s'.Settled where
  once := hacks ▸ h.once
  rows a ha id hid := by
    obtain ⟨r, hr, hrid, hdone⟩ := h.rows a (hacks ▸ ha) id hid
    exact ⟨r, he.move.completed_mem hsound.safe hr hdone, hrid, hdone⟩
  calls a ha i hi := he.over (h.calls a (hacks ▸ ha) i hi)
  kept p hp := by
    obtain ⟨hover, ⟨r, hr, hid⟩, hnone⟩ := h.kept p (hpersisted ▸ hp)
    obtain ⟨r', hr', hcontents⟩ := he.move.exists_row hr
    refine ⟨he.over hover, ⟨r', hr', (congrArg Prod.fst hcontents).trans hid⟩, ?_⟩
    rwa [hacks]
  single := hpersisted ▸ h.single

/-- A new acknowledgement, of a source that had none. -/
theorem acknowledge (h : s.Settled) (hsound : s.Sound) (he : Effect s s' e) (a : Ack)
    (hacks : s'.acks = s.acks ++ [a]) (hpersisted : s'.persisted = s.persisted)
    (hnew : ∀ b ∈ s.acks, b.source ≠ a.source)
    (hrow : ∀ id, a.source = .row id → ∃ r ∈ s'.store.rows, r.id = id ∧ r.status = .completed)
    (hcall : ∀ i, a.source = .call i → s'.calls i = some .over ∧ ∀ p ∈ s.persisted, p.1 ≠ i) :
    s'.Settled where
  once := by
    rw [hacks, List.map_append, List.map_singleton, ← List.concat_eq_append, List.nodup_concat]
    refine ⟨?_, h.once⟩
    rw [List.mem_map]
    rintro ⟨b, hb, hsource⟩
    exact hnew b hb hsource
  rows b hb id hid := by
    rw [hacks, List.mem_append, List.mem_singleton] at hb
    obtain hold | rfl := hb
    · obtain ⟨r, hr, hrid, hdone⟩ := h.rows b hold id hid
      exact ⟨r, he.move.completed_mem hsound.safe hr hdone, hrid, hdone⟩
    · exact hrow id hid
  calls b hb i hi := by
    rw [hacks, List.mem_append, List.mem_singleton] at hb
    obtain hold | rfl := hb
    · exact he.over (h.calls b hold i hi)
    · exact (hcall i hi).1
  kept p hp := by
    rw [hpersisted] at hp
    obtain ⟨hover, ⟨r, hr, hid⟩, hnone⟩ := h.kept p hp
    obtain ⟨r', hr', hcontents⟩ := he.move.exists_row hr
    refine ⟨he.over hover, ⟨r', hr', (congrArg Prod.fst hcontents).trans hid⟩, ?_⟩
    intro b hb hsource
    rw [hacks, List.mem_append, List.mem_singleton] at hb
    obtain hold | rfl := hb
    · exact hnone b hold hsource
    · exact (hcall p.1 hsource).2 p hp rfl
  single := hpersisted ▸ h.single

/-- New rows for a call that was not over; there is one at most. -/
theorem keep (h : s.Settled) (hsound : s.Sound) (he : Effect s s' e) {i : ℕ} {req : EncodeRequest}
    {uuid : String} {now : ℕ} (hgoing : s.calls i ≠ some .over)
    (hstore : s'.store = (s.store.insert req.offlineInput uuid now).2)
    (hover : s'.calls i = some .over) (hacks : s'.acks = s.acks)
    (hpersisted : s'.persisted = s.persisted ++
      (inserted s.store (s.store.insert req.offlineInput uuid now).2).map fun row => (i, row.id)) :
    s'.Settled where
  once := hacks ▸ h.once
  rows a ha id hid := by
    obtain ⟨r, hr, hrid, hdone⟩ := h.rows a (hacks ▸ ha) id hid
    exact ⟨r, he.move.completed_mem hsound.safe hr hdone, hrid, hdone⟩
  calls a ha j hj := he.over (h.calls a (hacks ▸ ha) j hj)
  kept p hp := by
    rw [hpersisted, List.mem_append, List.mem_map] at hp
    rw [hacks]
    obtain hold | ⟨row, hrow, rfl⟩ := hp
    · obtain ⟨hover', ⟨r, hr, hid⟩, hnone⟩ := h.kept p hold
      obtain ⟨r', hr', hcontents⟩ := he.move.exists_row hr
      exact ⟨he.over hover', ⟨r', hr', (congrArg Prod.fst hcontents).trans hid⟩, hnone⟩
    · refine ⟨hover, ⟨row, hstore ▸ (mem_inserted hrow).1, rfl⟩, ?_⟩
      exact fun a ha hsource => hgoing (h.calls a ha i hsource)
  single := by
    rw [hpersisted, List.map_append, List.map_map]
    have hlen := length_inserted_le s.store req.offlineInput uuid now
    generalize inserted s.store (s.store.insert req.offlineInput uuid now).2 = new at hlen
    match new, hlen with
    | [], _ => simpa using h.single
    | [row], _ =>
      show (s.persisted.map Prod.fst ++ [i]).Nodup
      rw [← List.concat_eq_append, List.nodup_concat]
      refine ⟨?_, h.single⟩
      rw [List.mem_map]
      rintro ⟨p, hp, rfl⟩
      exact hgoing (h.kept p hp).1

theorem step (h : s.Settled) (hsound : s.Sound) (he : Effect s s' e) : s'.Settled := by
  have he' := he
  cases he with
  | queue ev console calls acks persisted =>
    obtain hnone | ⟨i, record, hpass, hcompletes, hack⟩ := ackOf_cases s.console ev
    · rw [hnone, List.append_nil] at acks
      exact h.carry hsound he' acks persisted
    · rw [hack] at acks
      refine h.acknowledge hsound he' _ acks persisted ?_ ?_ (fun i hi => nomatch hi)
      · intro b hb hsource
        -- the row of an earlier acknowledgement is completed, but this one is in hand
        obtain ⟨r, hr, hid, hdone⟩ := h.rows b hb record.id hsource
        have hprocessing := hsound.safe.processing_of_held (held_of_pass hpass) hr hid
        rw [hdone] at hprocessing
        cases hprocessing
      · rintro id ⟨⟩
        exact hcompletes.row hsound.safe console
  | process _ event ev console quiet calls acks persisted => exact h.carry hsound he' acks persisted
  | ask _ event i req free desk calls acks persisted => exact h.carry hsound he' acks persisted
  | fail _ event i going desk calls acks persisted => exact h.carry hsound he' acks persisted
  | ack i result uuid spare now req waiting encoded desk calls acks persisted =>
    refine h.acknowledge hsound he' _ acks persisted ?_ (fun id hid => nomatch hid) ?_
    · intro b hb hsource
      have hover := h.calls b hb i hsource
      rw [waiting] at hover
      cases hover
    · rintro j ⟨⟩
      refine ⟨by rw [calls, Function.update_self], ?_⟩
      rintro p hp rfl
      have hover := (h.kept p hp).1
      rw [waiting] at hover
      cases hover
  | keep _ event i req uuid spare now going desk calls acks persisted =>
    rw [persistOffline_snd] at desk persisted
    exact h.keep hsound he' going (congrArg Desk.store desk) (by rw [calls, Function.update_self])
      acks persisted

end Settled

/-- What an event acknowledges. -/
def newAcks (s : Lobby) : LobbyEvent → List Ack
  | .queue ev => ackOf s.console ev
  | .answered i (some result) _ _ _ =>
    match s.calls i with
    | some (.waiting req) => if result.status = .encoded then [⟨.call i, req⟩] else []
    | _ => []
  | _ => []

theorem length_newAcks_le (s : Lobby) (e : LobbyEvent) : (s.newAcks e).length ≤ 1 := by
  cases e with
  | queue ev =>
    obtain hnone | ⟨_, _, -, -, hack⟩ := ackOf_cases s.console ev
    · simp [newAcks, hnone]
    · simp [newAcks, hack]
  | answered i result uuid spare now =>
    cases result with
    | none => simp [newAcks]
    | some result =>
      simp only [newAcks]
      split
      · split <;> simp
      · simp
  | _ => simp [newAcks]

theorem acks_of_step (hs : s.step e = some s') : s'.acks = s.acks ++ s.newAcks e := by
  have hnone : s.acks = s.acks ++ [] := (List.append_nil _).symm
  cases steps_of_step hs with
  | boot => exact hnone
  | crash => exact hnone
  | queue => rfl
  | attach => exact hnone
  | encode i req uuid spare now =>
    refine Eq.trans ?_ hnone
    rw [encode]
    split <;> rfl
  | answered i result uuid spare now req waiting =>
    cases result with
    | none => exact hnone
    | some result =>
      simp only [answer, newAcks, waiting]
      split
      · rfl
      · exact hnone
  | shutdown => exact hnone

/-- A row that was just inserted has no acknowledgement. -/
theorem Settled.source_ne_of_inserted {st : OfflineActionStore} {input : SyncEnqueueInput}
    {uuid : String} {now : ℕ} {row : OfflineActionRecord} (h : s.Settled)
    (hstore : s.store = (st.insert input uuid now).2)
    (hrow : row ∈ inserted st (st.insert input uuid now).2) {a : Ack} (ha : a ∈ s.acks) :
    a.source ≠ .row row.id := by
  intro hsource
  obtain ⟨hmem, hpending, -⟩ := mem_inserted hrow
  obtain ⟨r, hr, hid, hdone⟩ := h.rows a ha row.id hsource
  rw [s.store.eq_of_id_eq hr (hstore ▸ hmem) hid, hpending] at hdone
  cases hdone

end Lobby

end Hotelia.Process
