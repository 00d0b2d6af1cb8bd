import Hotelia.Broker.Ingress

/-!
# What the window remembers

The window recalls a key exactly if an event was published under it within the last
minute, so a request is published unless it is turned away or its key was
published that recently.
-/

namespace Hotelia.Broker
open Foundation ExpiringMap

/-- What the window holds was published, at the time it is stamped with. -/
def LocalServer.Grounded (b : LocalServer) : Prop :=
  ∀ key e, b.window.lookup key = some e → ∃ p ∈ b.published, p.key = key ∧ p.time = e.time

theorem grounded_fresh : LocalServer.fresh.Grounded := by
  intro key e h
  simp [LocalServer.fresh] at h

/-- A purge adds nothing. -/
theorem lookup_of_lookup_purgeLarge {w : Window} {now : ℕ} {key : String} {e : Stamped String}
    (h : (purgeLarge w now).lookup key = some e) : w.lookup key = some e := by
  rw [purgeLarge] at h
  split at h
  · rw [lookup_purge, Option.filter_eq_some_iff] at h
    exact h.1
  · exact h

/-- What the window holds after an acceptance is new, or it was there before. -/
theorem lookup_remember {w : Window} {key key' event : String} {now : ℕ} {e : Stamped String}
    (h : (remember purgeLarge w key' event now).lookup key = some e) :
    (key = key' ∧ e.time = now) ∨ w.lookup key = some e := by
  rw [remember] at h
  split at h
  · have hrecord := lookup_of_lookup_purgeLarge h
    by_cases hk : key = key'
    · subst hk
      rw [ExpiringMap.record, AList.lookup_insert, Option.some.injEq] at hrecord
      exact .inl ⟨rfl, hrecord ▸ rfl⟩
    · rw [ExpiringMap.record, AList.lookup_insert_ne hk] at hrecord
      exact .inr hrecord
  · exact .inr h

variable {b : LocalServer} {ip : String} {req : PacketRequest} {now : ℕ}

theorem LocalServer.Grounded.handlePacket (h : b.Grounded) (ip : String) (req : PacketRequest)
    (now : ℕ) : (handlePacket purgeLarge b ip req now).2.Grounded := by
  cases handlePacket_cases purgeLarge b ip req now with
  | inl hrefused =>
    obtain ⟨r, -, heq⟩ := hrefused
    rw [heq]
    exact h
  | inr haccepted =>
    obtain ⟨parsed, -, -, -, -, heq⟩ := haccepted
    rw [heq]
    intro key e hlookup
    cases lookup_remember hlookup with
    | inl hnew =>
      exact ⟨_, List.mem_append_right _ (List.mem_singleton_self _), hnew.1.symm, hnew.2.symm⟩
    | inr hold =>
      obtain ⟨p, hp, hpublished⟩ := h key e hold
      exact ⟨p, List.mem_append_left _ hp, hpublished⟩

theorem LocalServer.Grounded.serve (h : b.Grounded) (as : List Arrival) :
    (serve purgeLarge b as).2.Grounded := by
  induction as generalizing b with
  | nil => exact h
  | cons a as ih => exact ih (h.handlePacket a.ip a.request a.time)

/-- The limiter, the schema or the registry turns the request away. -/
def LocalServer.turnsAway (b : LocalServer) (ip : String) (req : PacketRequest) (now : ℕ) : Bool :=
  !(b.limiter.allows ip now).1 || ((packetSchema req.body).all fun parsed => !Events.isValid parsed.type)

/-- An event was published under `key` within the window. -/
def LocalServer.PublishedLately (b : LocalServer) (key : String) (now : ℕ) : Prop :=
  ∃ p ∈ b.published, p.key = key ∧ now < p.time + windowMs

instance (b : LocalServer) (key : String) (now : ℕ) : Decidable (b.PublishedLately key now) :=
  inferInstanceAs (Decidable (∃ p ∈ b.published, p.key = key ∧ now < p.time + windowMs))

theorem peek_ne_none_iff (hr : b.Recalls now) (hg : b.Grounded) {key : String} (hk : key ≠ "") :
    peek windowMs b.window now key ≠ none ↔ b.PublishedLately key now := by
  refine ⟨fun h => ?_, ?_⟩
  · obtain ⟨e, he⟩ := Option.ne_none_iff_exists'.mp h
    obtain ⟨hlookup, hlt⟩ := peek_eq_some.mp he
    obtain ⟨p, hp, hkey, htime⟩ := hg key e hlookup
    exact ⟨p, hp, hkey, htime ▸ hlt⟩
  · rintro ⟨p, hp, rfl, hlt⟩
    exact (hr p hp hk).2 now le_rfl hlt

/-- A request publishes its event unless it is turned away or its key was published
within the window. -/
theorem published_iff (hr : b.Recalls now) (hg : b.Grounded) :
    (handlePacket purgeLarge b ip req now).1.status = 202 ↔
      b.turnsAway ip req now = false ∧
        (req.idempotencyKey ≠ "" → ¬ b.PublishedLately req.idempotencyKey now) := by
  refine ⟨fun h => ?_, ?_⟩
  · cases handlePacket_cases purgeLarge b ip req now with
    | inl hrefused =>
      obtain ⟨r, hr, heq⟩ := hrefused
      rw [heq] at h
      exact absurd h hr
    | inr haccepted =>
      obtain ⟨parsed, hl, hp, hv, hnone, -⟩ := haccepted
      refine ⟨by simp [LocalServer.turnsAway, hl, hp, hv], fun hk hlately => ?_⟩
      exact (peek_ne_none_iff hr hg hk).mpr hlately (hnone hk)
  · rintro ⟨haway, hlate⟩
    simp only [LocalServer.turnsAway, Bool.or_eq_false_iff, Bool.not_eq_false'] at haway
    obtain ⟨hl, hbody⟩ := haway
    cases hp : packetSchema req.body with
    | none => simp [hp] at hbody
    | some parsed =>
      have hv : Events.isValid parsed.type = true := by simpa [hp] using hbody
      rw [handlePacket_of_parsed hl hp hv]
      split
      · rfl
      · next hk =>
        have hnone : peek windowMs b.window now req.idempotencyKey = none := by
          by_contra hsome
          exact hlate hk ((peek_ne_none_iff hr hg hk).mp hsome)
        rw [hnone]
        rfl

end Hotelia.Broker
