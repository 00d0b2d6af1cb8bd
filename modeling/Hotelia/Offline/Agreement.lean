import Hotelia.Offline.LocalDelivery

/-!
# Whether the two ends agree

The engine takes an event as delivered if it likes the status of the answer; the
broker has published it, now or in an earlier attempt whose answer was lost.
-/

namespace Hotelia.Offline
open Foundation OfflineActionRecord OfflineActionStore Broker

variable {b : LocalServer} {ip : String} {req : PacketRequest} {now : ℕ}

/-- A key that was published lately is never answered by a status that the engine
counts as delivered. -/
theorem not_deliverOk_of_publishedLately (hb : b.Recalls now) (hk : req.idempotencyKey ≠ "")
    (h : b.PublishedLately req.idempotencyKey now) :
    deliverOk (some (handlePacket purgeLarge b ip req now).1.status) = false := by
  obtain ⟨p, hp, hkey, hlt⟩ := h
  rw [Bool.eq_false_iff, ne_eq, deliverOk_status]
  rw [← hkey] at hk
  exact not_accepted_of_remembers (hkey ▸ hk) (hkey ▸ (hb p hp hk).2) hlt

/-- A request without a key is answered as delivered unless it is turned away. -/
theorem deliverOk_of_no_key (ip : String) (hr : b.Recalls now) (hg : b.Grounded)
    (hk : req.idempotencyKey = "") :
    deliverOk (some (handlePacket purgeLarge b ip req now).1.status) =
      !b.turnsAway ip req now := by
  rw [Bool.eq_iff_iff, deliverOk_status, published_iff hr hg]
  simp [hk]

/-- A request that is not answered as delivered publishes nothing. -/
theorem publishedLately_of_not_deliverOk
    (h : deliverOk (some (handlePacket purgeLarge b ip req now).1.status) = false) {key : String} :
    (handlePacket purgeLarge b ip req now).2.PublishedLately key now ↔ b.PublishedLately key now := by
  have hne : ¬ (handlePacket purgeLarge b ip req now).1.status = 202 := fun h202 =>
    Bool.false_ne_true (h.symm.trans (deliverOk_status.mpr h202))
  rw [LocalServer.PublishedLately, (handlePacket_of_status_ne b ip req now hne).1]
  rfl

/-- The row of a record that was delivered is marked `COMPLETED`. -/
theorem status_settle {s s₁ : OfflineActionStore} {c : OfflineActionRecord} {t now' : ℕ}
    (hclaim : s.claimNext t = some (c, s₁)) {ok : Bool} :
    (∀ r ∈ (s₁.settle c.id ok now').rows, r.id = c.id → r.status = .completed) ↔ ok = true := by
  refine ⟨?_, ?_⟩
  · intro h
    have hstatus := h _ (marked_mem_claim_mark hclaim) (marked_id ok deliveryFailed now' c)
    cases ok with
    | true => rfl
    | false => cases hstatus
  · intro hok r hr hid
    cases mem_claim_mark hclaim hr with
    | inl hserved =>
      obtain ⟨_, _, _, rfl⟩ := hserved
      rw [hok]
      rfl
    | inr hold => exact absurd hid hold.2

/-- After any requests to the broker: an attempt whose event is published, by itself
or less than the window before, is taken as delivered and marked `COMPLETED`,
exactly if the event was not published less than the window before, or the key
arrives empty and the request is not turned away. -/
theorem deliver_agrees_iff {as : List Arrival} (hsorted : as.Pairwise (·.time ≤ ·.time))
    (hlast : ∀ a ∈ as, a.time ≤ now) {s s₁ : OfflineActionStore} {c : OfflineActionRecord} {t : ℕ}
    (hclaim : s.claimNext t = some (c, s₁)) {sent : PacketRequest}
    (hsent : c.packet.fetched = some sent) (ip : String) (now' : ℕ) :
    let server := (serve purgeLarge .fresh as).2
    let result := handlePacket purgeLarge server ip sent now
    let delivered := deliverOk
      (c.packet.fetched.map fun sent => (handlePacket purgeLarge server ip sent now).1.status)
    ((∃ p ∈ result.2.published, p.key = sent.idempotencyKey ∧ now < p.time + 60000) →
      delivered = true ∧
        ∀ r ∈ (s₁.settle c.id delivered now').rows, r.id = c.id → r.status = .completed) ↔
    (¬ ∃ p ∈ server.published, p.key = sent.idempotencyKey ∧ now < p.time + 60000) ∨
      sent.idempotencyKey = "" ∧ server.turnsAway ip sent now = false := by
  intro server result delivered
  have hrecalls : server.Recalls now :=
    (recalls_fresh 0).serve unnoticed_purgeLarge (fun _ _ => Nat.zero_le _) hsorted
      (Nat.zero_le _) hlast
  have hgrounded : server.Grounded := grounded_fresh.serve as
  have hanswer : delivered = deliverOk (some result.1.status) := by
    simp only [delivered, result, hsent, Option.map_some]
  rw [status_settle hclaim, and_self]
  change (result.2.PublishedLately sent.idempotencyKey now → delivered = true) ↔
    ¬ server.PublishedLately sent.idempotencyKey now ∨ _
  rw [hanswer]
  cases hdelivered : deliverOk (some result.1.status) with
  | true =>
    -- what is delivered was not known, or has no key
    refine iff_of_true (fun _ => rfl) ?_
    by_cases hk : sent.idempotencyKey = ""
    · have haway := deliverOk_of_no_key ip hrecalls hgrounded hk
      exact .inr ⟨hk, by simpa using haway.symm.trans hdelivered⟩
    · refine .inl fun hlately => ?_
      exact Bool.false_ne_true
        ((not_deliverOk_of_publishedLately hrecalls hk hlately).symm.trans hdelivered)
  | false =>
    rw [publishedLately_of_not_deliverOk hdelivered]
    have haway : ¬ (sent.idempotencyKey = "" ∧ server.turnsAway ip sent now = false) := by
      rintro ⟨hk, haway⟩
      have hsame := deliverOk_of_no_key ip hrecalls hgrounded hk
      rw [haway] at hsame
      exact Bool.false_ne_true (hdelivered.symm.trans hsame)
    simp only [Bool.false_eq_true, imp_false, haway, or_false]

/-- The claim of the only row of `checkins 1`. -/
def checkinClaim : OfflineActionRecord × OfflineActionStore :=
  ((checkins 1 (by decide)).claimNext 0).get (by decide +kernel)

theorem claimNext_checkin : (checkins 1 (by decide)).claimNext 0 = some checkinClaim :=
  (Option.some_get _).symm

theorem fetched_checkin : checkinClaim.1.packet.fetched = some checkinClaim.1.packet := by
  have hkey : headerValue checkinClaim.1.packet.idempotencyKey =
      some checkinClaim.1.packet.idempotencyKey := by decide +kernel
  rw [PacketRequest.fetched, hkey, Option.map_some]

/-- An order of somebody else. -/
def orderPacket : PacketRequest :=
  ⟨"order-0001", .obj [("type", .str "order.placed"), ("payload", .obj [])]⟩

/-- The first attempt of a check-in, half a second after an order, is published and taken as
delivered. -/
theorem deliver_agrees_first :
    let server := (serve purgeLarge .fresh [⟨"127.0.0.1", orderPacket, 0⟩]).2
    let result := handlePacket purgeLarge server "127.0.0.1" checkinClaim.1.packet 500
    let delivered := deliverOk (checkinClaim.1.packet.fetched.map fun sent =>
      (handlePacket purgeLarge server "127.0.0.1" sent 500).1.status)
    (∃ p ∈ result.2.published, p.key = checkinClaim.1.packet.idempotencyKey ∧
        500 < p.time + 60000) →
      delivered = true ∧ ∀ r ∈ (checkinClaim.2.settle checkinClaim.1.id delivered 500).rows,
        r.id = checkinClaim.1.id → r.status = .completed :=
  (deliver_agrees_iff (List.pairwise_singleton _ _) (by decide) claimNext_checkin fetched_checkin
    "127.0.0.1" 500).mpr (by decide +kernel)

/-- The second attempt, after the answer to the first one was lost, is answered `208`
and taken as failed, with the event published eight seconds before. -/
theorem not_deliver_agrees_second :
    checkinClaim.1.packet.fetched = some checkinClaim.1.packet ∧
    ¬ (let server := (serve purgeLarge .fresh [⟨"127.0.0.1", checkinClaim.1.packet, 0⟩]).2
      let result := handlePacket purgeLarge server "127.0.0.1" checkinClaim.1.packet 8000
      let delivered := deliverOk (checkinClaim.1.packet.fetched.map fun sent =>
        (handlePacket purgeLarge server "127.0.0.1" sent 8000).1.status)
      (∃ p ∈ result.2.published, p.key = checkinClaim.1.packet.idempotencyKey ∧
          8000 < p.time + 60000) →
        delivered = true ∧ ∀ r ∈ (checkinClaim.2.settle checkinClaim.1.id delivered 8000).rows,
          r.id = checkinClaim.1.id → r.status = .completed) :=
  ⟨fetched_checkin, by decide +kernel⟩

end Hotelia.Offline
