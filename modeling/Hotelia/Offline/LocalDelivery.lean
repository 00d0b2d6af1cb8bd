import Hotelia.Broker.Memory
import Hotelia.Offline.PassLimits

/-!
# Delivery to the local broker

The sync engine with the broker of the same console behind it: which passes keep
every row deliverable against the rate limit of the broker.

## Main definitions

- `localBroker` — the broker as the backend of a pass
- `KeysFresh`, `GrantedInTime` — the keys as they arrive are new, and the limiter lets them in

## Main results

- `flush_keeps_rows_iff`: when a pass leaves every row delivered or claimable.
-/

namespace Hotelia.Offline
open Foundation Foundation.RetryQueue OfflineActionRecord OfflineActionStore Broker

/-- The local broker as a backend. The `k`-th request reaches it at `clock k`, from
`ip`; the body parser in front of the handler refuses what does not fit its limit.
A request whose header `fetch` refuses is not sent at all. -/
def localBroker (fits : PacketRequest → Bool) (ip : String) (clock : ℕ → ℕ) :
    Backend (LocalServer × ℕ) where
  now w := clock w.2
  health w := (some true, w)
  post req w :=
    match req.fetched with
    | none => (none, w.1, w.2 + 1)
    | some sent =>
      if fits sent then
        let (r, server) := handlePacket purgeLarge w.1 ip sent (clock w.2)
        (some r.status, server, w.2 + 1)
      else (some 413, w.1, w.2 + 1)

theorem deliverOk_status {r : Response} : deliverOk (some r.status) = true ↔ r.status = 202 := by
  cases r with
  | rateLimited => decide
  | validationFailed => decide
  | unknownEvent type => simp [Response.status, deliverOk, httpOk]
  | answered accepted deduped => cases deduped <;> simp [Response.status, deliverOk, httpOk]

/-- A record of a listed action type is a packet that the broker takes. -/
theorem packetSchema_packet {r : OfflineActionRecord}
    (h : r.actionType ∈ actionToEvent.map Prod.fst) :
    packetSchema r.packet.body = some ⟨eventTypeOf r.actionType, zodRecord r.payload⟩ ∧
      Events.isValid (eventTypeOf r.actionType) = true := by
  have hlisted : ∀ a ∈ actionToEvent.map Prod.fst,
      lengthBetween 1 255 (eventTypeOf a) = true ∧ Events.isValid (eventTypeOf a) = true := by
    decide
  obtain ⟨hlen, hvalid⟩ := hlisted r.actionType h
  refine ⟨?_, hvalid⟩
  simp [packetSchema, packet, List.lookup_cons, hlen]

/-- What is remembered under one key leaves the other keys as fresh as they were. -/
theorem lookup_remember_ne {w : Window} {key key' event : String} {now : ℕ} (hne : key' ≠ key)
    (h : w.lookup key' = none) : (remember purgeLarge w key event now).lookup key' = none := by
  cases hlookup : (remember purgeLarge w key event now).lookup key' with
  | none => rfl
  | some e =>
    cases lookup_remember hlookup with
    | inl hnew => exact absurd hnew.1 hne
    | inr hold => exact nomatch h.symm.trans hold

/-- The key of a row as it arrives at the broker. -/
def OfflineActionRecord.sentKey (r : OfflineActionRecord) : Option String :=
  headerValue r.idempotencyKey

/-- Only the key is not sent as it is. -/
theorem fetched_packet {r : OfflineActionRecord} {sent : PacketRequest}
    (h : r.packet.fetched = some sent) :
    r.sentKey = some sent.idempotencyKey ∧ sent.body = r.packet.body := by
  obtain ⟨key, hkey, rfl⟩ := Option.map_eq_some_iff.mp h
  exact ⟨hkey, rfl⟩

/-- The broker does not know the key of the row, as it arrives; of an empty key it knows nothing. -/
def Unseen (w : Window) (r : OfflineActionRecord) : Prop :=
  ∀ key ∈ r.sentKey, key ≠ "" → w.lookup key = none

/-- The keys of two rows, as they arrive, are not the same. Empty keys do not count. -/
def KeysDiffer (r r' : OfflineActionRecord) : Prop :=
  ∀ key ∈ r.sentKey, key ≠ "" → r'.sentKey ≠ some key

instance (w : Window) (r : OfflineActionRecord) : Decidable (Unseen w r) :=
  inferInstanceAs (Decidable (∀ key ∈ r.sentKey, key ≠ "" → w.lookup key = none))

instance (r r' : OfflineActionRecord) : Decidable (KeysDiffer r r') :=
  inferInstanceAs (Decidable (∀ key ∈ r.sentKey, key ≠ "" → r'.sentKey ≠ some key))

section Pass

variable {fits : PacketRequest → Bool} {ip : String} {clock : ℕ → ℕ} {server : LocalServer}

/-- A row that the broker accepts as soon as its limiter lets the request pass. -/
structure Sendable (fits : PacketRequest → Bool) (w : Window) (r : OfflineActionRecord) : Prop where
  fits : r.packet.fetched.any fits = true
  listed : r.actionType ∈ actionToEvent.map Prod.fst
  unseen : Unseen w r

/-- The `k`-th request of a pass is next, and the rows not delivered yet can be sent. -/
structure Awaiting (fits : PacketRequest → Bool) (ip : String) (clock : ℕ → ℕ)
    (server : LocalServer) (k : ℕ) (s : OfflineActionStore) (w : LocalServer × ℕ) : Prop where
  count : w.2 = k
  limiter : w.1.limiter = server.limiter.after ip clock k
  sendable : ∀ r ∈ s.rows, r.status ≠ .completed → Sendable fits w.1.window r
  distinct : ∀ r ∈ s.rows, ∀ r' ∈ s.rows, r.status ≠ .completed → r'.status ≠ .completed →
    r.id ≠ r'.id → KeysDiffer r r'

theorem Sendable.marked {w : Window} {r : OfflineActionRecord} (h : Sendable fits w r)
    (ok : Bool) (error : String) (now : ℕ) : Sendable fits w (r.marked ok error now) := by
  cases ok <;> exact ⟨h.fits, h.listed, h.unseen⟩

section Post

variable {b : LocalServer} {row : OfflineActionRecord} {sent : PacketRequest} {now : ℕ}

/-- A packet that fits reaches the handler. -/
theorem post_localBroker (hsent : row.packet.fetched = some sent) (hfits : fits sent = true)
    (k : ℕ) :
    (localBroker fits ip clock).post row.packet (b, k) =
      (some (handlePacket purgeLarge b ip sent (clock k)).1.status,
        (handlePacket purgeLarge b ip sent (clock k)).2, k + 1) := by
  simp only [localBroker, hsent, if_pos hfits]

/-- The packet of a sendable row is published as soon as the limiter lets it pass. -/
theorem handlePacket_of_sendable (hsend : Sendable fits b.window row)
    (hsent : row.packet.fetched = some sent) (hl : (b.limiter.allows ip now).1 = true) :
    handlePacket purgeLarge b ip sent now =
      (.answered (eventTypeOf row.actionType) false,
        b.accept purgeLarge ip sent ⟨eventTypeOf row.actionType, zodRecord row.payload⟩ now) := by
  obtain ⟨hparsed, hvalid⟩ := packetSchema_packet hsend.listed
  obtain ⟨hkey, hbody⟩ := fetched_packet hsent
  rw [← hbody] at hparsed
  rw [handlePacket_of_parsed hl hparsed hvalid]
  split
  · rfl
  · next hne =>
    have hnone : ExpiringMap.peek windowMs b.window now sent.idempotencyKey = none := by
      rw [ExpiringMap.peek, hsend.unseen _ hkey hne, Option.filter_none]
    rw [hnone]

end Post

section Answered

variable {k : ℕ} {s s₁ : OfflineActionStore} {w : LocalServer × ℕ} {row : OfflineActionRecord}
  {now now' : ℕ} {error : String}

/-- A row that the broker refuses can be sent again. -/
theorem Awaiting.sendable_of_refused (hw : Awaiting fits ip clock server k s w)
    (hclaim : s.claimNext now = some (row.claimed now, s₁)) (hsend : Sendable fits w.1.window row)
    (r : OfflineActionRecord) (hr : r ∈ (s₁.mark row.id false error now').rows)
    (hopen : r.status ≠ .completed) : Sendable fits w.1.window r := by
  cases mem_claim_mark hclaim hr with
  | inl hserved =>
    obtain ⟨_, _, _, rfl⟩ := hserved
    exact hsend.marked _ _ _
  | inr hold => exact hw.sendable r hold.1 hopen

/-- A row that it accepts is delivered, and the others have other keys. -/
theorem Awaiting.sendable_of_accepted (hw : Awaiting fits ip clock server k s w)
    (hclaim : s.claimNext now = some (row.claimed now, s₁)) (hmem : row ∈ s.rows)
    (hrow : row.status ≠ .completed) {sent : PacketRequest}
    (hsent : row.packet.fetched = some sent) (r : OfflineActionRecord)
    (hr : r ∈ (s₁.mark row.id true error now').rows) (hopen : r.status ≠ .completed)
    {event : String} {at' : ℕ} :
    Sendable fits (remember purgeLarge w.1.window sent.idempotencyKey event at') r := by
  cases mem_claim_mark hclaim hr with
  | inl hserved =>
    obtain ⟨_, _, _, rfl⟩ := hserved
    exact absurd rfl hopen
  | inr hold =>
    have h := hw.sendable r hold.1 hopen
    refine ⟨h.fits, h.listed, fun key hkey hne => lookup_remember_ne ?_ (h.unseen key hkey hne)⟩
    rintro rfl
    exact hw.distinct r hold.1 row hmem hopen hrow hold.2 _ hkey hne (fetched_packet hsent).1

/-- A row that is served keeps its key. -/
theorem Awaiting.distinct_of_served (hw : Awaiting fits ip clock server k s w)
    (hclaim : s.claimNext now = some (row.claimed now, s₁)) (hmem : row ∈ s.rows)
    (hrow : row.status ≠ .completed) (ok : Bool) :
    ∀ r ∈ (s₁.mark row.id ok error now').rows, ∀ r' ∈ (s₁.mark row.id ok error now').rows,
      r.status ≠ .completed → r'.status ≠ .completed → r.id ≠ r'.id → KeysDiffer r r' := by
  have hsource : ∀ r ∈ (s₁.mark row.id ok error now').rows, r.status ≠ .completed →
      ∃ old ∈ s.rows, old.status ≠ .completed ∧ old.id = r.id ∧ old.sentKey = r.sentKey := by
    intro r hr hopen
    cases mem_claim_mark hclaim hr with
    | inl hserved =>
      obtain ⟨_, _, _, rfl⟩ := hserved
      exact ⟨row, hmem, hrow, by cases ok <;> rfl, by cases ok <;> rfl⟩
    | inr hold => exact ⟨r, hold.1, hopen, rfl, rfl⟩
  intro r hr r' hr' hopen hopen' hne
  obtain ⟨old, hold, ho, hid, hkey⟩ := hsource r hr hopen
  obtain ⟨old', hold', ho', hid', hkey'⟩ := hsource r' hr' hopen'
  rw [KeysDiffer, ← hkey, ← hkey']
  exact hw.distinct old hold old' hold' ho ho' (by rwa [hid, hid'])

end Answered

/-- The answers of the broker to sendable rows are the decisions of its limiter. -/
theorem answers_localBroker :
    Answers (localBroker fits ip clock) (server.limiter.grants ip clock)
      (Awaiting fits ip clock server) := by
  intro k s w c s₁ hw hclaim
  obtain ⟨b, k'⟩ := w
  obtain rfl : k' = k := hw.count
  obtain ⟨row, hrow, rfl, -⟩ := claimNext_eq_some hclaim
  obtain ⟨hmem, hrc, -⟩ := findClaimable_eq_some hrow
  have hopen : row.status ≠ .completed := hrc.not_completed
  have hsend := hw.sendable row hmem hopen
  obtain ⟨sent, hsent, hfits⟩ := (Option.any_eq_true _ _).mp hsend.fits
  have hlimiter : b.limiter = server.limiter.after ip clock k' := hw.limiter
  have hnext : (b.limiter.allows ip (clock k')).2 = server.limiter.after ip clock (k' + 1) := by
    rw [hlimiter]
    rfl
  have hgrant : (b.limiter.allows ip (clock k')).1 = server.limiter.grants ip clock k' := by
    rw [hlimiter]
    rfl
  have hclaimed : (row.claimed (clock k')).packet.fetched = some sent := hsent
  have hpost : (localBroker fits ip clock).post (row.claimed (clock k')).packet (b, k') = _ :=
    post_localBroker hclaimed hfits k'
  show deliverOk ((localBroker fits ip clock).post (row.claimed (clock k')).packet (b, k')).1 = _ ∧
    Awaiting fits ip clock server (k' + 1)
      (s₁.settle row.id (server.limiter.grants ip clock k') _)
      ((localBroker fits ip clock).post (row.claimed (clock k')).packet (b, k')).2
  rw [hpost]
  cases hg : server.limiter.grants ip clock k' with
  | false =>
    rw [handlePacket_of_limited (hgrant.trans hg)]
    exact ⟨(by decide : deliverOk (some 429) = false), rfl, hnext,
      hw.sendable_of_refused hclaim hsend, hw.distinct_of_served hclaim hmem hopen false⟩
  | true =>
    rw [handlePacket_of_sendable hsend hsent (hgrant.trans hg)]
    refine ⟨(by decide : deliverOk (some 202) = true), rfl, hnext, ?_,
      hw.distinct_of_served hclaim hmem hopen true⟩
    intro r hr hopen'
    exact hw.sendable_of_accepted hclaim hmem hopen hsent r hr hopen'

/-! ## Rows that no pass delivers -/

/-- The row is not delivered yet. -/
def Open (s : OfflineActionStore) (i : String) (req : PacketRequest) : Prop :=
  ∃ r ∈ s.rows, r.id = i ∧ r.packet = req ∧ r.status ≠ .completed

section Open

variable {σ : Type*} {net : Backend σ} {s s₁ : OfflineActionStore} {c : OfflineActionRecord}
  {i : String} {req : PacketRequest} {now now' : ℕ}

theorem Open.claim (h : Open s i req) (hclaim : s.claimNext now = some (c, s₁)) :
    Open s₁ i req := by
  obtain ⟨r, hr, hid, hpacket, hopen⟩ := h
  obtain ⟨row, -, -, hrows⟩ := claimNext_eq_some hclaim
  refine ⟨_, hrows ▸ List.mem_map_of_mem hr, ?_⟩
  split
  · exact ⟨hid, hpacket, by simp [claimed]⟩
  · exact ⟨hid, hpacket, hopen⟩

/-- A turn delivers a row only if it is its own. -/
theorem Open.settle (h : Open s i req) (hclaim : s.claimNext now = some (c, s₁)) {ok : Bool}
    (hrefused : c.id = i → c.packet = req → ok = false) : Open (s₁.settle c.id ok now') i req := by
  obtain ⟨r, hr, hid, hpacket, hopen⟩ := h
  obtain ⟨row, hrow, hc, hrows⟩ := claim_mark_rows ok deliveryFailed now' hclaim
  refine ⟨_, hrows ▸ List.mem_map_of_mem hr, ?_⟩
  split
  · next hrid =>
    obtain rfl := s.eq_of_id_eq hr (findClaimable_eq_some hrow).1 hrid
    rw [hrefused (hc ▸ hid) (hc ▸ hpacket)]
    exact ⟨hid, hpacket, by simp [marked, failed]⟩
  · exact ⟨hid, hpacket, hopen⟩

/-- A pass that leaves a row open has lost one: what it can still claim it claims. -/
theorem not_kept_of_open {n : ℕ} {p : FlushPass σ} (h : Open (flushLoop net n p).store i req) :
    ¬ ∀ r ∈ (flushLoop net n p).store.rows, r.status = .completed ∨ r.Claimable := by
  intro hsafe
  obtain ⟨r, hr, -, -, hopen⟩ := h
  have hclaimable : r.Claimable := (hsafe r hr).resolve_left hopen
  cases flushLoop_end net n p with
  | inl hnone => exact hnone r hr hclaimable
  | inr hstuck =>
    obtain ⟨c, hc, hprocessing⟩ := hstuck
    cases hsafe c hc with
    | inl hdone => cases hdone.symm.trans hprocessing
    | inr hagain => exact hagain.not_processing hprocessing

end Open

theorem post_count (fits : PacketRequest → Bool) (ip : String) (clock : ℕ → ℕ)
    (req : PacketRequest) (w : LocalServer × ℕ) :
    ((localBroker fits ip clock).post req w).2.2 = w.2 + 1 := by
  simp only [localBroker]
  split
  · rfl
  · split <;> rfl

/-- A packet that `fetch` does not send, or the parser does not take, is not delivered. -/
theorem refused_of_unfit {req : PacketRequest} (h : req.fetched.any fits = false)
    (w : LocalServer × ℕ) : deliverOk ((localBroker fits ip clock).post req w).1 = false := by
  simp only [localBroker]
  cases hsent : req.fetched with
  | none => rfl
  | some sent =>
    have hunfit : fits sent = false := by rwa [hsent] at h
    simp [hunfit, deliverOk, httpOk]

/-- A row whose packet is not sent or does not fit is not delivered, whatever the pass does. -/
theorem unfit_flushLoop {n : ℕ} {p : FlushPass (LocalServer × ℕ)} {i : String}
    {req : PacketRequest} (hreq : req.fetched.any fits = false) (hp : Open p.store i req) :
    Open (flushLoop (localBroker fits ip clock) n p).store i req := by
  have hend : ∃ _ : ℕ, Open (flushLoop (localBroker fits ip clock) n p).store i req := by
    refine flushLoop_keeps (P := fun _ s _ => Open s i req) ?_ ?_ hp
    · intro s w c s₁ h hclaim
      exact h.claim hclaim
    · intro n s w c s₁ h hclaim
      refine h.settle hclaim fun _ hpacket => ?_
      rw [hpacket]
      exact refused_of_unfit hreq w
  obtain ⟨_, h⟩ := hend
  exact h

/-! ## Keys that are the same when they arrive -/

/-- The requests of a pass come within a minute, and nothing of what the window holds expires
before the last of them. -/
structure Brief (clock : ℕ → ℕ) (w : Window) : Prop where
  monotone : Monotone clock
  within : ∀ k < flushCeiling, clock k < clock 0 + windowMs
  held : ∀ key e, w.lookup key = some e → ∀ k < flushCeiling, clock k < e.time + windowMs

/-- From the `k`-th request on the broker knows the key, to the end of the pass. -/
def Taken (clock : ℕ → ℕ) (w : Window) (k : ℕ) (key : String) : Prop :=
  ∃ since ≤ clock k, Remembers w (clock k) key since ∧
    ∀ j < flushCeiling, clock j < since + windowMs

section Taken

variable {w : Window} {b : LocalServer} {k : ℕ} {key : String} {req : PacketRequest}

theorem Brief.taken (h : Brief clock w) {e : Stamped String} (hkey : w.lookup key = some e) :
    Taken clock w 0 key := by
  refine ⟨min e.time (clock 0), min_le_right _ _, fun t _ hlt => ?_, fun j hj => ?_⟩
  · have hlive : t < e.time + windowMs := by omega
    rw [ExpiringMap.peek_eq_some.mpr ⟨hkey, hlive⟩]
    exact Option.some_ne_none _
  · have hwithin := h.within j hj
    have hheld := h.held key e hkey j hj
    omega

theorem Taken.later (hclock : Monotone clock) (h : Taken clock w k key) :
    Taken clock w (k + 1) key := by
  obtain ⟨since, hsince, hremembers, hlast⟩ := h
  have hle : clock k ≤ clock (k + 1) := hclock (Nat.le_succ k)
  exact ⟨since, hsince.trans hle, hremembers.mono hle, hlast⟩

theorem Taken.post (hclock : Monotone clock) (h : Taken clock b.window k key)
    (req : PacketRequest) :
    Taken clock ((localBroker fits ip clock).post req (b, k)).2.1.window (k + 1) key := by
  simp only [localBroker]
  split
  · exact h.later hclock
  · split
    · obtain ⟨since, hsince, hremembers, hlast⟩ := h
      exact Taken.later hclock
        ⟨since, hsince, hremembers.handlePacket unnoticed_purgeLarge hsince ip _, hlast⟩
    · exact h.later hclock

/-- Under a key that is taken nothing is delivered. -/
theorem Taken.refused (h : Taken clock b.window k key) (hk : k < flushCeiling) (hne : key ≠ "")
    (hkey : headerValue req.idempotencyKey = some key) :
    deliverOk ((localBroker fits ip clock).post req (b, k)).1 = false := by
  obtain ⟨since, -, hremembers, hlast⟩ := h
  simp only [localBroker, PacketRequest.fetched, hkey, Option.map_some]
  split
  · rw [Bool.eq_false_iff, ne_eq, deliverOk_status]
    exact not_accepted_of_remembers hne hremembers (hlast k hk)
  · rfl

/-- And a key under which something is delivered is taken. -/
theorem taken_of_delivered (h : Brief clock w) (hne : key ≠ "")
    (hkey : headerValue req.idempotencyKey = some key)
    (hok : deliverOk ((localBroker fits ip clock).post req (b, k)).1 = true) :
    Taken clock ((localBroker fits ip clock).post req (b, k)).2.1.window (k + 1) key := by
  simp only [localBroker, PacketRequest.fetched, hkey, Option.map_some] at hok ⊢
  split at hok
  · next hfits =>
    rw [if_pos hfits]
    refine Taken.later h.monotone ⟨clock k, le_rfl, ?_, fun j hj => ?_⟩
    · exact remembers_of_accepted unnoticed_purgeLarge hne (deliverOk_status.mp hok)
    · exact (h.within j hj).trans_le (Nat.add_le_add_right (h.monotone (Nat.zero_le k)) _)
  · cases hok

end Taken

/-- A row is open whose key is taken, or is also that of another row that is open. -/
def Blocked (clock : ℕ → ℕ) (key : String) (s : OfflineActionStore) (w : LocalServer × ℕ) : Prop :=
  ∃ i req, Open s i req ∧ headerValue req.idempotencyKey = some key ∧
    (Taken clock w.1.window w.2 key ∨
      ∃ i' req', i' ≠ i ∧ Open s i' req' ∧ headerValue req'.idempotencyKey = some key)

/-- A turn can deliver one of the two rows at most, and then their key is taken. -/
theorem Blocked.turn {window : Window} {key : String} (hbrief : Brief clock window)
    (hne : key ≠ "") {s s₁ : OfflineActionStore} {w : LocalServer × ℕ} {c : OfflineActionRecord}
    {now now' : ℕ} (h : Blocked clock key s w) (hk : w.2 < flushCeiling)
    (hclaim : s.claimNext now = some (c, s₁)) :
    Blocked clock key
      (s₁.settle c.id (deliverOk ((localBroker fits ip clock).post c.packet w).1) now')
      ((localBroker fits ip clock).post c.packet w).2 := by
  obtain ⟨b, k⟩ := w
  have hnext := post_count fits ip clock c.packet (b, k)
  obtain ⟨i, req, hopen, hkey, htaken | ⟨i', req', hi, hopen', hkey'⟩⟩ := h
  · refine ⟨i, req, hopen.settle hclaim fun _ hpacket => ?_, hkey, .inl ?_⟩
    · rw [hpacket]
      exact htaken.refused hk hne hkey
    · rw [hnext]
      exact htaken.post hbrief.monotone c.packet
  · cases hok : deliverOk ((localBroker fits ip clock).post c.packet (b, k)).1 with
    | false =>
      exact ⟨i, req, hopen.settle hclaim fun _ _ => rfl, hkey,
        .inr ⟨i', req', hi, hopen'.settle hclaim fun _ _ => rfl, hkey'⟩⟩
    | true =>
      by_cases hc : headerValue c.packet.idempotencyKey = some key
      -- the key of the row that is delivered is taken now, and the other one is still open
      · have htaken := taken_of_delivered hbrief hne hc hok
        rw [← hnext] at htaken
        by_cases hci : c.id = i
        · exact ⟨i', req', hopen'.settle hclaim fun hci' => absurd (hci'.symm.trans hci) hi, hkey',
            .inl htaken⟩
        · exact ⟨i, req, hopen.settle hclaim fun hci' => absurd hci' hci, hkey, .inl htaken⟩
      · exact ⟨i, req, hopen.settle hclaim fun _ hpacket => absurd (hpacket ▸ hkey) hc, hkey,
          .inr ⟨i', req', hi, hopen'.settle hclaim fun _ hpacket => absurd (hpacket ▸ hkey') hc,
            hkey'⟩⟩

/-- One of the rows is still open when the pass ends. -/
theorem blocked_flushLoop {window : Window} {key : String} (hbrief : Brief clock window)
    (hne : key ≠ "") {n : ℕ} {p : FlushPass (LocalServer × ℕ)}
    (hn : n + p.backend.2 = flushCeiling) (h : Blocked clock key p.store p.backend) :
    ∃ i req, Open (flushLoop (localBroker fits ip clock) n p).store i req := by
  have hend : ∃ m, m + (flushLoop (localBroker fits ip clock) n p).backend.2 = flushCeiling ∧
      Blocked clock key (flushLoop (localBroker fits ip clock) n p).store
        (flushLoop (localBroker fits ip clock) n p).backend := by
    refine flushLoop_keeps (P := fun n s w => n + w.2 = flushCeiling ∧ Blocked clock key s w)
      ?_ ?_ ⟨hn, h⟩
    · rintro s w c s₁ ⟨hcount, i, req, hopen, hkey, hwhy⟩ hclaim
      refine ⟨hcount, i, req, hopen.claim hclaim, hkey, hwhy.imp_right ?_⟩
      rintro ⟨i', req', hi, hopen', hkey'⟩
      exact ⟨i', req', hi, hopen'.claim hclaim, hkey'⟩
    · rintro n s w c s₁ ⟨hcount, hblocked⟩ hclaim
      have hnext := post_count fits ip clock c.packet w
      exact ⟨(congrArg (n + ·) hnext).trans (by omega),
        hblocked.turn hbrief hne (by omega) hclaim⟩
  obtain ⟨m, -, i, req, hopen, -⟩ := hend
  exact ⟨i, req, hopen⟩

end Pass

section Flush

variable (e : SyncEngine) (fits : PacketRequest → Bool) (ip : String) (clock : ℕ → ℕ)
  (server : LocalServer)

theorem flush_localBroker_store :
    (flush (localBroker fits ip clock) e (server, 0)).1.store =
      (flushLoop (localBroker fits ip clock) flushCeiling
        ⟨e.store, (server, 0), 0, [], []⟩).store := by
  have hprobe : (e.probeOnline (some true)).store = e.store := e.probeOnline_store (some true)
  rw [← hprobe]
  show (if _ then _ else _ : SyncEngine).store = _
  split <;> rfl

/-- The keys of the rows that are to be sent are new to the broker when they arrive, and no two of
them are the same. -/
structure KeysFresh (s : OfflineActionStore) (w : Window) : Prop where
  unseen : ∀ r ∈ s.rows, r.status = .pending → Unseen w r
  differ : ∀ r ∈ s.rows, ∀ r' ∈ s.rows, r.status = .pending → r'.status = .pending →
    r.id ≠ r'.id → KeysDiffer r r'

/-- All rows fit the body limit and, within the requests of one pass, the limiter grants as many
as there are rows, and does not refuse seven in a row once the first round is over. -/
def GrantedInTime (s : OfflineActionStore) : Prop :=
  (∀ r ∈ s.rows, r.status = .pending → r.packet.fetched.any fits = true) ∧
    ∃ M ≤ flushCeiling,
      Nat.count (fun k => server.limiter.grants ip clock k = true) M = s.queue.length ∧
      ∀ i, s.queue.length ≤ i → i + 7 ≤ M →
        ∃ t < 7, server.limiter.grants ip clock (i + t) = true

section Rows

variable {e fits ip clock server}

theorem kept_iff_grantedInTime
    (hrows : ∀ r ∈ e.store.rows, r.status = .completed ∨
      (r.status = .pending ∧ r.retryCount = 0 ∧ r.actionType ∈ actionToEvent.map Prod.fst))
    (hkeys : KeysFresh e.store server.window) :
    (∀ r ∈ (flush (localBroker fits ip clock) e (server, 0)).1.store.rows,
      r.status = .completed ∨ r.Claimable) ↔ GrantedInTime fits ip clock server e.store := by
  rw [flush_localBroker_store]
  have hstart : Undamaged e.store := fun r hr => (hrows r hr).imp_right fun h => .inl h.1
  by_cases hfits : ∀ r ∈ e.store.rows, r.status = .pending → r.packet.fetched.any fits = true
  · rw [GrantedInTime, and_iff_right hfits]
    have hpending : ∀ r ∈ e.store.rows, r.status ≠ .completed → r.status = .pending :=
      fun r hr hopen => ((hrows r hr).resolve_left hopen).1
    have hawait : Awaiting fits ip clock server 0 e.store (server, 0) := by
      refine ⟨rfl, rfl, ?_, ?_⟩
      · intro r hr hopen
        obtain ⟨hp, -, hlisted⟩ := (hrows r hr).resolve_left hopen
        exact ⟨hfits r hr hp, hlisted, hkeys.unseen r hr hp⟩
      · intro r hr r' hr' hopen hopen'
        exact hkeys.differ r hr r' hr' (hpending r hr hopen) (hpending r' hr' hopen')
    refine (undamaged_flushLoop_iff answers_localBroker hawait hstart).trans ?_
    have htickets : ∀ t ∈ e.store.queue, t.Fresh ∧ t.left = 7 + 1 := by
      intro t ht
      obtain ⟨r, hr, hc, rfl⟩ := mem_queue.mp ht
      obtain ⟨hp, hcount, -⟩ := (hrows r hr).resolve_left hc.not_completed
      simp [Ticket.Fresh, Ticket.left, ticket, rank, hp, hcount, maxRetryCount]
    exact clears_iff_exists_count Ticket.inRounds_retry Ticket.budget_left (by decide)
      e.store.isQueue_queue (fun t ht => (htickets t ht).1) (fun t ht => (htickets t ht).2)
  · refine iff_of_false ?_ fun h => hfits h.1
    push Not at hfits
    obtain ⟨r, hr, hpending, hunfit⟩ := hfits
    exact not_kept_of_open (unfit_flushLoop (Bool.eq_false_iff.mpr hunfit)
      ⟨r, hr, rfl, rfl, by simp [hpending]⟩)

/-- Where keys are the same when they arrive, or known to the broker, a pass that is brief enough
loses a row. -/
theorem keysFresh_of_kept (hbrief : Brief clock server.window)
    (hkept : ∀ r ∈ (flush (localBroker fits ip clock) e (server, 0)).1.store.rows,
      r.status = .completed ∨ r.Claimable) : KeysFresh e.store server.window := by
  rw [flush_localBroker_store] at hkept
  have hunblocked : ∀ key, key ≠ "" → ¬ Blocked clock key e.store (server, 0) := by
    intro key hne hblocked
    let p : FlushPass (LocalServer × ℕ) := ⟨e.store, (server, 0), 0, [], []⟩
    obtain ⟨i, req, hopen⟩ :
        ∃ i req, Open (flushLoop (localBroker fits ip clock) flushCeiling p).store i req :=
      blocked_flushLoop hbrief hne (Nat.add_zero flushCeiling) hblocked
    exact not_kept_of_open hopen hkept
  have hopen {r : OfflineActionRecord} (hr : r ∈ e.store.rows) (hpending : r.status = .pending) :
      Open e.store r.id r.packet := ⟨r, hr, rfl, rfl, by simp [hpending]⟩
  constructor
  · intro r hr hpending key hkey hne
    by_contra hknown
    obtain ⟨entry, hentry⟩ := Option.ne_none_iff_exists'.mp hknown
    exact hunblocked key hne ⟨r.id, r.packet, hopen hr hpending, hkey, .inl (hbrief.taken hentry)⟩
  · intro r hr r' hr' hpending hpending' hid key hkey hne hkey'
    exact hunblocked key hne ⟨r.id, r.packet, hopen hr hpending, hkey,
      .inr ⟨r'.id, r'.packet, hid.symm, hopen hr' hpending', hkey'⟩⟩

end Rows

end Flush

end Hotelia.Offline
