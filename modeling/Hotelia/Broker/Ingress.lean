import Hotelia.Broker.Packet

/-!
# Sequences of packets

What the broker publishes and remembers over a sequence of requests, and that
the purge of its window is never noticed.
-/

namespace Hotelia.Broker
open Foundation ExpiringMap

/-- A purge that leaves alone what the window recalls from now on. -/
def Unnoticed (purge : Window → ℕ → Window) : Prop :=
  ∀ w w' now, Agree windowMs now w w' → Agree windowMs now (purge w now) w'

theorem unnoticed_purgeLarge : Unnoticed purgeLarge := by
  intro w w' now h
  rw [purgeLarge]
  split
  · exact h.purge_left
  · exact h

theorem unnoticed_never : Unnoticed fun w _ => w := fun _ _ _ h => h

/-- From `now` on the window recalls `key` for as long as it was written at `since`, or later. -/
def Remembers (w : Window) (now : ℕ) (key : String) (since : ℕ) : Prop :=
  ∀ t, now ≤ t → t < since + windowMs → peek windowMs w t key ≠ none

section Remember

variable {purge : Window → ℕ → Window} {w : Window} {now later since : ℕ} {key key' : String}

theorem Remembers.mono (h : Remembers w now key since) (hle : now ≤ later) :
    Remembers w later key since :=
  fun t ht hlt => h t (le_trans hle ht) hlt

/-- What is accepted is remembered from then on. -/
theorem peek_remember (hp : Unnoticed purge) (event : String) {t : ℕ} (ht : now ≤ t) (k : String) :
    peek windowMs (remember purge w key event now) t k =
      if key ≠ "" ∧ k = key then
        if t < now + windowMs then some ⟨now, event⟩ else none
      else peek windowMs w t k := by
  rw [remember]
  by_cases hk : key = ""
  · simp [hk]
  · rw [if_pos hk, hp _ _ now (agree_refl now (w.record now key event)) t ht k]
    by_cases he : k = key
    · rw [he, peek_record_self, if_pos (⟨hk, rfl⟩ : key ≠ "" ∧ key = key)]
    · rw [peek_record_ne w now t event he, if_neg fun h => he h.2]

theorem remembers_remember_self (hp : Unnoticed purge) (event : String) (hk : key ≠ "") :
    Remembers (remember purge w key event now) now key now := by
  intro t ht hlt
  rw [peek_remember hp event ht, if_pos ⟨hk, rfl⟩, if_pos hlt]
  exact Option.some_ne_none _

theorem Remembers.remember (hp : Unnoticed purge) (h : Remembers w now key since)
    (hs : since ≤ now) (event : String) :
    Remembers (remember purge w key' event now) now key since := by
  intro t ht hlt
  rw [peek_remember hp event ht]
  split
  · rw [if_pos (by omega)]
    exact Option.some_ne_none _
  · exact h t ht hlt

end Remember

section Serve

variable {purge : Window → ℕ → Window}

/-- One request keeps what the window remembers. -/
theorem Remembers.handlePacket (hp : Unnoticed purge) {b : LocalServer} {now since : ℕ}
    {key : String} (h : Remembers b.window now key since) (hs : since ≤ now) (ip : String)
    (req : PacketRequest) :
    Remembers (handlePacket purge b ip req now).2.window now key since := by
  cases handlePacket_cases purge b ip req now with
  | inl hrefused =>
    obtain ⟨r, -, heq⟩ := hrefused
    rw [heq]
    exact h
  | inr haccepted =>
    obtain ⟨parsed, -, -, -, -, heq⟩ := haccepted
    rw [heq]
    exact h.remember hp hs parsed.type

/-- An accepted key is remembered from its acceptance on. -/
theorem remembers_of_accepted (hp : Unnoticed purge) {b : LocalServer} {ip : String}
    {req : PacketRequest} {now : ℕ} (hk : req.idempotencyKey ≠ "")
    (h : (handlePacket purge b ip req now).1.status = 202) :
    Remembers (handlePacket purge b ip req now).2.window now req.idempotencyKey now := by
  cases handlePacket_cases purge b ip req now with
  | inl hrefused =>
    obtain ⟨r, hr, heq⟩ := hrefused
    rw [heq] at h
    exact absurd h hr
  | inr haccepted =>
    obtain ⟨parsed, -, -, -, -, heq⟩ := haccepted
    rw [heq]
    exact remembers_remember_self hp parsed.type hk

/-- A key that is remembered is not accepted again within the window. -/
theorem not_accepted_of_remembers {b : LocalServer} {ip : String} {req : PacketRequest}
    {now since : ℕ} (hk : req.idempotencyKey ≠ "")
    (hr : Remembers b.window now req.idempotencyKey since) (hlt : now < since + windowMs) :
    (handlePacket purge b ip req now).1.status ≠ 202 := by
  cases handlePacket_cases purge b ip req now with
  | inl hrefused =>
    obtain ⟨r, hr, heq⟩ := hrefused
    rwa [heq]
  | inr haccepted =>
    obtain ⟨parsed, -, -, -, hnone, -⟩ := haccepted
    exact absurd (hnone hk) (hr now le_rfl hlt)

/-- A request that is not answered `202` publishes nothing and leaves the window alone. -/
theorem handlePacket_of_status_ne (b : LocalServer) (ip : String) (req : PacketRequest) (now : ℕ)
    (h : (handlePacket purge b ip req now).1.status ≠ 202) :
    (handlePacket purge b ip req now).2.published = b.published ∧
      (handlePacket purge b ip req now).2.window = b.window := by
  cases handlePacket_cases purge b ip req now with
  | inl hrefused =>
    obtain ⟨r, -, heq⟩ := hrefused
    rw [heq]
    exact ⟨rfl, rfl⟩
  | inr haccepted =>
    obtain ⟨parsed, -, -, -, -, heq⟩ := haccepted
    rw [heq] at h
    exact absurd rfl h

/-- One request publishes its event exactly if it is answered `202`. -/
theorem published_handlePacket (b : LocalServer) (ip : String) (req : PacketRequest) (now : ℕ) :
    (handlePacket purge b ip req now).2.published.map (fun p => some p.event) =
      b.published.map (fun p => some p.event) ++
        if (handlePacket purge b ip req now).1.status = 202 then [packetSchema req.body] else [] := by
  cases handlePacket_cases purge b ip req now with
  | inl hrefused =>
    obtain ⟨r, hr, heq⟩ := hrefused
    rw [heq, if_neg hr, List.append_nil]
    rfl
  | inr haccepted =>
    obtain ⟨parsed, -, hparsed, -, -, heq⟩ := haccepted
    rw [heq, hparsed]
    simp [LocalServer.accept, Response.status]

theorem published_serve (b : LocalServer) (as : List Arrival) :
    (serve purge b as).2.published.map (fun p => some p.event) =
      b.published.map (fun p => some p.event) ++
        ((serve purge b as).1.filter (·.2.status = 202)).map (packetSchema ·.1.request.body) := by
  induction as generalizing b with
  | nil => simp [serve]
  | cons a as ih =>
    simp only [serve, ih, published_handlePacket, List.append_assoc]
    by_cases h : (handlePacket purge b a.ip a.request a.time).1.status = 202 <;> simp [h]

/-- While a key is remembered, no arrival with that key is accepted. -/
theorem late_of_remembers (hp : Unnoticed purge) {b : LocalServer} {key : String} {since now : ℕ}
    (hk : key ≠ "") (hs : since ≤ now) {as : List Arrival} (hnow : ∀ a ∈ as, now ≤ a.time)
    (hsorted : as.Pairwise (·.time ≤ ·.time)) (h : Remembers b.window now key since) :
    ∀ x ∈ (serve purge b as).1, x.2.status = 202 → x.1.request.idempotencyKey = key →
      since + windowMs ≤ x.1.time := by
  induction as generalizing b now with
  | nil => simp [serve]
  | cons a as ih =>
    have hna : now ≤ a.time := hnow a List.mem_cons_self
    have hrest := List.pairwise_cons.mp hsorted
    have ha : Remembers b.window a.time key since := h.mono hna
    intro x hx h202 hkey
    simp only [serve, List.mem_cons] at hx
    cases hx with
    -- the head comes too early, and the tail is served by a broker that remembers still
    | inl hhead =>
      subst hhead
      by_contra hlt
      subst hkey
      exact not_accepted_of_remembers hk ha (by simpa using hlt) h202
    | inr htail =>
      have hs' : since ≤ a.time := le_trans hs hna
      exact ih hs' hrest.1 hrest.2 (ha.handlePacket hp hs' a.ip a.request) x htail h202 hkey

theorem accepted_apart (hp : Unnoticed purge) (b : LocalServer) {as : List Arrival}
    (hsorted : as.Pairwise (·.time ≤ ·.time)) :
    (serve purge b as).1.Pairwise fun x y => x.2.status = 202 → y.2.status = 202 →
      y.1.request.idempotencyKey = x.1.request.idempotencyKey →
        x.1.request.idempotencyKey ≠ "" → x.1.time + windowMs ≤ y.1.time := by
  induction as generalizing b with
  | nil => exact List.Pairwise.nil
  | cons a as ih =>
    have hrest := List.pairwise_cons.mp hsorted
    refine List.pairwise_cons.mpr ⟨?_, ih _ hrest.2⟩
    intro y hy hx202 hy202 hkey hne
    exact late_of_remembers hp hne le_rfl hrest.1 hrest.2 (remembers_of_accepted hp hne hx202) y hy
      hy202 hkey

/-! ## What a broker knows of its publications -/

/-- The window still knows every key it should know from `now` on. -/
def LocalServer.Recalls (b : LocalServer) (now : ℕ) : Prop :=
  ∀ p ∈ b.published, p.key ≠ "" → p.time ≤ now ∧ Remembers b.window now p.key p.time

theorem recalls_fresh (now : ℕ) : LocalServer.fresh.Recalls now := fun _ hp => nomatch hp

variable {b : LocalServer} {now : ℕ}

theorem LocalServer.Recalls.mono {later : ℕ} (h : b.Recalls now) (hle : now ≤ later) :
    b.Recalls later :=
  fun p hp hk => ⟨le_trans (h p hp hk).1 hle, (h p hp hk).2.mono hle⟩

theorem LocalServer.Recalls.handlePacket (hp : Unnoticed purge) (h : b.Recalls now) (ip : String)
    (req : PacketRequest) : (handlePacket purge b ip req now).2.Recalls now := by
  cases handlePacket_cases purge b ip req now with
  | inl hrefused =>
    obtain ⟨r, -, heq⟩ := hrefused
    rw [heq]
    exact h
  | inr haccepted =>
    obtain ⟨parsed, -, -, -, -, heq⟩ := haccepted
    rw [heq]
    intro p hmem hk
    cases List.mem_append.mp hmem with
    | inl hold => exact ⟨(h p hold hk).1, (h p hold hk).2.remember hp (h p hold hk).1 parsed.type⟩
    | inr hnew =>
      rw [List.mem_singleton.mp hnew] at hk ⊢
      exact ⟨le_rfl, remembers_remember_self hp parsed.type hk⟩

/-- A broker that served requests in the order of their arrival knows its keys. -/
theorem LocalServer.Recalls.serve (hp : Unnoticed purge) (h : b.Recalls now) {as : List Arrival}
    {later : ℕ} (hnow : ∀ a ∈ as, now ≤ a.time) (hsorted : as.Pairwise (·.time ≤ ·.time))
    (hlater : now ≤ later) (hlate : ∀ a ∈ as, a.time ≤ later) :
    (serve purge b as).2.Recalls later := by
  induction as generalizing b now with
  | nil => exact h.mono hlater
  | cons a as ih =>
    have hrest := List.pairwise_cons.mp hsorted
    exact ih ((h.mono (hnow a List.mem_cons_self)).handlePacket hp a.ip a.request) hrest.1 hrest.2
      (hlate a List.mem_cons_self) fun x hx => hlate x (List.mem_cons_of_mem _ hx)

/-! ## Brokers that differ in their purges -/

/-- The brokers decide alike from `now` on. -/
structure Alike (now : ℕ) (b b' : LocalServer) : Prop where
  limiter : b.limiter = b'.limiter
  window : Agree windowMs now b.window b'.window

theorem Alike.mono {b b' : LocalServer} {now later : ℕ} (h : Alike now b b') (hle : now ≤ later) :
    Alike later b b' :=
  ⟨h.limiter, h.window.mono hle⟩

theorem Alike.refuse {b b' : LocalServer} {now : ℕ} (h : Alike now b b') (ip : String) :
    Alike now (b.refuse ip now) (b'.refuse ip now) :=
  ⟨by rw [LocalServer.refuse, LocalServer.refuse, h.limiter], h.window⟩

theorem Alike.accept {purge' : Window → ℕ → Window} (hp : Unnoticed purge)
    (hp' : Unnoticed purge') {b b' : LocalServer} {now : ℕ} (h : Alike now b b') (ip : String)
    (req : PacketRequest) (parsed : PacketInput) :
    Alike now (b.accept purge ip req parsed now) (b'.accept purge' ip req parsed now) := by
  refine ⟨by rw [LocalServer.accept, LocalServer.accept, h.limiter], ?_⟩
  intro t ht k
  show peek windowMs (remember purge b.window req.idempotencyKey parsed.type now) t k =
    peek windowMs (remember purge' b'.window req.idempotencyKey parsed.type now) t k
  rw [peek_remember hp parsed.type ht, peek_remember hp' parsed.type ht, h.window t ht k]

/-- Brokers that decide alike give one answer, and decide alike after it. -/
theorem Alike.handlePacket {purge' : Window → ℕ → Window} (hp : Unnoticed purge)
    (hp' : Unnoticed purge') {b b' : LocalServer} {now : ℕ} (h : Alike now b b') (ip : String)
    (req : PacketRequest) :
    (handlePacket purge b ip req now).1 = (handlePacket purge' b' ip req now).1 ∧
      Alike now (handlePacket purge b ip req now).2 (handlePacket purge' b' ip req now).2 := by
  have hlimiter := h.limiter
  cases hl : (b.limiter.allows ip now).1 with
  | false =>
    rw [handlePacket_of_limited hl, handlePacket_of_limited (hlimiter ▸ hl)]
    exact ⟨rfl, h.refuse ip⟩
  | true =>
    have hl' : (b'.limiter.allows ip now).1 = true := hlimiter ▸ hl
    cases hs : packetSchema req.body with
    | none =>
      simp only [Broker.handlePacket, hl, hl', hs, Bool.not_true, Bool.false_eq_true, if_false]
      exact ⟨trivial, h.refuse ip⟩
    | some parsed =>
      cases hv : Events.isValid parsed.type with
      | false =>
        simp only [Broker.handlePacket, hl, hl', hs, hv, Bool.not_true, Bool.false_eq_true, if_false,
          Bool.not_false, if_true]
        exact ⟨trivial, h.refuse ip⟩
      | true =>
        rw [handlePacket_of_parsed hl hs hv, handlePacket_of_parsed hl' hs hv,
          h.window now le_rfl req.idempotencyKey]
        split
        · exact ⟨rfl, h.accept hp hp' ip req parsed⟩
        · split
          · exact ⟨rfl, h.refuse ip⟩
          · exact ⟨rfl, h.accept hp hp' ip req parsed⟩

theorem Alike.serve {purge' : Window → ℕ → Window} (hp : Unnoticed purge)
    (hp' : Unnoticed purge') {b b' : LocalServer} {now : ℕ} (h : Alike now b b')
    {as : List Arrival} (hnow : ∀ a ∈ as, now ≤ a.time) (hsorted : as.Pairwise (·.time ≤ ·.time)) :
    (serve purge b as).1 = (serve purge' b' as).1 := by
  induction as generalizing b b' now with
  | nil => rfl
  | cons a as ih =>
    have hrest := List.pairwise_cons.mp hsorted
    obtain ⟨hanswer, halike⟩ :=
      (h.mono (hnow a List.mem_cons_self)).handlePacket hp hp' a.ip a.request
    simp only [Broker.serve, hanswer, ih halike hrest.1 hrest.2]

end Serve

/-- Over any requests in the order of their arrival: the bus publishes the events
of those answered `202`, in order; the others publish nothing and leave the
window alone; a key is accepted again only after the window; and a window that is
never purged gives the same answers. -/
theorem serve_spec (b : LocalServer) (as : List Arrival) (hsorted : as.Pairwise (·.time ≤ ·.time)) :
    ((serve purgeLarge b as).2.published.map (fun p => some p.event) =
      b.published.map (fun p => some p.event) ++
        ((serve purgeLarge b as).1.filter (·.2.status = 202)).map
          (packetSchema ·.1.request.body)) ∧
    (∀ pre a post, as = pre ++ a :: post →
      let before := (serve purgeLarge b pre).2
      let result := handlePacket purgeLarge before a.ip a.request a.time
      result.1.status = 208 ∨ result.1.status = 400 ∨ result.1.status = 429 →
        result.2.published = before.published ∧ result.2.window = before.window) ∧
    ((serve purgeLarge b as).1.Pairwise fun x y => x.2.status = 202 → y.2.status = 202 →
      y.1.request.idempotencyKey = x.1.request.idempotencyKey →
        x.1.request.idempotencyKey ≠ "" → x.1.time + 60000 ≤ y.1.time) ∧
    (serve purgeLarge b as).1 = (serve (fun w _ => w) b as).1 := by
  refine ⟨published_serve b as, ?_, accepted_apart unnoticed_purgeLarge b hsorted, ?_⟩
  · intro pre a post _ before result hstatus
    apply handlePacket_of_status_ne before a.ip a.request a.time
    show result.1.status ≠ 202
    omega
  · have halike : Alike 0 b b := ⟨rfl, agree_refl 0 b.window⟩
    exact halike.serve unnoticed_purgeLarge unnoticed_never (fun _ _ => Nat.zero_le _) hsorted

/-- An order that is sent twice within the window. -/
def orderTwice : List Arrival :=
  let order : PacketRequest := ⟨"order-0001", .obj [("type", .str "order.placed"), ("payload", .obj [])]⟩
  [⟨"127.0.0.1", order, 0⟩, ⟨"127.0.0.1", order, 59999⟩]

theorem serve_spec_orderTwice :
    ((serve purgeLarge .fresh orderTwice).2.published.map (fun p => some p.event) =
      ((serve purgeLarge .fresh orderTwice).1.filter (·.2.status = 202)).map
        (packetSchema ·.1.request.body)) ∧
    (serve purgeLarge .fresh orderTwice).1 = (serve (fun w _ => w) .fresh orderTwice).1 :=
  have h := serve_spec .fresh orderTwice (by decide)
  ⟨h.1, h.2.2.2⟩

end Hotelia.Broker
