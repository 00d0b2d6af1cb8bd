import Hotelia.Broker.Memory
import Hotelia.Process.Passes

/-!
# A console and its broker

The console posts to a broker that outlives it. A request may arrive at any time
after it was sent, or never; its answer may be lost, and then the delivery fails. A
request that the token check or the body parser turns away counts as lost.

## Main results

- `published_once_iff`: in which runs no row is published twice.
-/

namespace Hotelia.Process
open Foundation Offline Broker

/-- What `deliver` has posted for a pass: the key of the row, the request as `fetch` sends it,
if it does, and the answer once the request has arrived. -/
structure Post where
  sender : ℕ
  key : String
  request : Option PacketRequest
  response : Option Response

/-- The console, the broker, and what was posted so far; `published` has the key of the row
for each call of `bus.publish`. -/
structure Site where
  console : Console
  server : LocalServer
  posts : List Post
  published : List String
  now : ℕ

inductive SiteEvent where
  /-- Time passes. -/
  | wait (ms : ℕ)
  /-- Something happens at the console. -/
  | console (e : Event)
  /-- The `n`-th request arrives at the broker. -/
  | arrive (n : ℕ) (ip : String)

namespace Site

/-- The answer to the request that the pass `i` has sent last. -/
def answerOf (s : Site) (i : ℕ) : Option Response :=
  (s.posts.filter (·.sender = i)).getLast?.bind Post.response

/-- A delivery ends with the status that the broker gave, or without an answer. -/
def truthful (s : Site) : Event → Bool
  | .answered i (some status) _ => (s.answerOf i).any (·.status = status)
  | _ => true

/-- What is posted with a step of the console. -/
def sent (c' : Console) : Event → List Post
  | .claimNext i _ =>
    match c'.passes i with
    | some (.delivering claimed _) =>
      [⟨i, claimed.idempotencyKey, claimed.packet.fetched, none⟩]
    | _ => []
  | _ => []

/-- The `n`-th request arrives, posted for the row with `key`. -/
def receive (s : Site) (n : ℕ) (ip : String) (sender : ℕ) (key : String)
    (request : PacketRequest) : Site :=
  let (response, server) := handlePacket purgeLarge s.server ip request s.now
  { s with
    server
    posts := s.posts.set n ⟨sender, key, some request, some response⟩
    published := s.published ++
      (server.published.drop s.server.published.length).map fun _ => key }

/-- One step of the site. A request arrives once. -/
def step (s : Site) : SiteEvent → Option Site
  | .wait ms => some { s with now := s.now + ms }
  | .console e =>
    if s.truthful e then
      (Process.step s.console e).map fun c => { s with console := c, posts := s.posts ++ sent c e }
    else none
  | .arrive n ip =>
    match s.posts[n]? with
    | some ⟨sender, key, some request, none⟩ => some (s.receive n ip sender key request)
    | _ => none

/-- A new broker, and a console that was never started. -/
def fresh : Site := ⟨.off, .fresh, [], [], 0⟩

/-! ## Publications -/

/-- For no row `bus.publish` was called twice. -/
def PublishedOnce (s : Site) : Prop := s.published.Nodup

instance (s : Site) : Decidable s.PublishedOnce := inferInstanceAs (Decidable s.published.Nodup)

/-- A request that arrives for a published row is turned away, or its key, as it arrives, was
published within the window. -/
def ArrivesKnown (s : Site) : SiteEvent → Prop
  | .arrive n ip => ∀ sender key request,
      s.posts[n]? = some ⟨sender, key, some request, none⟩ → key ∈ s.published →
        s.server.turnsAway ip request s.now = true ∨
          (request.idempotencyKey ≠ "" ∧ s.server.PublishedLately request.idempotencyKey s.now)
  | _ => True

/-- The window is what the broker has published lately. -/
def Aware (s : Site) : Prop := s.server.Recalls s.now ∧ s.server.Grounded

theorem aware_fresh : fresh.Aware := ⟨recalls_fresh 0, grounded_fresh⟩

theorem Aware.receive {s : Site} (h : s.Aware) (n : ℕ) (ip : String) (sender : ℕ) (key : String)
    (request : PacketRequest) : (s.receive n ip sender key request).Aware :=
  ⟨h.1.handlePacket unnoticed_purgeLarge ip request, h.2.handlePacket ip request s.now⟩

/-- What a step leaves of the broker. -/
theorem step_cases {s s' : Site} {e : SiteEvent} (h : s.step e = some s') :
    (s'.server = s.server ∧ s'.published = s.published ∧ s.now ≤ s'.now ∧
        ∀ n ip, e ≠ .arrive n ip) ∨
      ∃ n ip sender key request, e = .arrive n ip ∧
        s.posts[n]? = some ⟨sender, key, some request, none⟩ ∧
        s' = s.receive n ip sender key request := by
  cases e with
  | wait ms =>
    cases h
    exact .inl ⟨rfl, rfl, Nat.le_add_right _ _, fun _ _ he => nomatch he⟩
  | console e =>
    simp only [step] at h
    split at h
    · obtain ⟨c, -, rfl⟩ := Option.map_eq_some_iff.mp h
      exact .inl ⟨rfl, rfl, le_rfl, fun _ _ he => nomatch he⟩
    · cases h
  | arrive n ip =>
    simp only [step] at h
    split at h
    · next sender key request hpost =>
      cases h
      exact .inr ⟨n, ip, sender, key, request, rfl, hpost, rfl⟩
    · cases h

theorem aware_of_step {s s' : Site} {e : SiteEvent} (h : s.Aware) (hs : s.step e = some s') :
    s'.Aware := by
  cases step_cases hs with
  | inl hquiet =>
    obtain ⟨hserver, -, hnow, -⟩ := hquiet
    rw [Aware, hserver]
    exact ⟨h.1.mono hnow, h.2⟩
  | inr harrive =>
    obtain ⟨n, ip, sender, key, request, -, -, rfl⟩ := harrive
    exact h.receive n ip sender key request

/-- The calls of `bus.publish` after a request: there is one for it if it is accepted. -/
theorem published_receive (s : Site) (n : ℕ) (ip : String) (sender : ℕ) (key : String)
    (request : PacketRequest) :
    (s.receive n ip sender key request).published = s.published ++
      if (handlePacket purgeLarge s.server ip request s.now).1.status = 202 then [key] else [] := by
  cases handlePacket_cases purgeLarge s.server ip request s.now with
  | inl hrefused =>
    obtain ⟨r, hr, heq⟩ := hrefused
    simp only [receive, heq, if_neg hr, LocalServer.refuse, List.drop_length, List.map_nil]
  | inr haccepted =>
    obtain ⟨parsed, -, -, -, -, heq⟩ := haccepted
    simp [receive, heq, LocalServer.accept, Response.status]

theorem publishedOnce_receive_iff {s : Site} (haware : s.Aware) (honce : s.PublishedOnce) {n : ℕ}
    {sender : ℕ} {key : String} {request : PacketRequest}
    (hpost : s.posts[n]? = some ⟨sender, key, some request, none⟩) (ip : String) :
    (s.receive n ip sender key request).PublishedOnce ↔ s.ArrivesKnown (.arrive n ip) := by
  have hknown : s.ArrivesKnown (.arrive n ip) ↔
      (key ∈ s.published →
        ¬ (handlePacket purgeLarge s.server ip request s.now).1.status = 202) := by
    rw [published_iff haware.1 haware.2]
    have hsame : s.ArrivesKnown (.arrive n ip) ↔ (key ∈ s.published →
        s.server.turnsAway ip request s.now = true ∨
          (request.idempotencyKey ≠ "" ∧ s.server.PublishedLately request.idempotencyKey s.now)) := by
      constructor
      · exact fun h => h sender key request hpost
      · rintro h sender' key' request' hpost'
        cases hpost.symm.trans hpost'
        exact h
    rw [hsame]
    simp only [not_and_or, Bool.not_eq_false, Classical.not_imp, not_not, ne_eq]
  rw [hknown, PublishedOnce, published_receive]
  by_cases h202 : (handlePacket purgeLarge s.server ip request s.now).1.status = 202
  -- the key is added, so it must not be among the published ones
  · rw [if_pos h202, ← List.concat_eq_append, List.nodup_concat]
    simp only [h202, not_true_eq_false, imp_false]
    exact and_iff_left honce
  · rw [if_neg h202, List.append_nil]
    exact iff_of_true honce fun _ => h202

/-- In every run of the console and an uninterrupted broker: `bus.publish` is called at most once
for each row exactly if each request that arrives for a row published before is turned
away, or arrives within the window of a publication of its key. -/
theorem published_once_iff {es : List SiteEvent} {s : Site} (h : run step fresh es = some s) :
    (∀ pre s', pre <+: es → run step fresh pre = some s' → s'.PublishedOnce) ↔
      Along step ArrivesKnown fresh es := by
  refine forall_prefix_iff_along (J := Aware) (fun _ _ _ haware hs => aware_of_step haware hs) ?_
    aware_fresh List.nodup_nil h
  intro s e s' haware honce hs
  -- only an arrival can publish
  cases step_cases hs with
  | inl hquiet =>
    obtain ⟨-, hpublished, -, hne⟩ := hquiet
    refine iff_of_true (by rwa [PublishedOnce, hpublished]) ?_
    cases e with
    | arrive n ip => exact absurd rfl (hne n ip)
    | _ => trivial
  | inr harrive =>
    obtain ⟨n, ip, sender, key, request, rfl, hpost, rfl⟩ := harrive
    exact publishedOnce_receive_iff haware honce hpost ip

/-- A check-in whose first request is published, with the answer to it lost. It is
sent again whenever a delivery times out, `n` times. -/
def lostAnswers (n : ℕ) : List SiteEvent :=
  [.console (.boot Console.off.bridge 0), .console (.enqueue ⟨"check-in-001", "checkin", []⟩ "a1" 0),
    .console (.flush 0), .console (.probed 0 (some true)), .console (.claimNext 0 0),
    .arrive 0 "127.0.0.1"] ++
  (List.range n).flatMap fun k =>
    [.wait 8000, .console (.answered 0 none (8000 * (k + 1))),
      .console (.claimNext 0 (8000 * (k + 1)))]

/-- The second request arrives eight seconds after the first. -/
theorem published_once_iff_second :
    ∃ s, run step fresh (lostAnswers 1 ++ [.arrive 1 "127.0.0.1"]) = some s ∧
      ((∀ pre s', pre <+: lostAnswers 1 ++ [.arrive 1 "127.0.0.1"] → run step fresh pre = some s' →
          s'.PublishedOnce) ↔
        Along step ArrivesKnown fresh (lostAnswers 1 ++ [.arrive 1 "127.0.0.1"])) := by
  have hsome : (run step fresh (lostAnswers 1 ++ [.arrive 1 "127.0.0.1"])).isSome = true := by
    decide +kernel
  obtain ⟨s, hs⟩ := Option.isSome_iff_exists.mp hsome
  exact ⟨s, hs, published_once_iff hs⟩

/-- The eighth request arrives sixty seconds after the first and is published again. -/
theorem not_published_once :
    ¬ ∀ es s, run step fresh es = some s → s.PublishedOnce := by
  intro h
  let es := lostAnswers 7 ++ [.wait 4000, .arrive 7 "127.0.0.1"]
  have hsome : (run step fresh es).isSome = true := by decide +kernel
  have htwice : ∀ s ∈ run step fresh es, ¬ s.PublishedOnce := by decide +kernel
  obtain ⟨s, hs⟩ := Option.isSome_iff_exists.mp hsome
  exact htwice s hs (h es s hs)

end Site

end Hotelia.Process
