import Hotelia.Foundation.Run
import Hotelia.Guest.ServiceWorker

/-!
# What the guest app is answered

The handler of `apps/guest/public/sw.js` for `fetch`, over the whole life of an activated worker.
Any number of requests are under way at a time, and `cache.put` is not awaited: a response is
given to the page at once, and is in the cache at some later time, or never.

## Main definitions

- `Worker` — the caches, the requests under way, and the responses that are being put
- `Worker.step`, `Worker.reply` — what can happen, and what the page is answered then
- `lastStored` — the response for an address that came into a cache last

## Main results

- `worker_answers`: every answer is the one that the responses of the past determine, and what
  comes into a cache is a response to that very address.

`caches.open` and `cache.match` are taken not to fail, and the browser to evict nothing.
-/

namespace Hotelia.Guest
open Foundation

/-- `API_CACHE`. -/
def apiCache : String := cacheVersion ++ "-api"

structure Request where
  method : String
  /-- `url.origin === self.location.origin`. -/
  sameOrigin : Bool
  /-- The path and the query. -/
  url : String

/-- Other requests are left to the browser. -/
def Request.handled (request : Request) : Bool := request.method = "GET" && request.sameOrigin

/-- `url.pathname.startsWith("/api/")`. -/
def isApi (url : String) : Bool := startsWith url "/api/"

structure Worker (ρ : Type*) where
  storage : CacheStorage ρ
  /-- The addresses that are fetched. -/
  waiting : List String
  /-- The calls of `cache.put` that are under way, with the name of the cache. -/
  puts : List (String × String × ρ)

inductive FetchEvent (ρ : Type*) where
  | asks (request : Request)
  /-- The network has a response. -/
  | arrives (url : String) (response : ρ)
  /-- `fetch` throws. -/
  | fails (url : String)
  | settles (cache url : String) (response : ρ)
  /-- `cache.put` fails. -/
  | rejects (cache url : String) (response : ρ)

inductive Answer (ρ : Type*) where
  | response (r : ρ)
  /-- The response 503 with the code `OFFLINE`. -/
  | offline
  /-- No response at all. -/
  | networkError

namespace Worker

variable {ρ : Type*} (w : Worker ρ)

/-- `const cache = await caches.open(name); cache.put(request, response.clone())`. -/
def put (name url : String) (response : ρ) : Worker ρ :=
  { w with storage := w.storage.openCache name, puts := w.puts ++ [(name, url, response)] }

/-- What `respondWith` is given. -/
def reply : FetchEvent ρ → Option (Answer ρ)
  | .asks request =>
    if request.handled && !isApi request.url then
      (w.storage.firstMatch request.url).map .response
    else none
  | .arrives _ response => some (.response response)
  | .fails url =>
    if isApi url then
      match w.storage.firstMatch url with
      | some cached => some (.response cached)
      | none => some .offline
    else
      match w.storage.firstMatch "/" with
      | some shell => some (.response shell)
      | none => some .networkError
  | .settles .. => none
  | .rejects .. => none

end Worker

def Worker.step {ρ : Type*} [DecidableEq ρ] (ok : ρ → Bool) (w : Worker ρ) :
    FetchEvent ρ → Option (Worker ρ)
  | .asks request =>
    if !request.handled then some w
    else if isApi request.url then some { w with waiting := w.waiting ++ [request.url] }
    else
      match w.storage.firstMatch request.url with
      | some _ => some w
      | none => some { w with waiting := w.waiting ++ [request.url] }
  | .arrives url response =>
    if url ∈ w.waiting then
      let w := { w with waiting := w.waiting.erase url }
      if isApi url then some (w.put apiCache url response)
      else if ok response then some (w.put staticCache url response)
      else some w
    else none
  | .fails url =>
    if url ∈ w.waiting then some { w with waiting := w.waiting.erase url } else none
  | .settles name url response =>
    if (name, url, response) ∈ w.puts then
      some { w with
        storage := w.storage.modify name (·.insert url response)
        puts := w.puts.erase (name, url, response) }
    else none
  | .rejects name url response =>
    if (name, url, response) ∈ w.puts then
      some { w with puts := w.puts.erase (name, url, response) }
    else none

/-! ## What the answers should be -/

section Expected

variable {ρ : Type*}

/-- What an event brings into a cache. -/
def FetchEvent.stored : FetchEvent ρ → Option (String × ρ)
  | .settles _ url response => some (url, response)
  | _ => none

/-- The response that came into a cache last for the address. -/
def lastStored (es : List (FetchEvent ρ)) (url : String) : Option ρ :=
  ((es.filterMap FetchEvent.stored).reverse.find? (·.1 = url)).map (·.2)

/-- What is known of an address: what was there from the start, or came last. -/
def known (start : CacheStorage ρ) (es : List (FetchEvent ρ)) (url : String) : Option ρ :=
  (start.firstMatch url).or (lastStored es url)

/-- The answer, of what is known. -/
def expected (known : String → Option ρ) : FetchEvent ρ → Option (Answer ρ)
  | .asks request =>
    if request.handled && !isApi request.url then (known request.url).map .response else none
  | .arrives _ response => some (.response response)
  | .fails url =>
    if isApi url then some ((known url).elim .offline .response)
    else some ((known "/").elim .networkError .response)
  | .settles .. => none
  | .rejects .. => none

theorem lastStored_settles (es : List (FetchEvent ρ)) (name url url' : String) (response : ρ) :
    lastStored (es ++ [.settles name url response]) url' =
      if url = url' then some response else lastStored es url' := by
  by_cases h : url = url'
  · simp [lastStored, FetchEvent.stored, h]
  · simp [lastStored, FetchEvent.stored, h]

theorem lastStored_other (es : List (FetchEvent ρ)) {e : FetchEvent ρ} (h : e.stored = none)
    (url : String) : lastStored (es ++ [e]) url = lastStored es url := by
  rw [lastStored, List.filterMap_append, List.filterMap_cons, h, List.filterMap_nil,
    List.append_nil, lastStored]

end Expected

/-! ## The caches of the worker -/

section Caches

variable {ρ : Type*}

/-- `API_CACHE` or `STATIC_CACHE`. -/
def cacheOf (url : String) : String := if isApi url then apiCache else staticCache

theorem isOld_cacheOf (url : String) : isOld (cacheOf url) = true := by
  rw [cacheOf]
  split
  · decide
  · exact isOld_staticCache

/-- The caches are those from the start and the worker's own, in which every address has what
was stored for it last. -/
structure Served (start : CacheStorage ρ) (own : List (String × Cache ρ))
    (es : List (FetchEvent ρ)) (storage : CacheStorage ρ) : Prop where
  caches : storage.caches = start.caches ++ own
  free : ∀ url, cacheOf url ∉ start.keys
  lookup : ∀ c ∈ own, ∀ url,
    c.2.lookup url = if c.1 = cacheOf url then lastStored es url else none
  kept : ∀ url, (lastStored es url).isSome → cacheOf url ∈ own.map Prod.fst

variable {start storage : CacheStorage ρ} {own : List (String × Cache ρ)}
  {es : List (FetchEvent ρ)}

theorem Served.firstMatch (h : Served start own es storage) (url : String) :
    storage.firstMatch url = known start es url := by
  have hown : own.findSome? (fun c => c.2.lookup url) = lastStored es url := by
    cases hlast : lastStored es url with
    | none =>
      rw [List.findSome?_eq_none_iff]
      intro c hc
      rw [h.lookup c hc, hlast, ite_self]
    | some response =>
      obtain ⟨c, hc, hname⟩ := List.mem_map.mp (h.kept url (by rw [hlast]; rfl))
      have hfound : own.findSome? (fun c => c.2.lookup url) ≠ none := by
        intro hnone
        have hmiss := List.findSome?_eq_none_iff.mp hnone c hc
        rw [h.lookup c hc, if_pos hname, hlast] at hmiss
        cases hmiss
      obtain ⟨found, hfound⟩ := Option.ne_none_iff_exists'.mp hfound
      obtain ⟨d, hd, hlookup⟩ := List.exists_of_findSome?_eq_some hfound
      rw [hfound, ← hlookup, h.lookup d hd]
      split_ifs with hd'
      · exact hlast
      · rw [h.lookup d hd, if_neg hd'] at hlookup
        cases hlookup
  rw [CacheStorage.firstMatch, h.caches, List.findSome?_append, hown]
  rfl

/-- Only what is stored changes what is known. -/
theorem Served.other (h : Served start own es storage) {e : FetchEvent ρ}
    (he : e.stored = none) : Served start own (es ++ [e]) storage where
  caches := h.caches
  free := h.free
  lookup c hc url := by rw [lastStored_other es he, h.lookup c hc]
  kept url hsome := h.kept url (by rwa [lastStored_other es he] at hsome)

theorem mem_keys_iff (h : Served start own es storage) (url : String) :
    cacheOf url ∈ storage.keys ↔ cacheOf url ∈ own.map Prod.fst := by
  rw [CacheStorage.keys, h.caches, List.map_append, List.mem_append]
  exact or_iff_right (h.free url)

/-- `caches.open` makes the cache of an address, if it is not there. -/
theorem Served.openCache (h : Served start own es storage) (url : String) :
    ∃ own', Served start own' es (storage.openCache (cacheOf url)) ∧
      cacheOf url ∈ own'.map Prod.fst ∧ own.map Prod.fst ⊆ own'.map Prod.fst := by
  by_cases hmem : cacheOf url ∈ storage.keys
  · rw [CacheStorage.openCache, dif_pos hmem]
    exact ⟨own, h, (mem_keys_iff h url).mp hmem, List.Subset.refl _⟩
  · have hown := (mem_keys_iff h url).not.mp hmem
    rw [CacheStorage.openCache, dif_neg hmem]
    refine ⟨own ++ [(cacheOf url, ∅)], ⟨?_, h.free, ?_, ?_⟩, by simp, by simp⟩
    · change storage.caches ++ [(cacheOf url, ∅)] = _
      rw [h.caches, List.append_assoc]
    · intro c hc url'
      rcases List.mem_append.mp hc with hold | hnew
      · exact h.lookup c hold url'
      · rw [List.mem_singleton.mp hnew, AList.lookup_empty]
        -- an address of that cache with a response would have made the cache
        split_ifs with hname
        · cases hlast : lastStored es url' with
          | none => rfl
          | some response =>
            have hkept := h.kept url' (by rw [hlast]; rfl)
            rw [← hname] at hkept
            exact absurd hkept hown
        · rfl
    · intro url' hsome
      rw [List.map_append, List.mem_append]
      exact .inl (h.kept url' hsome)

/-- A response that is stored is what is known of its address. -/
theorem Served.settles (h : Served start own es storage) (url : String) (response : ρ)
    (hown : cacheOf url ∈ own.map Prod.fst) :
    ∃ own', Served start own' (es ++ [.settles (cacheOf url) url response])
        (storage.modify (cacheOf url) (·.insert url response)) ∧
      own'.map Prod.fst = own.map Prod.fst := by
  let change := fun c : String × Cache ρ =>
    if c.1 = cacheOf url then (c.1, c.2.insert url response) else c
  have hfst (c) : (change c).1 = c.1 := by
    simp only [change]
    split_ifs <;> rfl
  have hnames : (own.map change).map Prod.fst = own.map Prod.fst := by
    rw [List.map_map]
    exact List.map_congr_left fun c _ => hfst c
  refine ⟨own.map change, ⟨?_, h.free, ?_, ?_⟩, hnames⟩
  · have hstart : start.caches.map change = start.caches := by
      refine (List.map_congr_left fun c hc => if_neg ?_).trans (List.map_id _)
      exact fun hname => h.free url (hname ▸ List.mem_map_of_mem hc)
    change storage.caches.map change = _
    rw [h.caches, List.map_append, hstart]
  · intro c hc url'
    obtain ⟨d, hd, rfl⟩ := List.mem_map.mp hc
    rw [hfst, lastStored_settles]
    by_cases hname : d.1 = cacheOf url
    · have hinsert : (change d).2 = d.2.insert url response := by simp only [change, if_pos hname]
      rw [hinsert]
      by_cases hurl : url = url'
      · subst hurl
        rw [AList.lookup_insert, if_pos hname, if_pos rfl]
      · rw [AList.lookup_insert_ne (Ne.symm hurl), h.lookup d hd, if_neg hurl]
    · have hsame : (change d).2 = d.2 := by simp only [change, if_neg hname]
      rw [hsame, h.lookup d hd]
      split_ifs with hcache hurl
      · rw [hcache, hurl] at hname
        exact absurd rfl hname
      · rfl
      · rfl
  · intro url' hsome
    rw [hnames]
    rw [lastStored_settles] at hsome
    split_ifs at hsome with hurl
    · exact hurl ▸ hown
    · exact h.kept url' hsome

end Caches

/-! ## Runs of the worker -/

section Runs

variable {ρ : Type*} {ok : ρ → Bool}

/-- A response that may come into the cache, for what happened so far. -/
structure Due (ok : ρ → Bool) (es : List (FetchEvent ρ)) (name url : String) (response : ρ) :
    Prop where
  name : name = cacheOf url
  arrived : .arrives url response ∈ es
  worthy : isApi url = true ∨ ok response = true

theorem Due.mono {es : List (FetchEvent ρ)} {name url : String} {response : ρ}
    (h : Due ok es name url response) (e : FetchEvent ρ) :
    Due ok (es ++ [e]) name url response :=
  ⟨h.name, List.mem_append_left _ h.arrived, h.worthy⟩

/-- What holds of the worker after `es`. -/
structure Serving (ok : ρ → Bool) (start : CacheStorage ρ) (es : List (FetchEvent ρ))
    (w : Worker ρ) : Prop where
  storage : ∃ own, Served start own es w.storage ∧ ∀ p ∈ w.puts, p.1 ∈ own.map Prod.fst
  puts : ∀ p ∈ w.puts, Due ok es p.1 p.2.1 p.2.2

variable {start : CacheStorage ρ} {es : List (FetchEvent ρ)} {w w' : Worker ρ}

/-- A step that leaves the caches as they are. -/
theorem Serving.other (h : Serving ok start es w) {e : FetchEvent ρ}
    (he : e.stored = none) {waiting : List String}
    {puts : List (String × String × ρ)} (hsub : puts ⊆ w.puts) :
    Serving ok start (es ++ [e]) { w with waiting, puts } := by
  obtain ⟨own, hown, hnames⟩ := h.storage
  exact ⟨⟨own, hown.other he, fun p hp => hnames p (hsub hp)⟩,
    fun p hp => (h.puts p (hsub hp)).mono e⟩

/-- The response is given out, and the cache for it is there. -/
theorem Serving.put (h : Serving ok start es w) {name url : String} {response : ρ}
    {waiting : List String} (hname : name = cacheOf url)
    (hworthy : isApi url = true ∨ ok response = true) :
    Serving ok start (es ++ [.arrives url response])
      (Worker.put { w with waiting } name url response) := by
  obtain ⟨own, hown, hnames⟩ := h.storage
  obtain ⟨own', hown', hmem, hsub⟩ := hown.openCache url
  subst hname
  constructor
  · refine ⟨own', hown'.other rfl, fun p hp => ?_⟩
    rcases List.mem_append.mp hp with hold | hnew
    · exact hsub (hnames p hold)
    · rw [List.mem_singleton.mp hnew]
      exact hmem
  · intro p hp
    rcases List.mem_append.mp hp with hold | hnew
    · exact (h.puts p hold).mono _
    · rw [List.mem_singleton.mp hnew]
      exact ⟨rfl, by simp, hworthy⟩

/-- The worker when it has been activated. -/
def Worker.fresh (storage : CacheStorage ρ) : Worker ρ := ⟨storage, [], []⟩

/-- An activation leaves no cache of this worker. -/
theorem serving_activate (s : CacheStorage ρ) :
    Serving ok (activate s) [] (Worker.fresh (activate s)) where
  storage := by
    refine ⟨[], ⟨(List.append_nil _).symm, fun url hmem => ?_, ?_, ?_⟩, ?_⟩
    · rw [CacheStorage.keys, caches_activate] at hmem
      obtain ⟨c, hc, hname⟩ := List.mem_map.mp hmem
      have hkept := (List.mem_filter.mp hc).2
      rw [hname, isOld_cacheOf] at hkept
      cases hkept
    · exact fun c hc => absurd hc List.not_mem_nil
    · intro url hsome
      cases hsome
    · exact fun p hp => absurd hp List.not_mem_nil
  puts p hp := absurd hp List.not_mem_nil

variable [DecidableEq ρ]

theorem Serving.step (h : Serving ok start es w) {e : FetchEvent ρ}
    (hstep : w.step ok e = some w') : Serving ok start (es ++ [e]) w' := by
  cases e with
  | asks request =>
    have hkeep (waiting) : Serving ok start (es ++ [.asks request]) { w with waiting } :=
      h.other rfl (List.Subset.refl w.puts)
    simp only [Worker.step] at hstep
    split at hstep
    · exact Option.some.inj hstep ▸ hkeep w.waiting
    · split at hstep
      · exact Option.some.inj hstep ▸ hkeep _
      · split at hstep
        · exact Option.some.inj hstep ▸ hkeep w.waiting
        · exact Option.some.inj hstep ▸ hkeep _
  | arrives url response =>
    simp only [Worker.step] at hstep
    split at hstep
    case isFalse => cases hstep
    split at hstep
    case isTrue hapi =>
      exact Option.some.inj hstep ▸ h.put (by rw [cacheOf, if_pos hapi]) (.inl hapi)
    case isFalse hapi =>
      split at hstep
      · next hok =>
        exact Option.some.inj hstep ▸ h.put (by rw [cacheOf, if_neg hapi]) (.inr hok)
      · exact Option.some.inj hstep ▸
          h.other rfl (List.Subset.refl w.puts)
  | fails url =>
    simp only [Worker.step] at hstep
    split at hstep
    · exact Option.some.inj hstep ▸
        h.other rfl (List.Subset.refl w.puts)
    · cases hstep
  | settles name url response =>
    simp only [Worker.step] at hstep
    split at hstep
    case isFalse => cases hstep
    case isTrue hput =>
      obtain ⟨own, hown, hnames⟩ := h.storage
      obtain rfl : name = cacheOf url := (h.puts _ hput).name
      obtain ⟨own', hown', hfst⟩ := hown.settles url response (hnames _ hput)
      obtain rfl := Option.some.inj hstep
      refine ⟨⟨own', hown', fun p hp => ?_⟩, fun p hp => ?_⟩
      · rw [hfst]
        exact hnames p (List.mem_of_mem_erase hp)
      · exact (h.puts p (List.mem_of_mem_erase hp)).mono _
  | rejects name url response =>
    simp only [Worker.step] at hstep
    split at hstep
    · exact Option.some.inj hstep ▸
        h.other rfl (fun _ hp => List.mem_of_mem_erase hp)
    · cases hstep

theorem serving_run {s : CacheStorage ρ}
    (h : run (Worker.step ok) (Worker.fresh (activate s)) es = some w) :
    Serving ok (activate s) es w := by
  have hpast := run_history (I := Serving ok (activate s)) (fun _ _ _ _ hs => hs.step)
    (serving_activate s) h
  rwa [List.nil_append] at hpast

/-- Whatever is under way and in whatever order it ends, a page of the app is answered what the
past determines: a call of the API the response of the network, and without the network what is
known of its address, or the error; any other address what is known of it, else the response of the
network, and without the network the shell. Known is what another cache held at the start, and else
the response that came into the worker's own caches last. What comes into a cache is a response
that the network gave for that address before, in the cache for its kind, and for an address that
is no call of the API, a good one. -/
theorem worker_answers {s : CacheStorage ρ}
    (h : run (Worker.step ok) (Worker.fresh (activate s)) es = some w) :
    (∀ e, w.reply e = expected (known (activate s) es) e) ∧
      ∀ before after name url response,
        es = before ++ .settles name url response :: after →
          .arrives url response ∈ before ∧ name = cacheOf url ∧
            (isApi url = true ∨ ok response = true) := by
  constructor
  · intro e
    obtain ⟨own, hown, -⟩ := (serving_run h).storage
    cases e with
    | asks request => rw [Worker.reply, expected, hown.firstMatch]
    | fails url =>
      rw [Worker.reply, expected, hown.firstMatch, hown.firstMatch]
      congr 1
      · cases known (activate s) es url <;> rfl
      · cases known (activate s) es "/" <;> rfl
    | arrives url response => rfl
    | settles name url response => rfl
    | rejects name url response => rfl
  · rintro before after name url response rfl
    rw [run_append] at h
    obtain ⟨v, hv, hrest⟩ := Option.bind_eq_some_iff.mp h
    obtain ⟨v', hv', -⟩ := run_cons_eq_some.mp hrest
    -- the put was under way, and so the response had arrived
    have hput : (name, url, response) ∈ v.puts := by
      by_contra hnot
      rw [Worker.step, if_neg hnot] at hv'
      cases hv'
    have hdue := (serving_run hv).puts _ hput
    exact ⟨hdue.arrived, hdue.name, hdue.worthy⟩

/-- Two calls of the API whose responses change places on their way into the cache. -/
def swappedPuts : List (FetchEvent ℕ) :=
  [.asks ⟨"GET", true, "/api/orders"⟩, .asks ⟨"GET", true, "/api/orders"⟩,
    .arrives "/api/orders" 200, .arrives "/api/orders" 201,
    .settles apiCache "/api/orders" 201, .settles apiCache "/api/orders" 200,
    .asks ⟨"GET", true, "/api/orders"⟩]

theorem worker_answers_swapped :
    let w := (run (Worker.step fun n => n < 300)
      (Worker.fresh (activate ⟨[], List.nodup_nil⟩)) swappedPuts).get (by decide)
    w.reply (.fails "/api/orders") = some (.response 200) := by
  intro w
  have hrun : run (Worker.step fun n => n < 300)
      (Worker.fresh (activate ⟨[], List.nodup_nil⟩)) swappedPuts = some w :=
    (Option.some_get _).symm
  exact (worker_answers hrun).1 (.fails "/api/orders")

end Runs

end Hotelia.Guest
