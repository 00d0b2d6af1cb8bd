import Mathlib.Data.List.AList

/-!
# The service worker of the guest app

The handlers of `apps/guest/public/sw.js` for `install` and `activate`, and that part of the
handler for `fetch` which serves the pages and assets of the app. The caches of an origin are
in the order in which they were made.

## Main definitions

- `CacheStorage` — the caches, by their names
- `install`, `activate`, `serveStatic` — the handlers

## Main results

- `activate_install`: nothing of what an install has put into its cache is left.
- `not_shellKept`: the shell of the app is never there after the activation.
-/

namespace Hotelia.Guest

/-- The responses in a cache, by their requests. -/
abbrev Cache (ρ : Type*) := AList fun _ : String => ρ

/-- `caches`: no two caches have the same name. -/
structure CacheStorage (ρ : Type*) where
  caches : List (String × Cache ρ)
  distinct : (caches.map Prod.fst).Nodup

namespace CacheStorage

variable {ρ : Type*} (s : CacheStorage ρ)

/-- `caches.keys()`. -/
def keys : List String := s.caches.map Prod.fst

/-- `caches.open(name)`, as far as it changes the caches. -/
def openCache (name : String) : CacheStorage ρ :=
  if h : name ∈ s.keys then s
  else {
    caches := s.caches ++ [(name, ∅)]
    distinct := by
      rw [List.map_append, List.nodup_append]
      refine ⟨s.distinct, List.nodup_singleton _, ?_⟩
      rintro a ha b hb rfl
      rw [List.map_singleton, List.mem_singleton] at hb
      subst hb
      exact h ha }

/-- What `f` makes of the cache `name`. -/
def modify (name : String) (f : Cache ρ → Cache ρ) : CacheStorage ρ where
  caches := s.caches.map fun c => if c.1 = name then (c.1, f c.2) else c
  distinct := by
    rw [List.map_map]
    have hnames : Prod.fst ∘ (fun c : String × Cache ρ => if c.1 = name then (c.1, f c.2) else c) =
        Prod.fst := by
      funext c
      rw [Function.comp_apply]
      split <;> rfl
    rw [hnames]
    exact s.distinct

/-- `caches.delete(name)`. -/
def delete (name : String) : CacheStorage ρ where
  caches := s.caches.filter (·.1 ≠ name)
  distinct := (List.filter_sublist.map _).nodup s.distinct

/-- `caches.match(url)`: the first response that a cache has. -/
def firstMatch (url : String) : Option ρ := s.caches.findSome? fun c => c.2.lookup url

end CacheStorage

/-- The network: no response stands for a `fetch` that fails. -/
structure Network (ρ : Type*) where
  fetch : String → Option ρ
  ok : ρ → Bool

/-- `CACHE_VERSION`. -/
def cacheVersion : String := "hotelia-guest-v1"

/-- `STATIC_CACHE`. -/
def staticCache : String := cacheVersion ++ "-static"

/-- `STATIC_ASSETS`. -/
def staticAssets : List String :=
  ["/", "/manifest.json", "/icons/icon-192x192.png", "/icons/icon-512x512.png"]

/-- `key.startsWith(start)`. -/
def startsWith (key start : String) : Bool := start.toList.isPrefixOf key.toList

section Handlers

variable {ρ : Type*} (net : Network ρ) (s : CacheStorage ρ)

/-- The responses that `cache.addAll(urls)` puts, if all of them are good. -/
def fetchAll (urls : List String) : Option (List (String × ρ)) :=
  urls.mapM fun url => ((net.fetch url).filter net.ok).map (url, ·)

/-- `cache.put(request, response)`, for each of them. -/
def putAll (responses : List (String × ρ)) (cache : Cache ρ) : Cache ρ :=
  responses.foldl (fun cache r => cache.insert r.1 r.2) cache

/-- The handler for `install`. If it fails the worker is thrown away, and never activated. -/
def install : Option (CacheStorage ρ) :=
  (fetchAll net staticAssets).map fun responses =>
    (s.openCache staticCache).modify staticCache (putAll responses)

/-- The names that the handler for `activate` deletes. -/
def isOld (key : String) : Bool := startsWith key "hotelia-guest" && key != cacheVersion

/-- The handler for `activate`. -/
def activate : CacheStorage ρ := (s.keys.filter isOld).foldl CacheStorage.delete s

/-- The handler for `fetch`, for a GET of this origin that is no call of the API: the response,
and the caches after it. -/
def serveStatic (url : String) : Option ρ × CacheStorage ρ :=
  match s.firstMatch url with
  | some cached => (some cached, s)
  | none =>
    match net.fetch url with
    | some response =>
      (some response,
        if net.ok response then
          (s.openCache staticCache).modify staticCache (·.insert url response)
        else s)
    -- the shell of the app
    | none => (s.firstMatch "/", s)

end Handlers

/-! ## What an activation leaves -/

section Activate

variable {ρ : Type*} {net : Network ρ} {s s' : CacheStorage ρ}

theorem caches_foldl_delete (names : List String) (s : CacheStorage ρ) :
    (names.foldl CacheStorage.delete s).caches = s.caches.filter (·.1 ∉ names) := by
  induction names generalizing s with
  | nil => simp
  | cons name names ih =>
    rw [List.foldl_cons, ih, CacheStorage.delete, List.filter_filter]
    apply List.filter_congr
    intro c _
    simp [Bool.and_comm]

theorem caches_activate (s : CacheStorage ρ) :
    (activate s).caches = s.caches.filter fun c => !isOld c.1 := by
  rw [activate, caches_foldl_delete]
  apply List.filter_congr
  intro c hc
  have hkey : c.1 ∈ s.keys := List.mem_map_of_mem hc
  cases hold : isOld c.1 with
  | true => simp [hold, hkey]
  | false => simp [hold]

theorem isOld_staticCache : isOld staticCache = true := by decide

theorem filter_openCache (s : CacheStorage ρ) :
    (s.openCache staticCache).caches.filter (fun c => !isOld c.1) =
      s.caches.filter fun c => !isOld c.1 := by
  rw [CacheStorage.openCache]
  split
  · rfl
  · rw [List.filter_append]
    simp [isOld_staticCache]

theorem filter_modify (s : CacheStorage ρ) (f : Cache ρ → Cache ρ) :
    (s.modify staticCache f).caches.filter (fun c => !isOld c.1) =
      s.caches.filter fun c => !isOld c.1 := by
  rw [CacheStorage.modify]
  dsimp only
  induction s.caches with
  | nil => rfl
  | cons c cs ih =>
    rw [List.map_cons, List.filter_cons, List.filter_cons, ih]
    by_cases hname : c.1 = staticCache
    · rw [if_pos hname, hname, isOld_staticCache]
      rfl
    · rw [if_neg hname]

/-- The activation takes away all that the install has brought. -/
theorem activate_install (h : install net s = some s') :
    (activate s').caches = (activate s).caches := by
  obtain ⟨responses, -, rfl⟩ := Option.map_eq_some_iff.mp h
  rw [caches_activate, caches_activate, filter_modify, filter_openCache]

end Activate

/-! ## The shell of the app -/

section Shell

variable {ρ : Type*} {net : Network ρ} {s s' : CacheStorage ρ}

/-- The cache of the assets is there with all of them, and every other cache of the app is of
the current version. -/
structure ShellKept (s : CacheStorage ρ) : Prop where
  assets : ∃ cache, (staticCache, cache) ∈ s.caches ∧ ∀ url ∈ staticAssets, url ∈ cache
  current : ∀ key ∈ s.keys, startsWith key "hotelia-guest" = true →
    startsWith key cacheVersion = true

/-- After every install and activation the cache of the assets is gone. -/
theorem not_shellKept (h : install net s = some s') : ¬ ShellKept (activate s') := by
  rintro ⟨⟨cache, hmem, -⟩, -⟩
  rw [activate_install h, caches_activate, List.mem_filter] at hmem
  rw [isOld_staticCache] at hmem
  exact absurd hmem.2 (by decide)

/-- A network that has everything, and a device that has no caches yet. -/
def online : Network Unit := ⟨fun _ => some (), fun _ => true⟩

def noCaches : CacheStorage Unit := ⟨[], List.nodup_nil⟩

theorem exists_install_online : ∃ s', install online noCaches = some s' :=
  Option.isSome_iff_exists.mp (by decide)

theorem not_shellKept_firstVisit :
    ∃ s', install online noCaches = some s' ∧ ¬ ShellKept (activate s') := by
  obtain ⟨s', hs⟩ := exists_install_online
  exact ⟨s', hs, not_shellKept hs⟩

theorem not_install_keeps :
    ¬ ∀ (net : Network Unit) (s s' : CacheStorage Unit), install net s = some s' →
      ShellKept (activate s') := by
  intro h
  obtain ⟨s', hs⟩ := exists_install_online
  obtain ⟨⟨cache, hmem, -⟩, -⟩ := h online noCaches s' hs
  rw [activate_install hs] at hmem
  cases hmem

/-- Offline, a device on which no other cache has an answer gets no page. -/
theorem serveStatic_offline (h : install net s = some s')
    (hother : ∀ c ∈ s.caches, isOld c.1 = false → c.2 = ∅) {offline : Network ρ}
    (hoffline : ∀ url, offline.fetch url = none) (url : String) :
    (serveStatic offline (activate s') url).1 = none := by
  have hnone (url : String) : (activate s').firstMatch url = none := by
    rw [CacheStorage.firstMatch, activate_install h, caches_activate, List.findSome?_eq_none_iff]
    intro c hc
    obtain ⟨hmem, hkept⟩ := List.mem_filter.mp hc
    rw [hother c hmem (by simpa using hkept)]
    exact AList.lookup_empty url
  rw [serveStatic, hnone, hoffline]
  exact hnone "/"

end Shell

end Hotelia.Guest
