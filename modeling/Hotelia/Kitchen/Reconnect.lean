import Hotelia.Foundation.Run
import Mathlib.Data.List.Infix

/-!
# How the kitchen display keeps its connection

The effect of `apps/kds/app/page.tsx` that calls `connect()`: a request, the response that is read,
and the timer after which it tries again, until the page is unmounted. A request is given up by an
`AbortController`; a call of `connect()` that was given up goes on when its `await` throws.

## Main definitions

- `Wire` — the variables of the effect, and the calls of `connect()` that wait
- `Wire.step` — what can happen

## Main results

- `wire_invariant`: at any time there is one request, or one timer, and nothing after the end.
- `wire_settled`: what was under way at the end changes nothing any more.
-/

namespace Hotelia.Kitchen
open Foundation

/-- `RETRY_MS`. -/
def retryMs : ℕ := 3000

/-- What a call of `connect()` waits for. -/
inductive Phase where
  /-- `await fetch(…)` -/
  | fetching
  /-- `await reader.read()` -/
  | reading
  deriving DecidableEq

/-- A call of `connect()` that waits, and the controller whose signal it was made with. -/
structure Attempt where
  phase : Phase
  signal : ℕ
  deriving DecidableEq

/-- What `fetch` resolves to. -/
inductive FetchResult where
  | ok
  /-- `ok`, but without a body -/
  | noBody
  | unauthorized
  | httpError
  deriving DecidableEq

structure Wire where
  mounted : Bool
  /-- The controller in the variable, and those that were aborted. -/
  controller : ℕ
  aborted : List ℕ
  attempts : List Attempt
  /-- The timers that are set, with the time when they are due. -/
  timers : List (ℕ × ℕ)
  retryTimer : Option ℕ
  nextTimer : ℕ
  connected : Bool
  authError : Bool
  /-- The times at which requests were made, the oldest first. -/
  requests : List ℕ
  clock : ℕ

inductive WireEvent where
  | responds (attempt : ℕ) (result : FetchResult) (now : ℕ)
  /-- A chunk of the response. -/
  | chunk (attempt : ℕ) (now : ℕ)
  /-- The response ends. -/
  | ends (attempt : ℕ) (now : ℕ)
  /-- What a call waits for throws. -/
  | throws (attempt : ℕ) (now : ℕ)
  | fires (timer : ℕ) (now : ℕ)
  | unmount (now : ℕ)

def WireEvent.now : WireEvent → ℕ
  | .responds _ _ now => now
  | .chunk _ now => now
  | .ends _ now => now
  | .throws _ now => now
  | .fires _ now => now
  | .unmount now => now

namespace Wire

/-- `connect()`, up to its first `await`. -/
def connect (w : Wire) : Wire :=
  let controller := if w.aborted.contains w.controller then w.controller + 1 else w.controller
  { w with
    controller
    attempts := w.attempts ++ [⟨.fetching, controller⟩]
    requests := w.requests ++ [w.clock] }

/-- The page is mounted. -/
def mount (now : ℕ) : Wire :=
  connect
    { mounted := true, controller := 0, aborted := [], attempts := [], timers := [],
      retryTimer := none, nextTimer := 0, connected := false, authError := false, requests := [],
      clock := now }

/-- `retryTimer = setTimeout(() => void connect(), RETRY_MS)`. -/
def retry (w : Wire) : Wire :=
  { w with
    timers := w.timers ++ [(w.nextTimer, w.clock + retryMs)]
    retryTimer := some w.nextTimer
    nextTimer := w.nextTimer + 1 }

/-- The `catch` of `connect()`. -/
def caught (w : Wire) : Wire :=
  if w.aborted.contains w.controller then w else retry { w with connected := false }

/-- What `connect()` does with the response. -/
def respond (w : Wire) (i signal : ℕ) : FetchResult → Wire
  | .ok =>
    { w with attempts := w.attempts.set i ⟨.reading, signal⟩, authError := false, connected := true }
  | .noBody =>
    caught { w with attempts := w.attempts.eraseIdx i, authError := false, connected := true }
  | .unauthorized =>
    retry { w with attempts := w.attempts.eraseIdx i, authError := true, connected := false }
  | .httpError => caught { w with attempts := w.attempts.eraseIdx i }

/-- An event at the time of the clock. A call whose signal is aborted can only throw. -/
def act (w : Wire) : WireEvent → Option Wire
  | .responds i result _ =>
    match w.attempts[i]? with
    | some ⟨.fetching, signal⟩ =>
      if w.aborted.contains signal then none else some (w.respond i signal result)
    | _ => none
  | .chunk i _ =>
    match w.attempts[i]? with
    | some ⟨.reading, signal⟩ => if w.aborted.contains signal then none else some w
    | _ => none
  | .ends i _ =>
    match w.attempts[i]? with
    | some ⟨.reading, signal⟩ =>
      if w.aborted.contains signal then none
      else some (retry { w with attempts := w.attempts.eraseIdx i, connected := false })
    | _ => none
  | .throws i _ =>
    match w.attempts[i]? with
    | some _ => some (caught { w with attempts := w.attempts.eraseIdx i })
    | none => none
  | .fires id _ =>
    match w.timers.find? (·.1 = id) with
    | some (_, due) =>
      if due ≤ w.clock then some (connect { w with timers := w.timers.filter (·.1 ≠ id) }) else none
    | none => none
  | .unmount _ =>
    if w.mounted then
      some { w with
        mounted := false
        aborted := w.controller :: w.aborted
        timers := match w.retryTimer with
          | some id => w.timers.filter (·.1 ≠ id)
          | none => w.timers }
    else none

def step (w : Wire) (e : WireEvent) : Option Wire :=
  if w.clock ≤ e.now then { w with clock := e.now }.act e else none

end Wire

/-! ## While the page is mounted -/

/-- A call waits, for the response or for more of it. -/
def Asking (w : Wire) : Prop :=
  ∃ phase, w.attempts = [⟨phase, w.controller⟩] ∧ w.timers = [] ∧
    (w.connected = true ↔ phase = .reading)

/-- The timer is set, and is due no earlier than allowed. -/
def Pausing (w : Wire) : Prop :=
  ∃ id due, w.attempts = [] ∧ w.timers = [(id, due)] ∧ w.retryTimer = some id ∧
    w.connected = false ∧ ∀ t ∈ w.requests, t + retryMs ≤ due

/-- What holds until the page is unmounted. -/
structure Live (w : Wire) : Prop where
  mounted : w.mounted = true
  signal : w.aborted.contains w.controller = false
  flags : ¬ (w.connected = true ∧ w.authError = true)
  apart : w.requests.Pairwise (· + retryMs ≤ ·)
  past : ∀ t ∈ w.requests, t ≤ w.clock
  state : Asking w ∨ Pausing w

/-- What holds from then on. -/
structure Gone (w : Wire) : Prop where
  unmounted : w.mounted = false
  apart : w.requests.Pairwise (· + retryMs ≤ ·)
  few : w.attempts.length ≤ 1
  timers : w.timers = []
  signal : w.aborted.contains w.controller = true
  attempts : ∀ a ∈ w.attempts, w.aborted.contains a.signal = true

/-! ## One step -/

/-- Nothing is under way. -/
structure Idle (w : Wire) : Prop where
  mounted : w.mounted = true
  signal : w.aborted.contains w.controller = false
  connected : w.connected = false
  apart : w.requests.Pairwise (· + retryMs ≤ ·)
  past : ∀ t ∈ w.requests, t ≤ w.clock
  attempts : w.attempts = []
  timers : w.timers = []

section Steps

variable {w w' : Wire}

theorem Idle.retry (h : Idle w) : Live w.retry where
  mounted := h.mounted
  signal := h.signal
  flags hflags := by
    have hdown : w.connected = true := hflags.1
    rw [h.connected] at hdown
    cases hdown
  apart := h.apart
  past := h.past
  state := by
    refine .inr ⟨w.nextTimer, w.clock + retryMs, h.attempts, ?_, rfl, h.connected, ?_⟩
    · rw [Wire.retry, h.timers]
      rfl
    · exact fun t ht => Nat.add_le_add_right (h.past t ht) retryMs

/-- After a pause that was long enough, the next request may be made. -/
theorem Idle.connect (h : Idle w) (hpause : ∀ t ∈ w.requests, t + retryMs ≤ w.clock) :
    Live w.connect := by
  have hcontroller : w.connect.controller = w.controller := by
    rw [Wire.connect, h.signal]
    rfl
  refine ⟨h.mounted, ?_, ?_, ?_, ?_, .inl ⟨.fetching, ?_, h.timers, ?_⟩⟩
  · rw [hcontroller]
    exact h.signal
  · rintro ⟨hup, -⟩
    change w.connected = true at hup
    rw [h.connected] at hup
    cases hup
  · change (w.requests ++ [w.clock]).Pairwise (· + retryMs ≤ ·)
    rw [List.pairwise_append]
    refine ⟨h.apart, List.pairwise_singleton _ _, fun t ht u hu => ?_⟩
    rw [List.mem_singleton.mp hu]
    exact hpause t ht
  · intro t ht
    rcases List.mem_append.mp ht with hold | hnew
    · exact h.past t hold
    · exact (List.mem_singleton.mp hnew).le
  · rw [hcontroller, Wire.connect, h.attempts, h.signal]
    rfl
  · change w.connected = true ↔ Phase.fetching = .reading
    rw [h.connected]
    decide

theorem Live.caught (hmounted : w.mounted = true)
    (hsignal : w.aborted.contains w.controller = false)
    (hapart : w.requests.Pairwise (· + retryMs ≤ ·)) (hpast : ∀ t ∈ w.requests, t ≤ w.clock)
    (hattempts : w.attempts = []) (htimers : w.timers = []) : Live w.caught := by
  have hcaught : w.caught = Wire.retry { w with connected := false } := by
    rw [Wire.caught, hsignal]
    rfl
  rw [hcaught]
  exact Idle.retry ⟨hmounted, hsignal, rfl, hapart, hpast, hattempts, htimers⟩

theorem Live.later (h : Live w) {now : ℕ} (hle : w.clock ≤ now) :
    Live { w with clock := now } :=
  ⟨h.mounted, h.signal, h.flags, h.apart, fun t ht => (h.past t ht).trans hle, h.state⟩

/-- The one call that waits. -/
theorem getElem?_singleton_eq_some {α : Type*} {a b : α} {i : ℕ} (h : [a][i]? = some b) :
    i = 0 ∧ b = a := by
  cases i with
  | zero => exact ⟨rfl, (Option.some.inj h).symm⟩
  | succ i => cases h

/-- While a call waits. -/
theorem Live.act_asking (h : Live w) {phase : Phase}
    (hattempts : w.attempts = [⟨phase, w.controller⟩]) (htimers : w.timers = [])
    {e : WireEvent} (hact : w.act e = some w') : Live w' ∨ Gone w' := by
  cases e with
  | responds i result now =>
    simp only [Wire.act, hattempts] at hact
    split at hact
    case h_2 => cases hact
    case h_1 signal hi =>
      obtain ⟨rfl, hcall⟩ := getElem?_singleton_eq_some hi
      obtain ⟨-, rfl⟩ : Phase.fetching = phase ∧ signal = w.controller := by simpa using hcall
      rw [h.signal, if_neg Bool.false_ne_true] at hact
      obtain rfl := Option.some.inj hact
      left
      have herase : w.attempts.eraseIdx 0 = [] := by rw [hattempts]; rfl
      cases result with
      | ok =>
        refine ⟨h.mounted, h.signal, by simp [Wire.respond], h.apart, h.past,
          .inl ⟨.reading, ?_, htimers, by simp [Wire.respond]⟩⟩
        rw [Wire.respond, hattempts]
        rfl
      | noBody => exact Live.caught h.mounted h.signal h.apart h.past herase htimers
      | unauthorized =>
        exact Idle.retry ⟨h.mounted, h.signal, rfl, h.apart, h.past, herase, htimers⟩
      | httpError => exact Live.caught h.mounted h.signal h.apart h.past herase htimers
  | chunk i now =>
    simp only [Wire.act] at hact
    split at hact
    case h_2 => cases hact
    case h_1 =>
      split at hact
      · cases hact
      · obtain rfl := Option.some.inj hact
        exact .inl h
  | ends i now =>
    simp only [Wire.act, hattempts] at hact
    split at hact
    case h_2 => cases hact
    case h_1 signal hi =>
      obtain ⟨rfl, -⟩ := getElem?_singleton_eq_some hi
      split at hact
      · cases hact
      · obtain rfl := Option.some.inj hact
        exact .inl (Idle.retry ⟨h.mounted, h.signal, rfl, h.apart, h.past, rfl, htimers⟩)
  | throws i now =>
    simp only [Wire.act, hattempts] at hact
    split at hact
    case h_2 => cases hact
    case h_1 call hi =>
      obtain ⟨rfl, -⟩ := getElem?_singleton_eq_some hi
      obtain rfl := Option.some.inj hact
      exact .inl (Live.caught h.mounted h.signal h.apart h.past rfl htimers)
  | fires id now => simp [Wire.act, htimers] at hact
  | unmount now =>
    simp only [Wire.act, h.mounted, if_true] at hact
    obtain rfl := Option.some.inj hact
    refine .inr ⟨rfl, h.apart, by simp [hattempts], ?_, by simp, by simp [hattempts]⟩
    cases hretry : w.retryTimer with
    | none => exact htimers
    | some id => simp [htimers]

/-- While the timer is set. -/
theorem Live.act_pausing (h : Live w) {id due : ℕ} (hattempts : w.attempts = [])
    (htimers : w.timers = [(id, due)]) (hretry : w.retryTimer = some id)
    (hdown : w.connected = false) (hdue : ∀ t ∈ w.requests, t + retryMs ≤ due)
    {e : WireEvent} (hact : w.act e = some w') : Live w' ∨ Gone w' := by
  cases e with
  | responds i result now => simp [Wire.act, hattempts] at hact
  | chunk i now => simp [Wire.act, hattempts] at hact
  | ends i now => simp [Wire.act, hattempts] at hact
  | throws i now => simp [Wire.act, hattempts] at hact
  | fires id' now =>
    by_cases hid : id = id'
    · subst hid
      simp only [Wire.act, htimers, List.find?_cons, decide_true] at hact
      split at hact
      case isFalse => cases hact
      case isTrue hready =>
        obtain rfl := Option.some.inj hact
        refine .inl (Idle.connect ⟨h.mounted, h.signal, hdown, h.apart, h.past, hattempts, ?_⟩ ?_)
        · simp
        · exact fun t ht => (hdue t ht).trans hready
    · simp [Wire.act, htimers, hid] at hact
  | unmount now =>
    simp only [Wire.act, h.mounted, if_true] at hact
    obtain rfl := Option.some.inj hact
    exact .inr ⟨rfl, h.apart, by simp [hattempts], by simp [hretry, htimers], by simp,
      by simp [hattempts]⟩

theorem Live.step (h : Live w) {e : WireEvent} (hstep : w.step e = some w') :
    Live w' ∨ Gone w' := by
  rw [Wire.step] at hstep
  split at hstep
  case isFalse => cases hstep
  case isTrue hle =>
    have hlater := h.later hle
    rcases h.state with ⟨phase, hattempts, htimers, -⟩ | ⟨id, due, hattempts, htimers, hretry,
      hdown, hdue⟩
    · exact hlater.act_asking hattempts htimers hstep
    · exact hlater.act_pausing hattempts htimers hretry hdown hdue hstep

/-- After the end, calls of `connect()` only fall away. -/
theorem Gone.step (h : Gone w) {e : WireEvent} (hstep : w.step e = some w') :
    Gone w' ∧ w'.connected = w.connected ∧ w'.authError = w.authError ∧
      w'.requests = w.requests ∧ w'.attempts.length < w.attempts.length := by
  rw [Wire.step] at hstep
  split at hstep
  case isFalse => cases hstep
  cases e with
  | responds i result now =>
    simp only [Wire.act] at hstep
    split at hstep
    case h_2 => cases hstep
    case h_1 signal hi =>
      rw [if_pos (h.attempts _ (List.mem_of_getElem? hi))] at hstep
      cases hstep
  | chunk i now =>
    simp only [Wire.act] at hstep
    split at hstep
    case h_2 => cases hstep
    case h_1 signal hi =>
      rw [if_pos (h.attempts _ (List.mem_of_getElem? hi))] at hstep
      cases hstep
  | ends i now =>
    simp only [Wire.act] at hstep
    split at hstep
    case h_2 => cases hstep
    case h_1 signal hi =>
      rw [if_pos (h.attempts _ (List.mem_of_getElem? hi))] at hstep
      cases hstep
  | throws i now =>
    simp only [Wire.act] at hstep
    split at hstep
    case h_2 => cases hstep
    case h_1 call hi =>
      obtain ⟨hlt, -⟩ := List.getElem?_eq_some_iff.mp hi
      rw [Wire.caught, if_pos h.signal] at hstep
      obtain rfl := Option.some.inj hstep
      have hless : (w.attempts.eraseIdx i).length < w.attempts.length := by
        rw [List.length_eraseIdx_of_lt hlt]
        omega
      refine ⟨⟨h.unmounted, h.apart, hless.le.trans h.few, h.timers, h.signal, fun a ha => ?_⟩,
        rfl, rfl, rfl, hless⟩
      exact h.attempts a ((List.eraseIdx_sublist _ _).subset ha)
  | fires id now => simp [Wire.act, h.timers] at hstep
  | unmount now => simp [Wire.act, h.unmounted] at hstep

end Steps

/-! ## Runs -/

/-- No call was made before the page was mounted. -/
theorem live_mount (t : ℕ) : Live (Wire.mount t) :=
  Idle.connect ⟨rfl, rfl, rfl, .nil, fun _ h => absurd h List.not_mem_nil, rfl, rfl⟩
    fun _ h => absurd h List.not_mem_nil

theorem live_or_gone {t : ℕ} {es : List WireEvent} {w : Wire}
    (h : run Wire.step (Wire.mount t) es = some w) : Live w ∨ Gone w := by
  refine run_invariant (I := fun w => Live w ∨ Gone w) ?_ (.inl (live_mount t)) h
  rintro w e w' (hlive | hgone) hstep
  · exact hlive.step hstep
  · exact .inr (hgone.step hstep).1

theorem Gone.run {w w' : Wire} (h : Gone w) {es : List WireEvent}
    (hr : run Wire.step w es = some w') :
    Gone w' ∧ w'.connected = w.connected ∧ w'.authError = w.authError ∧
      w'.requests = w.requests ∧ es.length + w'.attempts.length ≤ w.attempts.length := by
  induction es generalizing w with
  | nil =>
    obtain rfl := Option.some.inj hr
    exact ⟨h, rfl, rfl, rfl, by simp⟩
  | cons e es ih =>
    obtain ⟨v, hv, hr⟩ := run_cons_eq_some.mp hr
    obtain ⟨hgone, hconnected, hauth, hrequests, hless⟩ := h.step hv
    obtain ⟨hgone', hconnected', hauth', hrequests', hle⟩ := ih hgone hr
    refine ⟨hgone', hconnected'.trans hconnected, hauth'.trans hauth,
      hrequests'.trans hrequests, ?_⟩
    rw [List.length_cons]
    omega

/-- The timer leads to the next request, at any time from which it is due. -/
theorem Live.fires {w : Wire} (h : Live w) (hnone : w.attempts = []) :
    ∃ id due, w.timers = [(id, due)] ∧ ∀ now, due ≤ now → w.clock ≤ now →
      ∃ w', w.step (.fires id now) = some w' ∧ w'.requests = w.requests ++ [now] := by
  rcases h.state with ⟨phase, hattempts, -⟩ | ⟨id, due, -, htimers, -⟩
  · rw [hattempts] at hnone
    cases hnone
  · refine ⟨id, due, htimers, fun now hdue hle => ?_⟩
    have hfind : w.timers.find? (·.1 = id) = some (id, due) := by simp [htimers]
    refine ⟨_, by rw [Wire.step, WireEvent.now, if_pos hle, Wire.act, hfind]; exact if_pos hdue, rfl⟩

/-- While the page is mounted, one call of `connect()` waits or one timer is set, the badge says
that the page is live exactly while a response is read, and never together with the error, and
when nothing waits, the timer leads to a request. Requests are always `RETRY_MS` apart. -/
theorem wire_invariant {t : ℕ} {es : List WireEvent} {w : Wire}
    (h : run Wire.step (Wire.mount t) es = some w) :
    w.requests.Pairwise (· + retryMs ≤ ·) ∧
      (w.mounted = true →
        w.attempts.length + w.timers.length = 1 ∧
        (w.connected = true ↔ ∃ a ∈ w.attempts, a.phase = .reading) ∧
        ¬ (w.connected = true ∧ w.authError = true) ∧
        (w.attempts = [] → ∃ id due, w.timers = [(id, due)] ∧ ∀ now, due ≤ now → w.clock ≤ now →
          ∃ w', w.step (.fires id now) = some w' ∧ w'.requests = w.requests ++ [now])) := by
  rcases live_or_gone h with hlive | hgone
  · refine ⟨hlive.apart, fun _ => ⟨?_, ?_, hlive.flags, hlive.fires⟩⟩
    · rcases hlive.state with ⟨phase, hattempts, htimers, -⟩ | ⟨id, due, hattempts, htimers, -⟩
      · rw [hattempts, htimers]
        rfl
      · rw [hattempts, htimers]
        rfl
    · rcases hlive.state with ⟨phase, hattempts, -, hup⟩ | ⟨id, due, hattempts, -, -, hdown, -⟩
      · simpa [hattempts] using hup
      · simp [hattempts, hdown]
  · refine ⟨hgone.apart, fun hmounted => ?_⟩
    rw [hgone.unmounted] at hmounted
    cases hmounted

/-- A stream that ends after five seconds, and the request after it. -/
theorem wire_invariant_second :
    let w := (run Wire.step (Wire.mount 0)
      [.responds 0 .ok 10, .chunk 0 40, .ends 0 5000, .fires 0 8000]).get (by decide)
    w.requests = [0, 8000] ∧ w.mounted = true ∧ w.attempts.length + w.timers.length = 1 := by
  intro w
  have hrun := (Option.some_get (show (run Wire.step (Wire.mount 0)
    [.responds 0 .ok 10, .chunk 0 40, .ends 0 5000, .fires 0 8000]).isSome = true by decide)).symm
  exact ⟨rfl, rfl, ((wire_invariant hrun).2 rfl).1⟩

/-- Once the page is unmounted, no request is made and no flag is set, whatever was under way;
at most one more thing happens. -/
theorem wire_settled {t : ℕ} {es fs : List WireEvent} {w w' : Wire}
    (h : run Wire.step (Wire.mount t) es = some w) (hunmounted : w.mounted = false)
    (h' : run Wire.step w fs = some w') :
    w'.connected = w.connected ∧ w'.authError = w.authError ∧ w'.requests = w.requests ∧
      w'.timers = [] ∧ fs.length ≤ 1 := by
  rcases live_or_gone h with hlive | hgone
  · rw [hlive.mounted] at hunmounted
    cases hunmounted
  · obtain ⟨hgone', hconnected, hauth, hrequests, hlen⟩ := hgone.run h'
    have hfew := hgone.few
    exact ⟨hconnected, hauth, hrequests, hgone'.timers, by omega⟩

/-- The page is unmounted while it asks again; the request is given up. -/
theorem wire_settled_asking :
    let w := (run Wire.step (Wire.mount 0)
      [.responds 0 .ok 10, .ends 0 5000, .fires 0 8000, .unmount 8001]).get (by decide)
    let w' := (w.step (.throws 0 8002)).get (by decide)
    w'.requests = w.requests ∧ w'.timers = [] := by
  intro w w'
  have hrun := (Option.some_get (show (run Wire.step (Wire.mount 0)
    [.responds 0 .ok 10, .ends 0 5000, .fires 0 8000, .unmount 8001]).isSome = true
      by decide)).symm
  have hlast : run Wire.step w [.throws 0 8002] = some w' := rfl
  obtain ⟨-, -, hrequests, htimers, -⟩ := wire_settled hrun rfl hlast
  exact ⟨hrequests, htimers⟩

end Hotelia.Kitchen
