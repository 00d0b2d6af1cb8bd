import Hotelia.Foundation.IsoText
import Hotelia.Foundation.Run
import Hotelia.Shared.JsonText
import Mathlib.Logic.Function.Basic

/-!
# The log of the console

`apps/console/src/main/logger.ts`: every entry is one line of `console.log`, whatever the message
and the context are made of, and warnings and errors go to the standard error stream as well. Each
logger has a stream of its own on the file, which is written to later than the logger is called.
The directory is there, and what a stream writes at once is appended as a whole.

## Main definitions

- `LogCall`, `LogCall.entry` — a call of a logger, and the entry that it writes
- `LogEntry.serialize` — the text of an entry
- `Log.step` — a call, a new logger, or a write of a stream

## Main results

- `Kept.step`: what is in the file and what is still to be written are the calls.
- `log_reads_back`: the lines of the file are the entries, those of each logger in their order.
-/

namespace Hotelia.Logging
open Foundation

inductive LogLevel where
  | debug | info | warn | error
  deriving DecidableEq

def LogLevel.text : LogLevel → String
  | .debug => "debug"
  | .info => "info"
  | .warn => "warn"
  | .error => "error"

/-- `LogContext`, as `JSON.stringify` takes it. -/
inductive LogContext where
  | fields (ctx : JsonRecord)
  /-- It throws; `ctx.ctx` is printed as the text, if there is one. -/
  | unserializable (ctx : Option String)

/-- What is handed over as `err`. -/
inductive Thrown where
  | error (name message : String) (stack : Option String)
  /-- Anything but an `Error`, as the text that `String` makes of it. -/
  | other (text : String)

/-- `ErrorPayload`. -/
structure ErrorPayload where
  name : String
  message : String
  stack : Option String

structure LogEntry where
  ts : String
  level : LogLevel
  service : String
  /-- The text that is printed for the number. -/
  pid : String
  msg : String
  ctx : Option LogContext
  err : Option ErrorPayload

/-- A call of `debug`, `info`, `warn` or `error` of a logger. -/
structure LogCall where
  level : LogLevel
  msg : String
  ctx : Option LogContext
  err : Option Thrown
  now : ℤ

def Thrown.payload : Thrown → ErrorPayload
  | .error name message stack => ⟨name, message, stack⟩
  | .other text => ⟨"unknown", text, none⟩

/-- The entry that `write` of the logger of a service makes. -/
def LogCall.entry (pid service : String) (call : LogCall) : LogEntry where
  ts := isoText call.now
  level := call.level
  service := service
  pid := pid
  msg := call.msg
  ctx := call.ctx
  err := call.err.map Thrown.payload

/-! ## Lines -/

def ErrorPayload.json (err : ErrorPayload) : Json :=
  .obj ([("name", .str err.name), ("message", .str err.message)] ++
    err.stack.toList.map fun stack => ("stack", .str stack))

namespace LogEntry

variable (entry : LogEntry)

/-- The fields of every entry, with a message. -/
def head (msg : String) : JsonRecord :=
  [("ts", .str entry.ts), ("level", .str entry.level.text), ("service", .str entry.service),
    ("pid", .num entry.pid), ("msg", .str msg)]

/-- The entry as an object; an absent field is left out. -/
def json (ctx : Option JsonRecord) : Json :=
  .obj (entry.head entry.msg ++ (ctx.toList.map fun ctx => ("ctx", .obj ctx)) ++
    entry.err.toList.map fun err => ("err", err.json))

/-- What is written for the entry: itself, or what `serialize` falls back to. -/
def logged : Json :=
  match entry.ctx with
  | none => entry.json none
  | some (.fields ctx) => entry.json (some ctx)
  | some (.unserializable ctx) =>
    .obj (entry.head ("unserializable log entry at " ++ ctx.getD "unknown"))

/-- `serialize(entry)`. -/
def serialize : List Char := entry.logged.print

/-- What the stream of the logger gets. -/
def line : List Char := entry.serialize ++ ['\n']

/-- What goes to the standard error stream. -/
def stderr : String :=
  if entry.level = .error || entry.level = .warn then
    "[" ++ entry.ts ++ "][" ++ entry.level.text ++ "][" ++ entry.service ++ "] " ++ entry.msg ++ "\n"
  else ""

end LogEntry

/-! ## The streams -/

/-- The services of the loggers, what each has given to its stream that is not written yet, the
file, and the standard error stream. -/
structure Log where
  services : List String
  pending : ℕ → List (List Char)
  file : List Char
  stderr : String

inductive LogEvent where
  /-- `child(context)` of the `i`-th logger. The new logger has a stream of its own. -/
  | child (i : ℕ) (context : String)
  | call (i : ℕ) (c : LogCall)
  /-- The stream of the `i`-th logger writes the first `n` texts that it has. -/
  | written (i n : ℕ)

namespace Log

/-- The logger of the module, and an empty file. -/
def start : Log := ⟨["hotelia-console"], fun _ => [], [], ""⟩

def step (pid : String) (log : Log) : LogEvent → Option Log
  | .child i context =>
    (log.services[i]?).map fun service =>
      { log with services := log.services ++ [service ++ ":" ++ context] }
  | .call i c =>
    (log.services[i]?).map fun service =>
      let entry := c.entry pid service
      { log with
        pending := Function.update log.pending i (log.pending i ++ [entry.line])
        stderr := log.stderr ++ entry.stderr }
  | .written i n =>
    some { log with
      pending := Function.update log.pending i ((log.pending i).drop n)
      file := log.file ++ ((log.pending i).take n).flatten }

/-- The entry that an event makes, with the number of its logger. -/
def made (pid : String) (services : List String) : LogEvent → List (ℕ × LogEntry)
  | .call i c => (services[i]?).toList.map fun service => (i, c.entry pid service)
  | .child _ _ | .written _ _ => []

/-- The services after an event. -/
def grown (services : List String) : LogEvent → List String
  | .child i context => services ++ (services[i]?).toList.map (· ++ ":" ++ context)
  | .call _ _ | .written _ _ => services

/-- The entries that the calls make, in the order of the calls. -/
def entries (pid : String) (services : List String) : List LogEvent → List (ℕ × LogEntry)
  | [] => []
  | e :: es => made pid services e ++ entries pid (grown services e) es

end Log

/-! ## Reading the log -/

section Reading

variable {canon : String → String}

/-- A context that the language can hold. -/
def LogCall.Fits (canon : String → String) (call : LogCall) : Prop :=
  ∀ ctx, call.ctx = some (.fields ctx) → (Json.obj ctx).Held canon

theorem held_errorPayload (err : ErrorPayload) : err.json.Held canon := by
  obtain ⟨name, message, stack⟩ := err
  cases stack with
  | none =>
    have hkeys : ["name", "message"].Pairwise fun a b => precedes a b = true := by decide
    refine .ofKeys hkeys ?_
    change ∀ v ∈ [Json.str name, .str message], v.Held canon
    simp only [List.forall_mem_cons]
    exact ⟨.str name, .str message, fun v hv => absurd hv List.not_mem_nil⟩
  | some stack =>
    have hkeys : ["name", "message", "stack"].Pairwise fun a b => precedes a b = true := by decide
    refine .ofKeys hkeys ?_
    change ∀ v ∈ [Json.str name, .str message, .str stack], v.Held canon
    simp only [List.forall_mem_cons]
    exact ⟨.str name, .str message, .str stack, fun v hv => absurd hv List.not_mem_nil⟩

variable {pid : String}

theorem held_head (hpid : (Json.num pid).Held canon) {entry : LogEntry} (hentry : entry.pid = pid)
    (msg : String) : ∀ v ∈ (entry.head msg).map (·.2), v.Held canon := by
  change ∀ v ∈ [Json.str entry.ts, .str entry.level.text, .str entry.service, .num entry.pid,
    .str msg], v.Held canon
  rw [hentry]
  simp only [List.forall_mem_cons]
  exact ⟨.str _, .str _, .str _, hpid, .str _, fun v hv => absurd hv List.not_mem_nil⟩

/-- The keys of an entry, of which `ctx` and `err` may be absent. -/
def entryKeys : List String := ["ts", "level", "service", "pid", "msg", "ctx", "err"]

theorem pairwise_keys {keys : List String} (h : keys.Sublist entryKeys) :
    keys.Pairwise fun a b => precedes a b = true :=
  List.Pairwise.sublist h (by decide)

theorem held_json (hpid : (Json.num pid).Held canon) {entry : LogEntry} (hentry : entry.pid = pid)
    {ctx : Option JsonRecord} (hctx : ∀ c, ctx = some c → (Json.obj c).Held canon) :
    (entry.json ctx).Held canon := by
  refine .ofKeys (pairwise_keys ?_) ?_
  · cases ctx with
    | none =>
      rw [List.map_append, List.map_append]
      cases entry.err with
      | none => exact (by decide : ["ts", "level", "service", "pid", "msg"].Sublist entryKeys)
      | some err => exact (by decide : ["ts", "level", "service", "pid", "msg", "err"].Sublist entryKeys)
    | some c =>
      rw [List.map_append, List.map_append]
      cases entry.err with
      | none => exact (by decide : ["ts", "level", "service", "pid", "msg", "ctx"].Sublist entryKeys)
      | some err => exact List.Sublist.refl _
  · intro v hv
    rw [List.map_append, List.map_append, List.mem_append, List.mem_append] at hv
    rcases hv with (hv | hv) | hv
    · exact held_head hpid hentry _ v hv
    · cases ctx with
      | none => exact absurd hv List.not_mem_nil
      | some c =>
        obtain rfl : v = .obj c := List.mem_singleton.mp hv
        exact hctx c rfl
    · cases herr : entry.err with
      | none =>
        rw [herr] at hv
        exact absurd hv List.not_mem_nil
      | some err =>
        rw [herr] at hv
        obtain rfl : v = err.json := List.mem_singleton.mp hv
        exact held_errorPayload err

/-- What is written for a call is a value that the language can hold. -/
theorem held_logged (hpid : (Json.num pid).Held canon) {call : LogCall} (h : call.Fits canon)
    (service : String) : (call.entry pid service).logged.Held canon := by
  have hentry : (call.entry pid service).pid = pid := rfl
  have hsame : (call.entry pid service).ctx = call.ctx := rfl
  rw [LogEntry.logged, hsame]
  cases hctx : call.ctx with
  | none => exact held_json hpid hentry fun c hc => absurd hc (Option.some_ne_none c).symm
  | some ctx =>
    cases ctx with
    | fields ctx =>
      refine held_json hpid hentry fun c hc => ?_
      obtain rfl := Option.some.inj hc
      exact h ctx hctx
    | unserializable text =>
      exact .ofKeys (pairwise_keys (by decide :
        ["ts", "level", "service", "pid", "msg"].Sublist entryKeys)) (held_head hpid hentry _)

/-- A text of lines is read line by line; behind the last line end there is nothing. -/
theorem parse_lines {order : List LogEntry} (h : ∀ entry ∈ order, entry.logged.Held canon) :
    ((order.flatMap LogEntry.line).splitOn '\n').map (Json.parse canon) =
      order.map (fun entry => some entry.logged) ++ [none] := by
  induction order with
  | nil => rfl
  | cons entry order ih =>
    have hheld := h entry List.mem_cons_self
    have hrest := ih fun e he => h e (List.mem_cons_of_mem entry he)
    have htext : (entry :: order).flatMap LogEntry.line =
        entry.serialize ++ '\n' :: order.flatMap LogEntry.line := by
      simp [LogEntry.line]
    rw [htext, LogEntry.serialize, List.splitOn_append_cons_self_of_not_mem (oneLine_print hheld),
      List.map_cons, hrest, parse_print hheld]
    rfl

end Reading

/-! ## What is written -/

section Writing

variable {pid : String} {log log' : Log} {asked order : List (ℕ × LogEntry)}

/-- The entries of one logger. -/
def ofLogger (i : ℕ) (entries : List (ℕ × LogEntry)) : List LogEntry :=
  (entries.filter (·.1 = i)).map (·.2)

theorem ofLogger_append (i : ℕ) (es fs : List (ℕ × LogEntry)) :
    ofLogger i (es ++ fs) = ofLogger i es ++ ofLogger i fs := by
  rw [ofLogger, List.filter_append, List.map_append]
  rfl

theorem ofLogger_same (i : ℕ) (es : List LogEntry) : ofLogger i (es.map (i, ·)) = es := by
  simp [ofLogger, List.filter_map, Function.comp_def]

theorem ofLogger_other {i j : ℕ} (h : j ≠ i) (es : List LogEntry) :
    ofLogger i (es.map (j, ·)) = [] := by
  simp [ofLogger, List.filter_map, Function.comp_def, h]

/-- The loggers were asked to write `asked`, and `order` is in the file: of each logger, the first
of its entries, and the others are still with its stream. -/
structure Kept (log : Log) (asked order : List (ℕ × LogEntry)) : Prop where
  file : log.file = (order.map (·.2)).flatMap LogEntry.line
  pending : ∀ i, ∃ rest, ofLogger i asked = ofLogger i order ++ rest ∧
    log.pending i = rest.map LogEntry.line
  stderr : log.stderr = String.join (asked.map (·.2.stderr))

theorem kept_start : Kept .start [] [] := ⟨rfl, fun _ => ⟨[], rfl, rfl⟩, rfl⟩

/-- A call gives its entry to the stream of its logger. -/
theorem Kept.call (h : Kept log asked order) (i : ℕ) (entry : LogEntry) :
    Kept { log with
      pending := Function.update log.pending i (log.pending i ++ [entry.line])
      stderr := log.stderr ++ entry.stderr } (asked ++ [(i, entry)]) order where
  file := h.file
  pending j := by
    obtain ⟨rest, hasked, hrest⟩ := h.pending j
    rw [ofLogger_append]
    by_cases hj : j = i
    · subst hj
      refine ⟨rest ++ [entry], ?_, ?_⟩
      · rw [hasked, List.append_assoc]
        exact congrArg _ (congrArg _ (ofLogger_same j [entry]))
      · refine (Function.update_self ..).trans ?_
        rw [hrest, List.map_append, List.map_singleton]
    · refine ⟨rest, ?_, (Function.update_of_ne hj ..).trans hrest⟩
      have hnone : ofLogger j [(i, entry)] = [] := ofLogger_other (Ne.symm hj) [entry]
      rw [hnone, List.append_nil, hasked]
  stderr := by
    rw [h.stderr, List.map_append, String.join_append]
    simp

/-- A stream writes the first entries that it has. -/
theorem Kept.written (h : Kept log asked order) (i n : ℕ) : ∃ order',
    Kept { log with
      pending := Function.update log.pending i ((log.pending i).drop n)
      file := log.file ++ ((log.pending i).take n).flatten } asked order' := by
  obtain ⟨rest, hasked, hrest⟩ := h.pending i
  refine ⟨order ++ (rest.take n).map (i, ·), ?_, fun j => ?_, h.stderr⟩
  · rw [h.file, hrest, List.map_append, List.flatMap_append, ← List.map_take, List.map_map]
    simp [List.flatMap_def, Function.comp_def]
  · rw [ofLogger_append]
    by_cases hj : j = i
    · subst hj
      refine ⟨rest.drop n, ?_, ?_⟩
      · rw [ofLogger_same, List.append_assoc, List.take_append_drop, hasked]
      · refine (Function.update_self ..).trans ?_
        rw [hrest, List.map_drop]
    · obtain ⟨rest', hasked', hrest'⟩ := h.pending j
      refine ⟨rest', ?_, (Function.update_of_ne hj ..).trans hrest'⟩
      rw [ofLogger_other (Ne.symm hj), List.append_nil, hasked']

theorem Kept.step (h : Kept log asked order) {e : LogEvent} (hs : log.step pid e = some log') :
    log'.services = Log.grown log.services e ∧
      ∃ order', Kept log' (asked ++ Log.made pid log.services e) order' := by
  cases e with
  | child i context =>
    obtain ⟨service, hservice, rfl⟩ := Option.map_eq_some_iff.mp hs
    refine ⟨by simp [Log.grown, hservice], order, ?_⟩
    rw [Log.made, List.append_nil]
    exact ⟨h.file, h.pending, h.stderr⟩
  | call i c =>
    obtain ⟨service, hservice, rfl⟩ := Option.map_eq_some_iff.mp hs
    refine ⟨rfl, order, ?_⟩
    rw [Log.made, hservice]
    exact h.call i _
  | written i n =>
    obtain rfl := Option.some.inj hs
    obtain ⟨order', horder⟩ := h.written i n
    refine ⟨rfl, order', ?_⟩
    rw [Log.made, List.append_nil]
    exact horder

theorem Kept.run (h : Kept log asked order) {es : List LogEvent}
    (hr : run (Log.step pid) log es = some log') :
    ∃ order', Kept log' (asked ++ Log.entries pid log.services es) order' := by
  induction es generalizing log asked order with
  | nil =>
    obtain rfl := Option.some.inj hr
    rw [Log.entries, List.append_nil]
    exact ⟨order, h⟩
  | cons e es ih =>
    obtain ⟨next, hs, hr⟩ := run_cons_eq_some.mp hr
    obtain ⟨hservices, order', hnext⟩ := h.step hs
    obtain ⟨order'', hlast⟩ := ih hnext hr
    rw [hservices, List.append_assoc] at hlast
    exact ⟨order'', hlast⟩

theorem mem_entries {services : List String} {es : List LogEvent} {e : ℕ × LogEntry}
    (h : e ∈ Log.entries pid services es) :
    ∃ i c service, .call i c ∈ es ∧ e = (i, c.entry pid service) := by
  induction es generalizing services with
  | nil => exact absurd h List.not_mem_nil
  | cons event es ih =>
    rw [Log.entries, List.mem_append] at h
    rcases h with h | h
    · cases event with
      | call i c =>
        obtain ⟨service, -, rfl⟩ := List.mem_map.mp h
        exact ⟨i, c, service, List.mem_cons_self, rfl⟩
      | child i context => exact absurd h List.not_mem_nil
      | written i n => exact absurd h List.not_mem_nil
    · obtain ⟨i, c, service, hmem, rfl⟩ := ih h
      exact ⟨i, c, service, List.mem_cons_of_mem event hmem, rfl⟩

/-- Whatever the loggers are asked to write, and whenever their streams get to it: the lines of the
file are entries of the calls, whatever the messages and the contexts are, and behind the last line
end there is nothing. Of each logger the file has the first of its entries, in their order, and the
others are still with its stream. The standard error stream has the warnings and errors of all, in
the order of the calls. -/
theorem log_reads_back {canon : String → String} (hpid : (Json.num pid).Held canon)
    {es : List LogEvent} (h : ∀ i c, .call i c ∈ es → LogCall.Fits canon c)
    (hr : run (Log.step pid) .start es = some log) :
    let asked := Log.entries pid Log.start.services es
    ∃ order : List (ℕ × LogEntry),
      (log.file.splitOn '\n').map (Json.parse canon) =
          order.map (fun e => some e.2.logged) ++ [none] ∧
        (∀ i, ∃ rest, ofLogger i asked = ofLogger i order ++ rest ∧
          log.pending i = rest.map LogEntry.line) ∧
        log.stderr = String.join (asked.map (·.2.stderr)) := by
  intro asked
  obtain ⟨order, hkept⟩ : ∃ order, Kept log asked order := kept_start.run hr
  refine ⟨order, ?_, hkept.pending, hkept.stderr⟩
  have hheld : ∀ entry ∈ order.map (·.2), entry.logged.Held canon := by
    intro entry hentry
    obtain ⟨⟨i, entry⟩, hmem, rfl⟩ := List.mem_map.mp hentry
    obtain ⟨rest, hasked, -⟩ := hkept.pending i
    -- what is in the file was asked for
    have hown : entry ∈ ofLogger i asked := by
      rw [hasked]
      refine List.mem_append_left _ (List.mem_map.mpr ⟨(i, entry), ?_, rfl⟩)
      exact List.mem_filter.mpr ⟨hmem, decide_eq_true rfl⟩
    obtain ⟨e, he, rfl⟩ := List.mem_map.mp hown
    obtain ⟨j, c, service, hcall, rfl⟩ := mem_entries (List.mem_of_mem_filter he)
    exact held_logged hpid (h j c hcall) service
  rw [hkept.file, parse_lines hheld, List.map_map]
  rfl

/-- A message that spans two lines is asked for first, and written last; a context cannot be
printed. -/
def sampleEvents : List LogEvent :=
  [.child 0 "boot",
    .call 1 ⟨.info, "two\nlines", some (.fields [("file", .str "a\"b")]), none, 1700000000000⟩,
    .call 0 ⟨.error, "failed", some (.unserializable none), some (.other "timeout"), 1700000000001⟩,
    .written 0 1, .written 1 1]

theorem log_reads_back_sample :
    let log := (run (Log.step "7") .start sampleEvents).get rfl
    let asked := Log.entries "7" Log.start.services sampleEvents
    ∃ order : List (ℕ × LogEntry),
      (log.file.splitOn '\n').map (Json.parse id) =
          order.map (fun e => some e.2.logged) ++ [none] ∧
        (∀ i, ∃ rest, ofLogger i asked = ofLogger i order ++ rest ∧
          log.pending i = rest.map LogEntry.line) ∧
        log.stderr = String.join (asked.map (·.2.stderr)) := by
  have hnumber : NumberText "7".toList := numberText_digit (c := '7') (by decide) (by decide)
  refine log_reads_back (.num "7" hnumber rfl) ?_ (Option.some_get _).symm
  intro i c hc ctx hctx
  simp only [sampleEvents, List.mem_cons, LogEvent.call.injEq, reduceCtorEq, false_or, or_false,
    List.not_mem_nil] at hc
  rcases hc with ⟨-, rfl⟩ | ⟨-, rfl⟩
  · cases hctx
    exact .ofKeys (by decide) (List.forall_mem_singleton.mpr (.str _))
  · cases hctx

end Writing

end Hotelia.Logging
