import Hotelia.Database.References

/-!
# The night audit among postings

The transactions of `postLineItem` for a day, and the one of `closeBusinessDay` that
closes the day, statement by statement. Each statement sees what was committed before
it, and a transaction also what it has written itself. `assertBusinessDayOpen` asks
outside of its transaction, so it does not see a day that is about to be closed, and
nothing keeps a posting from being committed after the audit has counted.

## Main definitions

- `Night` — the committed tables, and where each transaction stands
- `step` — what a statement does, if its turn can come
- `Timely` — a statement after which nothing is missing from the count

## Main results

- `Effect`, `effect_of_step`: what a statement can do to rows and count.
- `run_close`, `run_post`: a transaction by itself does what the call does.
- `counted_iff`: the snapshot misses nothing exactly if each statement was timely.
-/

namespace Hotelia
open Foundation

namespace Database

/-- Where a transaction of `postLineItem` stands. -/
inductive PostStage where
  /-- The folio was there, and open. -/
  | begun (input : PostLineItemInput) (id : String) (now : ℤ)
  /-- The day was open. -/
  | checked (input : PostLineItemInput) (id : String) (now : ℤ)
  /-- The line item is written. -/
  | created (item : FolioLineItem) (increment : ℚ)
  /-- The balance is written, and the row of the folio locked. -/
  | updated (item : FolioLineItem) (increment : ℚ)
  /-- Committed, or rolled back. -/
  | over

/-- The line item that is written, and not yet committed. -/
def PostStage.pending : PostStage → Option FolioLineItem
  | .created item _ => some item
  | .updated item _ => some item
  | _ => none

/-- The folio whose row is locked. -/
def PostStage.locked : PostStage → Option String
  | .updated item _ => some item.folioId
  | _ => none

/-- Where the transaction of `closeBusinessDay` stands. -/
inductive CloseStage where
  | idle
  /-- The day was not closed yet. -/
  | begun
  /-- The line items have been read. -/
  | counted (items : List FolioLineItem)
  /-- The row of the day is written. -/
  | upserted (items : List FolioLineItem) (id : String) (now : ℤ)
  | closed (items : List FolioLineItem)
  | failed
  deriving DecidableEq

/-- The line items that the snapshot counts. -/
def CloseStage.items : CloseStage → Option (List FolioLineItem)
  | .counted items => some items
  | .upserted items _ _ => some items
  | .closed items => some items
  | _ => none

structure Night where
  /-- What has been committed. -/
  db : Database
  posts : List PostStage
  close : CloseStage

/-- The statements of a posting that has begun. -/
inductive PostStatement where
  /-- `assertBusinessDayOpen(input.propertyId, businessDate)` -/
  | assertOpen
  /-- `tx.folioLineItem.create` -/
  | create
  /-- `tx.folio.update` -/
  | update
  | commit
  /-- The posting is given up. -/
  | rollback

inductive NightEvent where
  /-- `tx.folio.findFirst`, with which a posting begins -/
  | findFolio (input : PostLineItemInput) (id : String) (now : ℤ)
  | post (i : ℕ) (statement : PostStatement)
  /-- `tx.businessDay.findFirst`, with which the audit begins -/
  | findDay
  /-- `tx.folioLineItem.findMany` -/
  | findItems
  /-- `tx.businessDay.upsert` -/
  | upsert (id : String) (now : ℤ)
  | commitClose
  | rollbackClose

namespace Night

variable (rt : Runtime) (close : CloseBusinessDayInput)

/-- Before the first statement. -/
def start (db : Database) : Night := ⟨db, [], .idle⟩

variable (s : Night)

def setPost (i : ℕ) (stage : PostStage) : Night := { s with posts := s.posts.set i stage }

/-- The posting is one to the day, which it names. -/
def ForDay (input : PostLineItemInput) : Prop :=
  input.propertyId = close.propertyId ∧ ∃ d ∈ input.businessDate, utcDay d = utcDay close.businessDate

instance (input : PostLineItemInput) : Decidable (ForDay close input) :=
  inferInstanceAs (Decidable (_ ∧ _))

/-- What a posting has written, on top of what is committed. -/
def written (item : FolioLineItem) (increment : ℚ) : Except Failure Database := do
  let db ← s.db.createLineItem (some item)
  db.incrementBalance item.folioId increment

/-- The next statement of a posting. -/
def post (i : ℕ) : PostStage → PostStatement → Option Night
  | .begun input id now, .assertOpen =>
    match s.db.assertBusinessDayOpen input.propertyId (input.businessDate.getD now) with
    | .ok _ => some (s.setPost i (.checked input id now))
    | .error _ => some (s.setPost i .over)
  | .checked input id now, .create =>
    match (input.data rt s.db now).store id with
    | some item =>
      -- an id that another transaction is writing makes this one wait
      if ∃ p ∈ s.posts, ∃ other ∈ p.pending, other.id = item.id then none
      else if ∃ other ∈ s.db.lineItems.rows, other.id = item.id then some (s.setPost i .over)
      else some (s.setPost i (.created item (rt.decimal (input.total rt))))
    | none => some (s.setPost i .over)
  | .created item increment, .update =>
    if ∃ p ∈ s.posts, p.locked = some item.folioId then none
    else
      match s.written item increment with
      | .ok _ => some (s.setPost i (.updated item increment))
      | .error _ => some (s.setPost i .over)
  | .updated item increment, .commit =>
    -- the lock has kept the row of the folio as the update found it
    match s.written item increment with
    | .ok db => some { s.setPost i .over with db }
    | .error _ => none
  | _, .rollback => some (s.setPost i .over)
  | _, _ => none

/-- What a statement does, if its turn can come. -/
def step : NightEvent → Option Night
  | .findFolio input id now =>
    if ForDay close input then
      match s.db.folios.rows.find? fun f => f.id = input.folioId ∧ f.propertyId = input.propertyId with
      | some folio =>
        if folio.status ≠ .opened then some { s with posts := s.posts ++ [.over] }
        else some { s with posts := s.posts ++ [.begun input id now] }
      | none => some { s with posts := s.posts ++ [.over] }
    else none
  | .findDay =>
    match s.close with
    | .idle =>
      match s.db.findBusinessDay close.propertyId (utcDay close.businessDate) with
      | some day => if day.status = .closed then some { s with close := .failed }
        else some { s with close := .begun }
      | none => some { s with close := .begun }
    | _ => none
  | .findItems =>
    match s.close with
    | .begun => some { s with close := .counted (s.db.auditedItems rt close.businessDate) }
    | _ => none
  | .upsert id now =>
    match s.close with
    | .counted items =>
      match s.db.upsertClosed rt items close id now with
      | .ok _ => some { s with close := .upserted items id now }
      | .error _ => some { s with close := .failed }
    | _ => none
  | .commitClose =>
    match s.close with
    | .upserted items id now =>
      match s.db.upsertClosed rt items close id now with
      | .ok db => some { s with db, close := .closed items }
      | .error _ => none
    | _ => none
  | .rollbackClose =>
    match s.close with
    | .begun => some { s with close := .failed }
    | .counted _ => some { s with close := .failed }
    | .upserted _ _ _ => some { s with close := .failed }
    | _ => none
  | .post i statement => s.posts[i]?.bind fun stage => s.post rt i stage statement

/-- The window of the audit has the day in it. -/
def Covers : Prop :=
  utcDay (rt.startOfDay (rt.localDay close.businessDate)) ≤ utcDay close.businessDate ∧
    utcDay close.businessDate < utcDay (rt.startOfDay (rt.localDay close.businessDate + 1))

/-- Nothing is committed once the items have been read, and what there is by then is in the
window. -/
def Timely : NightEvent → Prop
  | .post _ .commit => s.close.items = none
  | .findItems =>
    (∃ i ∈ s.db.lineItems.rows, i.businessDate = utcDay close.businessDate) → Covers rt close
  | _ => True

/-! ## A transaction by itself -/

variable {rt close} {db db' : Database}

/-- The audit by itself does what `closeBusinessDay` does. -/
theorem run_close {id : String} {now : ℤ} {posts : List PostStage}
    (h : db.closeBusinessDay rt close id now = .ok db') :
    run (step rt close) ⟨db, posts, .idle⟩ [.findDay, .findItems, .upsert id now, .commitClose] =
      some ⟨db', posts, .closed (db.auditedItems rt close.businessDate)⟩ := by
  have hbegun : step rt close ⟨db, posts, .idle⟩ .findDay = some ⟨db, posts, .begun⟩ ∧
      db.upsertClosed rt (db.auditedItems rt close.businessDate) close id now = .ok db' := by
    rw [closeBusinessDay] at h
    split at h
    · next day hday =>
      split at h
      · cases h
      · next hopen => exact ⟨by simp [step, hday, hopen], h⟩
    · next hday => exact ⟨by simp [step, hday], h⟩
  refine run_cons_eq_some.mpr ⟨_, hbegun.1, ?_⟩
  simp [run, step, hbegun.2]

/-- A posting by itself does what `postLineItem` does. -/
theorem run_post {input : PostLineItemInput} {id : String} {now : ℤ} {stage : CloseStage}
    (hday : ForDay close input) (h : db.postLineItem rt input id now = .ok db') :
    run (step rt close) ⟨db, [], stage⟩ [.findFolio input id now, .post 0 .assertOpen,
      .post 0 .create, .post 0 .update, .post 0 .commit] = some ⟨db', [.over], stage⟩ := by
  rw [postLineItem] at h
  split at h
  · cases h
  · next folio hfolio =>
    split at h
    · cases h
    · next hopen =>
      obtain ⟨_, hassert, h⟩ := bind_eq_ok h
      obtain ⟨mid, hcreate, hbalance⟩ := bind_eq_ok h
      obtain ⟨item, hitem, hfresh⟩ := exists_fresh_of_createLineItem hcreate
      have hwritten : ∀ posts, written ⟨db, posts, stage⟩ item (rt.decimal (input.total rt)) =
          .ok db' := by
        intro posts
        rw [hitem] at hcreate
        rw [written, hcreate, (LineItemData.stored hitem).folioId]
        exact hbalance
      refine run_cons_eq_some.mpr ⟨⟨db, [.begun input id now], stage⟩,
        by simp only [step, if_pos hday, hfolio, if_neg hopen, List.nil_append], ?_⟩
      refine run_cons_eq_some.mpr ⟨⟨db, [.checked input id now], stage⟩,
        by simp [step, post, setPost, hassert], ?_⟩
      refine run_cons_eq_some.mpr ⟨⟨db, [.created item (rt.decimal (input.total rt))], stage⟩,
        by simp [step, post, setPost, hitem, hfresh, PostStage.pending], ?_⟩
      refine run_cons_eq_some.mpr ⟨⟨db, [.updated item (rt.decimal (input.total rt))], stage⟩,
        by simp [step, post, setPost, hwritten, PostStage.locked], ?_⟩
      simp [run, step, post, setPost, hwritten]

/-! ## What a statement can do -/

/-- What a posting has in hand is for the day. -/
def Dated (day : ℤ) : PostStage → Prop
  | .begun input _ _ => ∃ d ∈ input.businessDate, utcDay d = day
  | .checked input _ _ => ∃ d ∈ input.businessDate, utcDay d = day
  | .created item _ => item.businessDate = day
  | .updated item _ => item.businessDate = day
  | .over => True

/-- What a statement can do to the postings, the rows of the line items, and the count. -/
inductive Effect (rt : Runtime) (close : CloseBusinessDayInput) (s t : Night) : NightEvent → Prop
  /-- No line item is committed, and none is counted. -/
  | quiet (e : NightEvent) (timely : s.Timely rt close e)
      (posts : (∀ p ∈ s.posts, Dated (utcDay close.businessDate) p) →
        ∀ p ∈ t.posts, Dated (utcDay close.businessDate) p)
      (lineItems : t.db.lineItems = s.db.lineItems)
      (items : t.close.items = s.close.items ∨ t.close = .failed)
      (failed : s.close = .failed → t.close = .failed) : Effect rt close s t e
  | committed (i : ℕ) (item : FolioLineItem) (increment : ℚ)
      (stage : .updated item increment ∈ s.posts) (posts : t.posts = s.posts.set i .over)
      (created : s.db.Created item t.db) (close_eq : t.close = s.close) :
      Effect rt close s t (.post i .commit)
  | counted (begun : s.close = .begun) (posts : t.posts = s.posts)
      (lineItems : t.db.lineItems = s.db.lineItems)
      (items : t.close.items = some (s.db.auditedItems rt close.businessDate)) :
      Effect rt close s t .findItems

/-- A posting goes on to its next stage, or is committed. -/
theorem post_cases {s t : Night} {i : ℕ} {stage : PostStage} {statement : PostStatement}
    (h : s.post rt i stage statement = some t) :
    (statement ≠ .commit ∧ ∃ next, t = s.setPost i next ∧ ∀ day, Dated day stage → Dated day next) ∨
      ∃ item increment db, stage = .updated item increment ∧ statement = .commit ∧
        s.written item increment = .ok db ∧ t = { s.setPost i .over with db } := by
  unfold post at h
  split at h
  -- the day
  · refine .inl ⟨nofun, ?_⟩
    split at h <;> cases h
    · exact ⟨_, rfl, fun _ h => h⟩
    · exact ⟨_, rfl, fun _ _ => trivial⟩
  -- the line item
  · next input id now =>
    refine .inl ⟨nofun, ?_⟩
    split at h
    · next item hitem =>
      split at h
      · cases h
      · split at h <;> cases h
        · exact ⟨_, rfl, fun _ _ => trivial⟩
        · refine ⟨_, rfl, ?_⟩
          rintro _ ⟨d, hd, rfl⟩
          show item.businessDate = utcDay d
          rw [(LineItemData.stored hitem).businessDate]
          show utcDay (input.businessDate.getD _) = utcDay d
          rw [Option.mem_def.mp hd, Option.getD_some]
    · cases h
      exact ⟨_, rfl, fun _ _ => trivial⟩
  -- the balance
  · refine .inl ⟨nofun, ?_⟩
    split at h
    · cases h
    · split at h <;> cases h
      · exact ⟨_, rfl, fun _ h => h⟩
      · exact ⟨_, rfl, fun _ _ => trivial⟩
  · next item increment =>
    split at h
    · next db hwritten =>
      cases h
      exact .inr ⟨item, increment, db, rfl, rfl, hwritten, rfl⟩
    · cases h
  · cases h
    exact .inl ⟨nofun, _, rfl, fun _ _ => trivial⟩
  · cases h

theorem effect_post {s t : Night} {i : ℕ} {stage : PostStage} {statement : PostStatement}
    (hstage : s.posts[i]? = some stage) (h : s.post rt i stage statement = some t) :
    Effect rt close s t (.post i statement) := by
  have hmem := List.mem_of_getElem? hstage
  obtain ⟨hstatement, next, rfl, hnext⟩ | ⟨item, increment, db, rfl, rfl, hwritten, rfl⟩ :=
    post_cases h
  · have htimely : s.Timely rt close (.post i statement) := by
      cases statement with
      | commit => exact absurd rfl hstatement
      | assertOpen => trivial
      | create => trivial
      | update => trivial
      | rollback => trivial
    have hdated : (∀ p ∈ s.posts, Dated (utcDay close.businessDate) p) →
        ∀ p ∈ s.posts.set i next, Dated (utcDay close.businessDate) p :=
      fun hall => forall_mem_set i hall (hnext _ (hall stage hmem))
    exact .quiet _ htimely hdated rfl (.inl rfl) id
  · obtain ⟨mid, hcreate, hbalance⟩ := bind_eq_ok hwritten
    exact .committed i item increment hmem rfl (Creates.created ⟨mid, hcreate, hbalance⟩) rfl

theorem lineItems_upsertClosed {items : List FolioLineItem} {id : String} {now : ℤ}
    (h : db.upsertClosed rt items close id now = .ok db') : db'.lineItems = db.lineItems := by
  cases effect_upsert h with
  | audited _ _ _ _ lineItems _ _ => exact lineItems

theorem effect_of_step {s t : Night} {e : NightEvent} (h : s.step rt close e = some t) :
    Effect rt close s t e := by
  cases e with
  | findFolio input id now =>
    simp only [step] at h
    split at h
    · next hday =>
      split at h
      · split at h <;> cases h
        · exact .quiet _ trivial (fun hall => forall_mem_concat hall trivial) rfl (.inl rfl) fun h => h
        · exact .quiet _ trivial (fun hall => forall_mem_concat hall hday.2) rfl (.inl rfl) fun h => h
      · cases h
        exact .quiet _ trivial (fun hall => forall_mem_concat hall trivial) rfl (.inl rfl) fun h => h
    · cases h
  | post i statement =>
    obtain ⟨stage, hstage, hpost⟩ := Option.bind_eq_some_iff.mp h
    exact effect_post hstage hpost
  | findDay =>
    simp only [step] at h
    split at h
    · next hidle =>
      have hopen : Effect rt close s { s with close := .begun } .findDay :=
        .quiet _ trivial id rfl (.inl (by rw [hidle]; rfl)) fun hf => by simp [hidle] at hf
      split at h
      · split at h <;> cases h
        · exact .quiet _ trivial id rfl (.inr rfl) fun _ => rfl
        · exact hopen
      · cases h
        exact hopen
    · cases h
  | findItems =>
    simp only [step] at h
    split at h
    · next hbegun =>
      cases h
      exact .counted hbegun rfl rfl rfl
    · cases h
  | upsert id now =>
    simp only [step] at h
    split at h
    · next hcounted =>
      split at h <;> cases h
      · exact .quiet _ trivial (fun h => h) rfl (.inl (by rw [hcounted]; rfl)) fun hf => by
          simp [hcounted] at hf
      · exact .quiet _ trivial (fun h => h) rfl (.inr rfl) fun _ => rfl
    · cases h
  | commitClose =>
    simp only [step] at h
    split at h
    · next hupserted =>
      split at h
      · next hupsert =>
        cases h
        exact .quiet _ trivial id (lineItems_upsertClosed hupsert) (.inl (by rw [hupserted]; rfl))
          fun hf => by simp [hupserted] at hf
      · cases h
    · cases h
  | rollbackClose =>
    simp only [step] at h
    split at h <;> cases h <;> exact .quiet _ trivial id rfl (.inr rfl) fun _ => rfl

/-! ## What is committed, and what is counted -/

/-- The postings are for the day, and what is counted is committed. -/
structure Sound (close : CloseBusinessDayInput) (s : Night) : Prop where
  posts : ∀ p ∈ s.posts, Dated (utcDay close.businessDate) p
  items : ∀ items ∈ s.close.items, ∀ i ∈ items, i ∈ s.db.lineItems.rows

/-- Of what is committed for the day, nothing is missing from the count. -/
def Counted (close : CloseBusinessDayInput) (s : Night) : Prop :=
  ∀ items ∈ s.close.items, ∀ i ∈ s.db.lineItems.rows,
    i.businessDate = utcDay close.businessDate → i ∈ items

theorem Sound.step {s t : Night} {e : NightEvent} (h : s.Sound close)
    (hstep : s.step rt close e = some t) : t.Sound close := by
  cases effect_of_step hstep with
  | quiet _ _ posts lineItems items _ =>
    refine ⟨posts h.posts, fun l hl i hi => ?_⟩
    rw [lineItems]
    rcases items with items | items
    · exact h.items l (items ▸ hl) i hi
    · simp [items, CloseStage.items] at hl
  | committed i item _ _ posts created close_eq =>
    refine ⟨posts ▸ forall_mem_set i h.posts trivial, fun l hl j hj => ?_⟩
    rw [created.lineItems]
    exact List.mem_append_left _ (h.items l (close_eq ▸ hl) j hj)
  | counted _ posts lineItems items =>
    refine ⟨posts ▸ h.posts, fun l hl i hi => ?_⟩
    rw [items] at hl
    cases hl
    rw [lineItems]
    exact (List.mem_filter.mp hi).1

/-- A statement keeps the count complete exactly if it is timely. -/
theorem counted_step_iff {s t : Night} {e : NightEvent} (h : s.Sound close)
    (hcounted : s.Counted close) (hstep : s.step rt close e = some t) :
    t.Counted close ↔ s.Timely rt close e := by
  cases effect_of_step hstep with
  | quiet _ timely _ lineItems items _ =>
    refine iff_of_true (fun l hl i hi => ?_) timely
    rcases items with items | items
    · exact hcounted l (items ▸ hl) i (lineItems ▸ hi)
    · simp [items, CloseStage.items] at hl
  | committed _ item _ stage _ created close_eq =>
    show _ ↔ s.close.items = none
    rw [Counted, close_eq]
    constructor
    · intro hall
      by_contra hne
      obtain ⟨l, hl⟩ := Option.ne_none_iff_exists'.mp hne
      have hmem : item ∈ t.db.lineItems.rows := by
        rw [created.lineItems]
        exact List.mem_append_right _ List.mem_cons_self
      have hdate : item.businessDate = utcDay close.businessDate := h.posts _ stage
      exact created.fresh item (h.items l hl item (hall l hl item hmem hdate)) rfl
    · intro hnone l hl
      simp [hnone] at hl
  | counted _ _ lineItems items =>
    rw [Counted, items, lineItems]
    have hwindow : ∀ i : FolioLineItem, i.businessDate = utcDay close.businessDate →
        (InWindow rt close.businessDate i ↔ Covers rt close) := by
      intro i hi
      rw [InWindow, Covers, hi]
    constructor
    · rintro hall ⟨i, hi, hdate⟩
      have hfound := hall _ rfl i hi hdate
      exact (hwindow i hdate).mp (of_decide_eq_true (List.mem_filter.mp hfound).2)
    · rintro hcovers l hl i hi hdate
      cases hl
      refine List.mem_filter.mpr ⟨hi, decide_eq_true ?_⟩
      exact (hwindow i hdate).mpr (hcovers ⟨i, hi, hdate⟩)

/-- What has been counted stays so, unless the audit is given up, and so does what has been
committed. -/
theorem items_run {s t : Night} {es : List NightEvent} {l : List FolioLineItem}
    (hl : s.close.items = some l) (hrun : run (step rt close) s es = some t) :
    (t.close.items = some l ∨ t.close = .failed) ∧
      ∀ i ∈ s.db.lineItems.rows, i ∈ t.db.lineItems.rows := by
  refine run_invariant (I := fun u : Night => (u.close.items = some l ∨ u.close = .failed) ∧
    ∀ i ∈ s.db.lineItems.rows, i ∈ u.db.lineItems.rows) ?_ ⟨.inl hl, fun _ hi => hi⟩ hrun
  rintro u e v ⟨hu, hrows⟩ hstep
  cases effect_of_step hstep with
  | quiet _ _ _ lineItems items failed =>
    refine ⟨?_, lineItems ▸ hrows⟩
    rcases hu with hu | hu
    · rcases items with items | items
      · exact .inl (items.trans hu)
      · exact .inr items
    · exact .inr (failed hu)
  | committed _ item _ _ _ created close_eq =>
    refine ⟨close_eq ▸ hu, fun i hi => ?_⟩
    rw [created.lineItems]
    exact List.mem_append_left _ (hrows i hi)
  | counted begun _ _ _ => simp [begun, CloseStage.items] at hu

/-- The snapshot of a day that was closed among postings to it misses nothing exactly if no
posting was committed after it was read, and the day, if anything was there by then, was in
its window. -/
theorem counted_iff {es : List NightEvent} {t : Night} {items : List FolioLineItem}
    (hrun : run (step rt close) (start db) es = some t) (hclosed : t.close = .closed items) :
    (∀ i ∈ t.db.lineItems.rows, i.businessDate = utcDay close.businessDate → i ∈ items) ↔
      Along (step rt close) (Timely rt close) (start db) es := by
  have hnone : (start db).close.items = none := rfl
  have hsound : (start db).Sound close := ⟨List.forall_mem_nil _, fun _ hl => by simp [hnone] at hl⟩
  have hcounted : (start db).Counted close := fun _ hl => by simp [hnone] at hl
  have hprefix := forall_prefix_iff_along (I := Counted close) (J := Sound close)
    (fun _ _ _ h hstep => h.step hstep)
    (fun _ _ _ h hcounted hstep => counted_step_iff h hcounted hstep) hsound hcounted hrun
  rw [← hprefix]
  constructor
  · rintro hall bs u ⟨cs, rfl⟩ hu l hl i hi hdate
    rw [run_append, hu] at hrun
    obtain ⟨hitems, hrows⟩ := items_run hl hrun
    simp only [hclosed, CloseStage.items, Option.some.injEq, reduceCtorEq, or_false] at hitems
    exact hitems ▸ hall i (hrows i hi) hdate
  · intro hall
    exact hall es t (List.prefix_refl es) hrun items (by rw [hclosed]; rfl)

def firstDay : CloseBusinessDayInput := ⟨"hotel", 0, "auditor", none⟩

/-- A posting has found the day open, and is committed when it has been closed. -/
def closedMeanwhile : List NightEvent :=
  [.findFolio (samplePosting (some 0)) "night" 0, .post 0 .assertOpen, .post 0 .create,
    .post 0 .update, .findDay, .findItems, .upsert "day" 0, .commitClose, .post 0 .commit]

theorem closedMeanwhile_closed :
    ∃ t, run (step (.exact 0 id) firstDay) (start sample) closedMeanwhile = some t ∧
      t.close = .closed [] ∧ ∃ i ∈ t.db.lineItems.rows, i.businessDate = utcDay 0 := by
  have hsome : (run (step (.exact 0 id) firstDay) (start sample) closedMeanwhile).isSome = true := by
    decide +kernel
  have hlate : ∀ t ∈ run (step (.exact 0 id) firstDay) (start sample) closedMeanwhile,
      t.close = .closed [] ∧ ∃ i ∈ t.db.lineItems.rows, i.businessDate = utcDay 0 := by
    decide +kernel
  obtain ⟨t, ht⟩ := Option.isSome_iff_exists.mp hsome
  exact ⟨t, ht, hlate t ht⟩

theorem counted_iff_closedMeanwhile :
    ∃ t, run (step (.exact 0 id) firstDay) (start sample) closedMeanwhile = some t ∧
      ((∀ i ∈ t.db.lineItems.rows, i.businessDate = utcDay firstDay.businessDate → i ∈ []) ↔
        Along (step (.exact 0 id) firstDay) (Timely (.exact 0 id) firstDay) (start sample)
          closedMeanwhile) := by
  obtain ⟨t, ht, hclosed, -⟩ := closedMeanwhile_closed
  exact ⟨t, ht, counted_iff ht hclosed⟩

/-- The night is on the day, and not in its snapshot. -/
theorem not_counted :
    ¬ ∀ es t items, run (step (.exact 0 id) firstDay) (start sample) es = some t →
      t.close = .closed items →
      ∀ i ∈ t.db.lineItems.rows, i.businessDate = utcDay firstDay.businessDate → i ∈ items := by
  intro h
  obtain ⟨t, ht, hclosed, i, hi, hdate⟩ := closedMeanwhile_closed
  simpa using h closedMeanwhile t [] ht hclosed i hi hdate

end Night

end Database

end Hotelia
