import Hotelia.Database.Reversal
import Hotelia.Foundation.Timeline

/-!
# Reversals of one line item at once

The transactions of `reverseLineItem` on one line item, statement by statement. Each
statement sees what was committed before it. The search for an earlier reversal and the
insert of the new one are two statements, and no constraint of the table stands between
them, so that two transactions may both have found nothing.

## Main definitions

- `Reversals` — the committed tables, and where each transaction stands
- `step` — what a statement does, if its turn can come
- `Undisturbed` — no transaction has committed since the search of this one

## Main results

- `run_reverse`: a transaction by itself does what the call does.
- `reversed_once_iff`: an item is reversed at most once exactly if no transaction commits
  between the search and the commit of another.
-/

namespace Hotelia
open Foundation Numeric

namespace Database

/-- The reversals of a line item. -/
def reversalsOf (db : Database) (lineItemId : String) : List FolioLineItem :=
  db.lineItems.rows.filter fun i => i.reversesItemId = some lineItemId ∧ i.kind = .reversal

/-- Where a transaction of `reverseLineItem` stands. -/
inductive ReverseStage where
  /-- The line item was there, and is no reversal itself. -/
  | begun (original : FolioLineItem)
  /-- No reversal of it was there. -/
  | checked (original : FolioLineItem)
  /-- The reversal is written. -/
  | created (original item : FolioLineItem)
  /-- The balance is written, and the row of the folio locked. -/
  | updated (original item : FolioLineItem)
  /-- Committed, or rolled back. -/
  | over

namespace ReverseStage

/-- The reversal that is written, and not yet committed. -/
def pending : ReverseStage → Option FolioLineItem
  | .created _ item => some item
  | .updated _ item => some item
  | _ => none

/-- The folio whose row is locked. -/
def locked : ReverseStage → Option String
  | .updated original _ => some original.folioId
  | _ => none

end ReverseStage

/-- The statements of a reversal that has begun. -/
inductive ReverseStatement where
  /-- `tx.folioLineItem.findFirst` -/
  | findReversal
  /-- `tx.folioLineItem.create` -/
  | create (id : String) (now : ℤ)
  /-- `tx.folio.update` -/
  | update
  | commit
  /-- The reversal is given up. -/
  | rollback

inductive ReversalEvent where
  /-- `tx.folioLineItem.findUnique`, with which a reversal begins -/
  | findOriginal
  | proceed (i : ℕ) (statement : ReverseStatement)

structure Reversals where
  /-- What has been committed. -/
  db : Database
  transactions : List ReverseStage

namespace Reversals

variable (rt : Runtime) (lineItemId : String)

/-- Before the first statement. -/
def start (db : Database) : Reversals := ⟨db, []⟩

variable (s : Reversals)

def begin (stage : ReverseStage) : Reversals :=
  { s with transactions := s.transactions ++ [stage] }

def setStage (i : ℕ) (stage : ReverseStage) : Reversals :=
  { s with transactions := s.transactions.set i stage }

/-- What a reversal has written, on top of what is committed. -/
def written (original item : FolioLineItem) : Except Failure Database := do
  let db ← s.db.createLineItem (some item)
  db.incrementBalance original.folioId (rt.decimal (rt.num (-original.total.toRat)))

/-- The next statement of a reversal. -/
def proceed (i : ℕ) : ReverseStage → ReverseStatement → Option Reversals
  | .begun original, .findReversal =>
    match s.db.lineItems.rows.find? fun i =>
      i.reversesItemId = some original.id ∧ i.kind = .reversal with
    | some _ => some (s.setStage i .over)
    | none => some (s.setStage i (.checked original))
  | .checked original, .create id now =>
    match (reversalData rt original now).store id with
    | some item =>
      -- an id that another transaction is writing makes this one wait
      if ∃ p ∈ s.transactions, ∃ other ∈ p.pending, other.id = item.id then none
      else if ∃ other ∈ s.db.lineItems.rows, other.id = item.id then some (s.setStage i .over)
      else some (s.setStage i (.created original item))
    | none => some (s.setStage i .over)
  | .created original item, .update =>
    if ∃ p ∈ s.transactions, p.locked = some original.folioId then none
    else
      match s.written rt original item with
      | .ok _ => some (s.setStage i (.updated original item))
      | .error _ => some (s.setStage i .over)
  | .updated original item, .commit =>
    -- the lock has kept the row of the folio as the update found it
    match s.written rt original item with
    | .ok db => some { s.setStage i .over with db }
    | .error _ => none
  | _, .rollback => some (s.setStage i .over)
  | _, _ => none

/-- What a statement does, if its turn can come. -/
def step : ReversalEvent → Option Reversals
  | .findOriginal =>
    match s.db.findLineItem lineItemId with
    | some original =>
      if original.kind = .reversal then some (s.begin .over) else some (s.begin (.begun original))
    | none => some (s.begin .over)
  | .proceed i statement => s.transactions[i]?.bind fun stage => s.proceed rt i stage statement

/-- The search of a transaction for an earlier reversal. -/
def searches (i : ℕ) : ReversalEvent → Bool
  | .proceed j .findReversal => j = i
  | _ => false

def commits : ReversalEvent → Bool
  | .proceed _ .commit => true
  | _ => false

/-- No transaction has committed since this one has searched. -/
def Undisturbed (i : ℕ) (past : List ReversalEvent) : Prop :=
  ∀ e ∈ Timeline.since (searches i) past, commits e = false

/-- The search of a transaction is over, and its commit is not. -/
def Searched : ReverseStage → Prop
  | .begun _ => False
  | .checked _ => True
  | .created _ _ => True
  | .updated _ _ => True
  | .over => False

variable {rt lineItemId} {db db' : Database}

/-- A reversal by itself does what `reverseLineItem` does. -/
theorem run_reverse {input : ReverseLineItemInput} {id : String} {now : ℤ}
    (h : db.reverseLineItem rt input id now = .ok db') :
    run (step rt input.lineItemId) (start db) [.findOriginal, .proceed 0 .findReversal,
      .proceed 0 (.create id now), .proceed 0 .update, .proceed 0 .commit] =
        some ⟨db', [.over]⟩ := by
  rw [reverseLineItem] at h
  split at h
  · cases h
  · next original hfind =>
    split at h
    · cases h
    · next hkind =>
      split at h
      · cases h
      · next hnone =>
        obtain ⟨mid, hcreate, hbalance⟩ := bind_eq_ok h
        obtain ⟨item, hitem, hfresh⟩ := exists_fresh_of_createLineItem hcreate
        have hwritten : ∀ transactions, written rt ⟨db, transactions⟩ original item = .ok db' := by
          intro transactions
          rw [hitem] at hcreate
          rw [written, hcreate]
          exact hbalance
        refine run_cons_eq_some.mpr ⟨⟨db, [.begun original]⟩,
          by simp [step, start, begin, hfind, hkind], ?_⟩
        refine run_cons_eq_some.mpr ⟨⟨db, [.checked original]⟩,
          by simp only [step, List.getElem?_cons_zero, Option.bind_some, proceed, hnone, setStage,
            List.set_cons_zero], ?_⟩
        refine run_cons_eq_some.mpr ⟨⟨db, [.created original item]⟩,
          by simp [step, proceed, setStage, hitem, hfresh, ReverseStage.pending], ?_⟩
        refine run_cons_eq_some.mpr ⟨⟨db, [.updated original item]⟩,
          by simp [step, proceed, setStage, hwritten, ReverseStage.locked], ?_⟩
        simp [run, step, proceed, setStage, hwritten]

/-! ## What a statement can do -/

/-- A row that `reversalData` has been stored as. -/
structure Reverses (original item : FolioLineItem) : Prop where
  kind : item.kind = .reversal
  folioId : item.folioId = original.folioId
  reversesItemId : item.reversesItemId = some original.id

/-- What a transaction has in hand is the item, or a reversal of it. -/
def Concerns (original : FolioLineItem) : ReverseStage → Prop
  | .begun found => found = original
  | .checked found => found = original
  | .created found item => found = original ∧ Reverses original item
  | .updated found item => found = original ∧ Reverses original item
  | .over => True

/-- What a statement that commits nothing makes of a transaction. -/
structure Follows (original : FolioLineItem) (s : Reversals) (statement : ReverseStatement)
    (stage next : ReverseStage) : Prop where
  concerns : Concerns original next
  searched : Searched next → statement = .findReversal ∧ s.db.reversalsOf original.id = [] ∨
    statement ≠ .findReversal ∧ Searched stage

theorem Follows.over {original : FolioLineItem} {s : Reversals} {statement : ReverseStatement}
    {stage : ReverseStage} : Follows original s statement stage .over :=
  ⟨trivial, False.elim⟩

/-- What a statement can do to the transactions and to what is committed. -/
inductive Effect (original : FolioLineItem) (s t : Reversals) : ReversalEvent → Prop
  | began (stage : ReverseStage) (concerns : Concerns original stage) (fresh : ¬ Searched stage)
      (eq : t = s.begin stage) : Effect original s t .findOriginal
  /-- Nothing is committed. -/
  | moved (i : ℕ) (statement : ReverseStatement) (stage next : ReverseStage)
      (here : s.transactions[i]? = some stage) (quiet : commits (.proceed i statement) = false)
      (follows : Follows original s statement stage next) (eq : t = s.setStage i next) :
      Effect original s t (.proceed i statement)
  | committed (i : ℕ) (item : FolioLineItem)
      (here : s.transactions[i]? = some (.updated original item))
      (reverses : Reverses original item)
      (transactions : t.transactions = s.transactions.set i .over)
      (creates : s.db.Creates item (-original.total.toRat) t.db) :
      Effect original s t (.proceed i .commit)

/-- A reversal goes on to its next stage, or is committed. -/
theorem proceed_cases {s t : Reversals} {i : ℕ} {stage : ReverseStage}
    {statement : ReverseStatement} (h : s.proceed rt i stage statement = some t) :
    (commits (.proceed i statement) = false ∧ ∃ next, t = s.setStage i next ∧
        ∀ original, Concerns original stage → Follows original s statement stage next) ∨
      ∃ original item db, stage = .updated original item ∧ statement = .commit ∧
        s.written rt original item = .ok db ∧ t = { s.setStage i .over with db } := by
  unfold proceed at h
  split at h
  -- the search
  · refine .inl ⟨rfl, ?_⟩
    split at h
    · cases h
      exact ⟨_, rfl, fun _ _ => .over⟩
    · next hnone =>
      cases h
      refine ⟨_, rfl, ?_⟩
      rintro _ rfl
      exact ⟨rfl, fun _ => .inl ⟨rfl, List.filter_eq_nil_iff.mpr (List.find?_eq_none.mp hnone)⟩⟩
  -- the reversal
  · next original id now =>
    refine .inl ⟨rfl, ?_⟩
    split at h
    · next item hitem =>
      split at h
      · cases h
      · split at h <;> cases h
        · exact ⟨_, rfl, fun _ _ => .over⟩
        · refine ⟨_, rfl, ?_⟩
          rintro _ rfl
          have hstored := LineItemData.stored hitem
          exact ⟨⟨rfl, hstored.kind, hstored.folioId, hstored.reversesItemId⟩,
            fun _ => .inr ⟨by simp, trivial⟩⟩
    · cases h
      exact ⟨_, rfl, fun _ _ => .over⟩
  -- the balance
  · refine .inl ⟨rfl, ?_⟩
    split at h
    · cases h
    · split at h <;> cases h
      · exact ⟨_, rfl, fun _ h => ⟨h, fun _ => .inr ⟨by simp, trivial⟩⟩⟩
      · exact ⟨_, rfl, fun _ _ => .over⟩
  · next original item =>
    split at h
    · next db hwritten =>
      cases h
      exact .inr ⟨original, item, db, rfl, rfl, hwritten, rfl⟩
    · cases h
  · cases h
    exact .inl ⟨rfl, _, rfl, fun _ _ => .over⟩
  · cases h

theorem effect_of_step {s t : Reversals} {original : FolioLineItem} {e : ReversalEvent}
    (hfound : s.db.findLineItem original.id = some original)
    (hall : ∀ p ∈ s.transactions, Concerns original p)
    (h : s.step rt original.id e = some t) : Effect original s t e := by
  cases e with
  | findOriginal =>
    simp only [step, hfound] at h
    split at h <;> cases h
    · exact .began .over trivial False.elim rfl
    · exact .began (.begun original) rfl False.elim rfl
  | proceed i statement =>
    obtain ⟨stage, hstage, hproceed⟩ := Option.bind_eq_some_iff.mp h
    have hconcerns := hall stage (List.mem_of_getElem? hstage)
    obtain ⟨hquiet, next, rfl, hnext⟩ | ⟨found, item, db, rfl, rfl, hwritten, rfl⟩ :=
      proceed_cases hproceed
    · exact .moved i statement stage next hstage hquiet (hnext original hconcerns) rfl
    · obtain ⟨rfl, hreverses⟩ := hconcerns
      obtain ⟨mid, hcreate, hbalance⟩ := bind_eq_ok hwritten
      rw [decimal_neg, ← hreverses.folioId] at hbalance
      exact .committed i item hstage hreverses rfl ⟨mid, hcreate, hbalance⟩

/-- A commit adds a reversal, and nothing else changes what is committed. -/
theorem Effect.db_cases {s t : Reversals} {original : FolioLineItem} {e : ReversalEvent}
    (h : Effect original s t e) : commits e = false ∧ t.db = s.db ∨ commits e = true ∧
      ∃ item, Reverses original item ∧ s.db.Creates item (-original.total.toRat) t.db := by
  cases h with
  | began stage _ _ heq =>
    subst heq
    exact .inl ⟨rfl, rfl⟩
  | moved i statement stage next _ quiet _ heq =>
    subst heq
    exact .inl ⟨quiet, rfl⟩
  | committed i item _ reverses _ creates => exact .inr ⟨rfl, item, reverses, creates⟩

/-! ## How often an item is reversed -/

theorem findLineItem_of_mem {item : FolioLineItem} (h : item ∈ db.lineItems.rows) :
    db.findLineItem item.id = some item := by
  cases hf : db.findLineItem item.id with
  | none =>
    have := List.find?_eq_none.mp hf item h
    simp at this
  | some other =>
    obtain ⟨hmem, hid⟩ := mem_of_findLineItem hf
    rw [db.lineItems.eq_of_clash (fun _ _ => Eq.symm) hmem h hid]

/-- The reversals of an item that have been committed since `db`. -/
def committedSince (db : Database) (lineItemId : String) (s : Reversals) : ℕ :=
  (s.db.reversalsOf lineItemId).length - (db.reversalsOf lineItemId).length

/-- What holds of the item in every state that a run from `db` reaches. -/
structure Sound (db : Database) (original : FolioLineItem) (s : Reversals) : Prop where
  found : s.db.findLineItem original.id = some original
  transactions : ∀ p ∈ s.transactions, Concerns original p
  kept : (db.reversalsOf original.id).length ≤ (s.db.reversalsOf original.id).length
  shifted : db.Shifted
    (-Pi.single original.folioId (committedSince db original.id s * original.total.toRat)) s.db

theorem reversalsOf_created {original item : FolioLineItem} (hreverses : Reverses original item)
    (h : db.Created item db') :
    db'.reversalsOf original.id = db.reversalsOf original.id ++ [item] := by
  rw [reversalsOf, h.lineItems, List.filter_append, reversalsOf]
  congr 1
  simp [hreverses.kind, hreverses.reversesItemId]

theorem Sound.step {original : FolioLineItem} {s t : Reversals} {e : ReversalEvent}
    (h : Sound db original s) (hstep : s.step rt original.id e = some t) :
    Sound db original t := by
  cases effect_of_step h.found h.transactions hstep with
  | began stage concerns _ heq =>
    subst heq
    exact ⟨h.found, forall_mem_concat h.transactions concerns, h.kept, h.shifted⟩
  | moved i statement stage next _ _ follows heq =>
    subst heq
    exact ⟨h.found, forall_mem_set i h.transactions follows.concerns, h.kept, h.shifted⟩
  | committed i item _ reverses transactions creates =>
    have hcreated := creates.created
    have hrows := reversalsOf_created reverses hcreated
    have hkept := h.kept
    have hmore : (t.db.reversalsOf original.id).length =
        (s.db.reversalsOf original.id).length + 1 := by
      rw [hrows, List.length_append, List.length_singleton]
    refine ⟨?_, transactions ▸ forall_mem_set i h.transactions trivial, by omega, ?_⟩
    · rw [hcreated.findLineItem, h.found, Option.some_or]
    · have hcount : committedSince db original.id t = committedSince db original.id s + 1 := by
        simp only [committedSince]
        omega
      have hshift := h.shifted.trans (creates.shifted (whole_toRat _).neg)
      convert hshift using 1
      rw [hcount, reverses.folioId, Nat.cast_add_one, add_one_mul,
        Pi.single_add (f := fun _ => ℚ), Pi.single_neg (f := fun _ => ℚ), neg_add]

/-- The item has at most one reversal, and its folio was paid for at most one since `db`. -/
def ReversedOnce (db : Database) (original : FolioLineItem) (s : Reversals) : Prop :=
  (s.db.reversalsOf original.id).length ≤ 1 ∧ ∃ k : ℕ, k ≤ 1 ∧
    s.db.balanceOf original.folioId =
      (db.balanceOf original.folioId).map (· - k * original.total.toRat)

/-- The balances follow the reversals. -/
theorem Sound.reversedOnce_iff {original : FolioLineItem} {s : Reversals}
    (h : Sound db original s) :
    ReversedOnce db original s ↔ (s.db.reversalsOf original.id).length ≤ 1 := by
  refine ⟨And.left, fun hone => ⟨hone, committedSince db original.id s, ?_, ?_⟩⟩
  · simp only [committedSince]
    omega
  · rw [h.shifted]
    congr 1
    funext b
    simp [sub_eq_add_neg]

theorem reversedOnce_step_iff {original : FolioLineItem} {s t : Reversals} {e : ReversalEvent}
    (h : Sound db original s) (honce : ReversedOnce db original s)
    (hstep : s.step rt original.id e = some t) :
    ReversedOnce db original t ↔ (commits e = true → s.db.reversalsOf original.id = []) := by
  rw [(h.step hstep).reversedOnce_iff]
  rw [h.reversedOnce_iff] at honce
  obtain ⟨hquiet, hdb⟩ | ⟨hcommit, item, hreverses, hcreates⟩ :=
    (effect_of_step h.found h.transactions hstep).db_cases
  · rw [hdb]
    exact iff_of_true honce fun hcommit => by simp [hquiet] at hcommit
  · rw [reversalsOf_created hreverses hcreates.created, List.length_append,
      List.length_singleton, ← List.length_eq_zero_iff]
    simp only [hcommit, forall_const]
    omega

/-! ## Between a search and its commit -/

theorem Undisturbed.of_concat {i : ℕ} {past : List ReversalEvent} {e : ReversalEvent}
    (h : Undisturbed i (past ++ [e])) (hsearch : searches i e = false) :
    Undisturbed i past ∧ commits e = false := by
  rw [Undisturbed, Timeline.since_concat_of_neg hsearch] at h
  exact ⟨fun e' he => h e' (List.mem_append_left _ he),
    h e (List.mem_append_right _ List.mem_cons_self)⟩

/-- What the statements so far have to do with the reversals of the item. -/
structure History (db : Database) (original : FolioLineItem) (past : List ReversalEvent)
    (s : Reversals) : Prop where
  sound : Sound db original s
  /-- What a search has found holds until the next commit. -/
  searched : ∀ i stage, s.transactions[i]? = some stage → Searched stage → Undisturbed i past →
    s.db.reversalsOf original.id = []
  committed : ∀ e ∈ past, commits e = true → s.db.reversalsOf original.id ≠ []

theorem searches_eq_false {i j : ℕ} {statement : ReverseStatement}
    (h : statement ≠ .findReversal ∨ j ≠ i) : searches i (.proceed j statement) = false := by
  cases statement with
  | findReversal => simpa [searches] using h
  | create id now => rfl
  | update => rfl
  | commit => rfl
  | rollback => rfl

theorem History.step {original : FolioLineItem} {past : List ReversalEvent} {s t : Reversals}
    {e : ReversalEvent} (h : History db original past s)
    (hstep : s.step rt original.id e = some t) : History db original (past ++ [e]) t := by
  have heffect := effect_of_step h.sound.found h.sound.transactions hstep
  refine ⟨h.sound.step hstep, ?_, ?_⟩
  · intro i stage hstage hsearched hundisturbed
    cases heffect with
    | began begun _ fresh heq =>
      subst heq
      obtain hold | rfl := getElem?_concat_cases hstage
      · exact h.searched i stage hold hsearched (hundisturbed.of_concat rfl).1
      · exact absurd hsearched fresh
    | moved j statement before next here _ follows heq =>
      subst heq
      obtain ⟨rfl, rfl⟩ | ⟨hne, hold⟩ := getElem?_set_cases hstage
      -- it has found none just now, or before
      · obtain ⟨-, hnone⟩ | ⟨hstatement, hbefore⟩ := follows.searched hsearched
        · exact hnone
        · have hpast := (hundisturbed.of_concat (searches_eq_false (.inl hstatement))).1
          exact h.searched _ before here hbefore hpast
      · have hpast := (hundisturbed.of_concat (searches_eq_false (.inr hne))).1
        exact h.searched i stage hold hsearched hpast
    | committed j item _ _ transactions _ =>
      rw [transactions] at hstage
      obtain ⟨rfl, rfl⟩ | ⟨-, -⟩ := getElem?_set_cases hstage
      · exact absurd hsearched id
      -- the commit of another one comes after the search
      · cases (hundisturbed.of_concat rfl).2
  · intro e' he' hcommit
    obtain ⟨hquiet, hdb⟩ | ⟨-, item, hreverses, hcreates⟩ := heffect.db_cases
    · rw [hdb]
      rcases List.mem_append.mp he' with hpast | hlast
      · exact h.committed e' hpast hcommit
      · rw [List.mem_singleton.mp hlast, hquiet] at hcommit
        cases hcommit
    · rw [reversalsOf_created hreverses hcreates.created]
      simp

/-- A transaction that commits has searched. -/
theorem searched_of_commits {original : FolioLineItem} {s t : Reversals} {e : ReversalEvent}
    (h : Sound db original s) (hstep : s.step rt original.id e = some t)
    (hcommit : commits e = true) :
    ∃ i stage, e = .proceed i .commit ∧ s.transactions[i]? = some stage ∧ Searched stage := by
  cases effect_of_step h.found h.transactions hstep with
  | began _ _ _ _ => cases hcommit
  | moved _ _ _ _ _ quiet _ _ => cases quiet.symm.trans hcommit
  | committed i item here _ _ _ => exact ⟨i, _, rfl, here, trivial⟩

/-- An item is reversed, and its folio paid for, at most once exactly if no transaction commits
between the search and the commit of another. -/
theorem reversed_once_iff {original : FolioLineItem} {es : List ReversalEvent} {t : Reversals}
    (hmem : original ∈ db.lineItems.rows) (hfirst : (db.reversalsOf original.id).length ≤ 1)
    (hrun : run (step rt original.id) (start db) es = some t) :
    (∀ bs u, bs <+: es → run (step rt original.id) (start db) bs = some u →
        ReversedOnce db original u) ↔
      ∀ past i, past ++ [.proceed i .commit] <+: es → Undisturbed i past := by
  have hsound : Sound db original (start db) := by
    refine ⟨findLineItem_of_mem hmem, List.forall_mem_nil _, le_rfl, fun f => ?_⟩
    have hnone : committedSince db original.id (start db) = 0 := Nat.sub_self _
    rw [hnone, Nat.cast_zero, zero_mul, Pi.single_zero, neg_zero]
    simp [start]
  have hhistory {past : List ReversalEvent} {u : Reversals}
      (hu : run (step rt original.id) (start db) past = some u) : History db original past u := by
    have hnil : History db original [] (start db) :=
      ⟨hsound, fun i stage hstage => by simp [start] at hstage, List.forall_mem_nil _⟩
    exact run_history (I := History db original) (fun _ _ _ _ h hstep => h.step hstep) hnil hu
  rw [forall_prefix_iff_along (I := ReversedOnce db original) (J := Sound db original)
    (fun _ _ _ h hstep => h.step hstep)
    (fun _ _ _ h honce hstep => reversedOnce_step_iff h honce hstep) hsound
    (hsound.reversedOnce_iff.mpr hfirst) hrun, along_iff_forall]
  constructor
  -- with no reversal of the item committed, there was no commit at all
  · intro hall past i hprefix e he
    obtain ⟨u, hu⟩ := exists_run_of_prefix hrun ((List.prefix_append _ _).trans hprefix)
    have hnone := hall past _ u hprefix hu rfl
    rw [← Bool.not_eq_true]
    exact fun hcommit =>
      (hhistory hu).committed e (Timeline.mem_of_mem_since he) hcommit hnone
  -- the search has found none, and none has come since
  · intro hundisturbed past e u hprefix hu hcommit
    obtain ⟨v, hv⟩ := exists_run_of_prefix hrun hprefix
    obtain ⟨w, hw, hstep⟩ := run_concat_eq_some.mp hv
    obtain rfl : u = w := Option.some.inj (hu.symm.trans hw)
    obtain ⟨i, stage, rfl, hstage, hsearched⟩ :=
      searched_of_commits (hhistory hu).sound hstep hcommit
    exact (hhistory hu).searched i stage hstage hsearched (hundisturbed past i hprefix)

/-- Both transactions have searched before either is committed. -/
def reversedTwice : List ReversalEvent :=
  [.findOriginal, .findOriginal, .proceed 0 .findReversal, .proceed 1 .findReversal,
    .proceed 0 (.create "first" 0), .proceed 0 .update, .proceed 0 .commit,
    .proceed 1 (.create "second" 0), .proceed 1 .update, .proceed 1 .commit]

theorem exists_night :
    ∃ night ∈ nightPosted.lineItems.rows, night.id = "night" ∧
      nightPosted.reversalsOf night.id = [] := by
  decide +kernel

theorem run_reversedTwice :
    ∃ t, run (step (.exact 0 id) "night") (start nightPosted) reversedTwice = some t ∧
      (t.db.reversalsOf "night").length = 2 := by
  have hsome : (run (step (.exact 0 id) "night") (start nightPosted) reversedTwice).isSome = true := by
    decide +kernel
  have htwo : ∀ t ∈ run (step (.exact 0 id) "night") (start nightPosted) reversedTwice,
      (t.db.reversalsOf "night").length = 2 := by
    decide +kernel
  obtain ⟨t, ht⟩ := Option.isSome_iff_exists.mp hsome
  exact ⟨t, ht, htwo t ht⟩

theorem reversed_once_iff_twice :
    ∃ night t, night.id = "night" ∧
      run (step (.exact 0 id) night.id) (start nightPosted) reversedTwice = some t ∧
      ((∀ bs u, bs <+: reversedTwice →
          run (step (.exact 0 id) night.id) (start nightPosted) bs = some u →
          ReversedOnce nightPosted night u) ↔
        ∀ past i, past ++ [.proceed i .commit] <+: reversedTwice → Undisturbed i past) := by
  obtain ⟨night, hmem, hid, hnone⟩ := exists_night
  obtain ⟨t, ht, -⟩ := run_reversedTwice
  rw [← hid] at ht
  exact ⟨night, t, hid, ht, reversed_once_iff hmem (by simp [hnone]) ht⟩

/-- The night is taken off the folio twice. -/
theorem not_reversed_once :
    ¬ ∀ night ∈ nightPosted.lineItems.rows, ∀ es t,
      run (step (.exact 0 id) night.id) (start nightPosted) es = some t →
      ReversedOnce nightPosted night t := by
  intro h
  obtain ⟨night, hmem, hid, -⟩ := exists_night
  obtain ⟨t, ht, htwo⟩ := run_reversedTwice
  rw [← hid] at ht htwo
  have hone := (h night hmem reversedTwice t ht).1
  omega

end Reversals

end Database

end Hotelia
