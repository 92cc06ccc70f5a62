import DataAccess.Proofs.Database.Bracketing
import Mathlib.Data.Set.Basic

/-!
This module contains what an engine keeps for a thread that is alone with it: how deep transactions are
nested and which tables are noted as written. Main statement: a call that succeeds while no transaction is
open hands over the tables that are noted by then, and no other call hands over anything.
-/

namespace DataAccess

open Operation (follow)

structure Ledger where
  depth : Nat
  /-- The tables that were written, inside of the open transaction if there is one. -/
  noted : Set String
  /-- The tables that were noted before the open transaction. -/
  aside : Set String

namespace Ledger

def note (l : Ledger) (tables : Set String) : Ledger :=
  { l with noted := l.noted ∪ tables }

/-- Opens a transaction. The outermost one starts without tables of its own. -/
def opened (l : Ledger) : Ledger :=
  if l.depth = 0 then ⟨1, ∅, l.noted⟩ else { l with depth := l.depth + 1 }

/-- Closes the innermost transaction. The tables of the outermost one are only kept if its work is. -/
def closed (l : Ledger) (kept : Bool) : Ledger :=
  match l.depth with
  | 0 => l
  | 1 => ⟨0, if kept then l.noted ∪ l.aside else l.aside, ∅⟩
  | depth + 2 => { l with depth := depth + 1 }

variable {l : Ledger}

@[simp]
theorem note_empty (l : Ledger) : l.note ∅ = l := by
  unfold note
  rw [Set.union_empty]

theorem note_note (l : Ledger) (tables more : Set String)
    : (l.note tables).note more = l.note (tables ∪ more) := by
  unfold note
  rw [Set.union_assoc]

theorem opened_depth_pos (l : Ledger) : 0 < l.opened.depth := by
  unfold opened
  split
  . exact Nat.one_pos
  . exact Nat.succ_pos _

theorem opened_inner (h : 0 < l.depth) : l.opened = { l with depth := l.depth + 1 } :=
  if_neg (Nat.ne_of_gt h)

theorem closed_outermost (h : l.depth = 1) (kept : Bool)
    : l.closed kept = ⟨0, if kept then l.noted ∪ l.aside else l.aside, ∅⟩ := by
  unfold closed
  rw [h]

theorem closed_inner (h : l.depth ≠ 1) (kept : Bool)
    : l.closed kept = { l with depth := l.depth - 1 } := by
  obtain ⟨depth, noted, aside⟩ := l
  unfold closed
  match depth, h with
  | 0, _ => rfl
  | depth + 2, _ => rfl

/-- No tables wait for being published, other than those of an open transaction. -/
structure Settled (l : Ledger) : Prop where
  outside : l.depth = 0 → l.noted = ∅
  inside : 0 < l.depth → l.aside = ∅

theorem Settled.note (h : l.Settled) (hdepth : 0 < l.depth) (tables : Set String)
    : (l.note tables).Settled where
  outside hzero := absurd hzero (Nat.ne_of_gt hdepth)
  inside := h.inside

theorem Settled.opened (h : l.Settled) : l.opened.Settled where
  outside hzero := absurd hzero (Nat.ne_of_gt l.opened_depth_pos)
  inside _ := by
    unfold Ledger.opened
    split
    . next hdepth => exact h.outside hdepth
    . next hdepth => exact h.inside (Nat.pos_of_ne_zero hdepth)

theorem Settled.closed (h : l.Settled) {kept : Bool} (hkept : kept = true → (l.closed kept).depth ≠ 0)
    : (l.closed kept).Settled := by
  obtain ⟨depth, noted, aside⟩ := l
  match depth, kept with
  | 0, _ => exact h
  | 1, true => exact absurd rfl (hkept rfl)
  | 1, false => exact ⟨fun _ => h.inside Nat.one_pos, fun hpos => absurd hpos (Nat.lt_irrefl 0)⟩
  | depth + 2, _ =>
    exact ⟨fun hzero => absurd hzero (Nat.succ_ne_zero _), fun _ => h.inside (Nat.succ_pos _)⟩

end Ledger

/-- What an engine keeps for a thread that is alone with it, as a ledger. -/
structure Engine.Bookkeeping (e : Engine σ stmt) where
  /-- The states that the engine can be in. -/
  valid : σ → Prop
  ledger : σ → Ledger
  touched : stmt → σ → Set String
  inTransaction {s : σ} : valid s → (e.inTransaction s = true ↔ 0 < (ledger s).depth)
  execute (q : stmt) {s : σ} : valid s →
    valid (e.execute q s).2 ∧ ledger (e.execute q s).2 = (ledger s).note (touched q s)
  insert (q : stmt) {s : σ} : valid s →
    valid (e.insert q s).2 ∧ ledger (e.insert q s).2 = (ledger s).note (touched q s)
  openTransaction {s : σ} : valid s →
    valid (e.openTransaction s).2 ∧
      ledger (e.openTransaction s).2
        = if (e.openTransaction s).1.isOk then (ledger s).opened else ledger s
  /-- A transaction that cannot be closed is rolled back or stays open. -/
  closeTransaction (success : Bool) {s : σ} : valid s →
    valid (e.closeTransaction success s).2 ∧
      (ledger (e.closeTransaction success s).2
          = (ledger s).closed (success && (e.closeTransaction success s).1.isOk) ∨
        (e.closeTransaction success s).1.isOk = false ∧
          ledger (e.closeTransaction success s).2 = ledger s)
  recordModified (tables : List String) {s : σ} : valid s →
    valid (e.recordModified tables s) ∧
      ledger (e.recordModified tables s) = (ledger s).note { t | t ∈ tables }
  takeModified {s : σ} : valid s → (ledger s).depth = 0 →
    valid (e.takeModified s).2 ∧
      ledger (e.takeModified s).2 = { ledger s with noted := ∅ } ∧
      { t | t ∈ (e.takeModified s).1 } = (ledger s).noted

/-- A call by which tables are written, or a transaction is opened or closed. -/
inductive Primitive (stmt : Type) where
  | execute (q : stmt) (tables : List String)
  | insert (q : stmt) (tables : List String)
  | begin
  | finish (success : Bool)

namespace Primitive

def Answer : Primitive stmt → Type
  | execute _ _ => Nat
  | insert _ _ => Int64
  | begin | finish _ => Unit

variable (e : Engine σ stmt)

def run : (c : Primitive stmt) → Operation σ c.Answer
  | execute q tables => Database.execute e q tables
  | insert q tables => Database.insert e q tables
  | begin => Database.beginTransaction e
  | finish success => Database.endTransaction e success

def recording (tables : List String) : Except Fault α × σ → Except Fault α × σ
  | (.ok a, s) => (.ok a, if tables.isEmpty then s else e.recordModified tables s)
  | (.error f, s) => (.error f, s)

def work : (c : Primitive stmt) → σ → Except Fault c.Answer × σ
  | execute q tables => fun s => recording e tables (e.execute q s)
  | insert q tables => fun s => recording e tables (e.insert q s)
  | begin => e.openTransaction
  | finish success => e.closeTransaction success

theorem run_statement (step : σ → Except Fault α × σ) (tables : List String) (db : Database σ)
    : (do
          let a ← Operation.onStore step
          Database.wrote e tables
          return a : Operation σ α) db
        =
      let r := recording e tables (step db.store)
      (.ofExcept r.1,
        if r.1.isOk then (Database.publish e { db with store := r.2 }).2
        else { db with store := r.2 }) := by
  rw [Database.statement_eq]
  rcases step db.store with ⟨_ | a, s⟩
  . rfl
  . dsimp only [recording]
    rw [Database.wrote_eq_publish]
    cases tables.isEmpty with
    | true | false => rfl

theorem run_eq {c : Primitive stmt} (hc : c ≠ begin) (db : Database σ)
    : c.run e db
        = (.ofExcept (c.work e db.store).1,
            if (c.work e db.store).1.isOk
            then (Database.publish e { db with store := (c.work e db.store).2 }).2
            else { db with store := (c.work e db.store).2 }) := by
  cases c with
  | execute q tables => exact run_statement e (e.execute q) tables db
  | insert q tables => exact run_statement e (e.insert q) tables db
  | begin => exact absurd rfl hc
  | finish success => exact Database.endTransaction_eq e success db

theorem succeeded_finish (success : Bool) (db : Database σ)
    : ((finish success).run e db).1.succeeded = ((finish success).work e db.store).1.isOk := by
  have hanswer : ((finish success).run e db).1 = .ofExcept ((finish success).work e db.store).1 :=
    congrArg Prod.fst (run_eq e (by simp) db)
  refine (congrArg Outcome.succeeded hanswer).trans ?_
  cases ((finish success).work e db.store).1 with
  | error => rfl
  | ok => rfl

end Primitive

namespace Engine.Bookkeeping

variable {e : Engine σ stmt} (k : e.Bookkeeping)

def depth (s : σ) : Nat :=
  (k.ledger s).depth

def noted (s : σ) : Set String :=
  (k.ledger s).noted

def tables : Primitive stmt → σ → Set String
  | .execute q tables, s => k.touched q s ∪ { t | (e.execute q s).1.isOk = true ∧ t ∈ tables }
  | .insert q tables, s => k.touched q s ∪ { t | (e.insert q s).1.isOk = true ∧ t ∈ tables }
  | .begin, _ | .finish _, _ => ∅

structure Quiet : Prop where
  execute (q : stmt) {s : σ} : k.valid s → (e.execute q s).1.isOk = false → k.touched q s = ∅
  insert (q : stmt) {s : σ} : k.valid s → (e.insert q s).1.isOk = false → k.touched q s = ∅

/-- A call has published all tables that were noted in a state of the engine. -/
structure HandsOver (s : σ) (db left : Database σ) : Prop where
  valid : k.valid left.store
  depth : k.depth left.store = 0
  noted : k.noted left.store = ∅
  tracker : ∃ tables : List String, { t | t ∈ tables } = k.noted s ∧
    left.tracker = if tables.isEmpty then db.tracker else db.tracker.notify tables

variable {s : σ} {db : Database σ}

theorem publish_inside (hvalid : k.valid db.store) (hdepth : 0 < k.depth db.store)
    : (Database.publish e db).2 = db := by
  change (if e.inTransaction db.store then db else _) = db
  rw [if_pos ((k.inTransaction hvalid).2 hdepth)]

theorem publish_outside (hvalid : k.valid db.store) (hdepth : k.depth db.store = 0)
    : k.HandsOver db.store db (Database.publish e db).2 := by
  have hout : ¬e.inTransaction db.store = true := by
    intro h
    exact absurd hdepth (Nat.ne_of_gt ((k.inTransaction hvalid).1 h))
  obtain ⟨hvalid', hledger, htables⟩ := k.takeModified hvalid hdepth
  have hpublish : (Database.publish e db).2
      = { db with store := (e.takeModified db.store).2 }.notify (e.takeModified db.store).1 := by
    change (if e.inTransaction db.store then db else _) = _
    rw [if_neg hout]
  rw [hpublish]
  have hstore := Database.store_notify (e.takeModified db.store).1
    { db with store := (e.takeModified db.store).2 }
  constructor
  . rw [hstore]
    exact hvalid'
  . rw [hstore]
    exact (congrArg Ledger.depth hledger).trans hdepth
  . rw [hstore]
    exact congrArg Ledger.noted hledger
  . refine ⟨_, htables, ?_⟩
    unfold Database.notify
    split
    . rfl
    . rfl

theorem recording_ledger {r : Except Fault α × σ} (hvalid : k.valid r.2) (tables : List String)
    : let r' := Primitive.recording e tables r
      r'.1.isOk = r.1.isOk ∧ k.valid r'.2 ∧
        k.ledger r'.2 = (k.ledger r.2).note { t | r.1.isOk = true ∧ t ∈ tables } := by
  obtain ⟨_ | a, s⟩ := r
  . refine ⟨rfl, hvalid, ?_⟩
    simp [Primitive.recording, Except.isOk, Except.toBool]
  . refine ⟨rfl, ?_⟩
    unfold Primitive.recording
    dsimp only
    split
    . next hempty =>
      rw [List.isEmpty_iff.1 hempty]
      exact ⟨hvalid, by simp⟩
    . simpa [Except.isOk, Except.toBool] using k.recordModified tables hvalid

theorem work_ledger (hvalid : k.valid s) (c : Primitive stmt)
    : let r := c.work e s
      k.valid r.2 ∧
        match c with
        | .execute _ _ | .insert _ _ => k.ledger r.2 = (k.ledger s).note (k.tables c s)
        | .begin => k.ledger r.2 = if r.1.isOk then (k.ledger s).opened else k.ledger s
        | .finish success =>
          k.ledger r.2 = (k.ledger s).closed (success && r.1.isOk) ∨
            r.1.isOk = false ∧ k.ledger r.2 = k.ledger s := by
  have statement {α : Type} {q : stmt} {tables : List String} {r : Except Fault α × σ}
      (h : k.valid r.2 ∧ k.ledger r.2 = (k.ledger s).note (k.touched q s))
      : k.valid (Primitive.recording e tables r).2 ∧
          k.ledger (Primitive.recording e tables r).2
            = (k.ledger s).note (k.touched q s ∪ { t | r.1.isOk = true ∧ t ∈ tables }) := by
    obtain ⟨_, hvalid', hledger⟩ := k.recording_ledger h.1 tables
    refine ⟨hvalid', ?_⟩
    rw [hledger, h.2, Ledger.note_note]
  cases c with
  | execute q tables => exact statement (k.execute q hvalid)
  | insert q tables => exact statement (k.insert q hvalid)
  | begin => exact k.openTransaction hvalid
  | finish success => exact k.closeTransaction success hvalid

/-- A call publishes what is noted after its work, if that succeeded and left no transaction open. -/
theorem run_cases (hvalid : k.valid db.store) (c : Primitive stmt)
    : let r := c.work e db.store
      if r.1.isOk = true ∧ k.depth r.2 = 0 then k.HandsOver r.2 db (c.run e db).2
      else (c.run e db).2 = { db with store := r.2 } := by
  intro r
  obtain ⟨hvalid', hledger⟩ := k.work_ledger hvalid c
  by_cases hbegin : c = .begin
  . subst hbegin
    rw [if_neg]
    . rfl
    . rintro ⟨hok, hdepth⟩
      have hopened : k.ledger r.2 = (k.ledger db.store).opened := by
        rw [hledger]
        exact if_pos hok
      have hpos := (k.ledger db.store).opened_depth_pos
      rw [← hopened] at hpos
      exact absurd hdepth (Nat.ne_of_gt hpos)
  . rw [c.run_eq e hbegin db]
    by_cases hok : r.1.isOk = true
    . dsimp only
      rw [if_pos hok]
      have hworked : k.valid { db with store := r.2 }.store := hvalid'
      rcases Nat.eq_zero_or_pos (k.depth r.2) with hdepth | hdepth
      . rw [if_pos ⟨hok, hdepth⟩]
        obtain ⟨hvalid, hdepth, hnoted, htracker⟩ :=
          k.publish_outside hworked hdepth
        exact ⟨hvalid, hdepth, hnoted, htracker⟩
      . rw [if_neg (fun h => Nat.ne_of_gt hdepth h.2)]
        exact k.publish_inside hworked hdepth
    . rw [if_neg (fun h => hok h.1)]
      exact if_neg hok

theorem valid_run (hvalid : k.valid db.store) (c : Primitive stmt) : k.valid (c.run e db).2.store := by
  have hcases := k.run_cases hvalid c
  dsimp only at hcases
  split at hcases
  . exact hcases.valid
  . rw [hcases]
    exact (k.work_ledger hvalid c).1

theorem run_inside (hvalid : k.valid db.store) {c : Primitive stmt}
    (hdepth : 0 < k.depth (c.run e db).2.store)
    : (c.run e db).2 = { db with store := (c.work e db.store).2 } := by
  have hcases := k.run_cases hvalid c
  dsimp only at hcases
  split at hcases
  . exact absurd hcases.depth (Nat.ne_of_gt hdepth)
  . exact hcases

theorem ledger_run_inside (hvalid : k.valid db.store) (hbefore : 0 < k.depth db.store)
    {c : Primitive stmt} (hafter : 0 < k.depth (c.run e db).2.store)
    : k.noted (c.run e db).2.store = k.noted db.store ∪ k.tables c db.store ∧
        (k.ledger (c.run e db).2.store).aside = (k.ledger db.store).aside := by
  have hrun := k.run_inside hvalid hafter
  rw [hrun] at hafter ⊢
  obtain ⟨_, hledger⟩ := k.work_ledger hvalid c
  unfold depth at hbefore hafter
  unfold noted
  dsimp only at hafter hledger ⊢
  cases c with
  | execute q tables | insert q tables =>
    dsimp only at hledger
    rw [hledger]
    exact ⟨rfl, rfl⟩
  | begin =>
    dsimp only at hledger
    rw [hledger, Ledger.opened_inner hbefore]
    unfold tables
    rw [Set.union_empty]
    split
    . exact ⟨rfl, rfl⟩
    . exact ⟨rfl, rfl⟩
  | finish success =>
    unfold tables
    rw [Set.union_empty]
    rcases hledger with hclosed | ⟨_, hsame⟩
    . have hinner : (k.ledger db.store).depth ≠ 1 := by
        intro hone
        rw [hclosed, Ledger.closed_outermost hone] at hafter
        exact absurd hafter (Nat.lt_irrefl 0)
      rw [hclosed, Ledger.closed_inner hinner]
      exact ⟨rfl, rfl⟩
    . rw [hsame]
      exact ⟨rfl, rfl⟩

end Engine.Bookkeeping

end DataAccess
