import DataAccess.Proofs.Database.Routines
import DataAccess.Proofs.Storage.Bookkeeping

/-!
This module contains what a thread does inside of a transaction that it has open: it may change the data
and note tables, but the transaction stays open, the tables that were put aside stay there, and nothing is
handed to the tracker.
-/

namespace DataAccess

open Operation (attempt_eq follow)
open Storage (Link Store)

/-- A store that only one thread uses: the open transaction is that of the thread, and without one no
tables are put aside. -/
structure Storage.Store.Tidy (thread : Nat) (st : Store κ) : Prop where
  free : st.depth = 0 → st.owner = none ∧ st.outside = []
  busy : 0 < st.depth → st.owner = some thread

namespace Storage.Store

variable (l : Link κ stmt) {st : Store κ} {thread : Nat}

theorem tidy_new (connection : κ) (thread : Nat) : (Store.new connection).Tidy thread where
  free _ := ⟨rfl, rfl⟩
  busy h := absurd h (Nat.lt_irrefl 0)

theorem Tidy.waits_eq_false (h : st.Tidy thread) : st.waits thread = false := by
  rw [waits_eq_false_iff]
  rcases Nat.eq_zero_or_pos st.depth with hdepth | hdepth
  . exact Or.inl (h.free hdepth).1
  . right
    unfold inTransaction
    rw [h.busy hdepth]
    exact beq_self_eq_true _

theorem Tidy.inTransaction_eq (h : st.Tidy thread)
    : st.inTransaction thread = decide (0 < st.depth) := by
  unfold inTransaction
  rcases Nat.eq_zero_or_pos st.depth with hdepth | hdepth
  . rw [(h.free hdepth).1, hdepth]
    rfl
  . rw [h.busy hdepth, decide_eq_true hdepth]
    exact beq_self_eq_true _

theorem Tidy.congr {st' : Store κ} (h : st.Tidy thread) (hdepth : st'.depth = st.depth)
    (howner : st'.owner = st.owner) (houtside : st'.outside = st.outside) : st'.Tidy thread where
  free hzero := by
    rw [howner, houtside]
    exact h.free (hdepth ▸ hzero)
  busy hpos := by
    rw [howner]
    exact h.busy (hdepth ▸ hpos)

theorem openTransaction_free (hdepth : st.depth = 0) (thread : Nat)
    : ∃ r c, st.openTransaction l thread
        = (r, if r.isOk then ⟨c, 1, some thread, st.modified, []⟩ else { st with connection := c }) := by
  unfold openTransaction
  rw [hdepth]
  rcases l.openTransaction st.connection with ⟨_ | _, c⟩
  . exact ⟨_, c, rfl⟩
  . exact ⟨_, c, rfl⟩

theorem openTransaction_busy (hdepth : 0 < st.depth) (thread : Nat)
    : ∃ r c, st.openTransaction l thread
        = (r, if r.isOk then { st with connection := c, depth := st.depth + 1 }
          else { st with connection := c }) := by
  unfold openTransaction
  split
  . next hzero => omega
  . rcases l.savepoint (savepointName st.depth) st.connection with ⟨_ | _, c⟩
    . exact ⟨_, c, rfl⟩
    . exact ⟨_, c, rfl⟩

theorem closeTransaction_deep (hdepth : st.depth ≠ 1) (success : Bool)
    : ∃ c, (st.closeTransaction l success).2
        = { st with connection := c, depth := st.depth - 1 } := by
  obtain ⟨c, ⟨_, h⟩ | ⟨hone, _⟩ | ⟨hone, _⟩⟩ := st.closeTransaction_cases l success
  . exact ⟨c, h⟩
  . exact absurd hone hdepth
  . exact absurd hone hdepth

end Storage.Store

namespace Database

structure Keeps (db db' : Database (Store κ)) : Prop where
  depth : db'.store.depth = db.store.depth
  owner : db'.store.owner = db.store.owner
  outside : db'.store.outside = db.store.outside
  tracker : db'.tracker = db.tracker

namespace Keeps

variable {db db' db'' : Database (Store κ)}

theorem refl (db : Database (Store κ)) : Keeps db db :=
  ⟨rfl, rfl, rfl, rfl⟩

theorem trans (h : Keeps db db') (h' : Keeps db' db'') : Keeps db db'' where
  depth := h'.depth.trans h.depth
  owner := h'.owner.trans h.owner
  outside := h'.outside.trans h.outside
  tracker := h'.tracker.trans h.tracker

theorem tidy (h : Keeps db db') (htidy : db.store.Tidy thread) : db'.store.Tidy thread :=
  htidy.congr h.depth h.owner h.outside

end Keeps

end Database

def Operation.Confined (thread : Nat) (op : Operation (Store κ) α) : Prop :=
  ∀ db : Database (Store κ), db.store.Tidy thread → 0 < db.store.depth → db.Keeps (op db).2

namespace Operation.Confined

open Database (Keeps)

variable {thread : Nat} {op : Operation (Store κ) α}

theorem of_keeps (h : ∀ db, Keeps db (op db).2) : op.Confined thread :=
  fun db _ _ => h db

theorem bind {next : α → Operation (Store κ) β} (h : op.Confined thread)
    (hnext : ∀ a, (next a).Confined thread) : (op >>= next).Confined thread := by
  intro db htidy hdepth
  have hfirst := h db htidy hdepth
  change Keeps db (follow next (op db)).2
  rcases hop : op db with ⟨a | f | _, db'⟩
  all_goals rw [hop] at hfirst
  . exact hfirst.trans (hnext a db' (hfirst.tidy htidy) (hfirst.depth.symm ▸ hdepth))
  . exact hfirst
  . exact hfirst

theorem pure (a : α) : (Pure.pure a : Operation (Store κ) α).Confined thread :=
  of_keeps .refl

theorem attempt (h : op.Confined thread) : op.attempt.Confined thread := by
  intro db htidy hdepth
  rw [attempt_eq]
  exact h db htidy hdepth

theorem map (h : op.Confined thread) (f : α → β) : (f <$> op).Confined thread := by
  rw [map_eq_pure_bind]
  exact h.bind fun a => pure (f a)

end Operation.Confined

namespace Database

open Operation (Confined)

variable (l : Link κ stmt) {thread : Nat} {db : Database (Store κ)}

theorem publish_busy (h : db.store.Tidy thread) (hdepth : 0 < db.store.depth)
    : publish (Store.engine l thread) db = (.ok (), db) := by
  have hinside : db.store.inTransaction thread = true := by
    rw [h.inTransaction_eq]
    exact decide_eq_true hdepth
  change (Outcome.ok (), if db.store.inTransaction thread then db else _) = _
  rw [if_pos hinside]

theorem wrote_eq (h : db.store.Tidy thread) (tables : List String)
    : wrote (Store.engine l thread) tables db
        = publish (Store.engine l thread)
            { db with store.modified := db.store.modified.insertAll tables } := by
  rw [wrote_eq_publish]
  split
  . next hnone =>
    rw [List.isEmpty_iff.1 hnone]
    rfl
  . have hnote : db.store.recordModified thread tables
        = { db.store with modified := db.store.modified.insertAll tables } := by
      unfold Store.recordModified
      rw [h.waits_eq_false]
      rfl
    rw [← hnote]
    rfl

theorem confined_wrote (tables : List String)
    : (wrote (Store.engine l thread) tables).Confined thread := by
  intro db htidy hdepth
  rw [wrote_eq l htidy tables, publish_busy l]
  . exact ⟨rfl, rfl, rfl, rfl⟩
  . exact htidy.congr rfl rfl rfl
  . exact hdepth

theorem confined_statement {step : Store κ → Except Fault α × Store κ} (tables : List String)
    (hstep : ∀ st, ∃ c touched, (step st).2
      = { st with connection := c, modified := st.modified.insertAll touched })
    : (do
        let a ← Operation.onStore step
        wrote (Store.engine l thread) tables
        return a).Confined thread := by
  apply Confined.bind
  . apply Confined.of_keeps
    intro db
    obtain ⟨c, touched, hstore⟩ := hstep db.store
    change Keeps db { db with store := (step db.store).2 }
    rw [hstore]
    exact ⟨rfl, rfl, rfl, rfl⟩
  . intro a
    apply (confined_wrote l tables).bind
    intro _
    exact Confined.pure a

theorem confined_action (a : Action stmt α)
    : (a.run (Store.engine l thread)).Confined thread := by
  cases a with
  | execute q tables => exact confined_statement l tables fun st => ⟨_, _, rfl⟩
  | insert q tables => exact confined_statement l tables fun st => ⟨_, _, rfl⟩
  | query q signal =>
    have hread : Confined thread (fun db : Database (Store κ) =>
        (Operation.onStore (Store.query l q signal db.cancellation)).run db) := by
      apply Confined.of_keeps
      intro db
      change Keeps db { db with store := (db.store.query l q signal db.cancellation).2 }
      have hstore : (db.store.query l q signal db.cancellation).2 = db.store := by
        unfold Store.query
        split
        . rfl
        . split
          . rfl
          . rfl
      rw [hstore]
      exact .refl db
    cases signal with
    | none => exact hread
    | some signal =>
      have hcheck : (checkSignal signal : Operation (Store κ) Unit).Confined thread :=
        Confined.of_keeps .refl
      exact hcheck.bind fun _ => hread
  | inTransaction | checkSignal => exact Confined.of_keeps .refl
  | setSignal | cancelHandle => exact Confined.of_keeps fun _ => ⟨rfl, rfl, rfl, rfl⟩

/-- Closing the transaction that was opened inside of another one leads back to the other one. -/
theorem endTransaction_deep (success : Bool) (htidy : db.store.Tidy thread)
    (hdepth : 1 < db.store.depth)
    : Keeps { db with store.depth := db.store.depth - 1 }
        (endTransaction (Store.engine l thread) success db).2 := by
  obtain ⟨c, hstore⟩ := db.store.closeTransaction_deep l (by omega) success
  change Keeps _ (follow _ (Outcome.ofExcept (db.store.closeTransaction l success).1,
    { db with store := (db.store.closeTransaction l success).2 })).2
  rw [hstore]
  have hclosed : Keeps { db with store.depth := db.store.depth - 1 }
      { db with store := { db.store with connection := c, depth := db.store.depth - 1 } } :=
    ⟨rfl, rfl, rfl, rfl⟩
  cases (db.store.closeTransaction l success).1 with
  | error => exact hclosed
  | ok =>
    have hbusy : 0 < db.store.depth - 1 := by omega
    have howner := htidy.busy (by omega)
    have htidy' : Store.Tidy thread { db.store with connection := c, depth := db.store.depth - 1 } :=
      ⟨fun hzero => absurd hzero (Nat.ne_of_gt hbusy), fun _ => howner⟩
    change Keeps _ (publish (Store.engine l thread) _).2
    rw [publish_busy l htidy' hbusy]
    exact hclosed

theorem confined_guardedBy (closing : α → Closing) {body : Operation (Store κ) α}
    (hbody : body.Confined thread)
    : (guardedBy (Store.engine l thread) closing body).Confined thread := by
  intro db htidy hdepth
  obtain ⟨r, c, hopened⟩ := db.store.openTransaction_busy l hdepth thread
  have hbegin : beginTransaction (Store.engine l thread) db
      = (.ofExcept r, { db with store := if r.isOk
          then { db.store with connection := c, depth := db.store.depth + 1 }
          else { db.store with connection := c } }) := by
    change (Outcome.ofExcept (db.store.openTransaction l thread).1,
      { db with store := (db.store.openTransaction l thread).2 }) = _
    rw [hopened]
  change Keeps db (follow _ (beginTransaction (Store.engine l thread) db)).2
  rw [hbegin]
  cases r with
  | error => exact ⟨rfl, rfl, rfl, rfl⟩
  | ok =>
    let opened : Database (Store κ) :=
      { db with store := { db.store with connection := c, depth := db.store.depth + 1 } }
    have htidy' : opened.store.Tidy thread :=
      ⟨fun hzero => absurd hzero (Nat.succ_ne_zero _), fun _ => htidy.busy hdepth⟩
    have hran := hbody opened htidy' (Nat.succ_pos _)
    -- However the guard is left, one transaction is closed, and this is not the outermost one.
    have hended (success : Bool)
        : Keeps db (endTransaction (Store.engine l thread) success (body opened).2).2 := by
      have hdeep : 1 < (body opened).2.store.depth := by
        rw [hran.depth]
        exact Nat.succ_lt_succ hdepth
      have hback : Keeps db
          { (body opened).2 with store.depth := (body opened).2.store.depth - 1 } := by
        refine ⟨?_, hran.owner, hran.outside, hran.tracker⟩
        change (body opened).2.store.depth - 1 = db.store.depth
        rw [hran.depth]
        rfl
      exact hback.trans (endTransaction_deep l success (hran.tidy htidy') hdeep)
    change Keeps db (follow _ (Outcome.ok (), opened)).2
    dsimp only [follow]
    rcases hbodyran : body opened with ⟨a | f | _, ended⟩
    all_goals rw [hbodyran] at hended
    . obtain ⟨success, hleft⟩ := snd_leave (Store.engine l thread) (closing a) ended
      change Keeps db ((Prod.mk a <$> (leave (Store.engine l thread) (closing a)).attempt) ended).2
      rw [Operation.snd_map, hleft]
      exact hended success
    . exact hended false
    . exact hended false

theorem confined_run (p : Routine stmt α) : (p.run (Store.engine l thread)).Confined thread := by
  induction p with
  | done | fail | panic => exact Confined.of_keeps .refl
  | act a next ih => exact (confined_action l a).attempt.bind ih
  | call body next ihbody ihnext =>
    have hcall := (confined_guardedBy l (fun _ => .commit) ihbody).attempt.map heard
    rw [← attempt_guarded] at hcall
    exact hcall.bind ihnext
  | guarded closing body next ihbody ihnext =>
    exact (confined_guardedBy l closing ihbody).attempt.bind ihnext

end Database

end DataAccess
