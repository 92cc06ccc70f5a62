import DataAccess.Proofs.Database.Bracketing
import DataAccess.Proofs.Storage.Agreement
import DataAccess.Proofs.Storage.AllOrNothing

/-!
This module contains what survives of a transaction that failed: nothing, unless a statement inside of it
failed and undid it, since what is written after that is written outside of any transaction.
-/

namespace DataAccess

open Storage (Call Connection Meaning Store)

def Operation.After (op : Operation σ β) (next : β → Database σ → Prop) (db : Database σ) : Prop :=
  ∀ b, (op db).1 = .ok b → next b (op db).2

def Action.Undoes (s : Meaning δ stmt) (c : Connection δ) : Action stmt α → Prop
  | execute q _ | insert q _ => c.Undoes s q
  | _ => False

/-- No statement of a routine fails and undoes the open transaction. -/
def Routine.Contained (s : Meaning δ stmt) (e : Engine (Store (Connection δ)) stmt) :
    Routine stmt α → Database (Store (Connection δ)) → Prop
  | done _, _ | fail _, _ | panic, _ => True
  | act a next, db =>
    ¬a.Undoes s db.store.connection ∧ (a.run e).attempt.After (fun r => (next r).Contained s e) db
  | call body next, db =>
    (Database.beginTransaction e).After (fun _ => body.Contained s e) db ∧
      (Database.runInTransaction e (body.run e)).attempt.After (fun r => (next r).Contained s e) db
  | guarded closing body next, db =>
    (Database.beginTransaction e).After (fun _ => body.Contained s e) db ∧
      (Database.guardedBy e closing (body.run e)).attempt.After (fun r => (next r).Contained s e) db

structure Inside (contained : Prop) (st st' : Store (Connection δ)) : Prop where
  depth : st'.depth = st.depth
  kept : contained → st'.connection.origin = st.connection.origin
  undone : ¬contained → st'.connection.origin = none

namespace Inside

variable {st st' st'' : Store (Connection δ)} {p q : Prop}

theorem trans (h : Inside p st st') (h' : Inside q st' st'') : Inside (p ∧ q) st st'' where
  depth := h'.depth.trans h.depth
  kept := fun ⟨hp, hq⟩ => (h'.kept hq).trans (h.kept hp)
  undone hnot := by
    by_cases hq : q
    . rw [h'.kept hq]
      exact h.undone fun hp => hnot ⟨hp, hq⟩
    . exact h'.undone hq

theorem congr (h : Inside p st st') (hiff : p ↔ q) : Inside q st st' := by
  rwa [← propext hiff]

theorem of_eq (hdepth : st'.depth = st.depth) (horigin : st'.connection.origin = st.connection.origin)
    : Inside True st st' :=
  ⟨hdepth, fun _ => horigin, fun h => absurd trivial h⟩

end Inside

/-- Inside of a transaction, an operation does not close it, and undoes it unless it is contained. -/
def Operation.Stays (op : Operation (Store (Connection δ)) α)
    (contained : Database (Store (Connection δ)) → Prop) : Prop :=
  ∀ db, 0 < db.store.depth → Inside (contained db) db.store (op db).2.store

namespace Operation.Stays

variable {op : Operation (Store (Connection δ)) α}
  {contained : Database (Store (Connection δ)) → Prop}

theorem bind {next : α → Operation (Store (Connection δ)) β}
    {rest : α → Database (Store (Connection δ)) → Prop} (h : op.Stays contained)
    (hnext : ∀ a, (next a).Stays (rest a))
    : (op >>= next).Stays fun db => contained db ∧ op.After rest db := by
  intro db hdepth
  have hfirst := h db hdepth
  change Inside _ _ (follow next (op db)).2.store
  rcases hop : op db with ⟨a | f | _, db'⟩
  all_goals rw [hop] at hfirst
  . have hrest := hnext a db' (hfirst.depth.symm ▸ hdepth)
    exact (hfirst.trans hrest).congr (by simp [After, hop])
  . exact hfirst.congr (by simp [After, hop])
  . exact hfirst.congr (by simp [After, hop])

theorem congr (h : op.Stays contained) {contained' : Database (Store (Connection δ)) → Prop}
    (hiff : ∀ db, contained db ↔ contained' db) : op.Stays contained' :=
  fun db hdepth => (h db hdepth).congr (hiff db)

theorem attempt (h : op.Stays contained) : op.attempt.Stays contained := by
  intro db hdepth
  rw [attempt_eq]
  exact h db hdepth

theorem map (h : op.Stays contained) (f : α → β) : (f <$> op).Stays contained := by
  intro db hdepth
  rw [snd_map]
  exact h db hdepth

theorem pure (a : α) : (Pure.pure a : Operation (Store (Connection δ)) α).Stays fun _ => True :=
  fun _ _ => .of_eq rfl rfl

end Operation.Stays

theorem Outcome.not_kept_of_returned {r : Outcome α} {answer : Except Fault Unit}
    (h : ∀ a, r.returned (.ofExcept answer) ≠ .ok a) : (r.succeeded && answer.isOk) = false := by
  cases r with
  | ok a =>
    cases answer with
    | ok => exact absurd rfl (h a)
    | error => rfl
  | fault | crash => rfl

namespace Database

variable (s : Meaning δ stmt) (thread : Nat)

theorem stays_wrote (tables : List String)
    : (wrote (Store.engine (Connection.link s) thread) tables).Stays fun _ => True := by
  intro db _
  obtain ⟨hconnection, hdepth⟩ := same_wrote (l := Connection.link s) thread tables db
  exact .of_eq hdepth (congrArg Connection.origin hconnection)

theorem stays_statement {op : Operation (Store (Connection δ)) α} (q : stmt) (tables : List String)
    (hdepth : ∀ db, (op db).2.store.depth = db.store.depth)
    (hconnection : ∀ db,
      (op db).2.store.connection = (db.store.connection.write s q).2.2)
    : (do
        let a ← op
        wrote (Store.engine (Connection.link s) thread) tables
        return a).Stays fun db => ¬db.store.connection.Undoes s q := by
  have hop : op.Stays fun db => ¬db.store.connection.Undoes s q := by
    intro db _
    have hwritten := Connection.transaction_write (c := db.store.connection) (s := s) q
    refine ⟨hdepth db, fun hkept => ?_, fun hundone => ?_⟩
    . rw [hconnection]
      exact Connection.origin_congr (hwritten.1 hkept)
    . rw [hconnection]
      unfold Connection.origin
      rw [hwritten.2 (Classical.not_not.1 hundone)]
      rfl
  have hafter (a : α) := (stays_wrote s thread tables).bind fun _ => Operation.Stays.pure a
  exact (hop.bind hafter).congr (by simp [Operation.After])

theorem stays_action (a : Action stmt α)
    : (a.run (Store.engine (Connection.link s) thread)).Stays
        fun db => ¬a.Undoes s db.store.connection := by
  have hsame {op : Operation (Store (Connection δ)) α} (h : ∀ db, (op db).2.store = db.store)
      : op.Stays fun _ => ¬False := by
    intro db _
    rw [h db]
    exact ⟨rfl, fun _ => rfl, fun hnot => absurd not_false hnot⟩
  cases a with
  | execute q tables => exact stays_statement s thread q tables (fun _ => rfl) fun _ => rfl
  | insert q tables => exact stays_statement s thread q tables (fun _ => rfl) fun _ => rfl
  | query q signal =>
    have hread (db : Database (Store (Connection δ)))
        : ((Operation.onStore (Store.query (Connection.link s) q signal db.cancellation)).run db).2.store
          = db.store := by
      change (db.store.query (Connection.link s) q signal db.cancellation).2 = db.store
      unfold Store.query
      split
      . rfl
      . split
        . rfl
        . rfl
    apply hsame
    intro db
    change (query (Store.engine (Connection.link s) thread) q signal db).2.store = db.store
    unfold query
    cases signal with
    | none => exact hread db
    | some signal =>
      change (Operation.follow _ (Outcome.ofExcept (db.cancellation.check signal), db)).2.store = _
      cases db.cancellation.check signal with
      | ok => exact hread db
      | error => rfl
  | inTransaction | setSignal _ | checkSignal _ | cancelHandle _ => exact hsame fun _ => rfl

theorem beginTransaction_inside {db : Database (Store (Connection δ))} (hdepth : 0 < db.store.depth)
    : ∃ opened,
        beginTransaction (Store.engine (Connection.link s) thread) db = (.ok (), opened) ∧
        opened.store.depth = db.store.depth + 1 ∧
        opened.store.connection.origin = db.store.connection.origin := by
  change ∃ opened, Operation.onStore (Store.openTransaction (Connection.link s) thread) db = _ ∧ _
  unfold Operation.onStore
  rw [Store.openTransaction_inside s thread hdepth]
  exact ⟨_, rfl, rfl, Connection.origin_savepoint _⟩

theorem endTransaction_link (success : Bool) (db : Database (Store (Connection δ)))
    : let ended := endTransaction (Store.engine (Connection.link s) thread) success db
      let closed := db.store.closeTransaction (Connection.link s) success
      ended.1 = .ofExcept closed.1 ∧
        ended.2.store.depth = closed.2.depth ∧
        ended.2.store.connection = closed.2.connection := by
  intro ended closed
  have hclosed : (Store.engine (Connection.link s) thread).closeTransaction success db.store = closed := rfl
  unfold ended
  rw [endTransaction_eq, hclosed]
  rcases closed with ⟨_ | _, store⟩
  . exact ⟨rfl, rfl, rfl⟩
  . have hsame := same_publish (l := Connection.link s) thread
      { db with store }
    exact ⟨rfl, hsame.depth, hsame.connection⟩

theorem stays_guardedBy (closing : α → Closing) {body : Operation (Store (Connection δ)) α}
    {contained : Database (Store (Connection δ)) → Prop} (hbody : body.Stays contained)
    : (guardedBy (Store.engine (Connection.link s) thread) closing body).Stays
        ((beginTransaction (Store.engine (Connection.link s) thread)).After fun _ => contained) := by
  intro db hdepth
  obtain ⟨opened, hopened, hdeeper, horigin⟩ := beginTransaction_inside s thread hdepth
  have hran := hbody opened (by omega)
  -- However the guard is left, the store closes one transaction, and this is not the outermost one.
  have hended (success : Bool)
      : Inside (contained opened) db.store
          (endTransaction (Store.engine (Connection.link s) thread) success (body opened).2).2.store := by
    obtain ⟨_, hdepthClosed, hclosed⟩ := endTransaction_link s thread success (body opened).2
    have hran_depth := hran.depth
    have hdeep : 1 < (body opened).2.store.depth := by omega
    have hinner := Store.closeTransaction_inside s hdeep success
    refine ⟨by omega, fun h => ?_, fun h => ?_⟩
    . rw [hclosed, hinner.2, hran.kept h, horigin]
    . rw [hclosed, hinner.2, hran.undone h]
  suffices h : Inside (contained opened) db.store
      (guardedBy (Store.engine (Connection.link s) thread) closing body db).2.store by
    exact h.congr (by simp [Operation.After, hopened])
  change Inside _ _ (Operation.follow _ (beginTransaction _ db)).2.store
  rw [hopened]
  dsimp only [Operation.follow]
  rcases hbodyran : body opened with ⟨a | f | _, ended⟩
  all_goals rw [hbodyran] at hended
  . obtain ⟨success, hleft⟩ := snd_leave (Store.engine (Connection.link s) thread) (closing a) ended
    change Inside _ _ ((Prod.mk a <$>
      (leave (Store.engine (Connection.link s) thread) (closing a)).attempt) ended).2.store
    rw [Operation.snd_map, hleft]
    exact hended success
  . exact hended false
  . exact hended false

/-- A routine that runs inside of a transaction leaves as many open as there were. The outermost one
stands afterwards if and only if it did before and no statement of the routine undid it. -/
theorem stays_run (p : Routine stmt α)
    : (p.run (Store.engine (Connection.link s) thread)).Stays
        (p.Contained s (Store.engine (Connection.link s) thread)) := by
  induction p with
  | done | fail | panic => exact fun _ _ => .of_eq rfl rfl
  | act a next ih => exact (stays_action s thread a).attempt.bind ih
  | call body next ihbody ihnext =>
    have hcall := (stays_guardedBy s thread (fun _ => .commit) ihbody).attempt.map heard
    rw [← attempt_guarded] at hcall
    exact hcall.bind ihnext
  | guarded closing body next ihbody ihnext =>
    exact (stays_guardedBy s thread closing ihbody).attempt.bind ihnext

theorem beginTransaction_outermost {db : Database (Store (Connection δ))} (hdepth : db.store.depth = 0)
    (hnone : db.store.connection.transaction = none)
    : ∃ opened,
        beginTransaction (Store.engine (Connection.link s) thread) db = (.ok (), opened) ∧
        opened.store.depth = 1 ∧
        opened.store.connection.origin = some db.store.connection.data := by
  change ∃ opened, Operation.onStore (Store.openTransaction (Connection.link s) thread) db = _ ∧ _
  unfold Operation.onStore
  rw [Store.openTransaction_outermost s thread hdepth hnone]
  exact ⟨_, rfl, rfl, rfl⟩

/-- The outermost transaction leaves none open. If it fails, the connection goes back to where the
transaction that it has open by then began. -/
theorem runInTransaction_outermost {db : Database (Store (Connection δ))} (body : Routine stmt α)
    (hdepth : db.store.depth = 0) (hnone : db.store.connection.transaction = none)
    : let e := Store.engine (Connection.link s) thread
      let opened := (beginTransaction e db).2
      let ended := body.run e opened
      let left := runInTransaction e (body.run e) db
      left.2.store.depth = 0 ∧ left.2.store.connection.transaction = none ∧
        (body.Contained s e opened ↔
          ended.2.store.connection.origin = some db.store.connection.data) ∧
        ((∀ a, left.1 ≠ .ok a) →
          left.2.store.connection = ended.2.store.connection.undo ∧
          (body.Contained s e opened →
            left.2.store.connection.data = db.store.connection.data)) := by
  intro e opened ended left
  obtain ⟨opened', hopened, hone, horigin⟩ := beginTransaction_outermost s thread hdepth hnone
  obtain rfl : opened = opened' := congrArg Prod.snd hopened
  have hran := stays_run s thread body opened (by omega)
  have hdepth : ended.2.store.depth = 1 := hran.depth.trans hone
  obtain ⟨hanswer, hdepthClosed, hclosed⟩ := endTransaction_link s thread ended.1.succeeded ended.2
  rw [Store.closeTransaction_outermost s hdepth] at hanswer hdepthClosed hclosed
  obtain ⟨hzero, htransaction, hundone⟩ :=
    Store.closeOutermost_link s ended.2.store ended.1.succeeded
  have hleft : left
      = (ended.1.returned (endTransaction e ended.1.succeeded ended.2).1,
          (endTransaction e ended.1.succeeded ended.2).2) := by
    dsimp only [left]
    rw [runInTransaction_eq, hopened]
  rw [hleft]
  have hstands (h : body.Contained s e opened)
      : ended.2.store.connection.origin = some db.store.connection.data :=
    (hran.kept h).trans horigin
  refine ⟨hdepthClosed.trans hzero, (congrArg Connection.transaction hclosed).trans htransaction,
    ⟨hstands, fun h => ?_⟩, fun hfailed => ?_⟩
  . apply Classical.byContradiction
    intro hundoes
    cases (hran.undone hundoes).symm.trans h
  . rw [hanswer] at hfailed
    have hundo := hundone (Outcome.not_kept_of_returned hfailed)
    refine ⟨hclosed.trans hundo, fun hcontained => ?_⟩
    dsimp only
    rw [hclosed, hundo]
    exact Connection.data_undo (hstands hcontained)

/-- A store and its connection agree all the time on whether a transaction is open if and only if no
statement undoes it, and otherwise at least whenever the store has none open. Nothing survives of an
outermost transaction that failed and in which no statement did so. -/
theorem agreement
    : (∀ (d : δ) (calls : List (Call stmt)),
        (Call.runAll s thread calls (Store.new (Connection.new d))).Settled ∧
        ((∀ before, before <+: calls →
            (Call.runAll s thread before (Store.new (Connection.new d))).Agrees)
          ↔
        Call.Contained s thread calls (Store.new (Connection.new d)))) ∧
      ∀ {α : Type} (db : Database (Store (Connection δ))) (body : Routine stmt α),
        db.store.depth = 0 → db.store.connection.transaction = none →
        let e := Store.engine (Connection.link s) thread
        let opened := (beginTransaction e db).2
        let ended := body.run e opened
        let left := runInTransaction e (body.run e) db
        left.2.store.depth = 0 ∧ left.2.store.connection.transaction = none ∧
          (body.Contained s e opened ↔
            ended.2.store.connection.origin = some db.store.connection.data) ∧
          ((∀ a, left.1 ≠ .ok a) →
            left.2.store.connection = ended.2.store.connection.undo ∧
            (body.Contained s e opened →
              left.2.store.connection.data = db.store.connection.data)) := by
  constructor
  . intro d calls
    have hsettled : (Store.new (Connection.new d)).Settled := fun _ => rfl
    have hstands : (Store.new (Connection.new d)).Stands := fun h => absurd h (Nat.lt_irrefl 0)
    exact ⟨Call.settled_runAll hsettled calls, Call.agrees_iff_contained hsettled hstands calls⟩
  . intro α db body hdepth hnone
    exact runInTransaction_outermost s thread body hdepth hnone

end Database

theorem Storage.Tables.not_undoes_of_isContained {q : Storage.Command} (h : q.isContained)
    (c : Connection Storage.Tables) : ¬c.Undoes Storage.Tables.meaning q := by
  rintro ⟨_, ⟨f, hfailed⟩, hundoes⟩
  have hkept := (contained_undoesOnlyItself ⟨q, h⟩ c.data f hfailed).2
  cases hkept.symm.trans hundoes

namespace Database

/-- Puts a user in the store, tries to put it there again, puts another one there whatever came of that,
and fails. -/
def putTwice (policy : ConflictPolicy) : Routine Storage.Command Unit :=
  let put (id : Int64) (policy : ConflictPolicy) : Action Storage.Command Nat :=
    .execute (.put .users (.integer id) .null policy) []
  .act (put 1 .abort) fun _ => .act (put 1 policy) fun _ => .act (put 2 .abort) fun _ => .fail .cancelled

theorem agreement_putTwice
    : let e := Store.engine (Connection.link Storage.Tables.meaning) 0
      let db := Database.new (Store.new (Connection.new Storage.Tables.empty))
      let left := runInTransaction e ((putTwice .abort).run e) db
      left.1 = .fault .cancelled ∧ left.2.store.connection.data = Storage.Tables.empty := by
  intro e db left
  have hfailed : left.1 = .fault .cancelled := rfl
  obtain ⟨_, _, _, hsurvived⟩ := (agreement Storage.Tables.meaning 0).2 db (putTwice .abort) rfl rfl
  refine ⟨hfailed, (hsurvived ?_).2 ?_⟩
  . intro a
    rw [hfailed]
    simp
  . refine ⟨?_, fun _ _ => ⟨?_, fun _ _ => ⟨?_, fun _ _ => trivial⟩⟩⟩
    . exact Storage.Tables.not_undoes_of_isContained rfl _
    . exact Storage.Tables.not_undoes_of_isContained rfl _
    . exact Storage.Tables.not_undoes_of_isContained rfl _

/-- After a failure that undid the transaction, what is written in it survives, although it failed. -/
theorem disagreement_putTwice
    : let e := Store.engine (Connection.link Storage.Tables.meaning) 0
      let db := Database.new (Store.new (Connection.new Storage.Tables.empty))
      let left := runInTransaction e ((putTwice .rollback).run e) db
      let put : Storage.Command := .put .users (.integer 1) .null .rollback
      ¬(Call.runAll Storage.Tables.meaning 0 [.openTransaction, .execute put, .execute put]
          (Store.new (Connection.new Storage.Tables.empty))).Agrees ∧
        left.1 = .fault .cancelled ∧
        left.2.store.connection.data.users.map Storage.Row.id = [2] := by
  intro e db left put
  refine ⟨?_, rfl, rfl⟩
  intro h
  cases h.1 Nat.one_pos

end Database

end DataAccess
