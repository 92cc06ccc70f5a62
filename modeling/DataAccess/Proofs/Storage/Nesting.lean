import DataAccess.Proofs.Storage.Programs

/-!
This module contains what the operations of a database do to its connection: each of them ends with an
outcome and leaves the connection with data, and with savepoints to go back to.
-/

namespace DataAccess

open Storage (Behaviour Holding Link Opened Store Transactional)

namespace Database

variable {l : Link κ stmt} {b : Behaviour δ η stmt} {holds : κ → Holding δ η → Prop}

/-- From one database to the other the connection and the number of open transactions stay what they are. -/
structure SameStanding (db db' : Database (Store κ)) : Prop where
  connection : db'.store.connection = db.store.connection
  depth : db'.store.depth = db.store.depth

namespace SameStanding

variable {db db' : Database (Store κ)} (thread : Nat)

theorem take (h : SameStanding db db')
    : SameStanding db { db' with store := (db'.store.takeModified thread).2 } where
  connection := (Store.connection_takeModified ..).trans h.connection
  depth := (Store.depth_takeModified ..).trans h.depth

theorem note (tables : List String) (h : SameStanding db db')
    : SameStanding db { db' with store := db'.store.recordModified thread tables } where
  connection := (Store.connection_recordModified ..).trans h.connection
  depth := (Store.depth_recordModified ..).trans h.depth

theorem notify (tables : List String) (h : SameStanding db db') : SameStanding db (db'.notify tables) where
  connection := (congrArg Store.connection (store_notify tables db')).trans h.connection
  depth := (congrArg Store.depth (store_notify tables db')).trans h.depth

end SameStanding

theorem same_publish (thread : Nat) (db : Database (Store κ))
    : SameStanding db (publish (Store.engine l thread) db).2 := by
  refine publish_induction (P := SameStanding db) ?_ ?_ ⟨rfl, rfl⟩
  . exact fun _ h => h.take thread
  . exact fun tables _ h => h.notify tables

theorem same_wrote (thread : Nat) (tables : List String) (db : Database (Store κ))
    : SameStanding db (wrote (Store.engine l thread) tables db).2 := by
  refine wrote_induction (P := SameStanding db) ?_ ?_ ?_ ⟨rfl, rfl⟩
  . exact fun _ h => h.take thread
  . exact fun tables _ h => h.notify tables
  . exact fun _ h => h.note thread tables

structure Stands (holds : κ → Holding δ η → Prop) (db : Database (Store κ)) (w : Holding δ η)
    (depth : Nat) : Prop where
  holds : holds db.store.connection w
  depth : db.store.depth = depth

def Leads (holds : κ → Holding δ η → Prop) (r : Outcome α × Database (Store κ)) (a : Outcome α)
    (w : Holding δ η) (depth : Nat) : Prop :=
  r.1 = a ∧ Stands holds r.2 w depth

/-- An operation ends with an outcome, data and what is kept besides, and changes nothing else. -/
def EndsAs (holds : κ → Holding δ η → Prop) (r : Outcome α × Database (Store κ))
    (ended : Outcome α × δ × η) (o : Option (Opened δ)) (depth : Nat) : Prop :=
  Leads holds r ended.1 ⟨ended.2.1, ended.2.2, o⟩ depth

namespace Leads

theorem bind {op : Operation (Store κ) α} {next : α → Operation (Store κ) β}
    {db : Database (Store κ)} (h : Leads holds (op db) (.ok a) w n)
    (hnext : ∀ db, Stands holds db w n → Leads holds (next a db) o w' n')
    : Leads holds ((op >>= next) db) o w' n' := by
  obtain ⟨ha, hstands⟩ := h
  change Leads holds (Operation.follow next (op db)) o w' n'
  rcases hop : op db with ⟨outcome, db'⟩
  rw [hop] at ha hstands
  cases ha
  exact hnext db' hstands

theorem bind_fault {op : Operation (Store κ) α} (next : α → Operation (Store κ) β)
    {db : Database (Store κ)} (h : Leads holds (op db) (.fault f) w n)
    : Leads holds ((op >>= next) db) (.fault f) w n := by
  obtain ⟨ha, hstands⟩ := h
  change Leads holds (Operation.follow next (op db)) (.fault f) w n
  rcases hop : op db with ⟨outcome, db'⟩
  rw [hop] at ha hstands
  cases ha
  exact ⟨rfl, hstands⟩

theorem bind_crash {op : Operation (Store κ) α} (next : α → Operation (Store κ) β)
    {db : Database (Store κ)} (h : Leads holds (op db) .crash w n)
    : Leads holds ((op >>= next) db) .crash w n := by
  obtain ⟨ha, hstands⟩ := h
  change Leads holds (Operation.follow next (op db)) .crash w n
  rcases hop : op db with ⟨outcome, db'⟩
  rw [hop] at ha hstands
  cases ha
  exact ⟨rfl, hstands⟩

theorem attempt {op : Operation (Store κ) α} {db : Database (Store κ)} {r : Except Fault α}
    (h : Leads holds (op db) (.ofExcept r) w n) : Leads holds (op.attempt db) (.ok r) w n := by
  obtain ⟨ha, hstands⟩ := h
  unfold Operation.attempt
  rcases hop : op db with ⟨outcome, db'⟩
  rw [hop] at ha hstands
  cases r with
  | ok =>
    cases ha
    exact ⟨rfl, hstands⟩
  | error =>
    cases ha
    exact ⟨rfl, hstands⟩

theorem attempt_crash {op : Operation (Store κ) α} {db : Database (Store κ)}
    (h : Leads holds (op db) .crash w n) : Leads holds (op.attempt db) .crash w n := by
  obtain ⟨ha, hstands⟩ := h
  unfold Operation.attempt
  rcases hop : op db with ⟨outcome, db'⟩
  rw [hop] at ha hstands
  cases ha
  exact ⟨rfl, hstands⟩

end Leads

namespace Stands

variable {db : Database (Store κ)} (thread : Nat)

theorem congr {db' : Database (Store κ)} (h : Stands holds db w n) (hsame : SameStanding db db')
    : Stands holds db' w n where
  holds := hsame.connection ▸ h.holds
  depth := hsame.depth.trans h.depth

theorem publish (h : Stands holds db w n)
    : Leads holds (Database.publish (Store.engine l thread) db) (.ok ()) w n :=
  ⟨rfl, h.congr (same_publish thread db)⟩

theorem wrote (h : Stands holds db w n) (tables : List String)
    : Leads holds (Database.wrote (Store.engine l thread) tables db) (.ok ()) w n :=
  ⟨fst_wrote .., h.congr (same_wrote thread tables db)⟩

theorem afterwards {op : Operation (Store κ) α} {r : Except Fault α} (tables : List String)
    (h : Leads holds (op db) (.ofExcept r) w n)
    : Leads holds ((do let a ← op; Database.wrote (Store.engine l thread) tables; return a) db)
        (.ofExcept r) w n := by
  cases r with
  | error f => exact h.bind_fault _
  | ok a =>
    apply h.bind
    intro db h
    apply (h.wrote thread tables).bind
    intro db h
    exact ⟨rfl, h⟩

theorem execute (hl : Transactional l b holds) (h : Stands holds db ⟨d, k, o⟩ n) (q : stmt)
    (tables : List String)
    : Leads holds (Database.execute (Store.engine l thread) q tables db)
        (.ofExcept (b.write o.isSome q d k).1)
        ⟨(b.write o.isSome q d k).2.1, (b.write o.isSome q d k).2.2, o⟩ n := by
  obtain ⟨hresult, hholds⟩ := hl.write (q := q) h.holds
  apply afterwards
  exact ⟨congrArg Outcome.ofExcept hresult, hholds, h.depth⟩

theorem insert (hl : Transactional l b holds) (h : Stands holds db ⟨d, k, o⟩ n) (q : stmt)
    (tables : List String)
    : let (r, d, k) := b.write o.isSome q d k
      Leads holds (Database.insert (Store.engine l thread) q tables db)
        (.ofExcept (r.map fun changed => if changed = 0 then -1 else b.lastId d k)) ⟨d, k, o⟩ n := by
  obtain ⟨hresult, hholds⟩ := hl.write (q := q) h.holds
  apply afterwards
  refine ⟨congrArg Outcome.ofExcept ?_, hholds, h.depth⟩
  change (l.write q db.store.connection).1.map _ = _
  rw [hresult]
  change Except.map (fun changed =>
    if changed = 0 then -1 else l.lastId (l.write q db.store.connection).2.2) _ = _
  rw [hl.lastId hholds]

def entered (depth : Nat) (d : δ) : Option (Opened δ) → Opened δ
  | none => ⟨d, []⟩
  | some t => ⟨t.before, ⟨Store.savepointName depth, d⟩ :: t.savepoints⟩

theorem beginTransaction (hl : Transactional l b holds) (h : Stands holds db ⟨d, k, o⟩ n)
    (hn : n = 0 ↔ o = none)
    : Leads holds (Database.beginTransaction (Store.engine l thread) db) (.ok ())
        ⟨d, k, some (entered n d o)⟩ (n + 1) := by
  obtain ⟨hholds, hdepth⟩ := h
  change Leads holds (Operation.onStore (Store.openTransaction l thread) db) _ _ _
  unfold Operation.onStore Store.openTransaction
  rw [hdepth]
  cases n with
  | zero =>
    cases hn.1 rfl
    obtain ⟨hresult, hopened⟩ := hl.openTransaction hholds
    rcases hopen : l.openTransaction db.store.connection with ⟨r, c⟩
    rw [hopen] at hresult hopened
    cases hresult
    exact ⟨rfl, hopened, rfl⟩
  | succ n =>
    cases o with
    | none => cases hn.2 rfl
    | some t =>
      have hanswers : Storage.Answers holds
          (l.savepoint (Store.savepointName (n + 1)) db.store.connection) (.ok ())
          ⟨d, k, some (entered (n + 1) d (some t))⟩ := hl.savepoint hholds
      obtain ⟨hresult, hopened⟩ := hanswers
      rcases hpoint : l.savepoint (Store.savepointName (n + 1)) db.store.connection with ⟨r, c⟩
      rw [hpoint] at hresult hopened
      cases hresult
      simp only [hpoint]
      exact ⟨rfl, hopened, rfl⟩

theorem closeInner (hl : Transactional l b holds) {c : κ}
    (h : holds c ⟨d, k, some ⟨first, ⟨name, point⟩ :: rest⟩⟩) (success : Bool)
    : Storage.Answers holds (Store.closeInner l success name c) (.ok ())
        ⟨if success then d else point, k, some ⟨first, rest⟩⟩ := by
  cases success with
  | true => exact hl.release h
  | false =>
    obtain ⟨hresult, hback⟩ := hl.rollbackTo h
    unfold Store.closeInner
    rcases hundone : l.rollbackTo name c with ⟨r, c'⟩
    rw [hundone] at hresult hback
    cases hresult
    exact hl.release hback

/-- Closing keeps the data after success, unless this is the outermost transaction and cannot be
committed. Otherwise it goes back to the data before. -/
theorem closeTransaction (hl : Transactional l b holds)
    (h : Stands holds db ⟨d, k, some (entered n before o)⟩ (n + 1)) (hn : n = 0 ↔ o = none)
    (success : Bool)
    : EndsAs holds (Operation.onStore (Store.closeTransaction l success) db)
        (if success then Program.conclude b o.isSome before (.ok (), d, k) else (.ok (), before, k))
        o n := by
  obtain ⟨hholds, hdepth⟩ := h
  unfold Operation.onStore Store.closeTransaction
  rw [hdepth]
  cases n with
  | zero =>
    cases hn.1 rfl
    cases success with
    | false =>
      obtain ⟨hresult, hundone⟩ := hl.rollback hholds
      exact ⟨congrArg Outcome.ofExcept hresult, hundone, rfl⟩
    | true =>
      obtain ⟨hresult, hdone⟩ := hl.commit hholds
      rcases hcommit : l.commit db.store.connection with ⟨r, c⟩
      rcases hkept : b.commit d k with ⟨r', k'⟩
      rw [hcommit, hkept] at hresult hdone
      cases hresult
      simp only [Store.closeOutermost, Program.conclude, hcommit, hkept]
      cases r with
      | ok => exact ⟨rfl, hdone, rfl⟩
      | error f =>
        -- The transaction is still open, since the commit failed.
        obtain ⟨_, hundone⟩ := hl.rollback hdone
        exact ⟨rfl, hundone, rfl⟩
  | succ n =>
    cases o with
    | none => cases hn.2 rfl
    | some t =>
      -- The savepoint is named after the depth from before it was set, which is the depth from now on.
      obtain ⟨hresult, hclosed⟩ := closeInner hl hholds success
      cases success with
      | true => exact ⟨congrArg Outcome.ofExcept hresult, hclosed, rfl⟩
      | false => exact ⟨congrArg Outcome.ofExcept hresult, hclosed, rfl⟩

theorem endTransaction (hl : Transactional l b holds)
    (h : Stands holds db ⟨d, k, some (entered n before o)⟩ (n + 1)) (hn : n = 0 ↔ o = none)
    (success : Bool)
    : EndsAs holds (Database.endTransaction (Store.engine l thread) success db)
        (if success then Program.conclude b o.isSome before (.ok (), d, k) else (.ok (), before, k))
        o n := by
  have hclosed := h.closeTransaction hl hn success
  rcases hended : (if success then Program.conclude b o.isSome before (.ok (), d, k)
    else (.ok (), before, k)) with ⟨_ | _ | _, d', k'⟩
  all_goals rw [hended] at hclosed
  . apply hclosed.bind
    intro db h
    exact h.publish thread
  . exact hclosed.bind_fault _
  . exact hclosed.bind_crash _

end Stands

end Database

end DataAccess
