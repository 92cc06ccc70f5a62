import DataAccess.Proofs.Storage.Nesting
import DataAccess.Storage.Table

/-!
This module shows that transactions are all or nothing: what a program does to the data is what it does
if every transaction starts from a copy of the data and puts it back unless its body succeeds.
-/

namespace DataAccess

open Storage (Behaviour Holding Link Meaning Store Transactional)

namespace Database

variable {l : Link κ stmt} {b : Behaviour δ η stmt} {holds : κ → Holding δ η → Prop}

theorem Stands.runInTransaction {db : Database (Store κ)} (thread : Nat)
    (hl : Transactional l b holds) (h : Stands holds db ⟨d, k, o⟩ n) (hn : n = 0 ↔ o = none)
    {body : Operation (Store κ) α} {ended : Outcome α × δ × η}
    (hbody : ∀ db t, Stands holds db ⟨d, k, some t⟩ (n + 1) →
      EndsAs holds (body db) ended (some t) (n + 1))
    : EndsAs holds (Database.runInTransaction (Store.engine l thread) body db)
        (Program.conclude b o.isSome d ended) o n := by
  apply (h.beginTransaction thread hl hn).bind
  intro db hbegun
  have hended := hbody db _ hbegun
  unfold within
  rcases hrun : body db with ⟨outcome, db'⟩
  rw [hrun] at hended
  rcases ended with ⟨a | f | _, d', k'⟩
  . obtain ⟨houtcome, hstands⟩ := hended
    cases houtcome
    have hclosed := hstands.endTransaction thread hl hn true
    simp only [if_true, Program.conclude] at hclosed ⊢
    split
    . next hinside =>
      rw [if_pos hinside] at hclosed
      exact Leads.bind hclosed fun db h => ⟨rfl, h⟩
    . next hinside =>
      rw [if_neg hinside] at hclosed
      split
      . next hcommit =>
        rw [hcommit] at hclosed
        exact Leads.bind hclosed fun db h => ⟨rfl, h⟩
      . next hcommit =>
        rw [hcommit] at hclosed
        exact Leads.bind_fault _ hclosed
  . obtain ⟨houtcome, hstands⟩ := hended
    cases houtcome
    exact ⟨rfl, (hstands.endTransaction thread hl hn false).2⟩
  . obtain ⟨houtcome, hstands⟩ := hended
    cases houtcome
    exact ⟨rfl, (hstands.endTransaction thread hl hn false).2⟩

/-- A program that starts outside of a transaction or inside of one leaves behind what is intended, and
as many transactions and savepoints as there were. -/
theorem Stands.run (thread : Nat) (hl : Transactional l b holds) (p : Program stmt α)
    {db : Database (Store κ)} (h : Stands holds db ⟨d, k, o⟩ n) (hn : n = 0 ↔ o = none)
    : EndsAs holds (p.run (Store.engine l thread) db) (p.intended b o.isSome d k) o n := by
  induction p generalizing db d k o n with
  | done a => exact ⟨rfl, h⟩
  | fail f => exact ⟨rfl, h⟩
  | panic => exact ⟨rfl, h⟩
  | write q tables next ih =>
    exact (h.execute thread hl q tables).attempt.bind fun db h => ih _ h hn
  | insert q tables next ih =>
    exact (h.insert thread hl q tables).attempt.bind fun db h => ih _ h hn
  | call body next ihbody ihnext =>
    have hcall : EndsAs holds
        (Database.runInTransaction (Store.engine l thread) (body.run (Store.engine l thread)) db)
        (Program.conclude b o.isSome d (body.intended b true d k)) o n :=
      -- The body starts inside of a transaction, wherever the call is made.
      h.runInTransaction thread hl hn fun db t h => ihbody h (by simp)
    unfold Program.intended
    rcases hended : Program.conclude b o.isSome d (body.intended b true d k) with ⟨a | f | _, d', k'⟩
    . rw [hended] at hcall
      exact Leads.bind (Leads.attempt (r := .ok a) hcall) fun db h => ihnext _ h hn
    . rw [hended] at hcall
      exact Leads.bind (Leads.attempt (r := .error f) hcall) fun db h => ihnext _ h hn
    . rw [hended] at hcall
      exact Leads.bind_crash _ (Leads.attempt_crash hcall)

theorem Stands.call (thread : Nat) (hl : Transactional l b holds) (body : Program stmt α)
    {db : Database (Store κ)} (h : Stands holds db ⟨d, k, o⟩ n) (hn : n = 0 ↔ o = none)
    : EndsAs holds
        (Database.runInTransaction (Store.engine l thread) (body.run (Store.engine l thread)) db)
        (Program.conclude b o.isSome d (body.intended b true d k)) o n := by
  apply h.runInTransaction thread hl hn
  intro db t h
  exact h.run thread hl body (by simp)

/-- The databases that come up while programs run: before each statement and each transaction, and after
a transaction, however it ended. -/
inductive Reached (thread : Nat) (l : Link κ stmt) (holds : κ → Holding δ η → Prop) :
    Database (Store κ) → Prop where
  | fresh (hdepth : db.store.depth = 0) (hholds : holds db.store.connection ⟨d, k, none⟩) :
    Reached thread l holds db
  | execute (h : Reached thread l holds db) (q : stmt) (tables : List String) :
    Reached thread l holds (Database.execute (Store.engine l thread) q tables db).2
  | insert (h : Reached thread l holds db) (q : stmt) (tables : List String) :
    Reached thread l holds (Database.insert (Store.engine l thread) q tables db).2
  | begin (h : Reached thread l holds db) :
    Reached thread l holds (Database.beginTransaction (Store.engine l thread) db).2
  | call (h : Reached thread l holds db) {α : Type} (body : Program stmt α) :
    Reached thread l holds
      (runInTransaction (Store.engine l thread) (body.run (Store.engine l thread)) db).2

theorem Reached.stands {db : Database (Store κ)} (hl : Transactional l b holds)
    (h : Reached thread l holds db)
    : ∃ d k o n, Stands holds db ⟨d, k, o⟩ n ∧ (n = 0 ↔ o = none) := by
  induction h with
  | fresh hdepth hholds => exact ⟨_, _, none, 0, ⟨hholds, hdepth⟩, by simp⟩
  | execute _ q tables ih =>
    obtain ⟨d, k, o, n, hstands, hn⟩ := ih
    exact ⟨_, _, o, n, (hstands.execute thread hl q tables).2, hn⟩
  | insert _ q tables ih =>
    obtain ⟨d, k, o, n, hstands, hn⟩ := ih
    exact ⟨_, _, o, n, (hstands.insert thread hl q tables).2, hn⟩
  | begin _ ih =>
    obtain ⟨d, k, o, n, hstands, hn⟩ := ih
    exact ⟨_, _, _, n + 1, (hstands.beginTransaction thread hl hn).2, by simp⟩
  | call _ body ih =>
    obtain ⟨d, k, o, n, hstands, hn⟩ := ih
    exact ⟨_, _, o, n, (hstands.call thread hl body hn).2, hn⟩

/-- At any time, a transaction and every other program come to what is intended and leave the data that
are intended, and neither changes the number of open transactions or what can be gone back to. If the
outermost transaction cannot be committed, it answers why, and the data are as they were before it. -/
theorem all_or_nothing (hl : Transactional l b holds) (thread : Nat) {db : Database (Store κ)}
    (h : Reached thread l holds db)
    : ∃ d k o,
        holds db.store.connection ⟨d, k, o⟩ ∧
        (db.store.depth = 0 ↔ o = none) ∧
        (∀ {α : Type} (p : Program stmt α),
          EndsAs holds (p.run (Store.engine l thread) db) (p.intended b o.isSome d k) o
            db.store.depth) ∧
        (∀ {α : Type} (body : Program stmt α),
          EndsAs holds
            (runInTransaction (Store.engine l thread) (body.run (Store.engine l thread)) db)
            (Program.conclude b o.isSome d (body.intended b true d k)) o db.store.depth) ∧
        ∀ {α : Type} (body : Program stmt α) (a : α) (d' : δ) (k' k'' : η) (f : Fault),
          o = none →
          body.intended b true d k = (.ok a, d', k') →
          b.commit d' k' = (.error f, k'') →
          EndsAs holds
            (runInTransaction (Store.engine l thread) (body.run (Store.engine l thread)) db)
            (.fault f, d, k'') none 0 := by
  obtain ⟨d, k, o, n, hstands, hn⟩ := h.stands hl
  cases hstands.depth
  refine ⟨d, k, o, hstands.holds, hn, ?_, ?_, ?_⟩
  . intro α p
    exact hstands.run thread hl p hn
  . intro α body
    exact hstands.call thread hl body hn
  . intro α body a d' k' k'' f ho hbody hcommit
    subst ho
    have hended := hstands.call thread hl body hn
    simp only [hbody, Program.conclude, hcommit, hn.2 rfl] at hended
    exact hended

end Database

namespace Storage

def Command.isContained : Command → Bool
  | .put _ _ _ policy | .set _ _ _ policy => policy != .rollback
  | _ => true

namespace Tables

variable {d : Tables} {policy : ConflictPolicy}

def contained : Meaning Tables { q : Command // q.isContained } where
  write q d := d.write q.1
  read q d := d.read q.1
  check := check

theorem settle_undoesOnlyItself (hpolicy : policy ≠ .rollback) (found : Option Fault)
    (written : Effect Tables) (hwritten : written.UndoesOnlyItself d)
    : (d.settle policy found written).UndoesOnlyItself d := by
  unfold settle
  split
  . exact hwritten
  . exact hwritten
  . exact fun _ _ => ⟨rfl, rfl⟩
  . exact absurd rfl hpolicy
  . exact fun _ _ => ⟨rfl, rfl⟩
  . exact fun _ _ => ⟨rfl, rfl⟩

theorem putAt_undoesOnlyItself (hpolicy : policy ≠ .rollback) (table : Table) (id : Int64)
    (v : Value) : (d.putAt table id v policy).UndoesOnlyItself d := by
  apply settle_undoesOnlyItself hpolicy
  intro f hf
  cases hf

theorem contained_undoesOnlyItself : contained.UndoesOnlyItself := by
  rintro ⟨q, hq⟩ d
  cases q with
  | put table id v policy =>
    have hpolicy : policy ≠ .rollback := by simpa [Command.isContained] using hq
    change (d.put table id v policy).UndoesOnlyItself d
    unfold put
    split
    . exact putAt_undoesOnlyItself hpolicy table _ v
    . split
      . exact fun _ _ => ⟨rfl, rfl⟩
      . exact putAt_undoesOnlyItself hpolicy table _ v
  | set table id v policy =>
    have hpolicy : policy ≠ .rollback := by simpa [Command.isContained] using hq
    change (d.update table id v policy).UndoesOnlyItself d
    unfold update
    dsimp only
    split
    . exact fun _ _ => ⟨rfl, rfl⟩
    . apply settle_undoesOnlyItself hpolicy
      intro f hf
      cases hf
  | delete table slots ids =>
    change (if slots = ids.length then d.delete table ids else _).UndoesOnlyItself d
    split
    . intro f hf
      cases hf
    . exact fun _ _ => ⟨rfl, rfl⟩
  | clear table =>
    intro f hf
    cases hf
  | rows table =>
    intro f hf
    cases hf
  | text v =>
    intro f hf
    cases hf
  | missing name => exact fun _ _ => ⟨rfl, rfl⟩

end Tables

end Storage

namespace Database

def putUsers (last : Program { q : Storage.Command // q.isContained } Unit)
    : Program { q : Storage.Command // q.isContained } Unit :=
  let put (id : Int64) : { q : Storage.Command // q.isContained } :=
    ⟨.put .users (.integer id) .null .abort, rfl⟩
  .write (put 1) [] fun _ =>
    .call (.write (put 2) [] fun _ => (.fail .cancelled : Program _ Unit)) fun _ =>
      .write (put 3) [] fun _ => last

def linkToNothing : Program { q : Storage.Command // q.isContained } Unit :=
  .write ⟨.put .links (.integer 1) (.integer 7) .abort, rfl⟩ [] fun _ => .done ()

theorem all_or_nothing_putUsers
    : let l := Storage.Connection.link Storage.Tables.contained
      let e := Store.engine l 0
      let db := Database.new (Store.new (Storage.Connection.new Storage.Tables.empty))
      let kept := runInTransaction e ((putUsers (.done ())).run e) db
      let undone := runInTransaction e ((putUsers linkToNothing).run e) db
      Transactional l
        (Storage.Connection.behaviour Storage.Tables.contained
          Storage.Tables.contained_undoesOnlyItself) Storage.Connection.Holds ∧
      Reached 0 l Storage.Connection.Holds db ∧
      (kept.1 = .ok () ∧ kept.2.store.connection.data.users.map Storage.Row.id = [1, 3]) ∧
      undone.1 = .fault (.engine "FOREIGN KEY constraint failed") ∧
        undone.2.store.connection.data = Storage.Tables.empty ∧
        undone.2.store.connection.transaction.isNone ∧ undone.2.store.depth = 0 := by
  intro l e db kept undone
  let b := Storage.Connection.behaviour Storage.Tables.contained
    Storage.Tables.contained_undoesOnlyItself
  have hl : Transactional l b Storage.Connection.Holds :=
    Storage.Connection.transactional Storage.Tables.contained_undoesOnlyItself
  have hdb : Reached 0 l Storage.Connection.Holds db :=
    .fresh rfl (Storage.Connection.Holds.of_none Storage.Tables.empty 0)
  obtain ⟨d, k, o, hholds, _, _, hcall, hfailed⟩ := all_or_nothing hl 0 hdb
  obtain rfl : d = Storage.Tables.empty := congrArg Holding.data hholds.holding
  obtain rfl : k = 0 := congrArg Holding.kept hholds.holding
  obtain rfl : o = none := congrArg Holding.opened hholds.holding
  refine ⟨hl, hdb, ?_, ?_⟩
  . have hintended : Program.conclude b false Storage.Tables.empty
        ((putUsers (.done ())).intended b true Storage.Tables.empty 0)
          = (.ok (), ⟨[⟨1, .null⟩, ⟨3, .null⟩], [], [], []⟩, 3) := rfl
    have hkept : EndsAs Storage.Connection.Holds kept
        (Program.conclude b false Storage.Tables.empty
          ((putUsers (.done ())).intended b true Storage.Tables.empty 0)) none 0 :=
      hcall (putUsers (.done ()))
    rw [hintended] at hkept
    refine ⟨hkept.1, ?_⟩
    rw [hkept.2.holds.none]
    rfl
  . have hintended : (putUsers linkToNothing).intended b true Storage.Tables.empty 0
        = (.ok (), ⟨[⟨1, .null⟩, ⟨3, .null⟩], [], [], [⟨1, .integer 7⟩]⟩, 1) := rfl
    have hundone : EndsAs Storage.Connection.Holds undone _ none 0 :=
      hfailed (putUsers linkToNothing) () _ _ _ _ rfl hintended rfl
    refine ⟨hundone.1, ?_⟩
    rw [hundone.2.holds.none]
    exact ⟨rfl, rfl, hundone.2.depth⟩

end Database

end DataAccess
