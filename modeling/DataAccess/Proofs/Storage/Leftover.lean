import DataAccess.Proofs.Database.Bracketing
import DataAccess.Proofs.Storage.Confined

/-!
This module contains which tables are still noted when a call has returned and no transaction is open. A
call that succeeds hands all of them to the tracker, but a statement that fails leaves those behind that
it wrote before. Main statement: nothing is left behind all the time if and only if no statement does so.
-/

namespace DataAccess

open Operation (follow)
open Storage (Connection Link Meaning Store)

namespace Database

/-- What becomes of noted tables once no transaction is open: they are handed to the tracker, or they stay
noted and nobody hears of them. -/
structure Settles (thread : Nat) (handed : Bool) (noted : NameSet) (db left : Database (Store κ)) :
    Prop where
  tidy : left.store.Tidy thread
  depth : left.store.depth = 0
  modified : left.store.modified = if handed then [] else noted
  tracker : left.tracker = if handed then (db.notify noted).tracker else db.tracker

variable (l : Link κ stmt) {thread : Nat} {db : Database (Store κ)}

theorem tracker_notify_congr {db' : Database (Store κ)} (h : db'.tracker = db.tracker)
    (tables : List String) : (db'.notify tables).tracker = (db.notify tables).tracker := by
  unfold notify
  split
  . exact h
  . exact congrArg (Tracker.notify · tables) h

theorem settles_publish (db' : Database (Store κ)) (htracker : db'.tracker = db.tracker)
    (h : db'.store.Tidy thread) (hdepth : db'.store.depth = 0)
    : Settles thread true db'.store.modified db (publish (Store.engine l thread) db').2 := by
  have hout : db'.store.inTransaction thread = false := by
    rw [h.inTransaction_eq, hdepth]
    rfl
  have htake : db'.store.takeModified thread
      = (db'.store.modified, { db'.store with modified := [] }) := by
    unfold Store.takeModified
    rw [h.waits_eq_false]
    rfl
  have hpublish : (publish (Store.engine l thread) db').2
      = { db' with store.modified := [] }.notify db'.store.modified := by
    change (if db'.store.inTransaction thread then db' else
      { db' with store := (db'.store.takeModified thread).2 }.notify
        (db'.store.takeModified thread).1) = _
    rw [hout, htake]
    rfl
  rw [hpublish]
  have hstore : ({ db' with store.modified := [] }.notify db'.store.modified).store
      = { db'.store with modified := [] } := store_notify _ _
  constructor
  . rw [hstore]
    exact h.congr rfl rfl rfl
  . rw [hstore]
    exact hdepth
  . rw [hstore]
    rfl
  . apply tracker_notify_congr
    exact htracker

theorem settles_statement {step : Store κ → Except Fault α × Store κ} {r : Except Fault α} {c : κ}
    {touched : List String} (tables : List String) (htidy : db.store.Tidy thread)
    (hdepth : db.store.depth = 0)
    (hstep : step db.store
      = (r, { db.store with connection := c, modified := db.store.modified.insertAll touched }))
    : let left : Outcome α × Database (Store κ) :=
        (do
          let a ← Operation.onStore step
          wrote (Store.engine l thread) tables
          return a : Operation (Store κ) α) db
      let noted := db.store.modified.insertAll touched
      left.1 = .ofExcept r ∧
        Settles thread r.isOk (if r.isOk then noted.insertAll tables else noted) db left.2 := by
  intro left noted
  have htidy' : Store.Tidy thread { db.store with connection := c, modified := noted } :=
    htidy.congr rfl rfl rfl
  unfold left
  rw [statement_eq, hstep]
  cases r with
  | error f => exact ⟨rfl, htidy', hdepth, rfl, rfl⟩
  | ok a =>
    refine ⟨rfl, ?_⟩
    change Settles thread true (noted.insertAll tables) db (wrote (Store.engine l thread) tables _).2
    rw [wrote_eq l htidy' tables]
    apply settles_publish l { db with store := ⟨c, _, _, _, noted.insertAll tables⟩ }
    . rfl
    . exact htidy'.congr rfl rfl rfl
    . exact hdepth

theorem settles_endTransaction (thread : Nat) (success : Bool) (hdepth : db.store.depth = 1)
    : let closed := db.store.closeTransaction l success
      let left := endTransaction (Store.engine l thread) success db
      left.1 = .ofExcept closed.1 ∧
        Settles thread closed.1.isOk
          (if success && closed.1.isOk then db.store.modified.insertAll db.store.outside
            else db.store.outside) db left.2 := by
  intro closed left
  have hleft : left = follow (fun _ => publish (Store.engine l thread))
      (.ofExcept closed.1, { db with store := closed.2 }) := rfl
  obtain ⟨c, hstore⟩ : ∃ c, closed.2 = ⟨c, 0, none, [],
      if success && closed.1.isOk then db.store.modified.insertAll db.store.outside
      else db.store.outside⟩ := by
    obtain ⟨c, ⟨hdeep, _⟩ | ⟨_, hkept, h⟩ | ⟨_, hdropped, h⟩⟩ :=
      db.store.closeTransaction_cases l success
    . exact absurd hdepth hdeep
    . exact ⟨c, by rw [if_pos hkept]; exact h⟩
    . exact ⟨c, by rw [if_neg (by simp [closed, hdropped])]; exact h⟩
  have htidy' (tables : NameSet) : Store.Tidy thread ⟨c, 0, none, [], tables⟩ :=
    ⟨fun _ => ⟨rfl, rfl⟩, fun h => absurd h (Nat.lt_irrefl 0)⟩
  rw [hleft, hstore]
  cases closed.1 with
  | error f => exact ⟨rfl, htidy' _, rfl, rfl, rfl⟩
  | ok =>
    refine ⟨rfl, ?_⟩
    exact settles_publish l { db with store := ⟨c, 0, none, [], _⟩ } rfl (htidy' _) rfl

/-- What was noted before a transaction is handed to the tracker if it is closed, even if it failed. What is
noted in it is handed over if it is committed, and otherwise dropped. -/
theorem settles_runInTransaction (body : Routine stmt α) (htidy : db.store.Tidy thread)
    (hdepth : db.store.depth = 0)
    : let e := Store.engine l thread
      let before := db.store.modified
      let begun := db.store.openTransaction l thread
      let ended := body.run e { db with store := begun.2 }
      let closed := ended.2.store.closeTransaction l ended.1.succeeded
      let left := runInTransaction e (body.run e) db
      match begun.1 with
      | .error f => left.1 = .fault f ∧ Settles thread false before db left.2
      | .ok () =>
        left.1 = ended.1.returned (.ofExcept closed.1) ∧
          Settles thread closed.1.isOk
            (if ended.1.succeeded && closed.1.isOk then ended.2.store.modified.insertAll before
              else before) db left.2 := by
  intro e before begun ended closed left
  have hleft : left = _ := runInTransaction_eq e (body.run e) db
  have hbegin : beginTransaction e db = (.ofExcept begun.1, { db with store := begun.2 }) := rfl
  rw [hbegin] at hleft
  obtain ⟨r, c, hopened⟩ := db.store.openTransaction_free l hdepth thread
  have hfirst : begun.1 = r := congrArg Prod.fst hopened
  have hsecond : begun.2 = if r.isOk then ⟨c, 1, some thread, before, []⟩
      else { db.store with connection := c } := congrArg Prod.snd hopened
  rw [hfirst] at hleft ⊢
  cases r with
  | error f =>
    rw [hleft]
    refine ⟨rfl, ?_⟩
    change Settles thread false before db { db with store := begun.2 }
    rw [hsecond]
    exact ⟨htidy.congr rfl rfl rfl, hdepth, rfl, rfl⟩
  | ok =>
    have htidy' : begun.2.Tidy thread := by
      rw [hsecond]
      exact ⟨fun hzero => absurd hzero Nat.one_ne_zero, fun _ => rfl⟩
    have hone : begun.2.depth = 1 := by
      rw [hsecond]
      rfl
    have houtside : begun.2.outside = before := by
      rw [hsecond]
      rfl
    have hran := confined_run l body { db with store := begun.2 } htidy' (hone ▸ Nat.one_pos)
    have hclosed := settles_endTransaction l thread ended.1.succeeded (hran.depth.trans hone)
    rw [hran.outside, houtside] at hclosed
    obtain ⟨hanswer, htidied, hdepth', hmodified, htracker⟩ := hclosed
    rw [hleft]
    refine ⟨congrArg ended.1.returned hanswer, htidied, hdepth', hmodified, htracker.trans ?_⟩
    have hsame : ended.2.tracker = db.tracker := hran.tracker
    rw [tracker_notify_congr hsame, hsame]

/-- A call that is made by users of a database. -/
inductive UserCall (stmt : Type) : Type 1 where
  | execute (q : stmt) (tables : List String)
  | insert (q : stmt) (tables : List String)
  | begin
  | finish (success : Bool)
  | transaction {α : Type} (body : Routine stmt α)

namespace UserCall

def run (thread : Nat) (db : Database (Store κ)) : UserCall stmt → Database (Store κ)
  | execute q tables => (Database.execute (Store.engine l thread) q tables db).2
  | insert q tables => (Database.insert (Store.engine l thread) q tables db).2
  | begin => (beginTransaction (Store.engine l thread) db).2
  | finish success => (endTransaction (Store.engine l thread) success db).2
  | transaction body =>
    (runInTransaction (Store.engine l thread) (body.run (Store.engine l thread)) db).2

def runAll (thread : Nat) (calls : List (UserCall stmt)) (db : Database (Store κ)) : Database (Store κ) :=
  calls.foldl (run l thread) db

def Leaves (db : Database (Store κ)) : UserCall stmt → Prop
  | execute q _ | insert q _ =>
    db.store.depth = 0 ∧ (l.write q db.store.connection).1.isOk = false ∧
      (l.write q db.store.connection).2.1 ≠ []
  | begin | finish _ | transaction _ => False

/-- No statement fails outside of transactions after tables were reported as written. -/
def Unfailing (thread : Nat) : List (UserCall stmt) → Database (Store κ) → Prop
  | [], _ => True
  | call :: rest, db => ¬call.Leaves l db ∧ Unfailing thread rest (call.run l thread db)

end UserCall

structure Clean (thread : Nat) (db : Database (Store κ)) : Prop where
  tidy : db.store.Tidy thread
  outside : db.store.outside = []
  modified : db.store.depth = 0 → db.store.modified = []

namespace Clean

theorem new (connection : κ) (thread : Nat) : Clean thread (.new (.new connection)) where
  tidy := Store.tidy_new connection thread
  outside := rfl
  modified _ := rfl

theorem of_settles {handed : Bool} {noted : NameSet} {left : Database (Store κ)}
    (h : Settles thread handed noted db left) (hnoted : handed = false → noted = [])
    : Clean thread left where
  tidy := h.tidy
  outside := (h.tidy.free h.depth).2
  modified _ := by
    rw [h.modified]
    cases handed with
    | true => rfl
    | false => exact hnoted rfl

theorem of_keeps {left : Database (Store κ)} (h : Clean thread db) (hkeeps : db.Keeps left)
    (hdepth : 0 < db.store.depth) : Clean thread left where
  tidy := hkeeps.tidy h.tidy
  outside := hkeeps.outside.trans h.outside
  modified hzero := absurd (hkeeps.depth.symm.trans hzero) (Nat.ne_of_gt hdepth)

theorem begin (h : Clean thread db) : Clean thread (UserCall.run l thread db .begin) := by
  change Clean thread { db with store := (db.store.openTransaction l thread).2 }
  rcases Nat.eq_zero_or_pos db.store.depth with hdepth | hdepth
  . obtain ⟨r, c, hopened⟩ := db.store.openTransaction_free l hdepth thread
    rw [hopened]
    cases r with
    | error => exact ⟨h.tidy.congr rfl rfl rfl, h.outside, h.modified⟩
    | ok =>
      exact ⟨⟨fun hzero => absurd hzero Nat.one_ne_zero, fun _ => rfl⟩, h.modified hdepth,
        fun hzero => absurd hzero Nat.one_ne_zero⟩
  . obtain ⟨r, c, hopened⟩ := db.store.openTransaction_busy l hdepth thread
    rw [hopened]
    cases r with
    | error => exact ⟨h.tidy.congr rfl rfl rfl, h.outside, h.modified⟩
    | ok =>
      exact ⟨⟨fun hzero => absurd hzero (Nat.succ_ne_zero _), fun _ => h.tidy.busy hdepth⟩, h.outside,
        fun hzero => absurd hzero (Nat.succ_ne_zero _)⟩

theorem finish (h : Clean thread db) (success : Bool)
    : Clean thread (UserCall.run l thread db (.finish success)) := by
  rcases Nat.lt_trichotomy db.store.depth 1 with hdepth | hdepth | hdepth
  . have hrefused : db.store.closeTransaction l success
        = (.error (.engine "no transaction is open"), db.store) := by
      unfold Store.closeTransaction
      rw [Nat.lt_one_iff.1 hdepth]
    change Clean thread (follow _ (.ofExcept (db.store.closeTransaction l success).1,
      { db with store := (db.store.closeTransaction l success).2 })).2
    rw [hrefused]
    exact h
  . apply of_settles (settles_endTransaction l thread success hdepth).2
    intro hfailed
    rw [hfailed, Bool.and_false]
    exact h.outside
  . have hkeeps := endTransaction_deep l success h.tidy hdepth
    have hinner : 0 < db.store.depth - 1 := by omega
    apply of_keeps _ hkeeps hinner
    refine ⟨⟨fun hzero => absurd hzero (Nat.ne_of_gt hinner), fun _ => ?_⟩, h.outside,
      fun hzero => absurd hzero (Nat.ne_of_gt hinner)⟩
    exact h.tidy.busy (by omega)

theorem transaction (h : Clean thread db) (body : Routine stmt α)
    : Clean thread (UserCall.run l thread db (.transaction body)) := by
  rcases Nat.eq_zero_or_pos db.store.depth with hdepth | hdepth
  . have hsettles := settles_runInTransaction l body h.tidy hdepth
    dsimp only at hsettles
    split at hsettles
    . exact of_settles hsettles.2 fun _ => h.modified hdepth
    . apply of_settles hsettles.2
      intro hfailed
      rw [hfailed, Bool.and_false]
      exact h.modified hdepth
  . have hbody : (body.run (Store.engine l thread)).Confined thread := confined_run l body
    have hcall := (confined_guardedBy l (fun _ => .commit) hbody).attempt.map heard
    rw [← attempt_guarded] at hcall
    have hkeeps := hcall db h.tidy hdepth
    rw [Operation.attempt_eq] at hkeeps
    exact h.of_keeps hkeeps hdepth

/-- No call leaves a table behind but a statement that fails. -/
theorem run (h : Clean thread db) {call : UserCall stmt} (hleaves : ¬call.Leaves l db)
    : Clean thread (call.run l thread db) := by
  have statement {α : Type} {step : Store κ → Except Fault α × Store κ} {q : stmt}
      (tables : List String)
      (hstep : ∀ st, ∃ r, step st = (r, { st with
        connection := (l.write q st.connection).2.2
        modified := st.modified.insertAll (l.write q st.connection).2.1 }) ∧
        r.isOk = (l.write q st.connection).1.isOk)
      (hleaves : ¬(db.store.depth = 0 ∧ (l.write q db.store.connection).1.isOk = false ∧
        (l.write q db.store.connection).2.1 ≠ []))
      : Clean thread ((do
          let a ← Operation.onStore step
          wrote (Store.engine l thread) tables
          return a : Operation (Store κ) α) db).2 := by
    rcases Nat.eq_zero_or_pos db.store.depth with hdepth | hdepth
    . obtain ⟨r, hr, hok⟩ := hstep db.store
      apply of_settles (settles_statement l tables h.tidy hdepth hr).2
      intro hfailed
      have htouched : (l.write q db.store.connection).2.1 = [] := by
        apply Classical.byContradiction
        intro hne
        exact hleaves ⟨hdepth, hok ▸ hfailed, hne⟩
      rw [hfailed, htouched, h.modified hdepth]
      rfl
    . apply h.of_keeps (confined_statement l tables _ db h.tidy hdepth) hdepth
      intro st
      obtain ⟨r, hr, _⟩ := hstep st
      exact ⟨_, _, congrArg Prod.snd hr⟩
  cases call with
  | execute q tables => exact statement tables (fun st => ⟨_, rfl, rfl⟩) hleaves
  | insert q tables =>
    apply statement tables (fun st => ⟨_, rfl, ?_⟩) hleaves
    change ((l.write q st.connection).1.map _).isOk = _
    cases (l.write q st.connection).1 with
    | ok => rfl
    | error => rfl
  | begin => exact h.begin l
  | finish success => exact h.finish l success
  | transaction body => exact h.transaction l body

end Clean

/-- A statement that fails outside of transactions leaves the tables behind that were reported. -/
theorem leftover_of_leaves (h : Clean thread db) {call : UserCall stmt} (hleaves : call.Leaves l db)
    : (call.run l thread db).store.depth = 0 ∧ (call.run l thread db).store.modified ≠ [] := by
  have reported {handed : Bool} {noted tables : NameSet} {left : Database (Store κ)}
      (hsettles : Settles thread handed
        (if handed then noted else db.store.modified.insertAll tables) db left)
      (hfailed : handed = false) (hne : tables ≠ [])
      : left.store.depth = 0 ∧ left.store.modified ≠ [] := by
    refine ⟨hsettles.depth, ?_⟩
    rw [hsettles.modified, hfailed]
    obtain ⟨x, hx⟩ := List.exists_mem_of_ne_nil tables hne
    exact List.ne_nil_of_mem ((NameSet.mem_insertAll (x := x) tables _).2 (Or.inl hx))
  cases call with
  | execute q tables =>
    obtain ⟨hdepth, hfailed, hne⟩ := hleaves
    exact reported (settles_statement l tables h.tidy hdepth rfl).2 hfailed hne
  | insert q tables =>
    obtain ⟨hdepth, hfailed, hne⟩ := hleaves
    apply reported (settles_statement l tables h.tidy hdepth rfl).2 ?_ hne
    change ((l.write q db.store.connection).1.map _).isOk = false
    cases hr : (l.write q db.store.connection).1 with
    | ok =>
      rw [hr] at hfailed
      cases hfailed
    | error => rfl
  | begin | finish _ | transaction _ => exact hleaves.elim

theorem nothing_left_iff_unfailing (h : Clean thread db) (calls : List (UserCall stmt))
    : (∀ before, before <+: calls →
          (UserCall.runAll l thread before db).store.depth = 0 →
            (UserCall.runAll l thread before db).store.modified = [])
        ↔
      UserCall.Unfailing l thread calls db := by
  induction calls generalizing db with
  | nil =>
    refine ⟨fun _ => trivial, fun _ before hbefore => ?_⟩
    rw [List.prefix_nil.1 hbefore]
    exact h.modified
  | cons call rest ih =>
    constructor
    . intro hempty
      have hkept : ¬call.Leaves l db := by
        intro hleaves
        have hleft := leftover_of_leaves l h hleaves
        exact hleft.2 (hempty [call] (List.cons_prefix_cons.2 ⟨rfl, List.nil_prefix⟩) hleft.1)
      refine ⟨hkept, ?_⟩
      apply (ih (h.run l hkept)).1
      intro before hbefore
      exact hempty (call :: before) (List.cons_prefix_cons.2 ⟨rfl, hbefore⟩)
    . rintro ⟨hkept, hrest⟩ before hbefore
      cases before with
      | nil => exact h.modified
      | cons first before =>
        obtain ⟨rfl, hprefix⟩ := List.cons_prefix_cons.1 hbefore
        exact (ih (h.run l hkept)).2 hrest before hprefix

/-- A call that leaves no transaction open and succeeds hands all tables to the tracker that are noted by
then. A statement that fails hands nothing over, and the tables stay noted that were reported before it
failed. A transaction that cannot be closed hands nothing over either, but then only those tables are noted
that were noted before it. So nothing is ever left behind if and only if no statement fails outside of
transactions after tables were reported. -/
theorem handed_unless_failed (l : Link κ stmt) (thread : Nat)
    : let e := Store.engine l thread
      (∀ db : Database (Store κ), db.store.Tidy thread → db.store.depth = 0 →
        (∀ q tables,
          let r := l.write q db.store.connection
          let reported := db.store.modified.insertAll r.2.1
          let noted := if r.1.isOk then reported.insertAll tables else reported
          (execute e q tables db).1 = .ofExcept r.1 ∧
            Settles thread r.1.isOk noted db (execute e q tables db).2 ∧
            (insert e q tables db).1
              = .ofExcept (r.1.map fun changed => if changed = 0 then -1 else l.lastId r.2.2) ∧
            Settles thread r.1.isOk noted db (insert e q tables db).2) ∧
        ∀ {α : Type} (body : Routine stmt α),
          let before := db.store.modified
          let begun := db.store.openTransaction l thread
          let ended := body.run e { db with store := begun.2 }
          let closed := ended.2.store.closeTransaction l ended.1.succeeded
          let left := runInTransaction e (body.run e) db
          match begun.1 with
          | .error f => left.1 = .fault f ∧ Settles thread false before db left.2
          | .ok () =>
            left.1 = ended.1.returned (.ofExcept closed.1) ∧
              Settles thread closed.1.isOk
                (if ended.1.succeeded && closed.1.isOk then ended.2.store.modified.insertAll before
                  else before) db left.2) ∧
      (∀ (db : Database (Store κ)) success, db.store.depth = 1 →
        let closed := db.store.closeTransaction l success
        (endTransaction e success db).1 = .ofExcept closed.1 ∧
          Settles thread closed.1.isOk
            (if success && closed.1.isOk then db.store.modified.insertAll db.store.outside
              else db.store.outside) db (endTransaction e success db).2) ∧
      ∀ (connection : κ) (calls : List (UserCall stmt)),
        (∀ before, before <+: calls →
            let db := UserCall.runAll l thread before (.new (.new connection))
            db.store.depth = 0 → db.store.modified = [])
          ↔
        UserCall.Unfailing l thread calls (.new (.new connection)) := by
  intro e
  refine ⟨fun db htidy hdepth => ⟨fun q tables => ?_, fun body => ?_⟩, fun db success hdepth => ?_,
    fun connection calls => ?_⟩
  . intro r reported noted
    have hexecuted := settles_statement l tables htidy hdepth (Eq.refl (db.store.execute l q))
    have hinserted := settles_statement l tables htidy hdepth (Eq.refl (db.store.insert l q))
    refine ⟨hexecuted.1, hexecuted.2, hinserted.1, ?_⟩
    have hok : (r.1.map fun changed => if changed = 0 then -1 else l.lastId r.2.2).isOk = r.1.isOk := by
      cases r.1 with
      | ok => rfl
      | error => rfl
    have hsettles := hinserted.2
    change Settles thread (r.1.map _).isOk (if (r.1.map _).isOk then _ else _) db _ at hsettles
    rw [hok] at hsettles
    exact hsettles
  . exact settles_runInTransaction l body htidy hdepth
  . exact settles_endTransaction l thread success hdepth
  . exact nothing_left_iff_unfailing l (Clean.new connection thread) calls

/-- Inserts keys in turn until one of them is taken. Those before it stay. -/
def insertUntilTaken : List Nat → List Nat → Bool × List Nat
  | [], keys => (true, keys)
  | key :: rest, keys =>
    if key ∈ keys then (false, keys) else insertUntilTaken rest (keys ++ [key])

def insertOrFail : Meaning (List Nat) (List Nat) where
  write wanted keys :=
    let (done, after) := insertUntilTaken wanted keys
    { result :=
        if done then .ok wanted.length
        else .error (.uniqueConstraint "UNIQUE constraint failed: users.id")
      data := after
      touched := if after.length = keys.length then [] else ["users"]
      newId := none
      undoesTransaction := false }
  read _ keys := .ok (["id"], keys.map fun key => [.integer (Int64.ofNat key)])
  check _ := .ok ()

theorem handed_unless_failed_insertOrFail
    : let l := Connection.link insertOrFail
      let e := Store.engine l 0
      let db := Database.new (Store.new (Connection.new [2]))
      db.store.Tidy 0 ∧ db.store.depth = 0 ∧
        (execute e [1, 2] [] db).2.store.modified = ["users"] ∧
        ∀ before, before <+: [UserCall.begin, .execute [1] [], .finish true] →
          let db := UserCall.runAll l 0 before db
          db.store.depth = 0 → db.store.modified = [] := by
  intro l e db
  have htidy : db.store.Tidy 0 := Store.tidy_new _ 0
  obtain ⟨hcalls, _, hruns⟩ := handed_unless_failed l 0
  obtain ⟨hstatement, _⟩ := hcalls db htidy rfl
  obtain ⟨_, hsettles, _⟩ := hstatement [1, 2] []
  refine ⟨htidy, rfl, hsettles.modified, ?_⟩
  apply (hruns (Connection.new [2]) _).2
  refine ⟨fun h => h, ?_, fun h => h, trivial⟩
  rintro ⟨hdepth, _⟩
  cases hdepth

/-- A statement fails after it inserted a key that stays, and the observer of the table is told nothing. -/
theorem unheard_insertOrFail
    : let e := Store.engine (Connection.link insertOrFail) 0
      let db : Database (Store (Connection (List Nat))) :=
        { Database.new (Store.new (Connection.new [2])) with
          tracker := Tracker.new.observe (.named "list") ["users"] }
      let left := execute e [1, 2] ["users"] db
      left.1 = .fault (.uniqueConstraint "UNIQUE constraint failed: users.id") ∧
        left.2.store.depth = 0 ∧ left.2.store.connection.data = [2, 1] ∧
        left.2.store.modified = ["users"] ∧ (left.2.tracker.drain (.named "list")).1 = false ∧
        ((execute e [3] ["users"] left.2).2.tracker.drain (.named "list")).1 = true := by
  intro e db left
  refine ⟨rfl, rfl, rfl, rfl, ?_, ?_⟩
  . decide +kernel
  . decide +kernel

end Database

end DataAccess
