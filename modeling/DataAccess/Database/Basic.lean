import DataAccess.Engine.Basic
import DataAccess.Invalidation
import DataAccess.Statement.Lease

/-!
This module contains databases and the operations on them. A database puts an engine's state together
with the observers of its tables. Tables that are written outside of a transaction are published right
after the statement, those written inside of one when the outermost transaction closes. Main statement:
operations obey the monad laws, so they can be regrouped.
-/

namespace DataAccess

inductive Outcome (α : Type) where
  | ok (a : α)
  | fault (f : Fault)
  /-- The operation crashed. No operation around it goes on, but transactions are still closed. -/
  | crash
deriving Repr

def Outcome.ofExcept : Except Fault α → Outcome α
  | .ok a => ok a
  | .error f => fault f

structure Database (σ : Type) where
  store : σ
  statements : List SharedStatement
  tracker : Tracker
  cancellation : Cancellation

def Operation (σ α : Type) :=
  Database σ → Outcome α × Database σ

namespace Operation

def run (op : Operation σ α) (db : Database σ) : Outcome α × Database σ :=
  op db

def follow (f : α → Operation σ β) : Outcome α × Database σ → Outcome β × Database σ
  | (.ok a, db) => f a db
  | (.fault e, db) => (.fault e, db)
  | (.crash, db) => (.crash, db)

instance : Monad (Operation σ) where
  pure a := fun db => (.ok a, db)
  bind op f := fun db => follow f (op db)

instance : LawfulMonad (Operation σ) :=
  LawfulMonad.mk' (Operation σ)
    (fun op => funext fun db => by
      change follow _ (op db) = op db
      rcases op db with ⟨_ | _ | _, _⟩ <;> rfl)
    (fun _ _ => rfl)
    (fun op f g => funext fun db => by
      change follow g (follow f (op db)) = follow (fun a => f a >>= g) (op db)
      rcases op db with ⟨_ | _ | _, _⟩ <;> rfl)

instance : Inhabited (Operation σ α) := ⟨fun db => (.crash, db)⟩

def fail (f : Fault) : Operation σ α :=
  fun db => (.fault f, db)

def crash : Operation σ α :=
  fun db => (.crash, db)

def ofExcept (r : Except Fault α) : Operation σ α :=
  fun db => (.ofExcept r, db)

/-- Does an operation and goes on whether it failed or not. A crash is not held up. -/
def attempt (op : Operation σ α) : Operation σ (Except Fault α) :=
  fun db =>
    match op db with
    | (.ok a, db) => (.ok (.ok a), db)
    | (.fault f, db) => (.ok (.error f), db)
    | (.crash, db) => (.crash, db)

def asks (f : Database σ → α) : Operation σ α :=
  fun db => (.ok (f db), db)

def modifyGet (f : Database σ → α × Database σ) : Operation σ α :=
  fun db => let (a, db) := f db; (.ok a, db)

def modify (f : Database σ → Database σ) : Operation σ Unit :=
  fun db => (.ok (), f db)

def onStore (f : σ → Except Fault α × σ) : Operation σ α :=
  fun db => let (r, store) := f db.store; (.ofExcept r, { db with store })

end Operation

namespace Database

def new (store : σ) : Database σ :=
  ⟨store, [], .new, .empty⟩

def notify (tables : List String) (db : Database σ) : Database σ :=
  if tables.isEmpty then db else { db with tracker := db.tracker.notify tables }

@[simp]
theorem store_notify (tables : List String) (db : Database σ) :
    (db.notify tables).store = db.store := by
  unfold notify
  split
  . rfl
  . rfl

@[simp]
theorem statements_notify (tables : List String) (db : Database σ)
    : (db.notify tables).statements = db.statements := by
  unfold notify
  split
  . rfl
  . rfl

def setSignal (signal : Nat) : Operation σ Unit :=
  .modify fun db => { db with cancellation := db.cancellation.setSignal signal }

def checkSignal (signal : Nat) : Operation σ Unit :=
  fun db => (.ofExcept (db.cancellation.check signal), db)

def cancelHandle (name : String) : Operation σ Unit :=
  .modify fun db => { db with cancellation := db.cancellation.run [.handle (.name name)] }

variable (e : Engine σ stmt)

def publish : Operation σ Unit :=
  .modify fun db =>
    if e.inTransaction db.store then db
    else let (tables, store) := e.takeModified db.store; { db with store }.notify tables

def wrote (tables : List String) : Operation σ Unit := do
  if !tables.isEmpty then
    .modify fun db => { db with store := e.recordModified tables db.store }
  publish e

theorem publish_eq (db : Database σ)
    : publish e db
        = (.ok (),
            if e.inTransaction db.store then db
            else { db with store := (e.takeModified db.store).2 }.notify (e.takeModified db.store).1) := rfl

theorem wrote_eq_publish (tables : List String) (db : Database σ)
    : wrote e tables db
        = publish e
            (if tables.isEmpty then db else { db with store := e.recordModified tables db.store }) := by
  unfold wrote
  cases tables.isEmpty with
  | true | false => rfl

theorem fst_wrote (tables : List String) (db : Database σ) : (wrote e tables db).1 = .ok () := by
  rw [wrote_eq_publish]
  rfl

/-- A statement that fails publishes nothing, and publishing never fails. -/
theorem statement_eq (step : σ → Except Fault α × σ) (tables : List String) (db : Database σ)
    : (do
          let a ← .onStore step
          wrote e tables
          return a : Operation σ α) db
        =
      let (r, store) := step db.store
      (.ofExcept r, if r.isOk then (wrote e tables { db with store }).2 else { db with store }) := by
  change Operation.follow _ (Outcome.ofExcept (step db.store).1, { db with store := (step db.store).2 }) = _
  rcases step db.store with ⟨_ | a, store⟩
  . rfl
  . have hwrote : wrote e tables { db with store } = (.ok (), (wrote e tables { db with store }).2) :=
      Prod.ext (fst_wrote e tables _) rfl
    change Operation.follow (fun _ => pure a) (wrote e tables { db with store }) = _
    rw [hwrote]
    rfl

section

variable {e} {P : Database σ → Prop}
  (htake : ∀ db, P db → P { db with store := (e.takeModified db.store).2 })
  (hnotify : ∀ tables db, P db → P (db.notify tables))

include htake hnotify

theorem publish_induction (h : P db) : P (publish e db).2 := by
  rw [publish_eq]
  dsimp only
  split
  . exact h
  . exact hnotify _ _ (htake db h)

theorem wrote_induction {tables : List String}
    (hnote : ∀ db, P db → P { db with store := e.recordModified tables db.store }) (h : P db)
    : P (wrote e tables db).2 := by
  rw [wrote_eq_publish]
  apply publish_induction htake hnotify
  split
  . exact h
  . exact hnote db h

end

/-- Runs a statement that writes tables, besides those that the engine finds out by itself, and tells
how many rows it changed. -/
def execute (s : stmt) (tables : List String) : Operation σ Nat := do
  let changed ← .onStore (e.execute s)
  wrote e tables
  return changed

def insert (s : stmt) (tables : List String) : Operation σ Int64 := do
  let id ← .onStore (e.insert s)
  wrote e tables
  return id

def query (s : stmt) (signal : Option Nat) : Operation σ Cursor := do
  signal.forM checkSignal
  fun db => (Operation.onStore (e.query s signal db.cancellation)).run db

def beginTransaction : Operation σ Unit :=
  .onStore e.openTransaction

def endTransaction (success : Bool) : Operation σ Unit := do
  .onStore (e.closeTransaction success)
  publish e

/-- Publishing waits for a transaction that could be closed. -/
theorem endTransaction_eq (success : Bool) (db : Database σ)
    : endTransaction e success db
        =
      let (r, store) := e.closeTransaction success db.store
      (.ofExcept r, if r.isOk then (publish e { db with store }).2 else { db with store }) := by
  change Operation.follow _ (Outcome.ofExcept (e.closeTransaction success db.store).1,
    { db with store := (e.closeTransaction success db.store).2 }) = _
  rcases e.closeTransaction success db.store with ⟨_ | _, store⟩
  . rfl
  . rfl

def inTransaction : Operation σ Bool :=
  .asks fun db => e.inTransaction db.store

end Database

end DataAccess
