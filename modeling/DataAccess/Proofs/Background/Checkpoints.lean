import DataAccess.Background.Basic
import DataAccess.Proofs.Database.Signals

/-!
This module contains callables, which do one thing after another in the background. Between any two of them
other things happen, and a signal may be set. Main statement: a callable that runs a statement with a signal
that is set, or goes on with a cursor that listens to it, is refused and changes nothing.
-/

namespace DataAccess

/-- What is done with a database in the background. It is told what each thing came to before it goes on. -/
inductive Callable (σ stmt α : Type) where
  | ends (o : Outcome α)
  | query (s : stmt) (signal : Option Nat) (goOn : Except Fault Cursor → Callable σ stmt α)
  | next (c : Cursor) (goOn : Except Fault Bool → Cursor → Callable σ stmt α)
  | does (act : Database σ → Database σ) (hkeeps : Database.KeepsSignals act)
    (goOn : Database σ → Callable σ stmt α)

inductive Checkpoint (σ stmt : Type) where
  | queried (s : stmt) (signal : Option Nat) (db : Database σ) (answer : Except Fault Cursor)
    (after : Database σ)
  | stepped (c : Cursor) (answer : Except Fault Bool) (after : Cursor)
  | acted

namespace Checkpoint

def Minds (signal : Nat) : Checkpoint σ stmt → Prop
  | queried _ listensTo _ _ _ => listensTo = some signal
  | stepped c _ _ => c.closed = false ∧ c.signal = some signal
  | acted => False

def Refused : Checkpoint σ stmt → Prop
  | queried _ _ db answer after => answer = .error .cancelled ∧ after = db
  | stepped c answer after => answer = .error .cancelled ∧ after = c
  | acted => False

end Checkpoint

namespace Callable

def run (e : Engine σ stmt) : Callable σ stmt α → Database σ → Outcome α × Database σ
  | ends o, db => (o, db)
  | query s signal goOn, db =>
    let (answer, db) := (Database.query e s signal).run db
    run e (goOn answer.result) db
  | next c goOn, db =>
    let (answer, c) := c.next db.cancellation
    run e (goOn answer c) db
  | does act _ goOn, db => run e (goOn db) (act db)

def whole (op : Operation σ α) (hkeeps : Database.KeepsSignals fun db => (op db).2) :
    Callable σ stmt α :=
  .does (fun db => (op db).2) hkeeps fun db => .ends (op db).1

theorem run_whole (op : Operation σ α) (hkeeps : Database.KeepsSignals fun db => (op db).2)
    : (whole op hkeeps).run e = op :=
  rfl

/-- A callable does the next thing and goes on. -/
inductive Does (e : Engine σ stmt) :
    Callable σ stmt α → Database σ → Checkpoint σ stmt → Callable σ stmt α → Database σ → Prop where
  | query {s : stmt} {signal : Option Nat} {goOn : Except Fault Cursor → Callable σ stmt α}
    {db after : Database σ} {answer : Outcome Cursor}
    (hquery : (Database.query e s signal).run db = (answer, after)) :
    Does e (.query s signal goOn) db (.queried s signal db answer.result after) (goOn answer.result) after
  | next {c after : Cursor} {goOn : Except Fault Bool → Cursor → Callable σ stmt α} {db : Database σ}
    {answer : Except Fault Bool} (hnext : c.next db.cancellation = (answer, after)) :
    Does e (.next c goOn) db (.stepped c answer after) (goOn answer after) db
  | act {act : Database σ → Database σ} {hkeeps : Database.KeepsSignals act}
    {goOn : Database σ → Callable σ stmt α} {db : Database σ} :
    Does e (.does act hkeeps goOn) db .acted (goOn db) (act db)

variable {e : Engine σ stmt} {c c' : Callable σ stmt α} {db db' : Database σ}

theorem exists_does (e : Engine σ stmt) (c : Callable σ stmt α) (db : Database σ)
    : (∃ o, c = .ends o) ∨ ∃ m c' db', c.Does e db m c' db' := by
  cases c with
  | ends o => exact Or.inl ⟨o, rfl⟩
  | query => exact Or.inr ⟨_, _, _, .query rfl⟩
  | next => exact Or.inr ⟨_, _, _, .next rfl⟩
  | does => exact Or.inr ⟨_, _, _, .act⟩

namespace Does

variable {m : Checkpoint σ stmt}

theorem keeps (h : c.Does e db m c' db') : db.cancellation.Keeps db'.cancellation := by
  cases h with
  | @query s signal _ _ _ _ hquery =>
    have hsame := Database.cancellation_query e s signal db
    rw [hquery] at hsame
    exact .of_eq hsame
  | next => exact .of_eq rfl
  | @act _ hkeeps => exact hkeeps db

theorem run_eq (h : c.Does e db m c' db') : c.run e db = c'.run e db' := by
  cases h with
  | query hquery =>
    rw [run, hquery]
  | next hnext =>
    rw [run, hnext]
  | act => rfl

theorem refused (h : c.Does e db m c' db') {signal : Nat} (hset : db.cancellation.isSet signal = true)
    (hminds : m.Minds signal) : m.Refused := by
  cases h with
  | query hquery =>
    cases hminds
    rw [Database.query_of_set e _ hset] at hquery
    cases hquery
    exact ⟨rfl, rfl⟩
  | next hnext =>
    obtain ⟨hopen, hsignal⟩ := hminds
    rw [Cursor.next_of_cancelled hopen (by rw [hsignal]; exact hset)] at hnext
    cases hnext
    exact ⟨rfl, rfl⟩
  | act => exact hminds.elim

end Does

end Callable

end DataAccess
