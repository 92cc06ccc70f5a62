import DataAccess.Proofs.Storage.Savepoints
import DataAccess.Database.Transaction

/-!
This module contains programs of statements and nested transactions, as operations on a database and with
the meaning that they are intended to have.
-/

namespace DataAccess

open Storage (Behaviour)

/-- A program of statements that write and of transactions one inside the other. It hears how each of
them ended and goes on as it likes. -/
inductive Program (stmt : Type) : Type → Type 1 where
  | done (a : α) : Program stmt α
  | fail (f : Fault) : Program stmt α
  | panic : Program stmt α
  | write (q : stmt) (tables : List String) (next : Except Fault Nat → Program stmt α) :
    Program stmt α
  | insert (q : stmt) (tables : List String) (next : Except Fault Int64 → Program stmt α) :
    Program stmt α
  | call {β : Type} (body : Program stmt β) (next : Except Fault β → Program stmt α) :
    Program stmt α

namespace Program

def run (e : Engine σ stmt) : Program stmt α → Operation σ α
  | done a => pure a
  | fail f => Operation.fail f
  | panic => Operation.crash
  | write q tables next => do
    let r ← (Database.execute e q tables).attempt
    run e (next r)
  | insert q tables next => do
    let r ← (Database.insert e q tables).attempt
    run e (next r)
  | call body next => do
    let r ← (Database.runInTransaction e (run e body)).attempt
    run e (next r)

/-- How a transaction ends whose body has ended: with the data of the body if it succeeded and the
outermost transaction can be committed, and otherwise with the data before it. -/
def conclude (b : Behaviour δ η stmt) (inside : Bool) (before : δ) :
    Outcome α × δ × η → Outcome α × δ × η
  | (.ok a, d, k) =>
    if inside then (.ok a, d, k)
    else
      match b.commit d k with
      | (.ok (), k) => (.ok a, d, k)
      | (.error f, k) => (.fault f, before, k)
  | (.fault f, _, k) => (.fault f, before, k)
  | (.crash, _, k) => (.crash, before, k)

/-- What a program comes to, and what it leaves behind, if transactions are all or nothing. -/
def intended (b : Behaviour δ η stmt) (inside : Bool) : Program stmt α → δ → η → Outcome α × δ × η
  | done a, d, k => (.ok a, d, k)
  | fail f, d, k => (.fault f, d, k)
  | panic, d, k => (.crash, d, k)
  | write q _ next, d, k =>
    let (r, d, k) := b.write inside q d k
    intended b inside (next r) d k
  | insert q _ next, d, k =>
    let (r, d, k) := b.write inside q d k
    intended b inside (next (r.map fun changed => if changed = 0 then -1 else b.lastId d k)) d k
  | call body next, d, k =>
    match conclude b inside d (intended b true body d k) with
    | (.ok a, d, k) => intended b inside (next (.ok a)) d k
    | (.fault f, d, k) => intended b inside (next (.error f)) d k
    | (.crash, d, k) => (.crash, d, k)

end Program

end DataAccess
