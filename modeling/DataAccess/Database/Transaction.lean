import DataAccess.Database.Basic

/-!
This module contains operations inside of transactions. Whatever becomes of the operation, the
transaction around it is closed once, and its work is kept only if the operation succeeded.
-/

namespace DataAccess

inductive Closing where
  | commit
  | rollback
  /-- The transaction is rolled back, and nobody hears whether that failed. -/
  | abandon
deriving DecidableEq, Repr

namespace Database

variable (e : Engine σ stmt)

/-- Rolls a transaction back; nobody hears whether that failed. -/
def abandon : Operation σ Unit :=
  fun db => (.ok (), (endTransaction e false db).2)

def leave : Closing → Operation σ Unit
  | .commit => endTransaction e true
  | .rollback => endTransaction e false
  | .abandon => abandon e

/-- Does an operation in the transaction that was opened for it. If it fails or crashes, the
transaction is abandoned. -/
def within (closing : Closing) (body : Operation σ α) : Operation σ α :=
  fun db =>
    match body db with
    | (.ok a, db) => (do leave e closing; return a : Operation σ α) db
    | (failed, db) => (failed, (abandon e db).2)

def guarded (closing : Closing) (body : Operation σ α) : Operation σ α := do
  beginTransaction e
  within e closing body

/-- Does an operation in a transaction of its own: its work is kept if and only if it succeeds. -/
def runInTransaction (body : Operation σ α) : Operation σ α :=
  guarded e .commit body

def runIn (inTransaction : Bool) (body : Operation σ α) : Operation σ α :=
  if inTransaction then runInTransaction e body else body

end Database

end DataAccess
