import DataAccess.Cursor

/-!
This module contains what a storage engine offers to the rest of the library: running statements,
nested transactions, and the names of the tables that were written.
-/

namespace DataAccess

/-- A storage engine with states `σ` and statements `stmt`. Every operation answers and goes to a next
state, also when it fails. -/
structure Engine (σ stmt : Type) where
  execute : stmt → σ → Except Fault Nat × σ
  /-- Runs an insertion and tells the identifier of the new row, or `-1` if there is none. -/
  insert : stmt → σ → Except Fault Int64 × σ
  query : stmt → Option Nat → Cancellation → σ → Except Fault Cursor × σ
  openTransaction : σ → Except Fault Unit × σ
  /-- Closes the innermost transaction and keeps its work if that was a success. -/
  closeTransaction : Bool → σ → Except Fault Unit × σ
  inTransaction : σ → Bool
  recordModified : List String → σ → σ
  takeModified : σ → List String × σ

end DataAccess
