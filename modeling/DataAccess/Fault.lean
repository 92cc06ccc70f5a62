import DataAccess.Value.Column

/-!
This module contains the faults of database operations and their wording.
-/

namespace DataAccess

inductive Fault where
  | missingResult (sql : String)
  | cancelled
  | engine (message : String)
  | uniqueConstraint (message : String)
  | missingColumn (name : String)
  | typeMismatch (index : Nat) (expected : ColumnType) (found : StorageClass)
  | unexpectedNull (index : Nat)
  | noCurrentRow
  | argumentCount (expected actual : Nat)
  | noExecutor
  | rowCountOverflow (count : Nat) (target : IntType)
  | task (message : String)
  | taskCrashed
deriving DecidableEq, Repr, Inhabited

namespace Fault

def message : Fault → String
  | missingResult sql =>
    "query returned an empty result set but a single item was expected: " ++ sql
  | cancelled => "operation was cancelled"
  | engine m => "storage engine error: " ++ m
  | uniqueConstraint m => "unique constraint failed: " ++ m
  | missingColumn name => "column \x60" ++ name ++ "\x60 does not exist in the result set"
  | typeMismatch index expected found =>
    "column " ++ toString index ++ " holds " ++ found.name ++ ", expected " ++ expected.name
  | unexpectedNull index =>
    "column " ++ toString index ++ " is NULL but the target type is not nullable"
  | noCurrentRow => "cursor is not positioned on a row"
  | argumentCount expected actual =>
    "statement expects " ++ toString expected ++ " arguments but " ++ toString actual ++
      " were bound"
  | noExecutor => "no background executor is available"
  | rowCountOverflow count target =>
    "row count " ++ toString count ++ " does not fit \x60" ++ target.name ++ "\x60"
  | task m => "background task failed: " ++ m
  | taskCrashed => "background task failed"

def ofConversion (index : Nat) : ConversionError → Fault
  | .unexpectedNull => unexpectedNull index
  | .mismatch expected found => typeMismatch index expected found

end Fault

def rowCount (target : IntType) (count : Nat) : Except Fault Int :=
  if target.has count then .ok count else .error (.rowCountOverflow count target)

end DataAccess
