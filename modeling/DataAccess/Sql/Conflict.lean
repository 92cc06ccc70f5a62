/-!
This module contains the conflict policies of statements that write rows.
-/

namespace DataAccess

inductive ConflictPolicy where
  | abort
  | replace
  | ignore
  | rollback
  | fail
deriving DecidableEq, Repr, Inhabited

def ConflictPolicy.keyword : ConflictPolicy → String
  | abort => "ABORT"
  | replace => "REPLACE"
  | ignore => "IGNORE"
  | rollback => "ROLLBACK"
  | fail => "FAIL"

end DataAccess
