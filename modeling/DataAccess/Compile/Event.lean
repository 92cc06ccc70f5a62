/-!
This module contains what a compilation reports while it runs: warnings, and notes on its progress.
-/

namespace DataAccess

inductive Event where
  | unusedParameter (method param : String)
  | missingStatement (method : String)
  | classified (method category delivery : String)
  | registeredHelper (key field : String)
  | registeredRowAdapter (entity function : String)
  | planned (fields rowAdapters converters : Nat)
deriving DecidableEq, Repr

namespace Event

def isWarning : Event → Bool
  | unusedParameter _ _ | missingStatement _ => true
  | _ => false

def message : Event → String
  | unusedParameter _ _ => "parameter is not referenced by the query"
  | missingStatement _ => "raw query has no statement parameter; generating a placeholder statement"
  | classified _ _ _ => "classified method"
  | registeredHelper _ _ => "registered shared helper"
  | registeredRowAdapter _ _ => "registered row adapter"
  | planned _ _ _ => "planned implementation"

def details : Event → List (String × String)
  | unusedParameter method param => [("method", method), ("param", param)]
  | missingStatement method => [("method", method)]
  | classified method category delivery =>
    [("method", method), ("category", category), ("concurrency", delivery)]
  | registeredHelper key field => [("key", key), ("field", field)]
  | registeredRowAdapter entity function => [("entity", entity), ("function", function)]
  | planned fields rowAdapters converters =>
    [("fields", toString fields), ("row_adapters", toString rowAdapters),
     ("converters", toString converters)]

end Event

end DataAccess
