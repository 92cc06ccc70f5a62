import DataAccess.Interface.Basic

/-!
This module contains the problems that can be found in an interface, and their wording. A problem is
said by its cause; several problems found together keep the order in which they were found.
-/

namespace DataAccess

inductive Misfit where
  | readWrites
  | writeReads
  | noTargets
  | targetNotParameter (param : String)
  | entityWithoutFields (entity : String)
deriving DecidableEq, Repr

def Misfit.message : Misfit → String
  | readWrites => "read queries must be SELECT statements"
  | writeReads => "SELECT statements must be read queries"
  | noTargets => "shortcut has no entity parameters"
  | targetNotParameter param => "target \x60" ++ param ++ "\x60 is not a parameter"
  | entityWithoutFields entity => "entity \x60" ++ entity ++ "\x60 has no fields"

inductive ReturnRule where
  | queriesReturn
  | listsAreVec
  | nullableIsOption
  | writesReturn
  | insertsReturn
  | changesReturn
deriving DecidableEq, Repr

def ReturnRule.message : ReturnRule → String
  | queriesReturn => "queries must return a value"
  | listsAreVec => "list results must be \x60Vec<_>\x60"
  | nullableIsOption => "nullable results must be \x60Option<_>\x60"
  | writesReturn => "write queries return nothing, a row count or an inserted row id"
  | insertsReturn =>
    "inserts return nothing, \x60i64\x60 for one entity or \x60Vec<i64>\x60 for one collection"
  | changesReturn => "deletes and updates return nothing or a row count"

inductive DelegateFault where
  | missing
  | itself
  | notDirect
  | delegates
  | parameterCount
deriving DecidableEq, Repr

def DelegateFault.message : DelegateFault → String
  | missing => "no such method"
  | itself => "a method cannot delegate to itself"
  | notDirect => "the target must be a direct method"
  | delegates => "the target is a delegate itself"
  | parameterCount => "parameter counts differ"

inductive Problem where
  | unclassifiable (method : String) (why : Misfit)
  | placeholderWithoutParameter (method placeholder : String)
  | unknownEntity (method entity : String)
  | helperCollision (key first second : String)
  | unsupportedDelivery (method category : String) (delivery : Delivery)
  | borrowedAsyncParameter (method param : String)
  | unknownDelegate (method target : String) (why : DelegateFault)
  | unknownConverter (owner converter : String)
  | missingPrimaryKey (method entity : String)
  | unsupportedReturn (method returns : String) (rule : ReturnRule)
  | multiple (problems : List Problem)
deriving Inhabited

namespace Problem

def ticked (s : String) : String :=
  "\x60" ++ s ++ "\x60"

mutual

def message : Problem → String
  | unclassifiable m why => "method " ++ ticked m ++ " cannot be classified: " ++ why.message
  | placeholderWithoutParameter m p =>
    "method " ++ ticked m ++ ": placeholder " ++ ticked p ++ " has no matching parameter"
  | unknownEntity m e => "method " ++ ticked m ++ " references unknown entity " ++ ticked e
  | helperCollision key first second =>
    "helper " ++ ticked key ++ " requested for " ++ ticked first ++ " and " ++ ticked second
  | unsupportedDelivery m category delivery =>
    "method " ++ ticked m ++ ": " ++ category ++ " methods cannot use " ++ delivery.name ++ " delivery"
  | borrowedAsyncParameter m p =>
    "method " ++ ticked m ++ ": parameter " ++ ticked p ++ " must be owned to run asynchronously"
  | unknownDelegate m target why =>
    "method " ++ ticked m ++ " delegates to " ++ ticked target ++ ": " ++ why.message
  | unknownConverter owner converter =>
    "converter " ++ ticked converter ++ " used by " ++ ticked owner ++ " is not declared"
  | missingPrimaryKey m e => "method " ++ ticked m ++ ": entity " ++ ticked e ++ " has no primary key"
  | unsupportedReturn m returns rule =>
    "method " ++ ticked m ++ ": cannot return " ++ ticked returns ++ ": " ++ rule.message
  | multiple problems =>
    toString problems.length ++ " errors:\n" ++ "\n".intercalate (messages problems)

def messages : List Problem → List String
  | [] => []
  | p :: rest => ("  - " ++ p.message) :: messages rest

end

mutual

def flatten : Problem → List Problem
  | multiple problems => flattenAll problems
  | p => [p]

def flattenAll : List Problem → List Problem
  | [] => []
  | p :: rest => p.flatten ++ flattenAll rest

end

def combine : List Problem → Option Problem
  | [] => none
  | [p] => some p
  | p :: q :: rest => some (multiple (p :: q :: rest))

theorem combine_eq_none_iff (problems : List Problem) : combine problems = none ↔ problems = [] := by
  match problems with
  | [] => simp [combine]
  | [_] => simp [combine]
  | _ :: _ :: _ => simp [combine]

theorem flatten_of_combine {problems : List Problem} {p : Problem} (h : combine problems = some p) :
    p.flatten = flattenAll problems := by
  match problems with
  | [] => simp [combine] at h
  | [q] => simp [combine] at h; simp [← h, flattenAll]
  | _ :: _ :: _ => simp [combine] at h; simp [← h, flatten]

end Problem

end DataAccess
