import DataAccess.Sql.Template

/-!
This module contains the coarse kinds of statements. The kind is that of the leading verb; behind
the common table expressions of a `WITH` statement, that of the first verb outside parentheses.
-/

namespace DataAccess.Sql

inductive StatementKind where
  | select
  | insert
  | update
  | delete
  | other
deriving DecidableEq, Repr

def StatementKind.ofVerb : String → StatementKind
  | "SELECT" | "VALUES" => .select
  | "INSERT" | "REPLACE" => .insert
  | "UPDATE" => .update
  | "DELETE" => .delete
  | _ => .other

/-- The kind of the first verb outside parentheses, when `depth` of them are open in front. -/
def mainVerb (depth : Nat) : List Token → StatementKind
  | [] => .other
  | .symbol '(' :: rest => mainVerb (depth + 1) rest
  | .symbol ')' :: rest => mainVerb (depth - 1) rest
  | t :: rest =>
    match t.keyword with
    | some word =>
      if depth = 0 ∧ StatementKind.ofVerb word ≠ .other then .ofVerb word else mainVerb depth rest
    | none => mainVerb depth rest

def Template.kind (t : Template) : StatementKind :=
  match t.tokens.findSome? Token.keyword with
  | none => .other
  | some "WITH" => mainVerb 0 t.tokens
  | some word => .ofVerb word

end DataAccess.Sql
