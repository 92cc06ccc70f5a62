import DataAccess.Sql.Template

/-!
This module contains the search for the tables that a statement names after `FROM`, `JOIN`, `INTO`
and `UPDATE`. Names lose their schema and their quotes. Two spellings that differ in ASCII case
only are one table, listed in the first spelling.
-/

namespace DataAccess.Sql

/-- Words that are no table name and no alias unless quoted, in capitals. -/
def reservedWords : List String :=
  ["AS", "CROSS", "DEFAULT", "EXCEPT", "FROM", "GROUP", "HAVING", "INDEXED", "INNER", "INTERSECT",
   "JOIN", "LEFT", "LIMIT", "NATURAL", "NOT", "OFFSET", "ON", "ORDER", "OUTER", "RETURNING",
   "RIGHT", "SELECT", "SET", "UNION", "USING", "VALUES", "WHERE", "WINDOW", "WITH", "FULL"]

/-- Whether two names are the same up to ASCII case. -/
def sameName (a b : String) : Bool :=
  a.map Char.toLower == b.map Char.toLower

/-- The name that a token can stand for: any quoted one, and words that are not reserved. -/
def Token.name? : Token → Option String
  | .quoted name => some name
  | .word text => if (text.map Char.toUpper) ∈ reservedWords then none else some text
  | _ => none

def plainName : List Token → Option (String × List Token)
  | [] => none
  | t :: rest => t.name?.map (·, rest)

def tableName (tokens : List Token) : Option (String × List Token) :=
  match plainName tokens with
  | some (name, .symbol '.' :: qualified) =>
    (plainName qualified).or (some (name, .symbol '.' :: qualified))
  | found => found

def dropAlias (tokens : List Token) : List Token :=
  if tokens.head?.bind Token.keyword = some "AS" then tokens.drop 2
  else
    match plainName tokens with
    | some (_, rest) => rest
    | none => tokens

theorem length_of_plainName {tokens rest : List Token} {name : String}
    (h : plainName tokens = some (name, rest)) : rest.length < tokens.length := by
  cases tokens with
  | nil => simp [plainName] at h
  | cons t ts =>
    simp only [plainName, Option.map_eq_some_iff, Prod.mk.injEq] at h
    obtain ⟨_, _, _, rfl⟩ := h
    simp

theorem length_of_tableName {tokens rest : List Token} {name : String}
    (h : tableName tokens = some (name, rest)) : rest.length < tokens.length := by
  unfold tableName at h
  split at h
  . next qualified hp =>
    have hlt := length_of_plainName hp
    cases hq : plainName qualified with
    | none =>
      simp only [hq, Option.none_or, Option.some.injEq, Prod.mk.injEq] at h
      exact h.2 ▸ hlt
    | some found =>
      simp only [hq, Option.some_or, Option.some.injEq] at h
      have := length_of_plainName (h ▸ hq)
      simp only [List.length_cons] at hlt
      omega
  . exact length_of_plainName h

theorem length_dropAlias_le (tokens : List Token) : (dropAlias tokens).length ≤ tokens.length := by
  unfold dropAlias
  split
  . simp
  . split
    . next h => exact Nat.le_of_lt (length_of_plainName h)
    . exact Nat.le_refl _

def tableList (tokens : List Token) : List String :=
  match _hname : tableName tokens with
  | none => []
  | some (name, rest) =>
    match _hrest : dropAlias rest with
    | .symbol ',' :: more => name :: tableList more
    | _ => [name]
termination_by tokens.length
decreasing_by
  have h1 := length_of_tableName _hname
  have h2 := length_dropAlias_le rest
  rw [_hrest, List.length_cons] at h2
  omega

def tablesAfter (keyword : String) (tokens : List Token) : List String :=
  let single (tokens : List Token) := (tableName tokens).toList.map Prod.fst
  match keyword with
  | "UPDATE" =>
    if tokens.head?.bind Token.keyword = some "OR" then single (tokens.drop 2) else single tokens
  | "INTO" | "JOIN" => single tokens
  | "FROM" => tableList tokens
  | _ => []

def mentions : List Token → List String
  | [] => []
  | t :: rest => (t.keyword.map (tablesAfter · rest)).getD [] ++ mentions rest

def addTable (tables : List String) (name : String) : List String :=
  if tables.any (sameName · name) then tables else tables ++ [name]

def Template.tables (t : Template) : List String :=
  (mentions t.tokens).foldl addTable []

end DataAccess.Sql
