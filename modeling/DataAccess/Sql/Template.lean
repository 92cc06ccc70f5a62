import DataAccess.Sql.Lexeme

/-!
This module contains statement templates: an SQL text cut into literal text and placeholders, with
the coarse tokens that tell what the statement does and which tables it touches.
-/

namespace DataAccess.Sql

inductive Section where
  | text (chars : List Char)
  | placeholder (p : Placeholder)
deriving DecidableEq, Repr

/-- Puts a lexeme in front of the sections behind it; neighbouring texts become one. -/
def Section.cons : Lexeme → List Section → List Section
  | .placeholder p _, more => .placeholder p :: more
  | l, .text t :: more => .text (l.source ++ t) :: more
  | l, more => .text l.source :: more

/-- What remains of a lexeme when blanks and comments are gone and values do not matter. -/
inductive Token where
  | word (text : String)
  | quoted (name : String)
  | literal
  | symbol (c : Char)
deriving DecidableEq, Repr

/-- The tokens of a lexeme. A placeholder stands for a value. -/
def Lexeme.tokens : Lexeme → List Token
  | .blank _ | .comment _ => []
  | .literal _ | .placeholder _ _ => [.literal]
  | .quoted _ name => [.quoted (String.ofList name)]
  | .word letters => [.word (String.ofList letters)]
  | .cast => [.symbol ':', .symbol ':']
  | .symbol c => [.symbol c]

def Token.keyword : Token → Option String
  | .word text => some (text.map Char.toUpper)
  | _ => none

structure Template where
  lexemes : List Lexeme
deriving DecidableEq, Repr

namespace Template

/-- Scans a statement. Every text is one. -/
def ofString (sql : String) : Template :=
  ⟨scan none sql.toList⟩

def source (t : Template) : String :=
  String.ofList (t.lexemes.flatMap Lexeme.source)

def sections (t : Template) : List Section :=
  t.lexemes.foldr Section.cons []

def tokens (t : Template) : List Token :=
  t.lexemes.flatMap Lexeme.tokens

def placeholders (t : Template) : List Placeholder :=
  t.sections.filterMap fun
    | .placeholder p => some p
    | .text _ => none

def positional (t : Template) : String :=
  String.ofList <| t.sections.flatMap fun
    | .text chars => chars
    | .placeholder _ => ['?']

@[simp]
theorem source_ofString (sql : String) : (ofString sql).source = sql := by
  simp [ofString, source, flatMap_source_scan]

end Template

end DataAccess.Sql
