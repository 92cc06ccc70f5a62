import DataAccess.Code.Token

/-!
This module contains types and paths as an interface declares them. They keep everything that was
written, so that they are printed token for token, and they answer the questions that decide how a
value is read and bound: which generic wrapper it has, which plain name, and whether it borrows.
-/

namespace DataAccess.Code

mutual

inductive TypeExpr where
  | path (absolute : Bool) (segments : List Segment)
  | qualified (base : TypeExpr) (asTrait : Option (Bool × List Segment)) (segments : List Segment)
  | reference (lifetime : Option String) (mutable : Bool) (target : TypeExpr)
  | paren (inner : TypeExpr)
  | slice (item : TypeExpr)
  | array (item : TypeExpr) (length : List Token)
  | tuple (items : List TypeExpr) (trailing : Bool)
  | other (tokens : List Token)

inductive Segment where
  | mk (name : String) (args : SegmentArgs)

inductive SegmentArgs where
  | none
  | angled (colons : Bool) (args : List GenericArg) (trailing : Bool)
  | parenthesized (tokens : List Token)

inductive GenericArg where
  | type (t : TypeExpr)
  | lifetime (name : String)
  | other (tokens : List Token)

end

instance : Inhabited TypeExpr := ⟨.other []⟩

structure Path where
  absolute : Bool
  segments : List Segment

instance : Inhabited Path := ⟨⟨false, []⟩⟩

def Segment.name : Segment → String
  | .mk name _ => name

def Segment.args : Segment → SegmentArgs
  | .mk _ args => args

/-- The comma behind the last item, if there is one. -/
def trailingComma (trailing : Bool) : List Token :=
  if trailing then [.symbol ','] else []

def separated (separator : List Token) : List (List Token) → List Token
  | [] => []
  | [group] => group
  | group :: others => group ++ separator ++ separated separator others

mutual

def TypeExpr.tokens : TypeExpr → List Token
  | .path absolute segments =>
    (if absolute then symbols "::" else []) ++ separated (symbols "::") (segmentTokens segments)
  | .qualified base asTrait segments =>
    symbols "<" ++ base.tokens ++ traitTokens asTrait ++ symbols ">::" ++
      separated (symbols "::") (segmentTokens segments)
  | .reference lifetime mutable target =>
    symbols "&" ++ (lifetime.map Token.lifetime).toList ++
      (if mutable then [.word "mut"] else []) ++ target.tokens
  | .paren inner => symbols "(" ++ inner.tokens ++ symbols ")"
  | .slice item => symbols "[" ++ item.tokens ++ symbols "]"
  | .array item length => symbols "[" ++ item.tokens ++ symbols ";" ++ length ++ symbols "]"
  | .tuple items trailing =>
    symbols "(" ++ separated (symbols ",") (typeTokens items) ++ trailingComma trailing ++ symbols ")"
  | .other tokens => tokens

def traitTokens : Option (Bool × List Segment) → List Token
  | none => []
  | some (absolute, segments) =>
    [.word "as"] ++ (if absolute then symbols "::" else []) ++
      separated (symbols "::") (segmentTokens segments)

def typeTokens : List TypeExpr → List (List Token)
  | [] => []
  | t :: rest => t.tokens :: typeTokens rest

def Segment.tokens : Segment → List Token
  | .mk name args => .word name :: args.tokens

def segmentTokens : List Segment → List (List Token)
  | [] => []
  | s :: rest => s.tokens :: segmentTokens rest

def SegmentArgs.tokens : SegmentArgs → List Token
  | .none => []
  | .angled colons args trailing =>
    (if colons then symbols "::" else []) ++ symbols "<" ++
      separated (symbols ",") (argTokens args) ++ trailingComma trailing ++ symbols ">"
  | .parenthesized tokens => tokens

def GenericArg.tokens : GenericArg → List Token
  | .type t => t.tokens
  | .lifetime name => [.lifetime name]
  | .other tokens => tokens

def argTokens : List GenericArg → List (List Token)
  | [] => []
  | a :: rest => a.tokens :: argTokens rest

end

def Path.tokens (p : Path) : List Token :=
  (TypeExpr.path p.absolute p.segments).tokens

def Path.compact (p : Path) : String :=
  Token.compact p.tokens

namespace TypeExpr

def compact (t : TypeExpr) : String :=
  Token.compact t.tokens

def lastSegment : TypeExpr → Option Segment
  | path _ segments => segments.getLast?
  | paren inner => inner.lastSegment
  | _ => none

def genericArg (t : TypeExpr) (wrapper : String) : Option TypeExpr :=
  match t.lastSegment with
  | some (.mk name (.angled _ [.type inner] _)) => if name = wrapper then some inner else none
  | _ => none

def simpleName (t : TypeExpr) : Option String :=
  match t.lastSegment with
  | some (.mk name .none) => some name
  | _ => none

def integerNames : List String :=
  ["i8", "i16", "i32", "i64", "i128", "isize", "u8", "u16", "u32", "u64", "u128", "usize"]

def isInteger (t : TypeExpr) : Bool :=
  t.simpleName.any integerNames.contains

def isRowId (t : TypeExpr) : Bool :=
  t.simpleName == some "i64"

def isSqlText : TypeExpr → Bool
  | reference _ _ target => target.simpleName == some "str" || target.simpleName == some "String"
  | t => t.simpleName == some "String"

def statementBorrow : TypeExpr → Option Bool
  | reference _ false target => if target.simpleName = some "SqlQuery" then some true else none
  | t => if t.simpleName = some "SqlQuery" then some false else none

end TypeExpr

mutual

/-- Whether a value of the type borrows from somewhere: it is or contains a reference, or names a
lifetime. -/
def TypeExpr.borrows : TypeExpr → Bool
  | .reference _ _ _ => true
  | .paren inner => inner.borrows
  | .slice item => item.borrows
  | .array item _ => item.borrows
  | .tuple items _ => anyBorrows items
  | .path _ segments => anySegmentBorrows segments
  | .qualified _ asTrait segments => traitBorrows asTrait || anySegmentBorrows segments
  | .other _ => false

def traitBorrows : Option (Bool × List Segment) → Bool
  | none => false
  | some (_, segments) => anySegmentBorrows segments

def anyBorrows : List TypeExpr → Bool
  | [] => false
  | t :: rest => t.borrows || anyBorrows rest

def Segment.borrows : Segment → Bool
  | .mk _ (.angled _ args _) => anyArgBorrows args
  | .mk _ _ => false

def anySegmentBorrows : List Segment → Bool
  | [] => false
  | s :: rest => s.borrows || anySegmentBorrows rest

def GenericArg.borrows : GenericArg → Bool
  | .type t => t.borrows
  | .lifetime _ => true
  | .other _ => false

def anyArgBorrows : List GenericArg → Bool
  | [] => false
  | a :: rest => a.borrows || anyArgBorrows rest

end

end DataAccess.Code
