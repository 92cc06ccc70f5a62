import DataAccess.Text.LetterCase

/-!
This module contains the derivation of lower-case names with underscores from names in any case:
`userName`, `UserName` and `user_name` all become `user_name`. Names are cut at underscores and
where letter case or digits change, and the pieces are lower-cased.
-/

namespace DataAccess.Text

structure Glyph where
  base : Char
  marks : List Char
deriving DecidableEq, Repr

namespace Glyph

def chars (g : Glyph) : List Char :=
  g.base :: g.marks

def isUnderscore (g : Glyph) : Bool :=
  g.base == '_' && g.marks.isEmpty

def isDigit (g : Glyph) : Bool :=
  g.base.isDigit && g.marks.isEmpty

def isCapital (g : Glyph) : Bool :=
  Text.isCapital g.base

def isSmall (g : Glyph) : Bool :=
  Text.isSmall g.base

def ofChars : List Char → List Glyph
  | [] => []
  | c :: rest => ⟨c, rest.takeWhile joinsPrevious⟩ :: ofChars (rest.dropWhile joinsPrevious)
termination_by cs => cs.length
decreasing_by exact Nat.lt_succ_of_le (List.dropWhile_sublist joinsPrevious).length_le

end Glyph

/-- Whether a new piece starts between the glyphs `a` and `b`, when `c` follows them. -/
def startsPiece (a b : Glyph) (c : Option Glyph) : Bool :=
  (a.isSmall && b.isCapital) ||
  (a.isSmall && b.isDigit) ||
  (a.isCapital && b.isDigit) ||
  (a.isDigit && b.isSmall) ||
  (a.isDigit && b.isCapital) ||
  (a.isCapital && b.isCapital && c.any Glyph.isSmall)

def consGlyph (g : Glyph) : List (List Glyph) → List (List Glyph)
  | [] => [[g]]
  | piece :: others => (g :: piece) :: others

/-- Cuts a name into pieces: at every underscore, which is dropped, and wherever `startsPiece`
holds. Pieces between two underscores, or at an end of the name, may be empty. -/
def pieces : List Glyph → List (List Glyph)
  | [] => [[]]
  | [a] => if a.isUnderscore then [[], []] else [[a]]
  | a :: b :: rest =>
    if a.isUnderscore then [] :: pieces (b :: rest)
    else if startsPiece a b rest.head? then [a] :: pieces (b :: rest)
    else consGlyph a (pieces (b :: rest))

def snakeCase (name : String) : String :=
  String.ofList <| ['_'].intercalate <| (pieces (Glyph.ofChars name.toList)).map fun piece =>
    lowerWord (piece.flatMap Glyph.chars)

end DataAccess.Text
