import DataAccess.Text.Blank
import DataAccess.Text.Identifier

/-!
This module contains the tokens of the generated code and their printed form: tokens are separated
by single spaces, every punctuation character is a token of its own, and texts are quoted.
-/

namespace DataAccess.Code

inductive Token where
  | word (text : String)
  | lifetime (name : String)
  | text (value : String)
  | symbol (c : Char)
deriving DecidableEq, Repr, Inhabited

def hexDigit (n : Nat) : Char :=
  if n < 10 then Char.ofNat ('0'.toNat + n) else Char.ofNat ('a'.toNat + (n - 10))

def quoteChar (c : Char) : List Char :=
  if c = '"' then ['\\', '"']
  else if c = '\\' then ['\\', '\\']
  else if c = '\n' then ['\\', 'n']
  else if c = '\r' then ['\\', 'r']
  else if c = '\t' then ['\\', 't']
  else if c = '\x08' then ['\\', 'b']
  else if c = '\x0c' then ['\\', 'f']
  else if c.toNat < 0x20 then ['\\', 'u', '0', '0', hexDigit (c.toNat / 16), hexDigit (c.toNat % 16)]
  else [c]

def quote (value : String) : String :=
  String.ofList ('"' :: value.toList.flatMap quoteChar ++ ['"'])

namespace Token

def print : Token → String
  | word s => s
  | lifetime name => "'" ++ name
  | text value => quote value
  | symbol c => String.singleton c

def printAll (tokens : List Token) : String :=
  " ".intercalate (tokens.map print)

def compact (tokens : List Token) : String :=
  String.ofList ((String.join (tokens.map print)).toList.filter fun c => !Text.isBlank c)

end Token

def symbols (s : String) : List Token :=
  s.toList.map .symbol

/-- Whether a name can be an identifier of the generated code. Keywords can. -/
def isIdent (name : String) : Bool :=
  match name.toList with
  | [] => false
  | c :: rest => Text.startsIdent c && rest.all Text.continuesIdent

end DataAccess.Code
