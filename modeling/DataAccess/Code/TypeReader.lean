import DataAccess.Code.TypeExpr

/-!
This module contains the reader for types and paths: `TypeExpr.ofString?` and `Path.ofString?`.
The text is cut into tokens, and a recursive descent over the tokens builds the type. The depth of
the descent is bounded by the number of tokens.
-/

namespace DataAccess.Code

def punctuation : List Char :=
  "+-*/%^!&|=<>@.,;:#$?~()[]\x7b\x7d".toList

def isWordChar (c : Char) : Bool :=
  Text.continuesIdent c

/-- A text literal behind its opening quote: its value and what follows the closing quote. -/
def readText : List Char → Option (List Char × List Char)
  | [] => none
  | '"' :: rest => some ([], rest)
  | '\\' :: c :: rest => do
    let value ← match c with
      | 'n' => some '\n'
      | 'r' => some '\r'
      | 't' => some '\t'
      | '0' => some '\x00'
      | '\\' | '\'' | '"' => some c
      | _ => none
    let (more, rest) ← readText rest
    some (value :: more, rest)
  | c :: rest => do
    let (more, rest) ← readText rest
    some (c :: more, rest)

/-- Cuts a text into tokens, skipping white space; `none` if some character starts none. The first
argument bounds the number of tokens. -/
def tokenize : Nat → List Char → Option (List Token)
  | _, [] => some []
  | 0, _ :: _ => none
  | n + 1, c :: rest =>
    if Text.isBlank c then tokenize n rest
    else if Text.startsIdent c || c.isDigit then
      let word := c :: rest.takeWhile isWordChar
      (tokenize n (rest.dropWhile isWordChar)).map (.word (String.ofList word) :: ·)
    else if c = '\'' then
      let name := rest.takeWhile isWordChar
      match name, rest.dropWhile isWordChar with
      | [], _ => none
      | _, '\'' :: more => (tokenize n more).map (.word (String.ofList (c :: name ++ [c])) :: ·)
      | _, more => (tokenize n more).map (.lifetime (String.ofList name) :: ·)
    else if c = '"' then do
      let (value, more) ← readText rest
      (tokenize n more).map (.text (String.ofList value) :: ·)
    else if punctuation.contains c then (tokenize n rest).map (.symbol c :: ·)
    else none

/-- A reader of tokens: what it reads and the tokens left, or `none`. -/
abbrev Reader := StateT (List Token) Option

namespace Reader

def ahead (s : String) : Reader Bool := do
  return (symbols s).isPrefixOf (← get)

def expect (s : String) : Reader Unit := do
  if ← ahead s then modify (·.drop s.length) else failure

/-- Drops the given punctuation if it is next, and tells whether it was. -/
def skip (s : String) : Reader Bool := do
  if ← ahead s then
    modify (·.drop s.length)
    return true
  return false

def aheadWord (w : String) : Reader Bool := do
  return (← get).head? == some (.word w)

/-- Drops the given word if it is next, and tells whether it was. -/
def skipWord (w : String) : Reader Bool := do
  if ← aheadWord w then
    modify (·.drop 1)
    return true
  return false

def next : Reader Token := do
  match ← get with
  | t :: rest => set rest; return t
  | [] => failure

def ident : Reader String := do
  match ← next with
  | .word w => if isIdent w then return w else failure
  | _ => failure

def lifetime? : Reader (Option String) := do
  match ← get with
  | .lifetime name :: rest => set rest; return some name
  | _ => return none

def depthAfter (depth : Nat) : Token → Nat
  | .symbol c =>
    if c = '(' ∨ c = '[' ∨ c = '\x7b' then depth + 1
    else if c = ')' ∨ c = ']' ∨ c = '\x7d' then depth - 1
    else depth
  | _ => depth

/-- Splits the tokens where the first bracket closes that is not opened among them. -/
def splitClosing (depth : Nat) : List Token → List Token × List Token
  | [] => ([], [])
  | t :: rest =>
    if depth = 0 ∧ (t = .symbol ')' ∨ t = .symbol ']' ∨ t = .symbol '\x7d') then ([], t :: rest)
    else
      let (inside, after) := splitClosing (depthAfter depth t) rest
      (t :: inside, after)

def untilClosing : Reader (List Token) := do
  let (inside, after) := splitClosing 0 (← get)
  set after
  return inside

def group (opening closing : String) : Reader (List Token) := do
  expect opening
  let inside ← untilClosing
  expect closing
  return symbols opening ++ inside ++ symbols closing

mutual

def type : Nat → Reader TypeExpr
  | 0 => failure
  | n + 1 => do
    if ← skip "(" then
      if ← skip ")" then return .tuple [] false
      let first ← type n
      if ← skip ")" then return .paren first
      let (rest, trailing) ← moreTypes n
      return .tuple (first :: rest) trailing
    else if ← skip "!" then return .other (symbols "!")
    else if ← skip "*" then
      let access ← ident
      if access != "const" && access != "mut" then failure
      return .other (symbols "*" ++ [.word access] ++ (← type n).tokens)
    else if ← skip "[" then
      let item ← type n
      if ← skip ";" then
        let length ← untilClosing
        expect "]"
        return .array item length
      expect "]"
      return .slice item
    else if ← skip "&" then
      let lifetime ← lifetime?
      let mutable ← skipWord "mut"
      return .reference lifetime mutable (← type n)
    else if ← skip "<" then
      let base ← type n
      let mut asTrait := none
      if ← skipWord "as" then
        let p ← path n
        asTrait := some (p.absolute, p.segments)
      expect ">"
      expect "::"
      return .qualified base asTrait (← segments n)
    else if ← skipWord "_" then return .other [.word "_"]
    else if (← aheadWord "dyn") || (← aheadWord "impl") then
      let keyword ← next
      return .other (keyword :: (← bounds n))
    else if (← aheadWord "for") || (← aheadWord "unsafe") || (← aheadWord "extern") ||
        (← aheadWord "fn") then
      return .other (← function n)
    else
      let p ← path n
      if ← skip "+" then return .other (p.tokens ++ symbols "+" ++ (← bounds n))
      return .path p.absolute p.segments

/-- Reads further types of a tuple behind its first one, and whether a comma ends it. -/
def moreTypes : Nat → Reader (List TypeExpr × Bool)
  | 0 => failure
  | n + 1 => do
    if ← skip ")" then return ([], false)
    expect ","
    if ← skip ")" then return ([], true)
    let t ← type n
    let (rest, trailing) ← moreTypes n
    return (t :: rest, trailing)

def path : Nat → Reader Path
  | 0 => failure
  | n + 1 => do
    let absolute ← skip "::"
    return ⟨absolute, ← segments n⟩

def segments : Nat → Reader (List Segment)
  | 0 => failure
  | n + 1 => do
    let name ← ident
    let args ← segmentArgs n
    if ← skip "::" then return .mk name args :: (← segments n)
    return [.mk name args]

def segmentArgs : Nat → Reader SegmentArgs
  | 0 => failure
  | n + 1 => do
    if ← skip "::<" then
      let (args, trailing) ← genericArgs n
      return .angled true args trailing
    else if ← skip "<" then
      let (args, trailing) ← genericArgs n
      return .angled false args trailing
    else if ← ahead "(" then
      let arguments ← group "(" ")"
      return .parenthesized (arguments ++ (← result n))
    else return .none

def result : Nat → Reader (List Token)
  | 0 => failure
  | n + 1 => do
    if ← skip "->" then return symbols "->" ++ (← type n).tokens
    return []

def genericArgs : Nat → Reader (List GenericArg × Bool)
  | 0 => failure
  | n + 1 => do
    if ← skip ">" then return ([], false)
    let arg ← genericArg n
    if ← skip ">" then return ([arg], false)
    expect ","
    if ← skip ">" then return ([arg], true)
    let (rest, trailing) ← genericArgs n
    return (arg :: rest, trailing)

def genericArg : Nat → Reader GenericArg
  | 0 => failure
  | n + 1 => do
    match ← get with
    | .lifetime name :: rest => set rest; return .lifetime name
    | .symbol '\x7b' :: _ => return .other (← group "\x7b" "\x7d")
    | .symbol '-' :: t :: rest => set rest; return .other [.symbol '-', t]
    | .text value :: rest => set rest; return .other [.text value]
    | .word w :: .symbol ':' :: .symbol c :: rest =>
      if c = ':' then return .type (← type n)
      set (Token.symbol c :: rest)
      return .other ([.word w] ++ symbols ":" ++ (← bounds n))
    | .word w :: .symbol ':' :: rest =>
      set rest
      return .other ([.word w] ++ symbols ":" ++ (← bounds n))
    | .word w :: rest =>
      if isIdent w && w != "true" && w != "false" then boundType n
      else
        set rest
        return .other [.word w]
    | _ => return .type (← type n)

def boundType : Nat → Reader GenericArg
  | 0 => failure
  | n + 1 => do
    let t ← type n
    if ← skip "=" then return .other (t.tokens ++ symbols "=" ++ (← genericArg n).tokens)
    return .type t

def bounds : Nat → Reader (List Token)
  | 0 => failure
  | n + 1 => do
    let first ← bound n
    if ← skip "+" then return first ++ symbols "+" ++ (← bounds n)
    return first

/-- Reads one bound: a lifetime or a trait. -/
def bound : Nat → Reader (List Token)
  | 0 => failure
  | n + 1 => do
    match ← lifetime? with
    | some name => return [.lifetime name]
    | none =>
      if ← ahead "(" then group "(" ")"
      else
        let relaxed := if ← skip "?" then symbols "?" else []
        let binders ← forBinders n
        return relaxed ++ binders ++ (← path n).tokens

def forBinders : Nat → Reader (List Token)
  | 0 => failure
  | n + 1 => do
    if ← skipWord "for" then
      expect "<"
      let (args, trailing) ← genericArgs n
      return .word "for" :: (SegmentArgs.angled false args trailing).tokens
    return []

def function : Nat → Reader (List Token)
  | 0 => failure
  | n + 1 => do
    let binders ← forBinders n
    if !binders.isEmpty && !(← aheadWord "unsafe") && !(← aheadWord "extern") &&
        !(← aheadWord "fn") then
      return binders ++ (← bounds n)
    let qualifiers ← if ← skipWord "unsafe" then pure [Token.word "unsafe"] else pure []
    let mut convention := []
    if ← skipWord "extern" then
      convention := [.word "extern"]
      match ← get with
      | .text value :: rest =>
        set rest
        convention := convention ++ [.text value]
      | _ => pure ()
    if !(← skipWord "fn") then failure
    let arguments ← group "(" ")"
    return binders ++ qualifiers ++ convention ++ [.word "fn"] ++ arguments ++ (← result n)

end

/-- Runs a reader over a whole text. The depth that it gets is enough for every text: on average, a
token is dropped at least on every fourth level. -/
def runOn (reader : Nat → Reader α) (source : String) : Option α := do
  let chars := source.toList
  let tokens ← tokenize chars.length chars
  match reader (4 * tokens.length + 4) tokens with
  | some (a, []) => some a
  | _ => none

end Reader

def TypeExpr.ofString? (source : String) : Option TypeExpr :=
  Reader.runOn Reader.type source

def Path.ofString? (source : String) : Option Path :=
  Reader.runOn Reader.path source

end DataAccess.Code
