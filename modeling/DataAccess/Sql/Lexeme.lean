import DataAccess.Text.Blank
import DataAccess.Text.Letter

/-!
This module contains the lexemes of an SQL statement with placeholders and the scanner that cuts a
text into them. The scanner knows string literals, quoted identifiers and comments, so that nothing
in them is taken for a placeholder, and it accepts every text: what is left open at the end ends
there. Main statement: the sources of the lexemes, put together, are the scanned text.
-/

namespace DataAccess.Sql

def maxSlot : Nat :=
  UInt64.size - 1

inductive Placeholder where
  | anonymous
  | numbered (n : Nat)
  /-- The argument with this name; the sigil says how the name is introduced. -/
  | named (sigil : Char) (name : String)
deriving DecidableEq, Repr

def Placeholder.text : Placeholder → String
  | .anonymous => "?"
  | .numbered n => "?" ++ toString n
  | .named sigil name => String.singleton sigil ++ name

inductive Lexeme where
  | blank (c : Char)
  | comment (source : List Char)
  | literal (source : List Char)
  /-- A quoted identifier and the name that it stands for. -/
  | quoted (source name : List Char)
  | word (letters : List Char)
  | cast
  | symbol (c : Char)
  | placeholder (p : Placeholder) (source : List Char)
deriving DecidableEq, Repr

namespace Lexeme

def source : Lexeme → List Char
  | blank c | symbol c => [c]
  | comment s | literal s | quoted s _ | word s | placeholder _ s => s
  | cast => [':', ':']

/-- The last character of the text in front of the next lexeme, as far as it can belong to a word:
behind a placeholder there is none. -/
def trailing : Lexeme → Option Char
  | placeholder _ _ => none
  | l => l.source.getLast?

end Lexeme

def startsWord (c : Char) : Bool :=
  Text.isLetter c || c == '_'

def continuesWord (c : Char) : Bool :=
  Text.isLetterOrNumeral c || c == '_'

def continuesNumber (c : Char) : Bool :=
  c.isAlphanum || c == '.'

def slotNumber (digits : List Char) : Nat :=
  min maxSlot (digits.foldl (fun n d => 10 * n + (d.toNat - '0'.toNat)) 0)

/-- A quoted text after its opening quote: the characters up to and including the closing quote,
the text they stand for, and what follows. -/
structure Quotation where
  source : List Char
  content : List Char
  rest : List Char
deriving Repr

namespace Quotation

def cons (source : List Char) (c : Char) (q : Quotation) : Quotation :=
  ⟨source ++ q.source, c :: q.content, q.rest⟩

/-- Reads up to the closing quote. A doubled closing quote stands for itself, a closing bracket
cannot be doubled. -/
def read (close : Char) : List Char → Quotation
  | [] => ⟨[], [], []⟩
  | c :: rest =>
    if c = close then
      match rest with
      | d :: more =>
        if d = close ∧ close ≠ ']' then cons [c, d] close (read close more) else ⟨[c], [], rest⟩
      | [] => ⟨[c], [], []⟩
    else cons [c] c (read close rest)

theorem read_source_append_rest (close : Char) (s : List Char) :
    (read close s).source ++ (read close s).rest = s := by
  fun_induction read close s <;> simp_all [cons]

end Quotation

/-- Splits behind the first end of a block comment. -/
def splitBlockComment : List Char → List Char × List Char
  | [] => ([], [])
  | '*' :: '/' :: rest => (['*', '/'], rest)
  | c :: rest => (c :: (splitBlockComment rest).1, (splitBlockComment rest).2)

theorem splitBlockComment_append (s : List Char) :
    (splitBlockComment s).1 ++ (splitBlockComment s).2 = s := by
  fun_induction splitBlockComment s <;> simp_all

/-- Splits behind the first line end. -/
def splitLine : List Char → List Char × List Char
  | [] => ([], [])
  | c :: rest => if c = '\n' then ([c], rest) else (c :: (splitLine rest).1, (splitLine rest).2)

theorem splitLine_append (s : List Char) : (splitLine s).1 ++ (splitLine s).2 = s := by
  fun_induction splitLine s <;> simp_all

def isSigil (c : Char) : Bool :=
  c == ':' || c == '@' || c == '$'

/-- The lexeme that starts with `c`, and the rest behind it. `before` is the last character of the
text in front: a sigil that directly follows a word is no placeholder. -/
def next (before : Option Char) (c : Char) (rest : List Char) : Lexeme × List Char :=
  if c = '\'' then
    let q := Quotation.read '\'' rest
    (.literal (c :: q.source), q.rest)
  else if c = '"' ∨ c = '\x60' then
    let q := Quotation.read c rest
    (.quoted (c :: q.source) q.content, q.rest)
  else if c = '[' then
    let q := Quotation.read ']' rest
    (.quoted (c :: q.source) q.content, q.rest)
  else if c = '-' ∧ rest.head? = some '-' then
    let line := splitLine rest
    (.comment (c :: line.1), line.2)
  else if c = '/' ∧ rest.head? = some '*' then
    let block := splitBlockComment rest.tail
    (.comment (c :: '*' :: block.1), block.2)
  else if c = '?' then
    let digits := rest.takeWhile Char.isDigit
    let p := if digits.isEmpty then .anonymous else .numbered (slotNumber digits)
    (.placeholder p (c :: digits), rest.dropWhile Char.isDigit)
  else if c = ':' ∧ rest.head? = some ':' then
    (.cast, rest.tail)
  else if isSigil c && !before.any continuesWord && rest.head?.any startsWord then
    let name := rest.takeWhile continuesWord
    (.placeholder (.named c (String.ofList name)) (c :: name), rest.dropWhile continuesWord)
  else if startsWord c then
    (.word (c :: rest.takeWhile continuesWord), rest.dropWhile continuesWord)
  else if c.isDigit then
    (.literal (c :: rest.takeWhile continuesNumber), rest.dropWhile continuesNumber)
  else if Text.isBlank c then
    (.blank c, rest)
  else
    (.symbol c, rest)

theorem next_source_append (before : Option Char) (c : Char) (rest : List Char) :
    (next before c rest).1.source ++ (next before c rest).2 = c :: rest := by
  fun_cases next before c rest
  case case5 _ _ _ _ hc _ =>
    obtain ⟨more, rfl⟩ := List.head?_eq_some_iff.1 hc.2
    simp +zetaDelta [Lexeme.source, splitBlockComment_append]
  case case7 _ _ _ _ _ _ hc =>
    obtain ⟨more, rfl⟩ := List.head?_eq_some_iff.1 hc.2
    simp [Lexeme.source, hc.1]
  all_goals
    simp +zetaDelta [Lexeme.source, Quotation.read_source_append_rest, splitLine_append]

theorem next_source_ne_nil (before : Option Char) (c : Char) (rest : List Char) :
    (next before c rest).1.source ≠ [] := by
  fun_cases next before c rest
  all_goals simp [Lexeme.source]

theorem next_length_le (before : Option Char) (c : Char) (rest : List Char) :
    (next before c rest).2.length ≤ rest.length := by
  have h := congrArg List.length (next_source_append before c rest)
  have := List.length_pos_iff.2 (next_source_ne_nil before c rest)
  simp at h
  omega

def scan (before : Option Char) : List Char → List Lexeme
  | [] => []
  | c :: rest =>
    (next before c rest).1 :: scan (next before c rest).1.trailing (next before c rest).2
termination_by s => s.length
decreasing_by exact Nat.lt_succ_of_le (next_length_le before c rest)

/-- Scanning loses and invents no character. -/
theorem flatMap_source_scan (before : Option Char) (s : List Char) :
    (scan before s).flatMap Lexeme.source = s := by
  fun_induction scan before s with
  | case1 => rfl
  | case2 before c rest ih => simp [ih, next_source_append]

end DataAccess.Sql
