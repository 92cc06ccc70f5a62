import DataAccess.Value.Column

/-!
This module contains statements with their arguments. Slots are counted from one, start out absent,
and come into being when they are bound.
-/

namespace DataAccess

structure Statement where
  sql : String
  bindings : List Value
deriving Inhabited

namespace Statement

def acquire (sql : String) (argCount : Nat) : Statement :=
  ⟨sql, List.replicate argCount .null⟩

def empty : Statement :=
  ⟨"", []⟩

def argCount (s : Statement) : Nat :=
  s.bindings.length

/-- Puts a value in a slot; slots up to it come into being. There is no slot zero. -/
def bind (s : Statement) (index : Nat) (v : Value) : Statement :=
  match index with
  | 0 => s
  | slot + 1 =>
    { s with bindings :=
        (s.bindings ++ List.replicate (slot + 1 - s.bindings.length) Value.null).set slot v }

def bindNull (s : Statement) (index : Nat) : Statement :=
  s.bind index .null

def clear (s : Statement) : Statement :=
  { s with bindings := s.bindings.map fun _ => .null }

/-- Whether two statements have the same text and the same values. -/
def same (s t : Statement) : Bool :=
  s.sql == t.sql && s.bindings == t.bindings

@[simp]
theorem argCount_acquire (sql : String) (n : Nat) : (acquire sql n).argCount = n := by
  simp [acquire, argCount]

theorem argCount_bind (s : Statement) (slot : Nat) (v : Value) :
    (s.bind (slot + 1) v).argCount = max s.argCount (slot + 1) := by
  simp [bind, argCount]
  omega

@[simp]
theorem argCount_clear (s : Statement) : s.clear.argCount = s.argCount := by
  simp [clear, argCount]

end Statement

def appendPlaceholders (text : String) (count : Nat) : String :=
  text ++ ",".intercalate (List.replicate count "?")

end DataAccess
