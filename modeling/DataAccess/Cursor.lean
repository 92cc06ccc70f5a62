import DataAccess.Cancellation.Basic

/-!
This module contains cursors over the rows of a result. A cursor stands before its rows at first, goes
through them one by one, and is closed once, which runs the hook that it may have.
-/

namespace DataAccess

abbrev RowValues := List Value

structure Cursor where
  columns : List String
  rest : List RowValues
  count : Nat
  current : Option RowValues
  closed : Bool
  signal : Option Nat
  hooked : Bool
  hookRuns : Nat

namespace Cursor

def new (columns : List String) (rows : List RowValues) (signal : Option Nat) : Cursor :=
  ⟨columns, rows, rows.length, none, false, signal, false, 0⟩

def onClose (c : Cursor) : Cursor :=
  { c with hooked := true }

def bareName (name : String) : String :=
  let ticked (c : Char) : Bool := c == '\x60'
  String.ofList ((name.toList.dropWhile ticked).reverse.dropWhile ticked).reverse

/-- The index of the column of a name: one that is written so, or else one that only differs in the
backticks around it. -/
def columnIndex? (c : Cursor) (name : String) : Option Nat :=
  (c.columns.findIdx? (· == name)).or (c.columns.findIdx? fun n => bareName n == bareName name)

def columnIndex (c : Cursor) (name : String) : Except Fault Nat :=
  match c.columnIndex? name with
  | some i => .ok i
  | none => .error (.missingColumn name)

/-- Goes to the next row and tells whether there is one. If the cursor's signal is set, the cursor
stays where it is. -/
def next (c : Cursor) (signals : Cancellation) : Except Fault Bool × Cursor :=
  if c.closed then (.ok false, c)
  else if c.signal.any signals.isSet then (.error .cancelled, c)
  else (.ok (!c.rest.isEmpty), { c with current := c.rest.head?, rest := c.rest.tail })

/-- Whether a column of the current row is absent, or not there at all. -/
def isNull (c : Cursor) (index : Nat) : Bool :=
  match c.current.bind (·[index]?) with
  | some v => v.isNull
  | none => true

def get (c : Cursor) (t : ColumnType) (index : Nat) : Except Fault t.Val :=
  match c.current with
  | none => .error .noCurrentRow
  | some row =>
    match row[index]? with
    | none => .error (.missingColumn ("#" ++ toString index))
    | some v => (t.read v).mapError (.ofConversion index)

def close (c : Cursor) : Cursor :=
  if c.closed then c
  else
    { c with
      closed := true
      rest := []
      current := none
      hookRuns := if c.hooked then c.hookRuns + 1 else c.hookRuns }

end Cursor

end DataAccess
