import DataAccess.Sql.Template
import DataAccess.Code.Expr
import DataAccess.Compile.Problem

/-!
This module contains statements whose placeholders have been matched with parameters, and the code
that builds such a statement and binds its arguments. A statement without collections has a fixed
text and can be prepared; with collections its text depends on how many items they hold.
-/

namespace DataAccess

open Code (Block Expr Stmt)

/-- A part of a statement: text, or the parameter that takes the place of a placeholder. -/
inductive Slot where
  | text (chars : List Char)
  | param (p : Parameter)

structure BoundStatement where
  template : Sql.Template
  slots : List Slot

namespace BoundStatement

/-- The number of the parameter that a placeholder takes, counted from zero, and the highest number
taken so far including it, counted from one. -/
def position (params : List Parameter) (highest : Nat) : Sql.Placeholder → Option Nat × Nat
  | .anonymous =>
    let highest := min Sql.maxSlot (highest + 1)
    (some (highest - 1), highest)
  | .numbered n => (if n = 0 then none else some (n - 1), max highest n)
  | .named _ name => (params.findIdx? (·.name == name), highest)

/-- Matches the placeholders among sections with parameters. The first placeholder that has none
is the error. -/
def slotsOf (params : List Parameter) (highest : Nat) :
    List Sql.Section → Except Sql.Placeholder (List Slot)
  | [] => .ok []
  | .text chars :: rest => do return .text chars :: (← slotsOf params highest rest)
  | .placeholder p :: rest =>
    match position params highest p with
    | (some i, highest) =>
      match params[i]? with
      | some param => do return .param param :: (← slotsOf params highest rest)
      | none => .error p
    | (none, _) => .error p

def takenPositions (params : List Parameter) (highest : Nat) : List Sql.Section → List Nat
  | [] => []
  | .text _ :: rest => takenPositions params highest rest
  | .placeholder p :: rest =>
    let (found, highest) := position params highest p
    found.toList ++ takenPositions params highest rest

def resolve (m : Method) (sql : String) : Except Problem BoundStatement :=
  let template := Sql.Template.ofString sql
  match slotsOf m.params 0 template.sections with
  | .ok slots => .ok ⟨template, slots⟩
  | .error p => .error (.placeholderWithoutParameter m.name p.text)

def unused (m : Method) (sql : String) : List Parameter :=
  let taken := takenPositions m.params 0 (Sql.Template.ofString sql).sections
  (m.params.zipIdx.filter fun (_, i) => !taken.contains i).map Prod.fst

def params (s : BoundStatement) : List Parameter :=
  s.slots.filterMap fun
    | .param p => some p
    | .text _ => none

def isExpandable (s : BoundStatement) : Bool :=
  s.params.any (·.multiple)

def argCount (s : BoundStatement) : Nat :=
  s.params.length

def positionalSql (s : BoundStatement) : String :=
  s.template.positional

end BoundStatement

inductive StatementSource where
  | fresh
  | shared (field : String)
  | copy (field : String)

namespace BoundStatement

def statementVar : Expr := .var "_statement"

def converted (converter : Option Code.Path) (plain : Expr) (argument : Expr) : Expr :=
  match converter with
  | some c => .borrow (.call (.toColumn c) [argument])
  | none => plain

def scalarValue (p : Parameter) : Expr :=
  converted p.converter (.borrow (.var p.name)) (.borrow (.var p.name))

def itemValue (p : Parameter) : Expr :=
  converted p.converter (.var "_item") (.var "_item")

def bindTo (slot value : Expr) : Stmt :=
  .run (.method statementVar .bind [slot, value])

def fixedStatement (s : BoundStatement) : StatementSource → Expr
  | .fresh => .call .acquire [.text s.positionalSql, .number s.argCount true]
  | .shared field => .method (.field (.var "self") field) .acquire []
  | .copy field => .method (.field (.var "self") field) .newQuery []

def emitFixed (s : BoundStatement) (source : StatementSource) : List Stmt :=
  .bind (s.argCount != 0) "_statement" none (s.fixedStatement source) ::
    s.params.zipIdx.map fun (p, i) => bindTo (.number (i + 1) true) (scalarValue p)

def sizeName (k : Nat) : String :=
  "_input_size_" ++ toString k

def appendText (pending : List Char) : List Stmt :=
  if pending.isEmpty then []
  else [.run (.method (.var "_string_builder") .pushText [.text (String.ofList pending)])]

/-- Builds the text of a statement with collections: `pending` is text not yet appended, and `k` is
the number of collections so far. -/
def emitText (pending : List Char) (k : Nat) : List Slot → List Stmt
  | [] => appendText pending
  | .text chars :: rest => emitText (pending ++ chars) k rest
  | .param p :: rest =>
    if p.multiple then
      appendText pending ++
        [.bind false (sizeName (k + 1)) none (.method (.var p.name) .len []),
         .run (.call .appendPlaceholders
          [.borrowMut (.var "_string_builder"), .var (sizeName (k + 1))])] ++
        emitText [] (k + 1) rest
    else emitText (pending ++ ['?']) k rest

def advance : Stmt :=
  .addTo "_arg_index" (.number 1 false)

def emitBinds : List Parameter → List Stmt
  | [] => []
  | p :: rest =>
    let slot := Expr.var "_arg_index"
    if p.multiple then
      .forIn "_item" (.method (.var p.name) .iter []) [bindTo slot (itemValue p), advance] ::
        emitBinds rest
    else
      bindTo slot (scalarValue p) :: ((if rest.isEmpty then [] else [advance]) ++ emitBinds rest)

def argCountExpr (s : BoundStatement) : Expr :=
  let collections := s.params.filter (·.multiple)
  let sizes := (List.range collections.length).map fun k => Expr.var (sizeName (k + 1))
  sizes.foldl .add (.number (s.params.filter fun p => !p.multiple).length true)

def emitExpanded (s : BoundStatement) : List Stmt :=
  [.bind true "_string_builder" none (.call .newText [])] ++
    emitText [] 0 s.slots ++
    [.bind false "_sql" none (.var "_string_builder"),
     .bind false "_arg_count" (some .count) s.argCountExpr,
     .bind true "_statement" none (.call .acquire [.var "_sql", .var "_arg_count"]),
     .bind true "_arg_index" (some .count) (.number 1 false)] ++
    emitBinds s.params

/-- The code that declares the statement and binds its arguments. Only statements without
collections can be prepared; others are new for each call. -/
def emit (s : BoundStatement) (source : StatementSource) : List Stmt :=
  if s.isExpandable then s.emitExpanded else s.emitFixed source

end BoundStatement

end DataAccess
