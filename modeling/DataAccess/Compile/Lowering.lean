import DataAccess.Compile.Reading

/-!
This module contains the bodies of classified methods, one function for each category.
-/

namespace DataAccess

open Code (Block Expr Path Stmt)

/-- The body of a read query: a new statement for each call. -/
def ReadQuery.lower (q : ReadQuery) (m : Method) : Drafting Block :=
  Reading.body m.delivery (.owned (q.statement.emit .fresh)) q.shape q.tables q.inTransaction

/-- Where a write query takes its statement from. One without collections is prepared; off the
caller's thread it is copied. -/
def WriteQuery.source (q : WriteQuery) (m : Method) : Drafting StatementSource := do
  if q.statement.isExpandable then return .fresh
  let field ← Drafting.preparedField m q.statement
  return if m.delivery == .direct then .shared field else .copy field

def WriteQuery.run (q : WriteQuery) (delivery : Delivery) : Block :=
  let args : List Expr :=
    [.borrow BoundStatement.statementVar, .borrow (.array (q.tables.map .text))]
  let execute (method : Code.Method) : Expr := .attempt (.method (handleFor delivery) method args)
  let result := Expr.var "_result"
  match q.result with
  | .unit => .mk [.run (execute .executeOn)] (some (.ok .unit))
  | .count type =>
    .mk [.bind false "_result" none (execute .executeOn)] (some (.call (.rowCount type) [result]))
  | .rowId => .mk [.bind false "_result" none (execute .executeInsertOn)] (some (.ok result))

def WriteQuery.lower (q : WriteQuery) (m : Method) : Drafting Block := do
  let source ← q.source m
  let w : Work :=
    { setup := q.statement.emit source
      capture := [captureHandle]
      body := q.run m.delivery
      value := m.value
      inTransaction := false }
  MonadExcept.ofExcept (w.deliver m "write query")

namespace Shortcut

def single : ShortcutOp → Code.Method
  | .insert _ => .insert
  | .delete | .update _ => .handle
  | .upsert => .upsert

def bulk : ShortcutOp → Code.Method
  | .insert _ => .insertAll
  | .delete | .update _ => .handleAll
  | .upsert => .upsertAll

def returning (op : ShortcutOp) (many : Bool) : Code.Method :=
  match op, many with
  | .upsert, false => .upsertReturningId
  | .upsert, true => .upsertReturningIds
  | _, false => .insertReturningId
  | _, true => .insertReturningIds

def self : Delivery → Expr
  | .direct => .var "self"
  | _ => .var "__this"

def callOn (self : Expr) (t : ResolvedTarget) (field : String) (method : Code.Method) : Expr :=
  let param := Expr.var t.param.name
  .attempt (.method (.field self field) method
    [if t.many then .method param .iter [] else .borrow param])

def operate (op : ShortcutOp) (self : Expr) (t : ResolvedTarget) (field : String) : Expr :=
  callOn self t field (if t.many then bulk op else single op)

/-- The work of a shortcut: one operation for each target and its adapter, in order. -/
def run (s : Shortcut) (self : Expr) (fields : List String) : Block :=
  let targets := s.targets.zip fields
  let operations := targets.map fun (t, field) => operate s.op self t field
  match s.result with
  | .unit => .mk (operations.map .run) (some (.ok .unit))
  | .count type =>
    .mk (.bind true "_total" (some .count) (.number 0 false) :: operations.map (.addTo "_total"))
      (some (.call (.rowCount type) [.var "_total"]))
  | .rowId | .rowIds =>
    .mk ((targets.take 1).map fun (t, field) =>
        .bind false "_result" none (callOn self t field (returning s.op t.many)))
      (some (.ok (.var "_result")))

/-- The body of a shortcut: all its operations in one transaction. -/
def lower (s : Shortcut) (m : Method) : Drafting Block := do
  let fields ← s.targets.mapM (Drafting.adapterField s.op)
  let w : Work :=
    { setup := []
      capture := [captureSelf]
      body := s.run (self m.delivery) fields
      value := m.value
      inTransaction := true }
  MonadExcept.ofExcept (w.deliver m s.op.tag)

end Shortcut

def lowerTransaction (m : Method) (function : Path) : Drafting Block :=
  let self : Expr := if m.delivery == .direct then .var "self" else .borrow (.var "__this")
  let w : Work :=
    { setup := []
      capture := [captureSelf]
      body := Block.ofExpr (.call (.declared function) (self :: m.params.map fun p => .var p.name))
      value := m.value
      inTransaction := true }
  MonadExcept.ofExcept (w.deliver m "transaction")

namespace RawQuery

def missingSql : String :=
  "missing query parameter"

def statement (q : RawQuery) : ReadStatement :=
  let declare (value : Expr) : ReadStatement := .owned [.bind false "_statement" none value]
  match q.source with
  | .text p => declare (.call .acquire [.var p.name, .number 0 true])
  | .owned p => declare (.var p.name)
  | .borrowed p => .borrowed (.var p.name)
  | .missing => declare (.call .acquire [.text missingSql, .number 0 true])

def lower (q : RawQuery) (m : Method) : Drafting Block := do
  if let .missing := q.source then modify (·.report (.missingStatement m.name))
  Reading.body m.delivery q.statement q.shape q.tables false

end RawQuery

def lowerDelegate (interface : String) (m target : Method) : Block :=
  let args := m.params.map fun p => Expr.call .convert [.var p.name]
  Block.ofExpr <|
    .method (.call (.interfaceMethod interface target.name) (.var "self" :: args)) .map
      [.function .convert]

def Classified.lower (interface : String) (c : Classified) : Drafting Block := do
  match c.category with
  | .read q => q.lower c.method
  | .write q => q.lower c.method
  | .shortcut s => s.lower c.method
  | .transaction function => lowerTransaction c.method function
  | .raw q => q.lower c.method
  | .delegate target => return lowerDelegate interface c.method target

end DataAccess
