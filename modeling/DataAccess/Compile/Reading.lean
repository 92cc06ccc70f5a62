import DataAccess.Compile.AdapterCode
import DataAccess.Compile.Delivering
import DataAccess.Compile.RowCode

/-!
This module contains the reading of results: the code that runs a statement, reads the declared rows,
closes the cursor and returns.
-/

namespace DataAccess

open Code (Block CodeType Expr Stmt TypeExpr)

inductive ReadStatement where
  | owned (setup : List Stmt)
  | borrowed (e : Expr)

namespace ReadStatement

def inPlace : ReadStatement → List Stmt × Expr
  | owned setup => (setup, .borrow BoundStatement.statementVar)
  | borrowed e => ([], e)

def moved : ReadStatement → List Stmt × Expr
  | owned setup => (setup, .borrow BoundStatement.statementVar)
  | borrowed e =>
    ([.bind false "_statement" none (.call .clone [e])], .borrow BoundStatement.statementVar)

def forDelivery (s : ReadStatement) : Delivery → List Stmt × Expr
  | .direct => s.inPlace
  | _ => s.moved

end ReadStatement

/-- How a row is read: as what it is, and as an option of it, where a `NULL` scalar is nothing. -/
structure RowRead where
  value : Expr
  optional : Expr

namespace RowRead

def ofEntity (function : String) : RowRead :=
  let value := Expr.attempt (.call (.rowAdapter function) [.borrow RowCode.cursorVar])
  ⟨value, .some value⟩

def ofScalar (type : TypeExpr) : RowRead :=
  let get (as : CodeType) : Expr :=
    .attempt (.method RowCode.cursorVar (.get (some as)) [.number 0 false])
  ⟨get (.declared type), get (.option (.declared type))⟩

end RowRead

def rowRead : Row → Drafting RowRead
  | .entity e => return .ofEntity (← Drafting.rowFunction e)
  | .scalar type => return .ofScalar type

namespace Reading

def nextRow : Expr :=
  .attempt (.method RowCode.cursorVar .moveToNext [])

/-- What is done when the only row is missing: a stream gives back nothing, other reads fail. -/
def missing (statement : Expr) (streaming : Bool) : Stmt :=
  .ret (if streaming then .ok .none else .err (.missingResult statement))

def readRows (shape : Shape) (row : RowRead) (missing : Stmt) : List Stmt :=
  let result := Expr.var "_result"
  let type := some (CodeType.declared shape.value)
  match shape.multiplicity with
  | .single =>
    [.bind false "_result" type (.ifElse nextRow (Block.ofExpr row.value) (.mk [missing] none))]
  | .optional =>
    [.bind false "_result" type (.ifElse nextRow (Block.ofExpr row.optional) (Block.ofExpr .none))]
  | .list =>
    [.bind true "_result" type
      (.call .listWithCapacity [.method RowCode.cursorVar .count []]),
     .whileLoop nextRow
      [.bind false "_item" none row.value, .run (.method result .push [.var "_item"])]]

def consume (handle statement signal : Expr) (shape : Shape) (row : RowRead) (streaming : Bool) :
    Block :=
  let result := Expr.var "_result"
  .mk
    ([.bind true "_cursor" none (.attempt (.method handle .query [statement, signal]))] ++
      readRows shape row (missing statement streaming) ++
      [.run (.method RowCode.cursorVar .close [])])
    (some (.ok (if streaming then .some result else result)))

def signalFor : Delivery → Expr
  | .future | .suspend => .some (.var "_signal")
  | .direct | .stream => .none

def work (delivery : Delivery) (s : ReadStatement) (shape : Shape) (row : RowRead)
    (inTransaction : Bool) : Work :=
  let (setup, statement) := s.forDelivery delivery
  { setup := setup
    capture := [captureHandle]
    body := consume (handleFor delivery) statement (signalFor delivery) shape row
      (delivery == .stream)
    value := .declared shape.value
    inTransaction := inTransaction }

def body (delivery : Delivery) (s : ReadStatement) (shape : Shape) (tables : List String)
    (inTransaction : Bool) : Drafting Block := do
  let row ← rowRead shape.row
  let w := work delivery s shape row inTransaction
  return match delivery with
    | .direct => w.direct
    | .future => w.future
    | .suspend => w.suspend
    | .stream => w.stream tables

end Reading

end DataAccess
