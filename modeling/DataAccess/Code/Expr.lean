import DataAccess.Code.TypeExpr

/-!
This module contains the syntax of the generated code: expressions, statements and blocks over the
functions and methods that the runtime library offers. What the code refers to is said by name of
the runtime's operation, so that the meaning of a body can be read off its syntax; how it is written
is a matter of the printer.
-/

namespace DataAccess.Code

inductive CodeType where
  | declared (t : TypeExpr)
  | unit
  | count
  | result (value : CodeType)
  | option (value : CodeType)
  | signal
  | statement
  | entity (name : String)

inductive Function where
  | acquire
  | newSharedStatement
  | statementText
  | appendPlaceholders
  | rowCount (type : TypeExpr)
  | toColumn (converter : Path)
  | fromColumn (converter : Path)
  | createFuture
  | createStream
  | launch
  | newInsertAdapter (entity : String)
  | newChangeAdapter (entity : String)
  | newUpsertAdapter
  | share
  | clone
  | toText
  | convert
  | newText
  | listWithCapacity
  | rowAdapter (name : String)
  | interfaceMethod (interface name : String)
  | declared (path : Path)

inductive Method where
  | acquire
  | newQuery
  | bind
  | bindNull
  | len
  | iter
  | pushText
  | push
  | query
  | executeOn
  | executeInsertOn
  | runInTransaction
  | moveToNext
  | count
  | close
  | isNull
  | columnIndex
  | get (type : Option CodeType)
  | map
  | insert
  | insertAll
  | insertReturningId
  | insertReturningIds
  | handle
  | handleAll
  | upsert
  | upsertAll
  | upsertReturningId
  | upsertReturningIds
deriving Inhabited

mutual

inductive Expr where
  | var (name : String)
  | text (value : String)
  | number (n : Nat) (typed : Bool)
  | bool (b : Bool)
  | unit
  | field (e : Expr) (name : String)
  | call (f : Function) (args : List Expr)
  | function (f : Function)
  | method (receiver : Expr) (m : Method) (args : List Expr)
  | borrow (e : Expr)
  | borrowMut (e : Expr)
  /-- The value of a fallible expression; a failure is returned from the body at once. -/
  | attempt (e : Expr)
  | add (a b : Expr)
  | array (items : List Expr)
  | ok (e : Expr)
  | err (e : Expr)
  | some (e : Expr)
  | none
  | missingResult (statement : Expr)
  | record (name : String) (fields : List FieldInit)
  | block (b : Block)
  | ifElse (condition : Expr) (yes no : Block)
  | matchOption (e : Expr) (binder : String) (present : Block) (absent : Expr)
  | closure (moves : Bool) (params : List (String × CodeType)) (result : Option CodeType)
      (body : Block)

inductive FieldInit where
  | mk (name : String) (value : Expr)

inductive Stmt where
  | bind (mutable : Bool) (name : String) (type : Option CodeType) (value : Expr)
  | run (e : Expr)
  | runBlock (e : Expr)
  | addTo (name : String) (value : Expr)
  | forIn (name : String) (items : Expr) (body : List Stmt)
  | whileLoop (condition : Expr) (body : List Stmt)
  | ret (e : Expr)

inductive Block where
  | mk (statements : List Stmt) (result : Option Expr)

end

instance : Inhabited Expr := ⟨.unit⟩

instance : Inhabited Block := ⟨.mk [] .none⟩

namespace Block

def statements : Block → List Stmt
  | mk statements _ => statements

def result : Block → Option Expr
  | mk _ result => result

def ofExpr (e : Expr) : Block :=
  mk [] (some e)

def prepend (front : List Stmt) (b : Block) : Block :=
  mk (front ++ b.statements) b.result

end Block

end DataAccess.Code
