import DataAccess.Code.TypeExpr
import DataAccess.Sql.Conflict

/-!
This module contains the methods that an interface declares: their parameters, what they return,
how they deliver it and what they do.
-/

namespace DataAccess

open Code (Path TypeExpr)

inductive Delivery where
  | direct
  | suspend
  | future
  | stream
deriving DecidableEq, Repr, Inhabited

namespace Delivery

def isAsync : Delivery → Bool
  | direct => false
  | _ => true

def name : Delivery → String
  | direct => "direct"
  | suspend => "suspend"
  | future => "future"
  | stream => "stream"

end Delivery

inductive RowShape where
  | entity (name : String)
  | scalar (type : TypeExpr)

inductive ResultShape where
  | single (row : RowShape) (nullable : Bool)
  | list (row : RowShape)

def ResultShape.row : ResultShape → RowShape
  | single row _ => row
  | list row => row

structure Target where
  param : String
  entity : String
  many : Bool
deriving Inhabited

inductive MethodKind where
  | read (sql : String) (shape : Option ResultShape) (tables : List String) (inTransaction : Bool)
  | write (sql : String)
  | insert (targets : List Target) (policy : ConflictPolicy)
  | delete (targets : List Target)
  | update (targets : List Target) (policy : ConflictPolicy)
  | upsert (targets : List Target)
  | transaction (body : Path)
  | raw (param : Option String) (shape : Option ResultShape) (tables : List String)
  | delegate (target : String)

namespace MethodKind

/-- Declares the result shape of a query; other methods have none. -/
def withShape (shape : ResultShape) : MethodKind → MethodKind
  | read sql _ tables inTransaction => read sql shape tables inTransaction
  | raw param _ tables => raw param shape tables
  | kind => kind

/-- Declares the tables that a query depends on; other methods declare none. -/
def observing (tables : List String) : MethodKind → MethodKind
  | read sql shape _ inTransaction => read sql shape tables inTransaction
  | raw param shape _ => raw param shape tables
  | kind => kind

def shape? : MethodKind → Option ResultShape
  | read _ shape _ _ => shape
  | raw _ shape _ => shape
  | _ => none

end MethodKind

structure Parameter where
  name : String
  type : TypeExpr
  /-- Whether the parameter is a collection that stands for as many arguments as it has items. -/
  multiple : Bool
  converter : Option Path
deriving Inhabited

def Parameter.isBorrowed (p : Parameter) : Bool :=
  p.type.borrows

structure Method where
  name : String
  params : List Parameter
  returns : Option TypeExpr
  delivery : Delivery
  kind : MethodKind

def Method.param? (m : Method) (name : String) : Option Parameter :=
  m.params.find? (·.name == name)

end DataAccess
