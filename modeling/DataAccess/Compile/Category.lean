import DataAccess.Compile.Binding
import DataAccess.Compile.Event

/-!
This module contains the categories that methods fall into, with everything that was found out about
a method of each category.
-/

namespace DataAccess

open Code (Path TypeExpr)

inductive Multiplicity where
  | single
  | optional
  | list
deriving DecidableEq, Repr

inductive Row where
  | entity (e : Entity)
  | scalar (type : TypeExpr)

/-- The result of a read: rows, how many of them, and the declared type of all of them. -/
structure Shape where
  multiplicity : Multiplicity
  row : Row
  value : TypeExpr

structure ReadQuery where
  statement : BoundStatement
  shape : Shape
  tables : List String
  inTransaction : Bool

inductive WriteResult where
  | unit
  | count (type : TypeExpr)
  | rowId

structure WriteQuery where
  statement : BoundStatement
  result : WriteResult
  tables : List String

inductive ShortcutOp where
  | insert (policy : ConflictPolicy)
  | delete
  | update (policy : ConflictPolicy)
  | upsert
deriving DecidableEq, Repr

def ShortcutOp.tag : ShortcutOp → String
  | insert _ => "insert"
  | delete => "delete"
  | update _ => "update"
  | upsert => "upsert"

def ShortcutOp.needsKey : ShortcutOp → Bool
  | insert _ => false
  | _ => true

inductive ShortcutResult where
  | unit
  | count (type : TypeExpr)
  | rowId
  | rowIds

structure ResolvedTarget where
  param : Parameter
  entity : Entity
  /-- The table that is written: for a part of an entity, that of the whole. -/
  table : String
  many : Bool

structure Shortcut where
  op : ShortcutOp
  targets : List ResolvedTarget
  result : ShortcutResult

inductive RawSource where
  | text (p : Parameter)
  | owned (p : Parameter)
  | borrowed (p : Parameter)
  | missing

structure RawQuery where
  source : RawSource
  shape : Shape
  tables : List String

inductive Category where
  | read (q : ReadQuery)
  | write (q : WriteQuery)
  | shortcut (s : Shortcut)
  | transaction (body : Path)
  | raw (q : RawQuery)
  | delegate (target : Method)

namespace Category

def tag : Category → String
  | read _ => "read query"
  | write _ => "write query"
  | shortcut s => s.op.tag
  | transaction _ => "transaction"
  | raw _ => "raw query"
  | delegate _ => "delegate"

def supports : Category → Delivery → Bool
  | read _, _ | raw _, _ => true
  | delegate _, d => d == .direct
  | _, d => d != .stream

def movesParameters : Category → Bool
  | shortcut _ | transaction _ => true
  | _ => false

end Category

structure Classified where
  method : Method
  category : Category
  unused : List Parameter

namespace Classified

def events (c : Classified) : List Event :=
  c.unused.map (fun p => .unusedParameter c.method.name p.name) ++
    [.classified c.method.name c.category.tag c.method.delivery.name]

end Classified

end DataAccess
