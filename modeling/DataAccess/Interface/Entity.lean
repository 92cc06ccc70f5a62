import DataAccess.Code.TypeExpr

/-!
This module contains entities: the row types of an interface, with the columns that their fields
live in and the fields that make up their key.
-/

namespace DataAccess

open Code (Path)

structure Field where
  name : String
  column : String
  nullable : Bool
  converter : Option Path
deriving Inhabited

/-- A row type. A projection is a part of another entity, whose table its rows are written to. -/
structure Entity where
  name : String
  table : String
  fields : List Field
  primaryKey : List String
  projectionOf : Option String
deriving Inhabited

namespace Entity

def keyFields (e : Entity) : List Field :=
  e.primaryKey.filterMap fun key => e.fields.find? (·.name == key)

def hasCompleteKey (e : Entity) : Bool :=
  !e.primaryKey.isEmpty && e.keyFields.length == e.primaryKey.length

def fingerprint (e : Entity) : String :=
  e.table ++ "(" ++ ",".intercalate (e.fields.map (·.column)) ++ ")"

def label (e : Entity) : String :=
  match e.projectionOf with
  | some full => e.name ++ ">" ++ full
  | none => e.name

def converters (e : Entity) : List Path :=
  e.fields.filterMap (·.converter)

end Entity

end DataAccess
