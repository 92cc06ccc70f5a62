import DataAccess.Code.Expr
import DataAccess.Compile.Event
import DataAccess.Compile.Problem
import DataAccess.Text.NameSet

/-!
This module contains the implementation of an interface while it is being drafted: the helpers that
its methods share, the functions that read rows, and the converters in use. A helper is requested by
a key; the first request declares it, and later ones get the same field as long as they mean the same
structure.
-/

namespace DataAccess

open Code (Block Expr Path)

inductive HelperType where
  | insertAdapter (entity : String)
  | changeAdapter (entity : String)
  | upsertAdapter (entity : String)
  | sharedStatement
deriving DecidableEq, Repr

structure HelperRequest where
  key : String
  fingerprint : String
  name : String
  type : HelperType
  value : Expr

structure HelperField where
  name : String
  type : HelperType
  value : Expr
  key : String
  fingerprint : String

structure RowAdapter where
  name : String
  entity : String
  fingerprint : String
  body : Block

structure Draft where
  fields : List HelperField
  rowAdapters : List RowAdapter
  converters : NameSet
  events : List Event

namespace Draft

def empty : Draft :=
  ⟨[], [], [], []⟩

def candidate (base : String) : Nat → String
  | 0 => base
  | k + 1 => base ++ "_" ++ toString (k + 1)

/-- The first candidate that is not among the taken names. There are more candidates than names. -/
def freeName (taken : List String) (base : String) : String :=
  let free := (List.range (taken.length + 1)).find? fun k => !taken.contains (candidate base k)
  candidate base (free.getD 0)

def noteConverter (d : Draft) (converter : Path) : Draft :=
  { d with converters := NameSet.insert converter.compact d.converters }

def noteConverters (d : Draft) (converters : List Path) : Draft :=
  converters.foldl noteConverter d

def report (d : Draft) (e : Event) : Draft :=
  { d with events := d.events ++ [e] }

def field? (d : Draft) (key : String) : Option HelperField :=
  d.fields.find? (·.key == key)

/-- Asks for a helper: the name of its field, and the draft with the field in it. -/
def request (d : Draft) (r : HelperRequest) : Except Problem (String × Draft) :=
  match d.field? r.key with
  | some existing =>
    if existing.fingerprint = r.fingerprint then .ok (existing.name, d)
    else .error (.helperCollision r.key existing.fingerprint r.fingerprint)
  | none =>
    let name := freeName (d.fields.map (·.name)) r.name
    let field : HelperField := ⟨name, r.type, r.value, r.key, r.fingerprint⟩
    let d : Draft := { d with fields := d.fields ++ [field] }
    .ok (name, d.report (.registeredHelper r.key name))

/-- Asks for the function that reads rows as an entity; `body` is its body if it is new, `converters`
are those that it uses. -/
def requestRow (d : Draft) (adapter : RowAdapter) (converters : List Path) :
    Except Problem (String × Draft) :=
  match d.rowAdapters.find? (·.entity == adapter.entity) with
  | some existing =>
    if existing.fingerprint = adapter.fingerprint then .ok (existing.name, d)
    else
      .error (.helperCollision ("row:" ++ adapter.entity) existing.fingerprint adapter.fingerprint)
  | none =>
    let d := d.noteConverters converters
    let d : Draft := { d with rowAdapters := d.rowAdapters ++ [adapter] }
    .ok (adapter.name, d.report (.registeredRowAdapter adapter.entity adapter.name))

end Draft

/-- Work on a draft that may find a problem. What was drafted before the problem stays. -/
abbrev Drafting := ExceptT Problem (StateM Draft)

namespace Drafting

def request (r : HelperRequest) : Drafting String := do
  match (← get).request r with
  | .ok (name, d) => set d; return name
  | .error p => throw p

def requestRow (adapter : RowAdapter) (converters : List Path) : Drafting String := do
  match (← get).requestRow adapter converters with
  | .ok (name, d) => set d; return name
  | .error p => throw p

end Drafting

end DataAccess
