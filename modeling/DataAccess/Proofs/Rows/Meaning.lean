import DataAccess.Compile.AdapterCode
import DataAccess.Compile.RowCode
import DataAccess.Cursor
import DataAccess.Statement.Basic
import Mathlib.Logic.Function.Basic

/-!
This module contains the meaning of the functions that bind an entity to the slots of a statement, and of
those that read a row as an entity. Both are used with types that are not known here: what is stored for a
value, how it is read again and what converters do is up to these types. Code that makes no sense, or has a
value of another type than is wanted, has no meaning.
-/

namespace DataAccess

open Code (Block Expr FieldInit Path Stmt)

/-- The types that are used with an entity. A type is `τ` by name and `Val` by its values. -/
structure UserTypes {τ : Type} (Val : τ → Type) where
  toValue : (t : τ) → Val t → Value
  fromValue : (t : τ) → Value → Except ConversionError (Val t)
  field : String → τ
  converted : Path → τ
  column : Path → τ
  toColumn : (p : Path) → Val (converted p) → Val (column p)
  fromColumn : (p : Path) → Val (column p) → Val (converted p)

inductive FieldType (τ : Type) where
  | one (t : τ)
  | option (t : τ)
deriving DecidableEq

def FieldType.Val (Val : τ → Type) : FieldType τ → Type
  | one t => Val t
  | option t => Option (Val t)

structure TypedValue (Val : τ → Type) where
  type : FieldType τ
  value : type.Val Val

structure Record (Val : τ → Type) where
  name : String
  entries : List (String × TypedValue Val)

inductive Binding (Val : τ → Type) where
  | statement
  | record (r : Record Val)
  | typed (v : TypedValue Val)

inductive RowBinding where
  | cursor
  | column (index : Nat)

abbrev Attempt :=
  ExceptT Fault Option

def Attempt.senseless : Attempt α :=
  ExceptT.mk none

def TypedValue.as? [DecidableEq τ] {Val : τ → Type} (t : FieldType τ) (v : TypedValue Val)
    : Option (t.Val Val) :=
  if h : v.type = t then some (h ▸ v.value) else none

namespace Cursor

def getWith (c : Cursor) (read : Value → Except ConversionError α) (index : Nat) : Except Fault α :=
  match c.current with
  | none => .error .noCurrentRow
  | some row =>
    match row[index]? with
    | none => .error (.missingColumn ("#" ++ toString index))
    | some v => (read v).mapError (.ofConversion index)

theorem get_eq_getWith (c : Cursor) (t : ColumnType) (index : Nat)
    : c.get t index = c.getWith t.read index := rfl

end Cursor

def AdapterCode.binder? : Expr → Option Expr
  | .call _ [_, _, _, _, binder] => some binder
  | _ => none

namespace UserTypes

variable {τ : Type} {Val : τ → Type} (u : UserTypes Val)

def fieldType (f : Field) : FieldType τ :=
  match f.converter, f.nullable with
  | none, _ => .one (u.field f.name)
  | some p, false => .one (u.converted p)
  | some p, true => .option (u.converted p)

def declared (e : Entity) (name : String) : Option (FieldType τ) :=
  (e.fields.find? (·.name == name)).map u.fieldType

/-- A value of an entity, whose fields are those of a struct and have names of their own. -/
structure Instance (e : Entity) where
  contents : List (Field × TypedValue Val)
  fields : contents.map Prod.fst = e.fields
  typed : ∀ f v, (f, v) ∈ contents → v.type = u.fieldType f
  distinct : (e.fields.map Field.name).Nodup

def Instance.record {u : UserTypes Val} {e : Entity} (i : u.Instance e) : Record Val :=
  ⟨e.name, i.contents.map fun (f, v) => (f.name, v)⟩

variable [DecidableEq τ]

def eval (scope : String → Option (Binding Val)) : Expr → Option (TypedValue Val)
  | .borrow e => eval scope e
  | .var x => do
    let .typed v ← scope x | none
    return v
  | .field (.var x) name => do
    let .record r ← scope x | none
    r.entries.lookup name
  | .call (.toColumn p) [e] => do
    let a ← (← eval scope e).as? (.one (u.converted p))
    return ⟨.one (u.column p), u.toColumn p a⟩
  | _ => none

def effect (scope : String → Option (Binding Val)) (s : Statement) : Expr → Option Statement
  | .method (.var x) .bind [.number slot _, e] => do
    let .statement ← scope x | none
    let ⟨.one t, a⟩ ← u.eval scope e | none
    return s.bind slot (u.toValue t a)
  | .method (.var x) .bindNull [.number slot _] => do
    let .statement ← scope x | none
    return s.bindNull slot
  | .matchOption e x (.mk [] (some present)) absent => do
    let ⟨.option t, o⟩ ← u.eval scope e | none
    match o with
    | some a => effect (Function.update scope x (some (.typed ⟨.one t, a⟩))) s present
    | none => effect scope s absent
  | _ => none

def exec (scope : String → Option (Binding Val)) (s : Statement) : Stmt → Option Statement
  | .run e | .runBlock e => u.effect scope s e
  | _ => none

def callBinder (binder : Expr) (s : Statement) (r : Record Val) : Option Statement :=
  match binder with
  | .closure _ [(x, .statement), (y, .entity name)] none (.mk body none) =>
    let scope := Function.update (fun _ => none) x (some .statement)
    if name = r.name then body.foldlM (u.exec (Function.update scope y (some (.record r)))) s else none
  | _ => none

def lookUp (c : Cursor) (scope : String → Option RowBinding)
    : Stmt → Attempt (String → Option RowBinding)
  | .bind _ x _ (.attempt (.method (.var y) .columnIndex [.text column])) => do
    let some .cursor := scope y | .senseless
    return Function.update scope x (some (.column (← liftM (c.columnIndex column))))
  | _ => .senseless

def read (c : Cursor) (scope : String → Option RowBinding)
    : Expr → (t : FieldType τ) → Attempt (t.Val Val)
  | .attempt (.method (.var y) (.get none) [.var x]), .one t => do
    let some .cursor := scope y | .senseless
    let some (.column index) := scope x | .senseless
    liftM (c.getWith (u.fromValue t) index)
  | .call (.fromColumn p) [e], .one t => do
    let a ← read c scope e (.one (u.column p))
    if h : u.converted p = t then return h ▸ u.fromColumn p a else .senseless
  | .none, .option _ => return none
  | .some e, .option t => do
    let a ← read c scope e (.one t)
    return some a
  | .ifElse (.method (.var y) .isNull [.var x]) (.mk [] (some yes)) (.mk [] (some no)), t => do
    let some .cursor := scope y | .senseless
    let some (.column index) := scope x | .senseless
    if c.isNull index then read c scope yes t else read c scope no t
  | _, _ => .senseless
termination_by e => e

def readInit (types : String → Option (FieldType τ)) (c : Cursor)
    (scope : String → Option RowBinding) : FieldInit → Attempt (String × TypedValue Val)
  | .mk name e => do
    let some t := types name | .senseless
    return (name, ⟨t, ← u.read c scope e t⟩)

def callRow (types : String → Option (FieldType τ)) (c : Cursor) : Block → Attempt (Record Val)
  | .mk lookUps (some (.ok (.record name inits))) => do
    let empty := Function.update (fun _ => none) "_cursor" (some .cursor)
    let scope ← lookUps.foldlM (lookUp c) empty
    return ⟨name, ← inits.mapM (u.readInit types c scope)⟩
  | _ => .senseless

end UserTypes

end DataAccess
