import DataAccess.Value.Basic
import DataAccess.Value.Integer

/-!
This module contains the types that a column can be read as and written from. Reading checks the
storage class and the range; only options take an absent value.
-/

namespace DataAccess

inductive StorableInt where
  | i8
  | i16
  | i32
  | i64
  | u8
  | u16
  | u32
deriving DecidableEq, Repr

def StorableInt.type : StorableInt → IntType
  | i8 => .i8
  | i16 => .i16
  | i32 => .i32
  | i64 => .i64
  | u8 => .u8
  | u16 => .u16
  | u32 => .u32

inductive ColumnType where
  | int (t : StorableInt)
  | bool
  | double
  | single
  | text
  | blob
  | value
  | option (t : ColumnType)
deriving DecidableEq, Repr, Inhabited

inductive ConversionError where
  | unexpectedNull
  | mismatch (expected : ColumnType) (found : StorageClass)
deriving DecidableEq, Repr

namespace ColumnType

def Val : ColumnType → Type
  | int t => { n : Int // t.type.has n }
  | bool => Bool
  | double => Float
  | single => Float32
  | text => String
  | blob => List UInt8
  | value => Value
  | option t => Option t.Val

def name : ColumnType → String
  | int t => t.type.name
  | bool => "bool"
  | double => "f64"
  | single => "f32"
  | text => "String"
  | blob => "Vec<u8>"
  | value => "Value"
  | option t => "Option<" ++ t.name ++ ">"

def store : (t : ColumnType) → t.Val → Value
  | int _, n => .integer (Int64.ofInt n.val)
  | bool, b => .integer (Bool.toInt64 b)
  | double, x => .real x
  | single, x => .real (Float32.toFloat x)
  | text, s => .text s
  | blob, b => .blob b
  | value, v => v
  | option _, none => .null
  | option t, some v => t.store v

def refuse (t : ColumnType) (v : Value) : ConversionError :=
  if v.isNull then .unexpectedNull else .mismatch t v.storage

/-- A stored value read as a type. A whole number may be read as a real, and any integer as a
truth value. -/
def read : (t : ColumnType) → Value → Except ConversionError t.Val
  | int t, v =>
    match v with
    | .integer n =>
      if h : t.type.has n.toInt then .ok ⟨n.toInt, h⟩ else .error (.mismatch (int t) .integer)
    | _ => .error (refuse (int t) v)
  | bool, v =>
    match v with
    | .integer n => .ok (n != (0 : Int64))
    | _ => .error (refuse bool v)
  | double, v =>
    match v with
    | .real x => .ok x
    | .integer n => .ok n.toFloat
    | _ => .error (refuse double v)
  | single, v =>
    match v with
    | .real x => .ok x.toFloat32
    | .integer n => .ok n.toFloat.toFloat32
    | _ => .error (refuse single v)
  | text, v =>
    match v with
    | .text s => .ok s
    | _ => .error (refuse text v)
  | blob, v =>
    match v with
    | .blob b => .ok b
    | _ => .error (refuse blob v)
  | value, v => .ok v
  | option t, v => if v.isNull then .ok none else (t.read v).map some

end ColumnType

end DataAccess
