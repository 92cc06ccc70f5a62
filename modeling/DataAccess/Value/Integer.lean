/-!
This module contains the integer types of values and counts, with their ranges.
-/

namespace DataAccess

/-- An integer type. The sizes are those of a machine with 64-bit words. -/
inductive IntType where
  | i8
  | i16
  | i32
  | i64
  | i128
  | isize
  | u8
  | u16
  | u32
  | u64
  | u128
  | usize
deriving DecidableEq, Repr

namespace IntType

def name : IntType → String
  | i8 => "i8"
  | i16 => "i16"
  | i32 => "i32"
  | i64 => "i64"
  | i128 => "i128"
  | isize => "isize"
  | u8 => "u8"
  | u16 => "u16"
  | u32 => "u32"
  | u64 => "u64"
  | u128 => "u128"
  | usize => "usize"

def size : IntType → Nat
  | i8 | u8 => UInt8.size
  | i16 | u16 => UInt16.size
  | i32 | u32 => UInt32.size
  | i64 | u64 | isize | usize => UInt64.size
  | i128 | u128 => UInt64.size * UInt64.size

def signed : IntType → Bool
  | i8 | i16 | i32 | i64 | i128 | isize => true
  | u8 | u16 | u32 | u64 | u128 | usize => false

def least (t : IntType) : Int :=
  if t.signed then -(t.size / 2 : Nat) else 0

def greatest (t : IntType) : Int :=
  if t.signed then (t.size / 2 : Nat) - 1 else t.size - 1

def has (t : IntType) (n : Int) : Prop :=
  t.least ≤ n ∧ n ≤ t.greatest

instance (t : IntType) (n : Int) : Decidable (t.has n) :=
  inferInstanceAs (Decidable (_ ∧ _))

end IntType

end DataAccess
