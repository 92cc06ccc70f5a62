/-!
This module contains the values that a database stores and the classes they are stored in.
-/

namespace DataAccess

inductive StorageClass where
  | null
  | integer
  | real
  | text
  | blob
deriving DecidableEq, Repr

def StorageClass.name : StorageClass → String
  | null => "NULL"
  | integer => "INTEGER"
  | real => "REAL"
  | text => "TEXT"
  | blob => "BLOB"

inductive Value where
  | null
  | integer (n : Int64)
  | real (x : Float)
  | text (s : String)
  | blob (bytes : List UInt8)
deriving Inhabited

namespace Value

def storage : Value → StorageClass
  | null => .null
  | integer _ => .integer
  | real _ => .real
  | text _ => .text
  | blob _ => .blob

def isNull : Value → Bool
  | null => true
  | _ => false

/-- Values of one class are compared as what they are, so that a real that is no number differs from
itself. Values of two classes are never the same. -/
def same : Value → Value → Bool
  | null, null => true
  | integer m, integer n => m == n
  | real x, real y => x == y
  | text s, text t => s == t
  | blob b, blob c => b == c
  | _, _ => false

instance : BEq Value := ⟨same⟩

end Value

end DataAccess
