/-!
This module contains tables of characters outside ASCII, given as ranges of code points.
-/

namespace DataAccess.Text

abbrev Ranges := List (Nat × Nat)

def Ranges.has (ranges : Ranges) (c : Char) : Bool :=
  128 ≤ c.toNat && ranges.any fun r => r.1 ≤ c.toNat && c.toNat ≤ r.2

end DataAccess.Text
