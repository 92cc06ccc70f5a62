/-!
This module contains the reading of bytes as UTF-8 text where some of them may be no text. The longest
run of bytes that could have begun a character, but did not, is read as one replacement character.
-/

namespace DataAccess.Utf8

structure ByteRange where
  low : Nat
  high : Nat
deriving DecidableEq, Repr

def ByteRange.has (r : ByteRange) (b : UInt8) : Bool :=
  r.low ≤ b.toNat && b.toNat ≤ r.high

def tail : ByteRange :=
  ⟨0x80, 0xBF⟩

/-- The ranges of the bytes behind a character's first byte; nothing if no character begins so. -/
def tails? (first : UInt8) : Option (List ByteRange) :=
  let b := first.toNat
  if b < 0x80 then some []
  else if b < 0xC2 then none
  else if b < 0xE0 then some [tail]
  else if b = 0xE0 then some [⟨0xA0, 0xBF⟩, tail]
  else if b = 0xED then some [⟨0x80, 0x9F⟩, tail]
  else if b < 0xF0 then some [tail, tail]
  else if b = 0xF0 then some [⟨0x90, 0xBF⟩, tail, tail]
  else if b < 0xF4 then some [tail, tail, tail]
  else if b = 0xF4 then some [⟨0x80, 0x8F⟩, tail, tail]
  else none

def matching : List ByteRange → List UInt8 → Nat
  | r :: ranges, b :: bytes => if r.has b then matching ranges bytes + 1 else 0
  | _, _ => 0

/-- The character of a first byte and the bytes behind it. -/
def character (first : UInt8) (rest : List UInt8) : Char :=
  let payload := match rest with
    | [] => first.toNat
    | [_] => first.toNat % 32
    | [_, _] => first.toNat % 16
    | _ => first.toNat % 8
  Char.ofNat (rest.foldl (fun code b => 64 * code + b.toNat % 64) payload)

def replacement : Char :=
  '\uFFFD'

def decodeChars : List UInt8 → List Char
  | [] => []
  | first :: rest =>
    match tails? first with
    | none => replacement :: decodeChars rest
    | some ranges =>
      let n := matching ranges rest
      let c := if n = ranges.length then character first (rest.take n) else replacement
      c :: decodeChars (rest.drop n)
termination_by bytes => bytes.length
decreasing_by
  . exact Nat.lt_succ_self _
  . simp only [List.length_drop, List.length_cons]
    omega

def decode (bytes : List UInt8) : String :=
  String.ofList (decodeChars bytes)

end DataAccess.Utf8
