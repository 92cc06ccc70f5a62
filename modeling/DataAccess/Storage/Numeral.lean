import DataAccess.Value.Basic
import DataAccess.Text.Utf8

/-!
This module contains what a store makes of values that stand for numbers or texts: reading a numeral,
telling whether a value is a whole number, comparing numbers of two classes, and writing a value as
text.
-/

namespace DataAccess.Storage

def isBlank (c : Char) : Bool :=
  c == ' ' || ('\t' ≤ c && c ≤ '\r')

def digitsValue (digits : List Char) : Nat :=
  digits.foldl (fun n c => 10 * n + (c.toNat - '0'.toNat)) 0

def takeSign : List Char → Bool × List Char
  | '-' :: rest => (true, rest)
  | '+' :: rest => (false, rest)
  | rest => (false, rest)

/-- Takes the digits behind a point; nothing without a point. -/
def takeFraction : List Char → Option (List Char) × List Char
  | '.' :: rest => (some (rest.takeWhile Char.isDigit), rest.dropWhile Char.isDigit)
  | rest => (none, rest)

/-- Reads an exponent up to the end; nothing if that is no exponent. -/
def exponent? : List Char → Option Int
  | [] => some 0
  | c :: rest =>
    let (negative, digits) := takeSign rest
    if (c == 'e' || c == 'E') && !digits.isEmpty && digits.all Char.isDigit then
      some (if negative then -(digitsValue digits : Int) else digitsValue digits)
    else none

def scientific (negative : Bool) (mantissa : Nat) (exponent : Int) : Float :=
  let x := Float.ofScientific mantissa (exponent < 0) exponent.natAbs
  if negative then -x else x

/-- Reads a numeral with blanks around it. Without a point and an exponent it stands for an integer,
if that is not too large. -/
def numeral? (s : String) : Option Value := do
  let chars := ((s.toList.dropWhile isBlank).reverse.dropWhile isBlank).reverse
  let (negative, rest) := takeSign chars
  let whole := rest.takeWhile Char.isDigit
  let (fraction, rest) := takeFraction (rest.dropWhile Char.isDigit)
  let digits := whole ++ fraction.getD []
  if digits.isEmpty then none
  let e ← exponent? rest
  let n : Int := if negative then -(digitsValue digits : Int) else digitsValue digits
  if fraction.isNone && rest.isEmpty && Int64.minValue.toInt ≤ n && n ≤ Int64.maxValue.toInt then
    return .integer (Int64.ofInt n)
  return .real (scientific negative (digitsValue digits) (e - (fraction.getD []).length))

def wholeReal? (x : Float) : Option Int64 :=
  let n := x.toInt64
  if n.toFloat == x && Int64.minValue < n && n < Int64.maxValue then some n else none

def whole? : Value → Option Int64
  | .integer n => some n
  | .real x => wholeReal? x
  | .text s =>
    match numeral? s with
    | some (.integer n) => some n
    | some (.real x) => wholeReal? x
    | _ => none
  | _ => none

/-- Whether an integer and a real are the same number. -/
def sameNumber (n : Int64) (x : Float) : Bool :=
  n.toFloat == x && x < 9223372036854775808.0 && x.toInt64 == n

/-- Whether two values collide in a unique column. Absent values never do. -/
def collide : Value → Value → Bool
  | .null, _ => false
  | .integer n, .real x => sameNumber n x
  | .real x, .integer n => sameNumber n x
  | v, w => v == w

def significantDigits : Nat :=
  15

/-- A decimal number: its significant digits, and the exponent of ten of the first of them. -/
structure Significant where
  digits : Nat
  exponent : Int

def decimalExponent (num den : Nat) : Int :=
  if den ≤ num then ((Nat.toDigits 10 (num / den)).length : Int) - 1
  else -((Nat.toDigits 10 ((den - 1) / num)).length : Int)

def significant (num den : Nat) : Significant :=
  let e := decimalExponent num den
  let shift := (significantDigits : Int) - e
  let num := num * Nat.pow 10 shift.toNat
  let den := den * Nat.pow 10 (-shift).toNat
  let n := (num / den + 5) / 10
  if n = Nat.pow 10 significantDigits then ⟨n / 10, e + 1⟩ else ⟨n, e⟩

def pointed (whole fraction : List Char) : String :=
  let orZero (digits : List Char) := if digits.isEmpty then ['0'] else digits
  String.ofList (orZero whole ++ '.' :: orZero fraction)

def Significant.text (s : Significant) : String :=
  let digits := ((Nat.toDigits 10 s.digits).reverse.dropWhile (· == '0')).reverse
  if s.exponent < -4 ∨ (significantDigits : Int) ≤ s.exponent then
    let e := toString s.exponent.natAbs
    pointed (digits.take 1) (digits.drop 1) ++ (if s.exponent < 0 then "e-" else "e+") ++
      (if e.length < 2 then "0" ++ e else e)
  else if s.exponent < 0 then
    pointed [] (List.replicate (s.exponent.natAbs - 1) '0' ++ digits)
  else
    let n := s.exponent.toNat + 1
    pointed (digits.take n ++ List.replicate (n - digits.length) '0') (digits.drop n)

def realText (x : Float) : String :=
  if x == 0.0 then "0.0"
  else
    let bits := x.toBits
    let mantissa := (bits &&& 0xFFFFFFFFFFFFF).toNat
    let e := (bits >>> 52 &&& 0x7FF).toNat
    let unsigned :=
      if e = 2047 then "Inf"
      else
        let m := if e = 0 then mantissa else mantissa + 1 <<< 52
        let q : Int := (if e = 0 then 1 else (e : Int)) - 1075
        (significant (m <<< q.toNat) (1 <<< (-q).toNat)).text
    if x < 0.0 then "-" ++ unsigned else unsigned

/-- A value as it can be stored: a real that is no number becomes absent. -/
def storable : Value → Value
  | .real x => if x.isNaN then .null else .real x
  | v => v

def asText (v : Value) : Value :=
  match storable v with
  | .null => .null
  | .integer n => .text (toString n.toInt)
  | .real x => .text (realText x)
  | .text s => .text s
  | .blob b => .text (Utf8.decode b)

end DataAccess.Storage
