import AutoDJ.Text.Numeral

/-!
This module contains the reading of decimal fractions as floating point numbers.

A number is an optional sign followed by digits with at most one point among, before or after them
and an optional exponent, or by one of the words `inf`, `infinity` and `nan` in any mixture of cases.
The result is the double nearest to the number written.
-/

namespace AutoDJ.Text

/--
A decimal number `digits * 10 ^ exponent`.
-/
structure Decimal where
  digits : Nat
  exponent : Int
deriving Repr, DecidableEq

namespace Decimal

def exponent? : List Char → Option Int
  | [] => some 0
  | c :: cs =>
    if c = 'e' ∨ c = 'E' then
      match cs with
      | '+' :: rest => (digits? rest).map fun n => (n : Int)
      | '-' :: rest => (digits? rest).map fun n => -(n : Int)
      | cs => (digits? cs).map fun n => (n : Int)
    else
      none

def ofChars? (cs : List Char) : Option Decimal := do
  let whole := cs.takeWhile Char.isDigit
  let (fraction, rest) :=
    match cs.dropWhile Char.isDigit with
    | '.' :: rest => (rest.takeWhile Char.isDigit, rest.dropWhile Char.isDigit)
    | rest => ([], rest)
  let digits ← digits? (whole ++ fraction)
  let exponent ← exponent? rest
  return { digits, exponent := exponent - fraction.length }

/--
The double nearest to a decimal number. A number far outside the range of doubles is decided by its
magnitude alone, so that no large power of ten is ever computed.
-/
def toFloat (d : Decimal) : Float :=
  let magnitude := d.exponent + (Nat.toDigits 10 d.digits).length
  if d.digits = 0 then
    0.0
  else if magnitude > 400 then
    1.0 / 0.0
  else if magnitude < -400 then
    0.0
  else
    Float.ofScientific d.digits (d.exponent < 0) d.exponent.natAbs

end Decimal

def unsignedFloat? (cs : List Char) : Option Float :=
  match Decimal.ofChars? cs with
  | some d => some d.toFloat
  | none =>
    match String.ofList (cs.map Char.toLower) with
    | "inf" => some (1.0 / 0.0)
    | "infinity" => some (1.0 / 0.0)
    | "nan" => some (0.0 / 0.0)
    | _ => none

def readFloat? (s : String) : Option Float :=
  match s.toList with
  | '+' :: rest => unsignedFloat? rest
  | '-' :: rest => (unsignedFloat? rest).map Float.neg
  | cs => unsignedFloat? cs

end AutoDJ.Text
