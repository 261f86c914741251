/-!
This module contains the reading of decimal integers that have to fit a given range.

Only the ASCII digits count as digits, leading zeros are fine, and a sign may come first: a plus sign
for every range, a minus sign only where the range has negative numbers.
-/

namespace AutoDJ.Text

def digits? (cs : List Char) : Option Nat :=
  if cs.isEmpty then none else go cs 0
where
  go : List Char → Nat → Option Nat
  | [], n => some n
  | c :: cs, n => if c.isDigit then go cs (10 * n + (c.toNat - '0'.toNat)) else none

def unsigned? (bound : Nat) (cs : List Char) : Option Nat :=
  let body :=
    match cs with
    | '+' :: rest => rest
    | cs => cs
  (digits? body).filter (· < bound)

/--
A signed number below `bound` and not below `-bound`.
-/
def signed? (bound : Nat) (cs : List Char) : Option Int :=
  let value : Option Int :=
    match cs with
    | '+' :: rest => (digits? rest).map fun n => (n : Int)
    | '-' :: rest => (digits? rest).map fun n => -(n : Int)
    | cs => (digits? cs).map fun n => (n : Int)
  value.filter fun n => -(bound : Int) ≤ n && n < (bound : Int)

def readUInt32? (s : String) : Option UInt32 :=
  (unsigned? UInt32.size s.toList).map UInt32.ofNat

def readUInt64? (s : String) : Option UInt64 :=
  (unsigned? UInt64.size s.toList).map UInt64.ofNat

def readInt64? (s : String) : Option Int64 :=
  (signed? (Int64.size / 2) s.toList).map Int64.ofInt

end AutoDJ.Text
