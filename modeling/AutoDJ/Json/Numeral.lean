/-!
This module contains the shape of the numbers of JSON texts: a whole number without leading zeros,
perhaps negative, and after it perhaps a fraction and an exponent.
-/

namespace AutoDJ.Json

inductive Numeral where
  | minus
  | zero
  | whole
  | point
  | fraction
  | mark
  | sign
  | exponent
deriving Repr, DecidableEq

namespace Numeral

def start? (c : Char) : Option Numeral :=
  if c = '-' then some minus
  else if c = '0' then some zero
  else if c.isDigit then some whole
  else none

def afterWhole? (c : Char) : Option Numeral :=
  if c = '.' then some point
  else if c = 'e' ∨ c = 'E' then some mark
  else none

def next? (n : Numeral) (c : Char) : Option Numeral :=
  match n with
  | minus => if c = '-' then none else start? c
  | zero => afterWhole? c
  | whole => if c.isDigit then some whole else afterWhole? c
  | point => if c.isDigit then some fraction else none
  | fraction =>
    if c.isDigit then some fraction
    else if c = 'e' ∨ c = 'E' then some mark
    else none
  | mark =>
    if c.isDigit then some exponent
    else if c = '+' ∨ c = '-' then some sign
    else none
  | sign => if c.isDigit then some exponent else none
  | exponent => if c.isDigit then some exponent else none

def isComplete (n : Numeral) : Bool :=
  match n with
  | zero | whole | fraction | exponent => true
  | minus | point | mark | sign => false

end Numeral

end AutoDJ.Json
