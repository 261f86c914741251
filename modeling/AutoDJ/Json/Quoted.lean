import AutoDJ.Json.Value

namespace AutoDJ.Json.Quoted

def escapeChar (c : Char) : List Char :=
  match c with
  | '"' => ['\\', '"']
  | '\\' => ['\\', '\\']
  | '\x08' => ['\\', 'b']
  | '\x0c' => ['\\', 'f']
  | '\n' => ['\\', 'n']
  | '\r' => ['\\', 'r']
  | '\t' => ['\\', 't']
  | c =>
    if c.toNat < 0x20 then
      ['\\', 'u', '0', '0', Nat.digitChar (c.toNat / 16), Nat.digitChar (c.toNat % 16)]
    else
      [c]

def escape (cs : List Char) : List Char :=
  cs.flatMap escapeChar

def write (text : String) : List Char :=
  '"' :: escape text.toList ++ ['"']

def unescape? (c : Char) : Option Char :=
  match c with
  | '"' => some '"'
  | '\\' => some '\\'
  | '/' => some '/'
  | 'b' => some '\x08'
  | 'f' => some '\x0c'
  | 'n' => some '\n'
  | 'r' => some '\r'
  | 't' => some '\t'
  | _ => none

def hexDigit? (c : Char) : Option Nat :=
  if c.isDigit then some (c.toNat - '0'.toNat)
  else if 'a' ≤ c ∧ c ≤ 'f' then some (c.toNat - 'a'.toNat + 10)
  else if 'A' ≤ c ∧ c ≤ 'F' then some (c.toNat - 'A'.toNat + 10)
  else none

/--
Where in a quoted text the next character stands: on its own, right after a backslash, or in a number,
`missing` digits before its end.
-/
inductive Place where
  | plain
  | escaped
  | hex (missing code : Nat)
deriving Repr, DecidableEq

structure Reading where
  /-- The characters that stand for something, reversed, unless a surrogate was left unpaired. -/
  chars : Option (List Char) := some []
  /-- A first surrogate, which has to be followed by a second one. -/
  surrogate : Option Nat := none
  place : Place := .plain
deriving Repr, DecidableEq

namespace Reading

def spoil : Reading :=
  { chars := none }

def push (r : Reading) (c : Char) : Reading :=
  match r.surrogate with
  | some _ => spoil
  | none => { chars := r.chars.map (c :: ·) }

def isFirstSurrogate (code : Nat) : Bool :=
  0xD800 ≤ code && code < 0xDC00

def isSecondSurrogate (code : Nat) : Bool :=
  0xDC00 ≤ code && code < 0xE000

def pushCode (r : Reading) (code : Nat) : Reading :=
  match r.surrogate with
  | some first =>
    if isSecondSurrogate code then
      { chars := r.chars.map (Char.ofNat (0x10000 + (first - 0xD800) * 0x400 + (code - 0xDC00)) :: ·) }
    else
      spoil
  | none =>
    if isFirstSurrogate code then
      { chars := r.chars, surrogate := some code }
    else if isSecondSurrogate code then
      spoil
    else
      { chars := r.chars.map (Char.ofNat code :: ·) }

/--
Take the next character, which is not the closing quotation mark. A control character, an unknown escape
and a number with less than four digits have no place in a quoted text.
-/
def next? (r : Reading) (c : Char) : Option Reading :=
  match r.place with
  | .plain =>
    if c = '\\' then some { r with place := .escaped }
    else if c.toNat < 0x20 then none
    else some (r.push c)
  | .escaped =>
    if c = 'u' then some { r with place := .hex 4 0 }
    else (unescape? c).map r.push
  | .hex missing code => do
    let digit ← hexDigit? c
    let code := code * 16 + digit
    if missing ≤ 1 then
      return r.pushCode code
    else
      return { r with place := .hex (missing - 1) code }

def isClosedBy (r : Reading) (c : Char) : Bool :=
  r.place == .plain && c == '"'

def result (r : Reading) : Quotation :=
  match r.surrogate with
  | some _ => none
  | none => r.chars.map fun chars => String.ofList chars.reverse

end Reading

end AutoDJ.Json.Quoted
