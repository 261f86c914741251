namespace AutoDJ.Text

def decode? (bytes : List UInt8) : Option String :=
  String.fromUTF8? (ByteArray.mk bytes.toArray)

def encode (s : String) : List UInt8 :=
  s.toUTF8.data.toList

namespace Lossy

/--
A character of which some bytes have been read: `missing` more bytes are needed, the next of them
between `low` and `high`, and `code` holds the bits read so far.
-/
structure Unfinished where
  missing : Nat
  low : UInt8 := 0x80
  high : UInt8 := 0xBF
  code : Nat

inductive Lead where
  | char (c : Char)
  | start (p : Unfinished)
  | malformed

def Lead.ofByte (b : UInt8) : Lead :=
  let n := b.toNat
  if n < 0x80 then .char (Char.ofNat n)
  else if n < 0xC2 then .malformed
  else if n < 0xE0 then .start { missing := 1, code := n - 0xC0 }
  else if n = 0xE0 then .start { missing := 2, low := 0xA0, code := 0 }
  else if n = 0xED then .start { missing := 2, high := 0x9F, code := 0xD }
  else if n < 0xF0 then .start { missing := 2, code := n - 0xE0 }
  else if n = 0xF0 then .start { missing := 3, low := 0x90, code := 0 }
  else if n < 0xF4 then .start { missing := 3, code := n - 0xF0 }
  else if n = 0xF4 then .start { missing := 3, high := 0x8F, code := 4 }
  else .malformed

def replacement : Char := '\uFFFD'

def decode : List UInt8 → Option Unfinished → List Char
  | [], none => []
  | [], some _ => [replacement]
  | b :: bs, none => first b bs
  | b :: bs, some p =>
    if p.low ≤ b ∧ b ≤ p.high then
      let code := 64 * p.code + (b.toNat - 0x80)
      if p.missing ≤ 1 then
        Char.ofNat code :: decode bs none
      else
        decode bs (some { missing := p.missing - 1, code })
    else
      replacement :: first b bs
where
  first (b : UInt8) (bs : List UInt8) : List Char :=
    match Lead.ofByte b with
    | .char c => c :: decode bs none
    | .start p => decode bs (some p)
    | .malformed => replacement :: decode bs none

end Lossy

/--
The text that `bytes` encode, with one replacement character for every longest malformed sequence
that begins like a character, and for every other malformed byte.
-/
def decodeLossy (bytes : List UInt8) : String :=
  String.ofList (Lossy.decode bytes none)

end AutoDJ.Text
