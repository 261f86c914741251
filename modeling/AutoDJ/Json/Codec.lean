import AutoDJ.Json.Value
import AutoDJ.Text.Numeral

/-!
This module contains codecs, the ways in which data are represented by JSON values.

A value of a finite type is represented by its name, and a record by an object or by an array of its
fields. Fields may be left out, and an object may have members that are no fields.
-/

namespace AutoDJ.Json

structure Codec (α : Type) where
  write : α → Value
  read? : Value → Option α

structure Field (ρ : Type) where
  name : String
  write : ρ → Value
  /-- Give the field the value that a JSON value represents. -/
  read? : Value → ρ → Option ρ

def Field.of (name : String) (codec : Codec α) (get : ρ → α) (set : α → ρ → ρ) : Field ρ where
  name
  write r := codec.write (get r)
  read? value r := (codec.read? value).map fun a => set a r

namespace Codec

def bool : Codec Bool where
  write := .bool
  read?
    | .bool b => some b
    | _ => none

def text : Codec String where
  write := .ofText
  read?
    | .string text => text
    | _ => none

def natBelow (bound : Nat) : Codec Nat where
  write := .ofNat
  read?
    | .number literal => (Text.digits? literal.toList).filter (· < bound)
    | _ => none

def imap (codec : Codec α) (f : α → β) (g : β → α) : Codec β where
  write b := codec.write (g b)
  read? value := (codec.read? value).map f

def uint16 : Codec UInt16 :=
  (natBelow UInt16.size).imap UInt16.ofNat UInt16.toNat

def uint32 : Codec UInt32 :=
  (natBelow UInt32.size).imap UInt32.ofNat UInt32.toNat

def uint64 : Codec UInt64 :=
  (natBelow UInt64.size).imap UInt64.ofNat UInt64.toNat

def optional (codec : Codec α) : Codec (Option α) where
  write
    | none => .null
    | some a => codec.write a
  read?
    | .null => some none
    | value => (codec.read? value).map some

def list (codec : Codec α) : Codec (List α) where
  write as := .array (as.map codec.write)
  read?
    | .array items => items.mapM codec.read?
    | _ => none

/--
The name of a case without further data. It may also stand as the only name of an object, with `null`
as its value.
-/
def caseName? : Value → Option String
  | .string text => text
  | .object [(name, .null)] => name
  | _ => none

def choice (all : List α) (name : α → String) : Codec α where
  write a := .ofText (name a)
  read? value := do
    let text ← caseName? value
    all.find? (name · == text)

/--
Read the members of an object as fields of a record, whose names must not occur twice; `seen` are those
that have occurred.
-/
def readMembers (fields : List (Field ρ)) : List (Quotation × Value) → (seen : List String) → ρ →
    Option ρ
  | [], _, r => some r
  | (none, _) :: _, _, _ => none
  | (some name, value) :: members, seen, r =>
    match fields.find? (·.name == name) with
    | none => readMembers fields members seen r
    | some field =>
      if seen.contains name then
        none
      else
        (field.read? value r).bind (readMembers fields members (name :: seen))

def readItems : List (Field ρ) → List Value → ρ → Option ρ
  | _, [], r => some r
  | [], _ :: _, _ => none
  | field :: fields, value :: values, r => (field.read? value r).bind (readItems fields values)

/--
A record. Fields that are left out are as in `blank`.
-/
def record (fields : List (Field ρ)) (blank : ρ) : Codec ρ where
  write r := .ofMembers (fields.map fun field => (field.name, field.write r))
  read?
    | .object members => readMembers fields members [] blank
    | .array items => readItems fields items blank
    | _ => none

end Codec

end AutoDJ.Json
