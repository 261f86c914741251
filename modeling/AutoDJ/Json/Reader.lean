import AutoDJ.Json.Numeral
import AutoDJ.Json.Quoted

/-!
This module contains the reading of JSON texts.

A text is read one character at a time. What has been read of the arrays and objects that are still
open is kept on a stack, so that they can be nested as deeply as one likes.
-/

namespace AutoDJ.Json

def isSpace (c : Char) : Bool :=
  c == ' ' || c == '\t' || c == '\n' || c == '\r'

/--
What the next value becomes a part of: an array, or an object in which it has a name. The earlier items
and members are reversed.
-/
inductive Slot where
  | item (done : List Value)
  | member (done : List (Quotation × Value)) (name : Quotation)

inductive Container where
  | array (done : List Value)
  | object (done : List (Quotation × Value))

def Slot.fill (value : Value) : Slot → Container
  | item done => .array (value :: done)
  | member done name => .object ((name, value) :: done)

inductive Phase where
  | value
  /-- The first item of an array, or its end. -/
  | firstItem
  /-- The first name of an object, or its end. -/
  | firstName
  /-- Another name of an object. -/
  | name (done : List (Quotation × Value))
  /-- The colon after a name. -/
  | colon (done : List (Quotation × Value)) (name : Quotation)
  /-- A comma or the end. -/
  | comma (container : Container)
  /-- The rest of a word that stands for a value. -/
  | word (rest : List Char) (value : Value)
  /-- The rest of a number, whose characters so far are reversed. -/
  | number (numeral : Numeral) (chars : List Char)
  /-- The rest of a string that is a value. -/
  | quoted (reading : Quoted.Reading)
  /-- The rest of a string that is a name. -/
  | quotedName (done : List (Quotation × Value)) (reading : Quoted.Reading)
  | finished (value : Value)

structure Reader where
  phase : Phase := .value
  /-- The places of the values that are being read, the innermost one first. -/
  stack : List Slot := []

namespace Reader

def complete (value : Value) : List Slot → Reader
  | [] => { phase := .finished value }
  | slot :: stack => { phase := .comma (slot.fill value), stack }

def start? (stack : List Slot) (c : Char) : Option Reader :=
  match c with
  | '[' => some { phase := .firstItem, stack }
  | '{' => some { phase := .firstName, stack }
  | '"' => some { phase := .quoted {}, stack }
  | 't' => some { phase := .word ['r', 'u', 'e'] (.bool true), stack }
  | 'f' => some { phase := .word ['a', 'l', 's', 'e'] (.bool false), stack }
  | 'n' => some { phase := .word ['u', 'l', 'l'] .null, stack }
  | c => (Numeral.start? c).map fun numeral => { phase := .number numeral [c], stack }

def continue? (phase : Phase) (stack : List Slot) (c : Char) : Option Reader :=
  if isSpace c then
    some { phase, stack }
  else
    match phase, c with
    | .comma (.array done), ',' => some { phase := .value, stack := .item done :: stack }
    | .comma (.array done), ']' => some (complete (.array done.reverse) stack)
    | .comma (.object done), ',' => some { phase := .name done, stack }
    | .comma (.object done), '}' => some (complete (.object done.reverse) stack)
    | _, _ => none

def numberValue (chars : List Char) : Value :=
  .number (String.ofList chars.reverse)

/--
Take the next character. A character that has no place where it stands ends the reading.
-/
def next? (r : Reader) (c : Char) : Option Reader :=
  match r.phase with
  | .value => if isSpace c then some r else start? r.stack c
  | .firstItem =>
    if isSpace c then some r
    else if c = ']' then some (complete (.array []) r.stack)
    else start? (.item [] :: r.stack) c
  | .firstName =>
    if isSpace c then some r
    else if c = '}' then some (complete (.object []) r.stack)
    else if c = '"' then some { r with phase := .quotedName [] {} }
    else none
  | .name done =>
    if isSpace c then some r
    else if c = '"' then some { r with phase := .quotedName done {} }
    else none
  | .colon done name =>
    if isSpace c then some r
    else if c = ':' then some { phase := .value, stack := .member done name :: r.stack }
    else none
  | .comma _ | .finished _ => continue? r.phase r.stack c
  | .word rest value =>
    match rest with
    | [] => none
    | d :: rest =>
      if c ≠ d then none
      else if rest.isEmpty then some (complete value r.stack)
      else some { r with phase := .word rest value }
  | .number numeral chars =>
    match numeral.next? c with
    | some numeral => some { r with phase := .number numeral (c :: chars) }
    | none =>
      if numeral.isComplete then
        let after := complete (numberValue chars) r.stack
        continue? after.phase after.stack c
      else
        none
  | .quoted reading =>
    if reading.isClosedBy c then
      some (complete (.string reading.result) r.stack)
    else
      (reading.next? c).map fun reading => { r with phase := .quoted reading }
  | .quotedName done reading =>
    if reading.isClosedBy c then
      some { r with phase := .colon done reading.result }
    else
      (reading.next? c).map fun reading => { r with phase := .quotedName done reading }

def result? (r : Reader) : Option Value :=
  match r.phase, r.stack with
  | .finished value, _ => some value
  | .number numeral chars, [] => if numeral.isComplete then some (numberValue chars) else none
  | _, _ => none

end Reader

def read? (text : String) : Option Value :=
  (text.toList.foldlM Reader.next? {}).bind Reader.result?

end AutoDJ.Json
