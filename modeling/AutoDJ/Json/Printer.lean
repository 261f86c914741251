import AutoDJ.Json.Quoted

namespace AutoDJ.Json

inductive Layout where
  | singleLine
  | indented
deriving Repr, DecidableEq

namespace Layout

def lineBreak (layout : Layout) (depth : Nat) : List Char :=
  match layout with
  | singleLine => []
  | indented => '\n' :: List.replicate (2 * depth) ' '

def colon (layout : Layout) : List Char :=
  match layout with
  | singleLine => [':']
  | indented => [':', ' ']

end Layout

/--
A string that stands for no text is written like one that stands for the replacement character.
-/
def writeQuotation (text : Quotation) : List Char :=
  Quoted.write (text.getD "\uFFFD")

namespace Value

mutual

def write (layout : Layout) (depth : Nat) : Value → List Char
  | null => ['n', 'u', 'l', 'l']
  | bool true => ['t', 'r', 'u', 'e']
  | bool false => ['f', 'a', 'l', 's', 'e']
  | number literal => literal.toList
  | string text => writeQuotation text
  | array [] => ['[', ']']
  | array (item :: items) =>
    '[' :: layout.lineBreak (depth + 1) ++ item.write layout (depth + 1)
      ++ writeItems layout (depth + 1) items ++ layout.lineBreak depth ++ [']']
  | object [] => ['\x7b', '\x7d']
  | object (member :: members) =>
    '\x7b' :: layout.lineBreak (depth + 1) ++ writeMember layout (depth + 1) member
      ++ writeMembers layout (depth + 1) members ++ layout.lineBreak depth ++ ['\x7d']

def writeItems (layout : Layout) (depth : Nat) : List Value → List Char
  | [] => []
  | item :: items =>
    ',' :: layout.lineBreak depth ++ item.write layout depth ++ writeItems layout depth items

def writeMember (layout : Layout) (depth : Nat) : Quotation × Value → List Char
  | (name, value) => writeQuotation name ++ layout.colon ++ value.write layout depth

def writeMembers (layout : Layout) (depth : Nat) : List (Quotation × Value) → List Char
  | [] => []
  | member :: members =>
    ',' :: layout.lineBreak depth ++ writeMember layout depth member
      ++ writeMembers layout depth members

end

def compact (value : Value) : String :=
  String.ofList (value.write .singleLine 0)

def pretty (value : Value) : String :=
  String.ofList (value.write .indented 0)

end Value

end AutoDJ.Json
