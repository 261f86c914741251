namespace AutoDJ.Json

/--
What a string of a JSON text stands for. A string with an unpaired surrogate stands for no text.
-/
abbrev Quotation := Option String

/--
A number is kept as it is written. The members of an object stay in order, and names may occur more
than once.
-/
inductive Value where
  | null
  | bool (b : Bool)
  | number (literal : String)
  | string (text : Quotation)
  | array (items : List Value)
  | object (members : List (Quotation × Value))
deriving Repr

namespace Value

def ofText (text : String) : Value :=
  string (some text)

def ofNat (n : Nat) : Value :=
  number (toString n)

def ofMembers (members : List (String × Value)) : Value :=
  object (members.map fun (name, value) => (some name, value))

end Value

end AutoDJ.Json
