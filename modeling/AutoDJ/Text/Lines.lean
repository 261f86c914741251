namespace AutoDJ.Text

/--
The lines of a text. A line ends at a line feed, which is not part of it; neither is one carriage
return right before that line feed. What follows the last line feed is a line unless it is empty.
-/
def lineChars (cs : List Char) : List (List Char) :=
  go cs []
where
  /-- `line` holds the part of the current line that has been read, reversed. -/
  go : List Char → List Char → List (List Char)
  | [], line => if line.isEmpty then [] else [line.reverse]
  | c :: cs, line =>
    if c = '\n' then
      (dropReturn line).reverse :: go cs []
    else
      go cs (c :: line)
  dropReturn : List Char → List Char
  | '\r' :: line => line
  | line => line

def lines (s : String) : List String :=
  (lineChars s.toList).map String.ofList

def breakChars (sep : List Char) (cs : List Char) : Option (List Char × List Char) :=
  match sep.isPrefixOf? cs, cs with
  | some rest, _ => some ([], rest)
  | none, [] => none
  | none, c :: cs => (breakChars sep cs).map fun (before, after) => (c :: before, after)

def breakOn (sep : String) (s : String) : Option (String × String) :=
  (breakChars sep.toList s.toList).map fun (before, after) =>
    (String.ofList before, String.ofList after)

/--
The fields of a text separated by the character `sep`; there is always at least one.
-/
def fields (sep : Char) (s : String) : List String :=
  (s.toList.splitOn sep).map String.ofList

def dropStart? (start : String) (s : String) : Option String :=
  (start.toList.isPrefixOf? s.toList).map String.ofList

def joinWith (sep : String) (parts : List String) : String :=
  String.intercalate sep parts

end AutoDJ.Text
