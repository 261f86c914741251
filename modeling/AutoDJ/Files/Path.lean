import AutoDJ.Text.Lines

namespace AutoDJ.Path

def isAbsolute (path : String) : Bool :=
  path.toList.head? == some '/'

def maxSize : Nat := 4095

def maxPartSize : Nat := 255

def isInvalid (path : String) : Bool :=
  path.toList.contains '\x00'

/--
The path of something below a directory. An absolute path stays as it is.
-/
def join (directory path : String) : String :=
  if isAbsolute path || directory.isEmpty then
    path
  else if directory.toList.getLast? == some '/' then
    directory ++ path
  else
    directory ++ "/" ++ path

def isName (part : String) : Bool :=
  part ≠ "" && part ≠ "."

def names (path : String) : List String :=
  (Text.fields '/' path).filter isName

/--
The directory that holds what a path leads to, as it is written in the path. Neither the root nor an
empty path has one; that of a single name is the empty path.
-/
def parent? (path : String) : Option String :=
  match toLastName (Text.fields '/' path) with
  | [] => none
  | parts =>
    match toLastName parts.dropLast with
    | [] => some (if isAbsolute path then "/" else "")
    | parts => some (Text.joinWith "/" parts)
where
  toLastName (parts : List String) : List String :=
    (parts.reverse.dropWhile fun part => !isName part).reverse

end AutoDJ.Path
