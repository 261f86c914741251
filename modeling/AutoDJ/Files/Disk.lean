import AutoDJ.Error
import AutoDJ.Files.Path
import AutoDJ.History.Basic
import AutoDJ.Text.Utf8

namespace AutoDJ

inductive FileError where
  | notFound
  /-- A path has a zero character in it. -/
  | invalidPath
  | pathTooLong
  /-- A part of a path is too long. -/
  | nameTooLong
  | notADirectory
  | isADirectory
  | notText
deriving Repr, DecidableEq

namespace FileError

def reason : FileError → String
  | notFound => "no such file or directory"
  | invalidPath => "a path must not contain a zero character"
  | pathTooLong => "a path must not be longer than " ++ toString Path.maxSize ++ " bytes"
  | nameTooLong => "a file name must not be longer than " ++ toString Path.maxPartSize ++ " bytes"
  | notADirectory => "not a directory"
  | isADirectory => "is a directory"
  | notText => "the file is not valid UTF-8"

def toError (e : FileError) : Error :=
  .io e.reason

end FileError

inductive DiskEntry where
  | directory
  | file (bytes : List UInt8)
deriving Repr, DecidableEq

/--
Files and directories under the names that lead to them from the root, which is always there, and the
directory that relative paths start from.
-/
structure Disk where
  entries : List (List String × DiskEntry) := []
  workingDirectory : List String := []
deriving Repr

namespace Disk

def entry? (disk : Disk) (location : List String) : Option DiskEntry :=
  if location.isEmpty then some .directory else disk.entries.lookup location

def put (disk : Disk) (location : List String) (entry : DiskEntry) : Disk :=
  { disk with
    entries := (location, entry) :: disk.entries.filter fun (other, _) => other ≠ location }

def drop (disk : Disk) (location : List String) : Disk :=
  { disk with entries := disk.entries.filter fun (other, _) => other ≠ location }

def absolute (location : List String) : String :=
  "/" ++ Text.joinWith "/" location

def origin (disk : Disk) (path : String) : List String :=
  if Path.isAbsolute path then [] else disk.workingDirectory

def enter (disk : Disk) (location : List String) (part : String) :
    Except FileError (List String) :=
  match disk.entry? location with
  | none => .error .notFound
  | some (.file _) => .error .notADirectory
  | some .directory =>
    if !Path.isName part then .ok location
    else if part = ".." then .ok location.dropLast
    else if Path.maxPartSize < part.utf8ByteSize then .error .nameTooLong
    else .ok (location ++ [part])

def checkPath (path : String) : Except FileError Unit :=
  if path.isEmpty then .error .notFound
  else if Path.isInvalid path then .error .invalidPath
  else if Path.maxSize < path.utf8ByteSize then .error .pathTooLong
  else .ok ()

/--
The place that a path leads to, whether or not there is anything. All places on the way have to be
directories, and the last one, too, if the path ends with a slash.
-/
def locate (disk : Disk) (path : String) : Except FileError (List String) := do
  checkPath path
  (Text.fields '/' path).foldlM disk.enter (disk.origin path)

def read (disk : Disk) (path : String) : Except FileError (List UInt8) := do
  match disk.entry? (← disk.locate path) with
  | some (.file bytes) => return bytes
  | some .directory => throw .isADirectory
  | none => throw .notFound

def readText (disk : Disk) (path : String) : Except FileError String := do
  match Text.decode? (← disk.read path) with
  | some text => return text
  | none => throw .notText

def readText? (disk : Disk) (path : String) : Except FileError (Option String) :=
  match disk.readText path with
  | .ok text => .ok (some text)
  | .error .notFound => .ok none
  | .error e => .error e

def isFile (disk : Disk) (path : String) : Bool :=
  match disk.read path with
  | .ok _ => true
  | .error _ => false

def has (disk : Disk) (path : String) : Bool :=
  match disk.locate path with
  | .ok location => (disk.entry? location).isSome
  | .error _ => false

def isDirectory (disk : Disk) (path : String) : Bool :=
  match disk.locate path with
  | .ok location => disk.entry? location == some .directory
  | .error _ => false

def ask (question : Disk → Except FileError α) : Play Disk α := fun disk =>
  match question disk with
  | .ok answer => .ok answer disk
  | .error e => .error e.toError disk

/--
Put a file in place of what a path leads to, unless that is a directory.
-/
def write (path : String) (bytes : List UInt8) : Play Disk Unit := do
  let location ← ask fun disk => disk.locate path
  if Disk.entry? (← get) location = some .directory then
    throw FileError.isADirectory.toError
  modify fun disk => disk.put location (.file bytes)

def writeText (path : String) (text : String) : Play Disk Unit :=
  write path (Text.encode text)

/--
Make sure that a path leads to a directory. The directories that have been made before a failure stay.
-/
def makeDirectories (path : String) : Play Disk Unit := do
  if !path.isEmpty then
    ask fun _ => checkPath path
    discard <| (Text.fields '/' path).foldlM descend ((← get).origin path)
where
  descend (location : List String) (part : String) : Play Disk (List String) := do
    let next ← ask fun disk => disk.enter location part
    match Disk.entry? (← get) next with
    | some .directory => return next
    | some (.file _) => throw FileError.notADirectory.toError
    | none =>
      modify fun disk => disk.put next .directory
      return next

def makeParent (path : String) : Play Disk Unit :=
  makeDirectories ((Path.parent? path).getD "")

def removeFile (path : String) : Play Disk Unit := do
  let location ← ask fun disk => disk.locate path
  match Disk.entry? (← get) location with
  | some (.file _) => modify fun disk => disk.drop location
  | some .directory => throw FileError.isADirectory.toError
  | none => throw FileError.notFound.toError

/--
The absolute path of the file that holds a new text before it takes the place of the file at a path.
-/
def draft (disk : Disk) (path : String) : String :=
  let directory := Path.join (absolute disk.workingDirectory) ((Path.parent? path).getD "")
  Path.join directory ".tmpXXXXXX"

/--
The tail in the file at a path. A new text is written to a file of its own beside it, and only then
takes its place.
-/
def tail (path : String) : Tail Disk where
  read := ask fun disk => disk.readText? path
  replace text := do
    makeParent path
    discard <| ask fun disk => disk.locate (disk.draft path)
    writeText path text

end Disk

end AutoDJ
