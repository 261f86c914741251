import AutoDJ.Files.Disk
import AutoDJ.Json.Quoted

/-!
This module contains the addresses of databases. An address is a path or, if it starts with `file:`, a
URI with a path and options.
-/

namespace AutoDJ

structure DatabaseUri where
  path : String
  options : List (String × String) := []
deriving Repr, DecidableEq

namespace DatabaseUri

/--
The bytes that a part of a URI stands for: a percent sign and two hexadecimal digits stand for a byte,
and a zero byte ends the part.
-/
def unescape : List Char → List UInt8
  | [] => []
  | '%' :: high :: low :: cs =>
    match Json.Quoted.hexDigit? high, Json.Quoted.hexDigit? low with
    | some high, some low =>
      let code := 16 * high + low
      if code = 0 then [] else UInt8.ofNat code :: unescape cs
    | _, _ => 0x25 :: unescape (high :: low :: cs)
  | c :: cs => Text.encode (String.singleton c) ++ unescape cs

def readPart (cs : List Char) : String :=
  Text.decodeLossy (unescape cs)

def readOption (cs : List Char) : String × String :=
  (readPart (cs.takeWhile (· ≠ '=')), readPart ((cs.dropWhile (· ≠ '=')).drop 1))

def dropAuthority? : List Char → Option (List Char)
  | '/' :: '/' :: cs =>
    let authority := String.ofList (cs.takeWhile (· ≠ '/'))
    if authority = "" ∨ authority = "localhost" then some (cs.dropWhile (· ≠ '/')) else none
  | cs => some cs

/--
The URI that `file:` and the given text make up. Options without a name and the fragment are left out.
-/
def ofText? (text : String) : Option DatabaseUri := do
  let cs := (← dropAuthority? text.toList).takeWhile (· ≠ '#')
  let options := (((cs.dropWhile (· ≠ '?')).drop 1).splitOn '&').map readOption
  return {
    path := readPart (cs.takeWhile (· ≠ '?'))
    options := options.filter fun (name, _) => name ≠ "" }

end DatabaseUri

/--
How a database may be used. Each kind of access includes those before it.
-/
inductive DatabaseAccess where
  | readOnly
  | readWrite
  /-- A missing file is made. -/
  | create
  /-- There is no file at all. -/
  | memory
deriving Repr, DecidableEq

namespace DatabaseAccess

def rank : DatabaseAccess → Nat
  | readOnly => 0
  | readWrite => 1
  | create => 2
  | memory => 3

def ofName? : String → Option DatabaseAccess
  | "ro" => some readOnly
  | "rw" => some readWrite
  | "rwc" => some create
  | "memory" => some memory
  | _ => none

/--
Change the access to the one with the given name. A database in memory can always be asked for,
and otherwise no more than what there is.
-/
def change? (access : DatabaseAccess) (name : String) : Option DatabaseAccess :=
  (ofName? name).filter fun asked => asked = memory ∨ asked.rank ≤ access.rank

end DatabaseAccess

inductive DatabaseAddress where
  /-- In memory, where it starts without any table. -/
  | memory
  /--
  In a file, which is made if it is missing and `create` is set. The file after which a new one is
  modelled has to be there in any case.
  -/
  | file (path : String) (create : Bool) (model : Option String)
deriving Repr, DecidableEq

namespace DatabaseAddress

def fileSystems : List String :=
  ["unix", "unix-none", "unix-dotfile", "unix-excl", "memdb"]

/--
The address that a URI describes. Of several file systems the last one counts, of several models the
first one; one access follows from the other.
-/
def ofUri? (uri : DatabaseUri) : Option DatabaseAddress := do
  let named (name : String) : List String :=
    (uri.options.filter fun option => option.1 = name).map (·.2)
  let access ← (named "mode").foldlM DatabaseAccess.change? .readOnly
  let fileSystem := (named "vfs").getLast?.getD "unix"
  guard (fileSystems.contains fileSystem)
  guard ((named "cache").all ["shared", "private"].contains)
  if access = .memory ∨ fileSystem = "memdb" ∨ uri.path = "" ∨ uri.path = ":memory:" then
    return .memory
  else
    return .file uri.path (access = .create) (named "modeof").head?

def ofText? (text : String) : Option DatabaseAddress :=
  if Path.isInvalid text then
    none
  else
    match Text.dropStart? "file:" text with
    | some rest => DatabaseUri.ofText? rest >>= ofUri?
    | none => ofUri? { path := text }

end DatabaseAddress

namespace Disk

def maxDatabasePathSize : Nat := 511

/--
The place that the path of a database leads to. Two dots take back the name before them, whether or
not there is such a directory; but nothing can be below a file.
-/
def databasePlace? (disk : Disk) (path : String) : Option (List String) :=
  (Path.names path).foldlM descend? (disk.origin path)
where
  descend? (location : List String) (part : String) : Option (List String) :=
    if part = ".." then
      some location.dropLast
    else
      let next := location ++ [part]
      if maxDatabasePathSize < (absolute next).utf8ByteSize then
        none
      else
        match next.foldlM disk.enter [] with
        | .ok _ | .error .notFound => some next
        | .error _ => none

end Disk

end AutoDJ
