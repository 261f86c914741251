import AutoDJ.Files.Disk

namespace AutoDJ

structure UserDirectories where
  home : Option String := none
  configHome : Option String := none
  dataHome : Option String := none
deriving Repr, DecidableEq

namespace UserDirectories

/--
The directory that has been named, if its path is absolute, and otherwise one below the home directory.
-/
def orBelowHome (dirs : UserDirectories) (named : Option String) (path : String) : Option String :=
  named.filter Path.isAbsolute <|> dirs.home.map fun home => Path.join home path

def config (dirs : UserDirectories) : Option String :=
  dirs.orBelowHome dirs.configHome ".config"

def data (dirs : UserDirectories) : Option String :=
  dirs.orBelowHome dirs.dataHome ".local/share"

def expand (dirs : UserDirectories) (path : String) : String :=
  match dirs.home with
  | none => path
  | some home =>
    if path = "~" then
      home
    else
      match Text.dropStart? "~/" path with
      | some rest => Path.join home rest
      | none => path

end UserDirectories

def dataDirectory (dirs : UserDirectories) : Play Disk String := do
  match dirs.data with
  | none => throw (.io "there is no directory for data")
  | some data =>
    let path := Path.join data "jukeboxd"
    Disk.makeDirectories path
    return path

def configPath (dirs : UserDirectories) : Play Disk String := do
  return Path.join (← dataDirectory dirs) "config.json"

def pidFilePath (dirs : UserDirectories) : Play Disk String := do
  return Path.join (← dataDirectory dirs) "jukeboxd.pid"

end AutoDJ
