import AutoDJ.Config.Format
import AutoDJ.Files.Disk
import AutoDJ.Json.Printer
import AutoDJ.Json.Reader

namespace AutoDJ

namespace JukeboxSettings

def ofText (text : String) : Except Error JukeboxSettings :=
  match (Json.read? text).bind codec.read? with
  | some settings => .ok settings
  | none => .error (.config "these are no settings of a jukebox")

end JukeboxSettings

namespace Config

def ofText (text : String) : Except Error Config :=
  match (Json.read? text).bind codec.read? with
  | some config => .ok config
  | none => .error (.config "this is no configuration")

def toText (config : Config) : String :=
  (codec.write config).pretty

/--
The configuration in a file; if there is no file, everything is as by default.
-/
def load (disk : Disk) (path : String) : Except Error Config :=
  match disk.readText? path with
  | .error e => .error e.toError
  | .ok none => .ok {}
  | .ok (some text) => ofText text

def save (config : Config) (path : String) : Play Disk Unit := do
  Disk.makeParent path
  Disk.writeText path config.toText

end Config

end AutoDJ
