import AutoDJ.Files.UserDirectories
import AutoDJ.Text.Blank

namespace AutoDJ.MpdConf

/--
The value that a line gives to `key`. The value may stand in quotes, and must not be empty.
-/
def value? (key line : String) : Option String := do
  let line := Text.trim line
  if line.toList.head? = some '#' then
    none
  else
    let rest ← Text.dropStart? key line
    if !(rest.toList.head?.any Text.isBlank) then
      none
    else
      let value := unquote (Text.trimChars rest.toList)
      if value.isEmpty then none else some (String.ofList value)
where
  unquote (cs : List Char) : List Char :=
    Text.stripChars (· == '\x27') (Text.stripChars (· == '"') cs)

def setting? (dirs : UserDirectories) (key text : String) : Option String :=
  ((Text.lines text).findSome? (value? key)).map dirs.expand

/--
The first path given to `key` in one of several files that leads to a file. Files that cannot be read
are passed over.
-/
def findSettingPath (dirs : UserDirectories) (disk : Disk) (configs : List String) (key : String) :
    Option String :=
  configs.findSome? fun config =>
    match disk.readText config with
    | .ok text => (setting? dirs key text).filter disk.isFile
    | .error _ => none

def candidates (dirs : UserDirectories) : List String :=
  (dirs.config.map fun config => Path.join config "mpd/mpd.conf").toList
    ++ (dirs.home.map fun home => Path.join home ".config/mpd/mpd.conf").toList
    ++ (dirs.home.map fun home => Path.join home ".mpdconf").toList
    ++ ["/etc/mpd.conf", "/usr/local/etc/mpd.conf"]

def findStickerFile (dirs : UserDirectories) (disk : Disk) : Option String :=
  findSettingPath dirs disk (candidates dirs) "sticker_file"

end AutoDJ.MpdConf
