import AutoDJ.Cli.Parse
import AutoDJ.Config.File
import AutoDJ.Files.UserDirectories

/-!
This module contains the program. It reads the command line and the configuration, and prints the
command together with the configuration it would be carried out under.
-/

namespace AutoDJ.Main

def explain : Cli.Refusal → String
  | .help => "usage: jukeboxd [--config PATH] COMMAND"
  | .version => "jukeboxd"
  | .noArguments => "usage: jukeboxd [--config PATH] COMMAND"
  | .noCommand => "the name of a command is missing"
  | .unknownCommand => "there is no such command"
  | .unknownArgument => "there is no such argument"
  | .invalidValue => "a value is missing or not one of the possible ones"
  | .invalidNumber => "a value is no number in range"
  | .surplusValue => "a value is given to an argument that takes none"
  | .repeatedArgument => "an argument is given twice"
  | .missingArgument => "an argument is missing"

def describe : Cli.Command → String
  | .run => "run"
  | .daemon action => "daemon " ++ action.name
  | .fill count albums partition =>
    "fill " ++ toString count ++ (if albums then " albums" else " songs") ++ " in " ++ partition
  | .rebuildCache => "rebuild-cache"
  | .completion shell => "completion " ++ shell.name

def userDirectories : IO UserDirectories := do
  return {
    home := ← IO.getEnv "HOME"
    configHome := ← IO.getEnv "XDG_CONFIG_HOME"
    dataHome := ← IO.getEnv "XDG_DATA_HOME" }

def choosePath (dirs : UserDirectories) (given : Option String) : Except Error String :=
  match given with
  | some path => .ok path
  | none =>
    match configPath dirs {} with
    | .ok path _ => .ok path
    | .error e _ => .error e

def load (path : String) : IO (Except Error Config) := do
  let disk : Disk ←
    try
      let bytes ← IO.FS.readBinFile path
      pure { entries := [(["config.json"], .file bytes.toList)] }
    catch _ =>
      pure {}
  return Config.load disk "config.json"

end AutoDJ.Main

open AutoDJ in
def main (line : List String) : IO UInt32 := do
  match Cli.parse (← IO.getEnv "JUKEBOXD_CONFIG") line with
  | .error refusal =>
    IO.eprintln (Main.explain refusal)
    return refusal.exitCode
  | .ok invocation =>
    let dirs ← Main.userDirectories
    let config ←
      match Main.choosePath dirs invocation.config with
      | .ok path => Main.load path
      | .error e => pure (.error e)
    match config with
    | .error e =>
      IO.eprintln e.message
      return 1
    | .ok config =>
      IO.println (Main.describe invocation.command)
      IO.println config.toText
      return 0
