import AutoDJ.Cli.Command
import AutoDJ.Text.Numeral

namespace AutoDJ.Cli

inductive Level where
  | root
  | help
  | run
  | daemon
  | action (action : DaemonAction)
  | fill
  | rebuildCache
  | completion
deriving Repr, DecidableEq

inductive Argument where
  | config
  | albums
  | partition
  | count
  | shell
deriving Repr, DecidableEq

namespace Level

def children : Level → List (String × Level)
  | root =>
    [("run", run), ("daemon", daemon), ("fill", fill), ("rebuild-cache", rebuildCache),
      ("completion", completion), ("help", help)]
  | daemon => DaemonAction.all.map (fun a => (a.name, action a)) ++ [("help", help)]
  | help | run | action _ | fill | rebuildCache | completion => []

def child? (level : Level) (name : String) : Option Level :=
  level.children.lookup name

/--
The arguments that are given by name. The path of the configuration may be given at every level.
-/
def named : Level → List (String × Argument)
  | fill => [("config", .config), ("albums", .albums), ("partition", .partition)]
  | root | help | run | daemon | action _ | rebuildCache | completion => [("config", .config)]

def positional? : Level → Option Argument
  | fill => some .count
  | completion => some .shell
  | root | help | run | daemon | action _ | rebuildCache => none

end Level

structure Arguments where
  config : Option String := none
  albums : Bool := false
  partition : Option String := none
  count : Option UInt64 := none
  shell : Option Shell := none
deriving Repr, DecidableEq

namespace Arguments

def has (given : Arguments) : Argument → Bool
  | .config => given.config.isSome
  | .albums => given.albums
  | .partition => given.partition.isSome
  | .count => given.count.isSome
  | .shell => given.shell.isSome

def readPath (text : String) : Except Refusal String :=
  if text.isEmpty then .error .invalidValue else .ok text

def set (given : Arguments) (argument : Argument) (value : String) : Except Refusal Arguments :=
  if given.has argument then
    .error .repeatedArgument
  else
    match argument with
    | .config => (readPath value).map fun path => { given with config := some path }
    | .albums => .ok { given with albums := true }
    | .partition => .ok { given with partition := some value }
    | .count =>
      match Text.readUInt64? value with
      | some count => .ok { given with count := some count }
      | none => .error .invalidNumber
    | .shell =>
      match Shell.all.find? (·.word == value) with
      | some shell => .ok { given with shell := some shell }
      | none => .error .invalidValue

end Arguments

def defaultPartition : String := "default"

def Level.command (level : Level) (given : Arguments) : Except Refusal Command :=
  match level with
  | root | daemon | help => .error (if given.config.isSome then .noCommand else .noArguments)
  | run => .ok .run
  | action a => .ok (.daemon a)
  | rebuildCache => .ok .rebuildCache
  | fill =>
    match given.count with
    | some count => .ok (.fill count given.albums (given.partition.getD defaultPartition))
    | none => .error .missingArgument
  | completion =>
    match given.shell with
    | some shell => .ok (.completion shell)
    | none => .error .missingArgument

end AutoDJ.Cli
