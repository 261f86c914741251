namespace AutoDJ.Cli

inductive DaemonAction where
  | start
  | stop
  | status
deriving Repr, DecidableEq

namespace DaemonAction

def all : List DaemonAction :=
  [start, stop, status]

def name : DaemonAction → String
  | start => "start"
  | stop => "stop"
  | status => "status"

end DaemonAction

inductive Shell where
  | bash
  | zsh
  | fish
  | powerShell
  | elvish
deriving Repr, DecidableEq

namespace Shell

def all : List Shell :=
  [bash, zsh, fish, powerShell, elvish]

def word : Shell → String
  | bash => "bash"
  | zsh => "zsh"
  | fish => "fish"
  | powerShell => "power-shell"
  | elvish => "elvish"

def name : Shell → String
  | powerShell => "powershell"
  | shell => shell.word

end Shell

inductive Command where
  /-- Serve in the foreground. -/
  | run
  /-- Manage the process that serves in the background. -/
  | daemon (action : DaemonAction)
  /-- Add songs or albums to a partition right now. -/
  | fill (count : UInt64) (albums : Bool) (partition : String)
  /-- Build the snapshots once. -/
  | rebuildCache
  /-- Print the completions for a shell. -/
  | completion (shell : Shell)
deriving Repr, DecidableEq

structure Invocation where
  command : Command
  /-- The path of the configuration, if it has been given. -/
  config : Option String := none
deriving Repr, DecidableEq

inductive Refusal where
  | help
  | version
  /-- There are no arguments where some are needed. -/
  | noArguments
  /-- The name of a command is missing. -/
  | noCommand
  | unknownCommand
  | unknownArgument
  /-- A value is missing, empty or not one of the possible ones. -/
  | invalidValue
  /-- A value is no number in range. -/
  | invalidNumber
  /-- A value is given to something that takes none. -/
  | surplusValue
  | repeatedArgument
  | missingArgument
deriving Repr, DecidableEq

def Refusal.exitCode : Refusal → UInt32
  | help | version => 0
  | noArguments | noCommand | unknownCommand | unknownArgument | invalidValue | invalidNumber
  | surplusValue | repeatedArgument | missingArgument => 2

end AutoDJ.Cli
