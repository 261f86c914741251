import AutoDJ.Cli.Level
import AutoDJ.Text.Lines

/-!
This module contains the reading of the command line.

The value of an argument is looked at as late as possible: when the next argument has been recognised,
or at the end of its level. What follows the name of a command is read before the level of that name
comes to its end.
-/

namespace AutoDJ.Cli

structure Reading where
  level : Level
  given : Arguments := {}
  /-- The last argument and its value, unless that comes next. -/
  pending : Option (Argument × Option String) := none
  /-- Whether everything from here on is given by its place. -/
  isTrailing : Bool := false
  /-- Whether the argument given by its place has been read. -/
  hasPositional : Bool := false

namespace Reading

def awaitsValue (r : Reading) : Bool :=
  match r.pending with
  | some (_, none) => true
  | some (_, some _) | none => false

def settle (r : Reading) : Except Refusal Reading :=
  match r.pending with
  | none => .ok r
  | some (_, none) => .error .invalidValue
  | some (argument, some value) =>
    (r.given.set argument value).map fun given => { r with given, pending := none }

def takeName (r : Reading) (argument : Argument) : Except Refusal Reading := do
  let r ← r.settle
  match argument with
  | .albums => return { r with given := ← r.given.set argument "" }
  | .config | .partition | .count | .shell => return { r with pending := some (argument, none) }

def takeBoth (r : Reading) (argument : Argument) (value : String) : Except Refusal Reading :=
  match argument with
  | .albums => .error .surplusValue
  | .config | .partition | .count | .shell => do
    let r ← r.settle
    return { r with given := ← r.given.set argument value }

def ask (r : Reading) (refusal : Refusal) : Except Refusal Reading := do
  let _ ← r.settle
  throw refusal

def question? (r : Reading) (name : String) : Option Refusal :=
  if name = "help" then some .help
  else if name = "version" ∧ r.level = .root then some .version
  else none

def takeLong (r : Reading) (text : String) : Except Refusal Reading :=
  let (name, value) :=
    match Text.breakOn "=" text with
    | some (name, value) => (name, some value)
    | none => (text, none)
  match r.question? name, r.level.named.lookup name, value with
  | some refusal, _, none => r.ask refusal
  | some _, _, some _ => .error .surplusValue
  | none, some argument, none => r.takeName argument
  | none, some argument, some value => r.takeBoth argument value
  | none, none, _ => .error .unknownArgument

def takeShort (r : Reading) (c : Char) : Except Refusal Reading :=
  if c = 'h' then r.ask .help
  else if c = 'V' ∧ r.level = .root then r.ask .version
  else .error .unknownArgument

def misplaced (r : Reading) (text : String) : Refusal :=
  if r.level.children.isEmpty then .unknownArgument
  else if r.isTrailing && (r.level.child? text).isSome then .unknownArgument
  else .unknownCommand

def takePositional (r : Reading) (text : String) : Except Refusal Reading :=
  match r.level.positional? with
  | none => .error (r.misplaced text)
  | some argument =>
    if r.hasPositional then
      .error (r.misplaced text)
    else do
      let r ← r.settle
      return { r with pending := some (argument, some text), hasPositional := true }

def take (r : Reading) (text : String) : Except Refusal Reading :=
  if r.isTrailing then
    r.takePositional text
  else
    match text.toList with
    | ['-', '-'] => .ok { r with isTrailing := true }
    | '-' :: '-' :: rest => r.takeLong (String.ofList rest)
    | '-' :: c :: _ => r.takeShort c
    | _ =>
      match r.pending with
      | some (argument, none) => .ok { r with pending := some (argument, some text) }
      | some (_, some _) | none => r.takePositional text

def child? (r : Reading) (text : String) : Option Level :=
  if r.isTrailing || r.awaitsValue then none else r.level.child? text

end Reading

def helpAbout : Level → List String → Refusal
  | _, [] => .help
  | level, name :: names =>
    match level.child? name with
    | some child => helpAbout child names
    | none => .unknownCommand

/--
A command, and the path of the configuration if it is on the command line or in the environment.
-/
structure Outcome where
  command : Command
  fromLine : Option String
  fromEnvironment : Option String
deriving Repr, DecidableEq

/--
Come to the end of a level. At each level without a path for the configuration the environment may
supply one; a path that is given further down the line wins.
-/
def finish (environment : Option String) (r : Reading) (inner : Option Outcome) :
    Except Refusal Outcome := do
  let r ← r.settle
  let fromLine := r.given.config
  let fromEnvironment ←
    match fromLine, environment with
    | none, some path => (Arguments.readPath path).map some
    | _, _ => .ok none
  match inner with
  | some inner =>
    return {
      command := inner.command
      fromLine := inner.fromLine <|> fromLine
      fromEnvironment := inner.fromEnvironment <|> fromEnvironment }
  | none =>
    let given := { r.given with config := fromLine <|> fromEnvironment }
    return { command := ← r.level.command given, fromLine, fromEnvironment }

def parseFrom (environment : Option String) (r : Reading) : List String → Except Refusal Outcome
  | [] => finish environment r none
  | text :: rest =>
    match r.child? text with
    | some .help => .error (helpAbout r.level rest)
    | some child => do
      let inner ← parseFrom environment { level := child } rest
      finish environment r (some inner)
    | none => do
      let r ← r.take text
      parseFrom environment r rest

/--
Read a command line. The environment may name a configuration that is used unless the line names one.
-/
def parse (environment : Option String) (line : List String) : Except Refusal Invocation := do
  let outcome ← parseFrom environment { level := .root } line
  return { command := outcome.command, config := outcome.fromLine <|> outcome.fromEnvironment }

end AutoDJ.Cli
