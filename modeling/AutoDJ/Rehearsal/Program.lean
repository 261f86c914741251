import AutoDJ.Program

namespace AutoDJ.Rehearsal

structure ScriptedProgram where
  name : String
  result : ProgramResult
  /-- The arguments of the last run. -/
  arguments : Option (List String) := none
deriving Repr

namespace ScriptedProgram

def accepts (argument : String) : Bool :=
  !argument.toList.contains '\x00' && argument.utf8ByteSize < 131072

def launcher : Launcher ScriptedProgram := fun program arguments => do
  let p ← get
  if program ≠ p.name then
    return .notStarted "no such program"
  else if !arguments.all accepts then
    return .notStarted "an argument cannot be passed on"
  else
    match p.result with
    | .notStarted reason => return .notStarted reason
    | result =>
      set { p with arguments := some arguments }
      return result

end ScriptedProgram

end AutoDJ.Rehearsal
