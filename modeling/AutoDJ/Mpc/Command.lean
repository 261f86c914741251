import AutoDJ.Mpc.Client
import AutoDJ.Program
import AutoDJ.Text.Utf8

namespace AutoDJ

namespace Mpc

structure Target where
  host : Option String := none
  port : Option UInt16 := none
deriving Repr, DecidableEq

namespace Target

def arguments (target : Target) : List String :=
  (match target.host with
    | some host => ["--host", host]
    | none => [])
  ++ match target.port with
    | some port => ["--port", toString port]
    | none => []

end Target

/--
The output of `mpc`. If it fails, what it writes as a diagnostic is the reason.
-/
def output (arguments : List String) : ProgramResult → Except Error String
  | .notStarted reason => .error (.io reason)
  | .exited code stdout stderr =>
    if code = 0 then
      .ok (Text.decodeLossy stdout)
    else
      .error
        (.protocol (Text.joinWith " " arguments) (Text.trim (Text.decodeLossy stderr)))

def runner (launch : Launcher ω) (target : Target) : Runner ω := fun arguments => do
  match output arguments (← launch "mpc" (target.arguments ++ arguments)) with
  | .ok text => return text
  | .error e => throw e

end Mpc

end AutoDJ
