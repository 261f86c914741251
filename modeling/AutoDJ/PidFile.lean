import AutoDJ.Files.Disk
import AutoDJ.Program
import AutoDJ.Text.Blank

namespace AutoDJ.PidFile

def read (path : String) : Play Disk (Option UInt32) := do
  let text ← Disk.ask fun disk => disk.readText? path
  return text.bind fun text => Text.readUInt32? (Text.trim text)

def write (path : String) (pid : UInt32) : Play Disk Unit := do
  Disk.makeParent path
  Disk.writeText path (toString pid)

variable (launch : Launcher ω)

def signal (name : String) (pid : UInt32) : Play ω ProgramResult :=
  launch "kill" [name, toString pid]

def isRunning (path : String) : Play (Disk × ω) Bool := do
  match ← Play.onFst (read path) with
  | none => return false
  | some pid =>
    match ← Play.onSnd (signal launch "-0" pid) with
    | .exited code _ _ => return code = 0
    | .notStarted _ => return false

/--
Tell the process to end, and remove the file whether or not it could be told. Without a number there is
nothing to do.
-/
def stop (path : String) : Play (Disk × ω) Bool := do
  match ← Play.onFst (read path) with
  | none => return false
  | some pid =>
    match ← Play.onSnd (signal launch "-TERM" pid) with
    | .notStarted reason => throw (.io reason)
    | .exited .. =>
      Play.onFst (Disk.removeFile path)
      return true

end AutoDJ.PidFile
