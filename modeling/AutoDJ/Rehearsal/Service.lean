import AutoDJ.Rehearsal.Stage

namespace AutoDJ.Rehearsal

def backend : Backend Nat Stage :=
  Stage.backend "history"

def service (player : ScriptedPlayer) : Service Nat Stage :=
  { partitions := [{ handle := 0, jukebox := .create "default" {} { word := fun _ => 0 } }]
    room := { world := { players := [player] }, history := .create } }

def Stage.update (token : String) (stage : Stage) : Stage :=
  { stage with players := stage.players.map fun player => { player with updated := token } }

end AutoDJ.Rehearsal
