import AutoDJ.Rehearsal.Stage

namespace AutoDJ.Rehearsal

structure JukeboxRig where
  deck : Deck (Nat × Stage)
  history : History
  /-- The path of the tail of the play history. -/
  tail : String
  caches : Caches := {}
  pageSize : Nat

namespace JukeboxRig

def create (player : ScriptedPlayer) (disk : Disk) (jukebox : Jukebox) (history : History)
    (tail : String) (pageSize : Nat) : JukeboxRig :=
  { deck := { device := (0, { players := [player], disk }), jukebox }
    history
    tail
    pageSize }

def jukebox (rig : JukeboxRig) : Jukebox :=
  rig.deck.jukebox

def setJukebox (rig : JukeboxRig) (jukebox : Jukebox) : JukeboxRig :=
  { rig with deck := { rig.deck with jukebox } }

def player (rig : JukeboxRig) : ScriptedPlayer :=
  rig.deck.device.2.players.headD {}

def setPlayer (rig : JukeboxRig) (player : ScriptedPlayer) : JukeboxRig :=
  { rig with
    deck := { rig.deck with device := (0, { rig.deck.device.2 with players := [player] }) } }

def clear (rig : JukeboxRig) : JukeboxRig :=
  let rig := rig.setPlayer rig.player.clearCalls
  { rig with deck := { rig.deck with events := [] } }

def booth (rig : JukeboxRig) (now : Int64) : Booth (Nat × Stage) :=
  { player := Stage.player
    playedSince := fun since => Play.onSnd (rig.history.urisSince (Stage.tail rig.tail) since)
    caches := rig.caches
    pageSize := rig.pageSize
    now }

def onDeck (x : Play (Deck (Nat × Stage)) α) : Play JukeboxRig α := fun rig =>
  match x rig.deck with
  | .ok value deck => .ok value { rig with deck }
  | .error e deck => .error e { rig with deck }

def needed? : Play JukeboxRig (Option Nat) := do
  let status ← onDeck (Deck.onDevice Stage.player.status)
  match (← get).jukebox.settings.needed? status with
  | .error .overflow => do
    onDeck Deck.noteOverflow
    return none
  | .ok needed => return needed

def record (uri : String) (now : Int64) : Play JukeboxRig Unit := fun rig =>
  let (position, stage) := rig.deck.device
  let back (history : History) (stage : Stage) : JukeboxRig :=
    { rig with history, deck := { rig.deck with device := (position, stage) } }
  match History.record (Stage.tail rig.tail) uri now (rig.history, stage) with
  | .ok () (history, stage) => .ok () (back history stage)
  | .error e (history, stage) => .error e (back history stage)

def install (rig : JukeboxRig) (delivery : Delivery) : Bool × JukeboxRig :=
  let result := rig.caches.install delivery Jukebox.invalidate [rig.jukebox]
  let rig := rig.setJukebox (result.dependents.headD rig.jukebox)
  (result.installed,
    { rig with
      caches := result.caches
      deck := { rig.deck with events := rig.deck.events ++ [result.event] } })

end JukeboxRig

end AutoDJ.Rehearsal
