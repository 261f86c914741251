import AutoDJ.Files.Disk
import AutoDJ.Rehearsal.Player
import AutoDJ.Service.Run
import AutoDJ.Sticker.Address
import AutoDJ.Sticker.Table

/-!
This module contains the world outside a player service for rehearsals: a player for each partition,
the files, and the sticker databases among them.
-/

namespace AutoDJ.Rehearsal

structure Stage where
  players : List ScriptedPlayer := []
  disk : Disk := {}
  /-- The sticker databases under the names of their files in the working directory. -/
  databases : List (String × StickerTable) := []

namespace Stage

def onPlayer (x : Play ScriptedPlayer α) : Play (Nat × Stage) α := fun (position, stage) =>
  let player := stage.players.getD position {}
  let back (player : ScriptedPlayer) : Nat × Stage :=
    (position, { stage with players := stage.players.set position player })
  match x player with
  | .ok value player => .ok value (back player)
  | .error e player => .error e (back player)

def onDisk (x : Play Disk α) : Play Stage α := fun stage =>
  match x stage.disk with
  | .ok value disk => .ok value { stage with disk }
  | .error e disk => .error e { stage with disk }

def player : Player (Nat × Stage) where
  libraryPage offset limit := onPlayer (ScriptedPlayer.player.libraryPage offset limit)
  playlistPage name offset limit := onPlayer (ScriptedPlayer.player.playlistPage name offset limit)
  queuedUris := onPlayer ScriptedPlayer.player.queuedUris
  addTrack uri := onPlayer (ScriptedPlayer.player.addTrack uri)
  addAlbum album albumArtist := onPlayer (ScriptedPlayer.player.addAlbum album albumArtist)
  play := onPlayer ScriptedPlayer.player.play
  status := onPlayer ScriptedPlayer.player.status
  stats := onPlayer ScriptedPlayer.player.stats

def tail (path : String) : Tail Stage where
  read := onDisk (Disk.tail path).read
  replace text := onDisk ((Disk.tail path).replace text)

def place (stage : Stage) (name : String) : List String :=
  stage.disk.workingDirectory ++ [name]

def files (stage : Stage) : Disk :=
  stage.databases.foldl (fun disk (name, _) => disk.put (stage.place name) (.file [])) stage.disk

def table? (stage : Stage) : DatabaseAddress → Option StickerTable
  | .memory => some { rows? := none }
  | .file path create model => do
    let disk := stage.files
    guard (model.all disk.has)
    let place ← disk.databasePlace? path
    match disk.entry? place with
    | some (.file _) =>
      let named := stage.databases.find? fun (name, _) => stage.place name == place
      return (named.map (·.2)).getD { rows? := none }
    | some .directory => none
    | none =>
      guard (create && disk.entry? place.dropLast == some .directory)
      return { rows? := none }

def openStickers (address : String) : Play Stage (StickerStore Stage) := do
  let stage ← get
  match DatabaseAddress.ofText? address >>= stage.table? with
  | some table => return table.store
  | none => throw (.sticker "the database cannot be opened")

def backend (historyPath : String) : Backend Nat Stage where
  player := player
  clone position := position
  tail := tail historyPath
  openStickers := openStickers

end Stage

end AutoDJ.Rehearsal
