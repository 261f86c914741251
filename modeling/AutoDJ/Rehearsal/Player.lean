import AutoDJ.Player.Basic

/-!
This module contains a player for rehearsals. It follows a script, keeps its library and its playback
queue in memory, and takes down every call.
-/

namespace AutoDJ.Rehearsal

inductive Method where
  | libraryPage
  | playlistPage
  | queuedUris
  | addTrack
  | addAlbum
  | play
  | status
  | stats
deriving Repr, DecidableEq

namespace Method

def all : List Method :=
  [libraryPage, playlistPage, queuedUris, addTrack, addAlbum, play, status, stats]

def name : Method → String
  | libraryPage => "search_page"
  | playlistPage => "playlist_page"
  | queuedUris => "queue_uris"
  | addTrack => "add_track"
  | addAlbum => "add_album"
  | play => "play"
  | status => "status"
  | stats => "stats"

end Method

inductive Call where
  | libraryPage (offset limit : Nat)
  | playlistPage (name : String) (offset limit : Nat)
  | queuedUris
  | addTrack (uri : String)
  | addAlbum (album albumArtist : String)
  | play
  | status
  | stats
deriving Repr, DecidableEq

def Call.method : Call → Method
  | libraryPage .. => .libraryPage
  | playlistPage .. => .playlistPage
  | queuedUris => .queuedUris
  | addTrack _ => .addTrack
  | addAlbum .. => .addAlbum
  | play => .play
  | status => .status
  | stats => .stats

structure ScriptedPlayer where
  library : List Song := []
  playlists : List (String × List Song) := []
  queue : List String := []
  state : PlayState := .stop
  /-- The queue length to report, if it is not the length of the queue. -/
  queueLength : Option UInt64 := none
  current : Option String := none
  elapsed : Float := 0.0
  duration : Option Float := none
  songs : UInt64 := 0
  updated : String := ""
  /-- The songs and albums that cannot be added. -/
  reject : List String := []
  /-- The most songs on a page, if there is such a limit. -/
  pageCap : Option Nat := none
  /-- The calls that fail: the calls of each method are counted from zero. -/
  failures : List (Method × Nat) := []
  /-- The methods called since the failures were set. -/
  counted : List Method := []
  /-- The calls taken down, the last one first. -/
  log : List Call := []

namespace ScriptedPlayer

def calls (p : ScriptedPlayer) : List Call :=
  p.log.reverse

def clearCalls (p : ScriptedPlayer) : ScriptedPlayer :=
  { p with log := [] }

def setFailures (p : ScriptedPlayer) (failures : List (Method × Nat)) : ScriptedPlayer :=
  { p with failures, counted := [] }

def enter (call : Call) : Play ScriptedPlayer Unit := do
  let number := (← get).counted.count call.method
  modify fun p => { p with log := call :: p.log, counted := call.method :: p.counted }
  if (← get).failures.contains (call.method, number) then
    throw (.protocol call.method.name ("scripted failure " ++ toString number))

def cut (p : ScriptedPlayer) (songs : List Song) (offset limit : Nat) : List Song :=
  (songs.drop offset).take (min limit (p.pageCap.getD limit))

def isOn (album albumArtist : String) (song : Song) : Bool :=
  song.album.getD "" == album && ((song.albumArtist <|> song.artist).getD "") == albumArtist

def append (uris : List String) : Play ScriptedPlayer Unit :=
  modify fun p => { p with queue := p.queue ++ uris }

def player : Player ScriptedPlayer where
  libraryPage offset limit := do
    enter (.libraryPage offset limit)
    let p ← get
    return p.cut p.library offset limit
  playlistPage name offset limit := do
    enter (.playlistPage name offset limit)
    let p ← get
    match p.playlists.lookup name with
    | some songs => return p.cut songs offset limit
    | none => throw (.protocol "playlist" "No such playlist")
  queuedUris := do
    enter .queuedUris
    return (← get).queue
  addTrack uri := do
    enter (.addTrack uri)
    if (← get).reject.contains uri then
      throw (.protocol "add" "No such song")
    append [uri]
  addAlbum album albumArtist := do
    enter (.addAlbum album albumArtist)
    let p ← get
    if p.reject.contains album then
      throw (.protocol "findadd" "No such album")
    append ((p.library.filter (isOn album albumArtist)).map (·.uri))
  play := enter .play
  status := do
    enter .status
    let p ← get
    return {
      state := p.state
      queueLength := p.queueLength.getD (UInt64.ofNat p.queue.length)
      currentUri := p.current
      elapsed := p.elapsed
      duration := p.duration }
  stats := do
    enter .stats
    let p ← get
    return { songs := p.songs, updated := p.updated }

end ScriptedPlayer

end AutoDJ.Rehearsal
