import AutoDJ.Error
import AutoDJ.Song

namespace AutoDJ

/--
An operation on a state `s` that may fail. A failed operation may have changed the state all the same.
-/
abbrev Play (s : Type) := EStateM Error s

def Play.onFst (x : Play s α) : Play (s × t) α := fun (a, b) =>
  match x a with
  | .ok value a => .ok value (a, b)
  | .error e a => .error e (a, b)

def Play.onSnd (x : Play t α) : Play (s × t) α := fun (a, b) =>
  match x b with
  | .ok value b => .ok value (a, b)
  | .error e b => .error e (a, b)

inductive PlayState where
  | play
  | pause
  | stop
deriving Repr, DecidableEq

namespace PlayState

def all : List PlayState :=
  [play, pause, stop]

def name : PlayState → String
  | play => "play"
  | pause => "pause"
  | stop => "stop"

end PlayState

/--
What a player reports about itself. The queue length includes the current song; the times are in
seconds.
-/
structure PlayerStatus where
  state : PlayState := .stop
  queueLength : UInt64 := 0
  currentUri : Option String := none
  elapsed : Float := 0.0
  duration : Option Float := none

namespace PlayerStatus

/--
The seconds until the current song ends, never negative, if a song of known duration is playing.
-/
def remaining? (status : PlayerStatus) : Option Float :=
  match status.state, status.duration with
  | .play, some duration =>
    let left := duration - status.elapsed
    some (if left > 0.0 then left else 0.0)
  | _, _ => none

end PlayerStatus

/--
Figures about a player's library. The token `updated` changes whenever the library does.
-/
structure LibraryStats where
  songs : UInt64 := 0
  updated : String := ""
deriving Repr, DecidableEq

structure Player (s : Type) where
  /-- The songs of the library from an offset on, as many as a limit allows. -/
  libraryPage : (offset limit : Nat) → Play s (List Song)
  /-- The songs of a stored playlist from an offset on, as many as a limit allows. -/
  playlistPage : (name : String) → (offset limit : Nat) → Play s (List Song)
  queuedUris : Play s (List String)
  addTrack : (uri : String) → Play s Unit
  /-- Append all songs of an album to the playback queue. -/
  addAlbum : (album albumArtist : String) → Play s Unit
  play : Play s Unit
  status : Play s PlayerStatus
  stats : Play s LibraryStats

end AutoDJ
