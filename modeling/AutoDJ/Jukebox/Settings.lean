import AutoDJ.Jukebox.Sampling

namespace AutoDJ

inductive JukeboxMode where
  | off
  | addTracks
  | addAlbums
deriving Repr, DecidableEq

namespace JukeboxMode

def all : List JukeboxMode :=
  [off, addTracks, addAlbums]

def name : JukeboxMode → String
  | off => "off"
  | addTracks => "add_tracks"
  | addAlbums => "add_albums"

end JukeboxMode

structure JukeboxSettings where
  mode : JukeboxMode := .off
  /-- The length that the playback queue should have. -/
  queueLength : UInt64 := 1
  /-- How long a song counts as recently played; zero if the play history is not to be asked. -/
  lastPlayedHours : UInt32 := 24
  enforceUnique : Bool := true
  /-- A tag whose values should be unique among the waiting tracks, too. -/
  uniqueTag : Option Tag := none
  source : Source := .database
  /-- How many seconds before the end of a song the next one has to be there. -/
  crossfadeSecs : UInt32 := 0
  ignoreHated : Bool := false
deriving Repr, DecidableEq

/--
What is wrong with a sum that does not fit into a word.
-/
inductive WordError where
  | overflow
deriving Repr, DecidableEq

def checkedSum (a b : UInt64) : Except WordError UInt64 :=
  if a.toNat + b.toNat < UInt64.size then .ok (a + b) else .error .overflow

def maxAdd : Nat := 99

namespace JukeboxSettings

/--
Whether the current song is so close to its end that it no longer counts. A player that is not
playing, or does not know the length of the song, counts as close to the end.
-/
def timePassed (settings : JukeboxSettings) (status : PlayerStatus) : Bool :=
  match status.remaining? with
  | some left => left - settings.crossfadeSecs.toFloat ≤ 0.0
  | none => true

/--
How many items a playback queue of length `remaining` is short of, in 64-bit words.
-/
def missing (settings : JukeboxSettings) (timePassed : Bool) (remaining : UInt64) :
    Except WordError UInt64 :=
  let target := settings.queueLength
  let gap := if remaining ≤ target then target - remaining else 0
  if timePassed && remaining ≤ target then checkedSum gap 1 else .ok gap

def shortage? (settings : JukeboxSettings) (timePassed : Bool) (remaining : UInt64) :
    Except WordError (Option Nat) := do
  if settings.queueLength ≤ remaining && !timePassed then
    return none
  let count := min (← settings.missing timePassed remaining).toNat maxAdd
  return if count = 0 then none else some count

/--
How many items a fill adds for a player with this status, if any.
-/
def needed? (settings : JukeboxSettings) (status : PlayerStatus) : Except WordError (Option Nat) :=
  settings.shortage? (settings.timePassed status) status.queueLength

end JukeboxSettings

end AutoDJ
