import AutoDJ.Player.Basic
import AutoDJ.Text.Blank
import AutoDJ.Text.Decimal
import AutoDJ.Text.Lines

/-!
This module contains the reading of what `mpc` prints: times, listings of songs, the status and the
figures about the library.

The status takes up three lines while a song is playing or paused, and only the last of them
otherwise:

    artist/album/song.mp3
    [playing] #5/20   1:23/3:45 (37%)
    volume: 80%   repeat: on    random: off   single: off   consume: off
-/

namespace AutoDJ.Mpc

/--
The format in which songs are listed: one line for each song, the fields separated by tabs.
-/
def songFormat : String :=
  "%file%\t[%title%]\t[%artist%]\t[%album%]\t[%albumartist%]\t[%genre%]\t[%date%]\t[%time%]"

def uriFormat : String := "%file%"

/--
The seconds meant by two or three numbers separated by colons, each worth sixty times the next.
-/
def readTime (time : String) : Except Error Float :=
  let invalid := Error.protocol "status" ("invalid time: " ++ time)
  let parts := Text.fields ':' (Text.trim time)
  if parts.length = 2 ∨ parts.length = 3 then
    parts.foldlM (fun total part =>
      match Text.readFloat? part with
      | some value => .ok (total * 60.0 + value)
      | none => .error invalid) 0.0
  else
    .error invalid

/--
A field without the blanks around it, unless nothing else is there.
-/
def readField? (field : String) : Option String :=
  let value := Text.trim field
  if value.isEmpty then none else some value

def readDuration (time : String) : UInt32 :=
  match readTime time with
  | .ok seconds => seconds.toUInt32
  | .error _ => 0

/--
The song that a line of a listing shows. A line without URI shows none.
-/
def readSong? (line : String) : Option Song :=
  let fields := (Text.fields '\t' line).map readField?
  let field (i : Nat) : Option String := fields[i]?.join
  (field 0).map fun uri =>
    { uri
      title := field 1
      artist := field 2
      album := field 3
      albumArtist := field 4
      genre := field 5
      date := field 6
      duration := ((field 7).map readDuration).getD 0 }

def readSongs (listing : String) : List Song :=
  (Text.lines listing).filterMap readSong?

def readUris (listing : String) : List String :=
  (Text.lines listing).filterMap readField?

def readState? (line : String) : Option PlayState :=
  if (Text.dropStart? "[playing]" line).isSome then some .play
  else if (Text.dropStart? "[paused]" line).isSome then some .pause
  else none

/--
The length of the playback queue in a word such as `#5/20`.
-/
def readQueueLength? (word : String) : Option UInt64 := do
  let position ← Text.dropStart? "#" word
  let (_, length) ← Text.breakOn "/" position
  Text.readUInt64? length

/--
The status on the line with the state; `current` is the first line of the output if that is another one.
-/
def readStateLine (current : Option String) (line : String) : Except Error PlayerStatus := do
  let some state := readState? line
    | throw (.protocol "status" ("unknown state line: " ++ line))
  let words := (Text.words line).drop 1
  let some queueLength := words.head?.bind readQueueLength?
    | throw (.protocol "status" ("no queue position in: " ++ line))
  let times := (words.drop 1).head?.bind (Text.breakOn "/")
  return {
    state
    queueLength
    currentUri := current.bind readField?
    elapsed := ((times.bind fun (elapsed, _) => (readTime elapsed).toOption)).getD 0.0
    duration := times.bind fun (_, total) => (readTime total).toOption }

/--
The status, or nothing if there is no line with a state.
-/
def readStatus (output : String) : Except Error (Option PlayerStatus) :=
  let lines := Text.lines output
  match lines.span fun line => line.toList.head? != some '[' with
  | (_, []) => .ok none
  | (before, line :: _) => (readStateLine before.head? line).map some

def readStatsLine (stats : LibraryStats) (line : String) : LibraryStats :=
  match Text.breakOn ":" line with
  | none => stats
  | some (key, value) =>
    match Text.trim key with
    | "Songs" => { stats with songs := (Text.readUInt64? (Text.trim value)).getD 0 }
    | "DB Updated" => { stats with updated := Text.trim value }
    | _ => stats

def readStats (output : String) : LibraryStats :=
  (Text.lines output).foldl readStatsLine {}

end AutoDJ.Mpc
