import AutoDJ.Mpc.Output
import AutoDJ.Player.Source

/-!
This module contains a player that is controlled through the command line of `mpc`.

The program always lists a source as a whole. A client holds the listing it has fetched for the first
page of a source and cuts the later pages from it.
-/

namespace AutoDJ.Mpc

abbrev Runner (ω : Type) := (arguments : List String) → Play ω String

structure Listing where
  source : Source
  songs : List Song
deriving Repr, DecidableEq

/--
A client knows at most one listing.
-/
structure Client where
  held : Option Listing := none
deriving Repr, DecidableEq

namespace Client

/--
The songs that a client can take a page from without fetching them. The first page is always fetched.
-/
def songs? (client : Client) (source : Source) (offset : Nat) : Option (List Song) :=
  match client.held with
  | some listing => if 0 < offset ∧ listing.source = source then some listing.songs else none
  | none => none

end Client

variable (run : Runner ω)

def fetch (source : Source) : Play ω (List Song) := do
  let arguments :=
    match source with
    | .database => ["listall"]
    | .playlist name => ["playlist", name]
  return readSongs (← run (["-f", songFormat] ++ arguments))

/--
The songs of a source from an offset on, as many as a limit allows. The listing is held until a page
comes out shorter than that.
-/
def page (source : Source) (offset limit : Nat) : Play (Client × ω) (List Song) := do
  let songs ←
    match (← get).1.songs? source offset with
    | some songs => pure songs
    | none => Play.onSnd (fetch run source)
  let page := (songs.drop offset).take limit
  let held := if page.length < limit then none else some { source, songs }
  modify fun (_, world) => ({ held }, world)
  return page

def queuedUris : Play ω (List String) := do
  return readUris (← run ["-f", uriFormat, "playlist"])

/--
Append the songs of an album. The artist stands in for the album artist if no song of the album has one.
-/
def addAlbum (album albumArtist : String) : Play ω Unit := do
  let found ← run ["-f", uriFormat, "find", "album", album, "albumartist", albumArtist]
  let tag := if (Text.trim found).isEmpty then "artist" else "albumartist"
  let _ ← run ["findadd", "album", album, tag, albumArtist]

/--
The status. While nothing is playing or paused, the length of the playback queue is found by listing it.
-/
def status : Play ω PlayerStatus := do
  match readStatus (← run ["-f", uriFormat, "status"]) with
  | .ok (some status) => return status
  | .ok none => return { queueLength := UInt64.ofNat (← queuedUris run).length }
  | .error e => throw e

def version : Play ω String := do
  return Text.trim (← run ["version"])

def player : Player (Client × ω) where
  libraryPage := page run .database
  playlistPage name := page run (.playlist name)
  queuedUris := Play.onSnd (queuedUris run)
  addTrack uri := Play.onSnd do let _ ← run ["add", uri]
  addAlbum album albumArtist := Play.onSnd (addAlbum run album albumArtist)
  play := Play.onSnd do let _ ← run ["play"]
  status := Play.onSnd (status run)
  stats := Play.onSnd do return readStats (← run ["stats"])

end AutoDJ.Mpc
