import AutoDJ.Jukebox.Exclusions
import AutoDJ.Jukebox.Reservoir
import AutoDJ.Player.Listing
import AutoDJ.Player.Source

namespace AutoDJ

structure Sampler where
  reservoir : Reservoir Candidate
  random : WordStream

namespace Sampler

def offer (sampler : Sampler) (pick : Pick) : Sampler :=
  let candidate := { pick, drawnAt := sampler.reservoir.seen + 1 }
  let (_, reservoir, random) := sampler.reservoir.offer candidate sampler.random
  { reservoir, random }

def visitSong (rules : Exclusions) (song : Song) (sampler : Sampler) : Sampler :=
  let tagValue := rules.tagValue? song
  if rules.rejectsTrack song.uri tagValue sampler.reservoir.items.toList then
    sampler
  else
    sampler.offer (.track song.uri tagValue)

def visitAlbum (rules : Exclusions) (sampler : Sampler) : AlbumKey × Album → Sampler
  | (key, album) =>
    if rules.rejectsAlbum key album sampler.reservoir.items.toList then
      sampler
    else
      sampler.offer (.album key)

def finish (sampler : Sampler) : List Candidate × WordStream :=
  sampler.reservoir.shuffled sampler.random

end Sampler

/--
Draw up to `k` tracks from a source. The random words used up by a failed walk stay used up.
-/
def sampleTracks (player : Player s) (source : Source) (pageSize : Nat) (rules : Exclusions)
    (k : Nat) : Play (s × WordStream) (List Candidate) := fun (state, random) =>
  let walk : Play (s × Sampler) Nat :=
    scanPages pageSize (fun offset limit => (player.sourcePage source offset limit).onFst)
      fun song (state, sampler) => (state, sampler.visitSong rules song)
  match walk (state, { reservoir := .empty k, random }) with
  | .ok _ (state, sampler) =>
    let (drawn, random) := sampler.finish
    .ok drawn (state, random)
  | .error e (state, sampler) => .error e (state, sampler.random)

def sampleAlbums (index : AlbumIndex) (rules : Exclusions) (k : Nat) (random : WordStream) :
    List Candidate × WordStream :=
  let sampler : Sampler := { reservoir := .empty k, random }
  (index.toList.foldl (Sampler.visitAlbum rules) sampler).finish

end AutoDJ
