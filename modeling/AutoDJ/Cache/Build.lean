import AutoDJ.Album
import AutoDJ.Player.Listing
import AutoDJ.Sticker.Index

/-!
This module contains the building of snapshots: one walk through the library feeds both of them, and
a second pass over the songs found looks up their stickers.
-/

namespace AutoDJ

structure Built where
  albums : Option AlbumIndex
  stickers : Option StickerIndex

namespace Built

def start (kinds : CacheKinds) : Built :=
  { albums := if kinds.albums then some .empty else none
    stickers := if kinds.stickers then some .empty else none }

def addSong (built : Built) (song : Song) : Built :=
  { albums := built.albums.map (·.insert song)
    stickers := built.stickers.map (·.reserve song.uri) }

def lookUp (built : Built) : Option (StickerStore s) → Play s Built
  | none => return built
  | some store => do
    match built.stickers with
    | none => return built
    | some index =>
      let (_, index) ← index.fillFrom store
      return { built with stickers := some index }

/--
Walk through the whole library. If any page cannot be had, there is no result.
-/
def scan (player : Player s) (pageSize : Nat) (kinds : CacheKinds) : Play s Built := fun state =>
  let walk : Play (s × Built) Nat :=
    scanPages pageSize (fun offset limit => (player.libraryPage offset limit).onFst)
      fun song (state, built) => (state, built.addSong song)
  match walk (state, start kinds) with
  | .ok _ (state, built) => .ok built state
  | .error e (state, _) => .error e state

end Built

/--
Build the snapshots of the given kinds. Without a store the stickers are left empty.
-/
def buildCaches (player : Player s) (store : Option (StickerStore s)) (pageSize : Nat)
    (kinds : CacheKinds) : Play s Built := do
  let built ← Built.scan player pageSize kinds
  built.lookUp store

end AutoDJ
