import AutoDJ.Album
import AutoDJ.Cache.Kind
import AutoDJ.Event
import AutoDJ.Sticker.Index

/-!
This module contains the snapshots in use and their replacement. Whatever depends on a snapshot is
invalidated before a new one takes its place.
-/

namespace AutoDJ

structure Caches where
  albums : Option AlbumIndex := none
  stickers : Option StickerIndex := none

/--
The outcome of a build for one kind of snapshot: the snapshot, or nothing if the build failed.
-/
inductive Delivery where
  | albums (index : Option AlbumIndex)
  | stickers (index : Option StickerIndex)

namespace Delivery

def kind : Delivery → CacheKind
  | albums _ => .albums
  | stickers _ => .stickers

def failure (delivery : Delivery) : Event :=
  { kind := .cacheError
    partition := everyPartition
    message := some (delivery.kind.noun ++ " cache build failed") }

def success (delivery : Delivery) : Event :=
  { kind :=
      match delivery.kind with
      | .albums => .updateAlbumCache
      | .stickers => .updateStickerCache
    partition := everyPartition }

end Delivery

structure Installation (J : Type) where
  installed : Bool
  caches : Caches
  dependents : List J
  event : Event

namespace Caches

/--
Put a snapshot to use. An empty delivery leaves everything as it was.
-/
def install (caches : Caches) (delivery : Delivery) (invalidate : J → J) (dependents : List J) :
    Installation J :=
  match delivery with
  | .albums (some index) =>
    { installed := true
      dependents := dependents.map invalidate
      caches := { caches with albums := some index }
      event := delivery.success }
  | .stickers (some index) =>
    { installed := true
      dependents := dependents.map invalidate
      caches := { caches with stickers := some index }
      event := delivery.success }
  | .albums none | .stickers none =>
    { installed := false, dependents, caches, event := delivery.failure }

end Caches

end AutoDJ
