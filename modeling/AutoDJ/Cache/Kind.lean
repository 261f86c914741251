namespace AutoDJ

inductive CacheKind where
  | albums
  | stickers
deriving Repr, DecidableEq

def CacheKind.noun : CacheKind → String
  | albums => "album"
  | stickers => "sticker"

structure CacheKinds where
  albums : Bool
  stickers : Bool
deriving Repr, DecidableEq

namespace CacheKinds

def all : CacheKinds :=
  { albums := true, stickers := true }

def contains (kinds : CacheKinds) : CacheKind → Bool
  | .albums => kinds.albums
  | .stickers => kinds.stickers

def isEmpty (kinds : CacheKinds) : Bool :=
  !kinds.albums && !kinds.stickers

def toList (kinds : CacheKinds) : List CacheKind :=
  [CacheKind.albums, CacheKind.stickers].filter kinds.contains

@[simp]
theorem mem_toList {kinds : CacheKinds} {kind : CacheKind} :
    kind ∈ kinds.toList ↔ kinds.contains kind = true := by
  cases kind <;> simp [toList]

end CacheKinds

end AutoDJ
