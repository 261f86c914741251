import AutoDJ.Sticker.Basic
import Std.Data.ExtTreeMap

namespace AutoDJ

structure StickerIndex where
  records : Std.ExtTreeMap String Sticker := ∅

namespace StickerIndex

def empty : StickerIndex := {}

def size (index : StickerIndex) : Nat :=
  index.records.size

def isEmpty (index : StickerIndex) : Bool :=
  index.records.isEmpty

def get? (index : StickerIndex) (uri : String) : Option Sticker :=
  index.records[uri]?

/--
Give a song an empty record unless it has one.
-/
def reserve (index : StickerIndex) (uri : String) : StickerIndex :=
  { records := index.records.insertIfNew uri {} }

def set (index : StickerIndex) (uri : String) (sticker : Sticker) : StickerIndex :=
  { records := index.records.insert uri sticker }

/--
Replace the record of every song that the store knows. The result also counts these songs.
-/
def fillFrom (store : StickerStore s) (index : StickerIndex) : Play s (Nat × StickerIndex) :=
  go index.records.keys (0, index)
where
  go : List String → Nat × StickerIndex → Play s (Nat × StickerIndex)
  | [], result => return result
  | uri :: uris, (found, index) => do
    match ← store uri with
    | none => go uris (found, index)
    | some sticker => go uris (found + 1, index.set uri sticker)

end StickerIndex

end AutoDJ
