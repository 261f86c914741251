import AutoDJ.Sticker.Basic

namespace AutoDJ.Rehearsal

structure ScriptedStickers where
  stickers : List (String × Sticker) := []
  /-- The URIs of the songs whose stickers cannot be looked up. -/
  failing : List String := []
deriving Repr

def ScriptedStickers.store (s : ScriptedStickers) : StickerStore σ := fun uri => do
  if s.failing.contains uri then
    throw (.protocol "sticker" "store offline")
  return s.stickers.lookup uri

end AutoDJ.Rehearsal
