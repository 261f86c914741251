import AutoDJ.Player.Basic
import AutoDJ.Text.Blank
import AutoDJ.Text.Numeral

namespace AutoDJ

inductive Like where
  | hate
  | neutral
  | love
deriving Repr, DecidableEq

namespace Like

def all : List Like :=
  [hate, neutral, love]

def name : Like → String
  | hate => "hate"
  | neutral => "neutral"
  | love => "love"

def ofNumber (n : Int64) : Like :=
  if n = 0 then hate else if n = 2 then love else neutral

end Like

/--
The sticker of a song. The times are Unix times and zero for a song that was never played or skipped;
`elapsed` is the position in seconds at which to resume.
-/
structure Sticker where
  playCount : UInt32 := 0
  skipCount : UInt32 := 0
  like : Like := .neutral
  lastPlayed : Int64 := 0
  lastSkipped : Int64 := 0
  elapsed : UInt32 := 0
deriving Repr, DecidableEq

namespace Sticker

/--
Set the field called `name` to the number that `value` writes. A name that no field has and a value
that is no number of the field's range change nothing.
-/
def apply (sticker : Sticker) (name value : String) : Sticker :=
  let value := Text.trim value
  match name with
  | "playCount" =>
    { sticker with playCount := (Text.readUInt32? value).getD sticker.playCount }
  | "skipCount" =>
    { sticker with skipCount := (Text.readUInt32? value).getD sticker.skipCount }
  | "like" =>
    { sticker with like := ((Text.readInt64? value).map Like.ofNumber).getD sticker.like }
  | "lastPlayed" =>
    { sticker with lastPlayed := (Text.readInt64? value).getD sticker.lastPlayed }
  | "lastSkipped" =>
    { sticker with lastSkipped := (Text.readInt64? value).getD sticker.lastSkipped }
  | "elapsed" =>
    { sticker with elapsed := (Text.readUInt32? value).getD sticker.elapsed }
  | _ => sticker

end Sticker

abbrev StickerStore (s : Type) := (uri : String) → Play s (Option Sticker)

end AutoDJ
