import AutoDJ.Jukebox.Candidate
import AutoDJ.Sticker.Index
import Std.Data.ExtTreeSet

namespace AutoDJ

/--
What has been played lately or is about to be: a set of URIs, and the songs whose sticker says that
they were played at or after `since`.
-/
structure RecentlyPlayed where
  uris : Std.ExtTreeSet String := ∅
  stickers : Option StickerIndex := none
  since : Int64 := 0

namespace RecentlyPlayed

def contains (recent : RecentlyPlayed) (uri : String) : Bool :=
  recent.uris.contains uri ||
    match recent.stickers.bind (·.get? uri) with
    | some sticker => 0 < sticker.lastPlayed && recent.since ≤ sticker.lastPlayed
    | none => false

end RecentlyPlayed

/--
The rules for one fill. The pending candidates, those drawn so far and the recently played songs are
avoided only while uniqueness is enforced; hated songs are avoided whenever `ignoreHated` is set.
-/
structure Exclusions where
  enforce : Bool := true
  uniqueTag : Option Tag := none
  ignoreHated : Bool := false
  stickers : Option StickerIndex := none
  pending : List Candidate := []
  recent : RecentlyPlayed := {}

namespace Exclusions

def isHated (rules : Exclusions) (uri : String) : Bool :=
  rules.ignoreHated &&
    match rules.stickers.bind (·.get? uri) with
    | some sticker => sticker.like == .hate
    | none => false

def tagValue? (rules : Exclusions) (song : Song) : Option String :=
  rules.uniqueTag.bind song.tag?

def rejectsTrack (rules : Exclusions) (uri : String) (tagValue : Option String)
    (drawn : List Candidate) : Bool :=
  rules.isHated uri ||
    (rules.enforce &&
      (Candidate.hasUri drawn uri || Candidate.hasUri rules.pending uri || rules.recent.contains uri
        || match tagValue with
          | some value => Candidate.hasTag rules.pending value || Candidate.hasTag drawn value
          | none => false))

def rejectsAlbum (rules : Exclusions) (key : AlbumKey) (album : Album) (drawn : List Candidate) :
    Bool :=
  rules.enforce &&
    (Candidate.hasAlbum drawn key || Candidate.hasAlbum rules.pending key
      || album.uris.any rules.recent.contains)

end Exclusions

end AutoDJ
