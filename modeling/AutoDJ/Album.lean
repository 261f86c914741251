import AutoDJ.Song
import Std.Data.ExtTreeMap

/-!
This module contains the snapshot of a library's albums: songs are grouped by the name of the album
and of the album artist.
-/

namespace AutoDJ

structure AlbumKey where
  album : String
  albumArtist : String
deriving Repr, DecidableEq

namespace AlbumKey

def order : AlbumKey → AlbumKey → Ordering :=
  compareLex (compareOn AlbumKey.album) (compareOn AlbumKey.albumArtist)

instance : Std.TransCmp order :=
  inferInstanceAs (Std.TransCmp (compareLex _ _))

instance : Std.LawfulEqCmp order where
  compare_self {_} :=
    @Std.ReflCmp.compare_self _ (compareLex (compareOn album) (compareOn albumArtist)) _ _
  eq_of_compare {a b} h := by
    simp only [order, compareLex, compareOn, Ordering.then_eq_eq,
      Std.LawfulEqCmp.compare_eq_iff_eq] at h
    cases a
    cases b
    simp_all

/--
The album a song belongs to. The artist stands in for a missing album artist and the empty text for
what is missing altogether; a song with neither album nor artist belongs to no album.
-/
def ofSong? (song : Song) : Option AlbumKey :=
  match song.album, song.albumArtist <|> song.artist with
  | none, none => none
  | album, artist => some { album := album.getD "", albumArtist := artist.getD "" }

def display (key : AlbumKey) : String :=
  key.albumArtist ++ " - " ++ key.album

end AlbumKey

/--
An album with the URIs of its songs in the order in which they were found. Date and genre are those
of the first song; the duration is that of all songs in seconds.
-/
structure Album where
  firstUri : String
  uris : List String
  duration : UInt64
  date : Option String
  genre : Option String
deriving Repr, DecidableEq

namespace Album

def ofSong (song : Song) : Album :=
  { firstUri := song.uri
    uris := [song.uri]
    duration := song.duration.toUInt64
    date := song.date
    genre := song.genre }

def addSong (album : Album) (song : Song) : Album :=
  { album with
    uris := album.uris ++ [song.uri]
    duration := album.duration + song.duration.toUInt64 }

def trackCount (album : Album) : Nat :=
  album.uris.length

end Album

/--
The albums of a library, together with the number of songs that belong to none.
-/
structure AlbumIndex where
  albums : Std.ExtTreeMap AlbumKey Album AlbumKey.order := ∅
  skipped : Nat := 0

namespace AlbumIndex

def empty : AlbumIndex := {}

def size (index : AlbumIndex) : Nat :=
  index.albums.size

def isEmpty (index : AlbumIndex) : Bool :=
  index.albums.isEmpty

def get? (index : AlbumIndex) (key : AlbumKey) : Option Album :=
  index.albums[key]?

def toList (index : AlbumIndex) : List (AlbumKey × Album) :=
  index.albums.toList

def insert (index : AlbumIndex) (song : Song) : AlbumIndex :=
  match AlbumKey.ofSong? song with
  | none => { index with skipped := index.skipped + 1 }
  | some key =>
    { index with
      albums := index.albums.alter key fun
        | none => some (Album.ofSong song)
        | some album => some (album.addSong song) }

def ofSongs (songs : List Song) : AlbumIndex :=
  songs.foldl insert empty

end AlbumIndex

end AutoDJ
