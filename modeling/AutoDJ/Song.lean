namespace AutoDJ

inductive Tag where
  | title
  | artist
  | album
  | albumArtist
  | genre
  | date
deriving Repr, DecidableEq

namespace Tag

def all : List Tag :=
  [title, artist, album, albumArtist, genre, date]

def name : Tag → String
  | title => "title"
  | artist => "artist"
  | album => "album"
  | albumArtist => "album_artist"
  | genre => "genre"
  | date => "date"

end Tag

/--
A song, identified by its URI, with the tags it has. The duration counts whole seconds and is zero
when unknown.
-/
structure Song where
  uri : String
  title : Option String := none
  artist : Option String := none
  album : Option String := none
  albumArtist : Option String := none
  genre : Option String := none
  date : Option String := none
  duration : UInt32 := 0
deriving Repr, DecidableEq, Inhabited

namespace Song

def tag? (song : Song) : Tag → Option String
  | .title => song.title
  | .artist => song.artist
  | .album => song.album
  | .albumArtist => song.albumArtist
  | .genre => song.genre
  | .date => song.date

end Song

end AutoDJ
