import AutoDJ.Album

/-!
This module contains candidates, the songs and albums that have been drawn and wait to be handed to
the player. A queue of candidates is a list with the next candidate first.
-/

namespace AutoDJ

/--
Something that can be added to a playback queue. A track comes with the value of the tag by which
tracks are kept apart, if there is one.
-/
inductive Pick where
  | track (uri : String) (tagValue : Option String)
  | album (key : AlbumKey)
deriving Repr, DecidableEq

/--
A pick and its place, counted from one, among the acceptable items it was drawn from.
-/
structure Candidate where
  pick : Pick
  drawnAt : Nat
deriving Repr, DecidableEq

namespace Candidate

def uri? (c : Candidate) : Option String :=
  match c.pick with
  | .track uri _ => some uri
  | .album _ => none

def tagValue? (c : Candidate) : Option String :=
  match c.pick with
  | .track _ tagValue => tagValue
  | .album _ => none

def albumKey? (c : Candidate) : Option AlbumKey :=
  match c.pick with
  | .track _ _ => none
  | .album key => some key

def hasUri (cs : List Candidate) (uri : String) : Bool :=
  cs.any fun c => c.uri? == some uri

def hasTag (cs : List Candidate) (value : String) : Bool :=
  cs.any fun c => c.tagValue? == some value

def hasAlbum (cs : List Candidate) (key : AlbumKey) : Bool :=
  cs.any fun c => c.albumKey? == some key

end Candidate

end AutoDJ
