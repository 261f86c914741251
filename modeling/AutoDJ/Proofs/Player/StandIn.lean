import AutoDJ.Player.Source
import AutoDJ.Proofs.Play.Mirrors

/-!
This module contains players that stand in for another one: they do what it does and keep something besides.
-/

namespace AutoDJ.Player

open Play (Mirrors)

variable {s t : Type}

/--
What a player does is what another one does, once some part of its state is forgotten.
-/
structure StandsFor (player' : Player t) (forget : t → s) (player : Player s) : Prop where
  libraryPage : ∀ offset limit,
    Mirrors forget Eq (player.libraryPage offset limit) (player'.libraryPage offset limit)
  playlistPage : ∀ name offset limit,
    Mirrors forget Eq (player.playlistPage name offset limit) (player'.playlistPage name offset limit)
  queuedUris : Mirrors forget Eq player.queuedUris player'.queuedUris
  addTrack : ∀ uri, Mirrors forget Eq (player.addTrack uri) (player'.addTrack uri)
  addAlbum : ∀ album albumArtist,
    Mirrors forget Eq (player.addAlbum album albumArtist) (player'.addAlbum album albumArtist)
  play : Mirrors forget Eq player.play player'.play
  status : Mirrors forget Eq player.status player'.status
  stats : Mirrors forget Eq player.stats player'.stats

theorem StandsFor.sourcePage {player' : Player t} {forget : t → s} {player : Player s}
    (h : player'.StandsFor forget player) (source : Source) (offset limit : Nat)
    : Mirrors forget Eq (player.sourcePage source offset limit)
        (player'.sourcePage source offset limit) := by
  cases source with
  | database => exact h.libraryPage offset limit
  | playlist name => exact h.playlistPage name offset limit

end AutoDJ.Player
