import AutoDJ.Player.Basic

namespace AutoDJ

inductive Source where
  | database
  | playlist (name : String)
deriving Repr, DecidableEq

def Player.sourcePage (player : Player s) : Source → (offset limit : Nat) → Play s (List Song)
  | .database => player.libraryPage
  | .playlist name => player.playlistPage name

end AutoDJ
