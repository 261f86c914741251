import AutoDJ.Proofs.Play.Ends
import AutoDJ.Proofs.Player.StandIn

namespace AutoDJ

inductive Order where
  | addTrack (uri : String)
  | addAlbum (album albumArtist : String)
  | play
deriving Repr, DecidableEq

def Order.isAdd : Order → Bool
  | addTrack _ | addAlbum .. => true
  | play => false

structure Receipt (s : Type) where
  order : Order
  before : s
  accepted : Bool

namespace Receipt

def isAcceptedAdd (receipt : Receipt s) : Bool :=
  receipt.order.isAdd && receipt.accepted

def isRefusedPlay (receipt : Receipt s) : Bool :=
  !receipt.order.isAdd && !receipt.accepted

end Receipt

def filed (order : Order) (x : Play s Unit) : Play (s × List (Receipt s)) Unit := fun (state, receipts) =>
  match x state with
  | .ok () after => .ok () (after, receipts ++ [{ order, before := state, accepted := true }])
  | .error e after => .error e (after, receipts ++ [{ order, before := state, accepted := false }])

def Player.recorded (player : Player s) : Player (s × List (Receipt s)) where
  libraryPage offset limit := (player.libraryPage offset limit).onFst
  playlistPage name offset limit := (player.playlistPage name offset limit).onFst
  queuedUris := player.queuedUris.onFst
  addTrack uri := filed (.addTrack uri) (player.addTrack uri)
  addAlbum album albumArtist := filed (.addAlbum album albumArtist) (player.addAlbum album albumArtist)
  play := filed .play player.play
  status := player.status.onFst
  stats := player.stats.onFst

variable {s : Type}

theorem ends_filed {order : Order} {x : Play s Unit} {pair : s × List (Receipt s)}
    {Q : Unit → s × List (Receipt s) → Prop} {E : Error → s × List (Receipt s) → Prop}
    : (filed order x).Ends pair Q E
        ↔ x.Ends pair.1
            (fun value after =>
              Q value (after, pair.2 ++ [{ order, before := pair.1, accepted := true }]))
            (fun e after =>
              E e (after, pair.2 ++ [{ order, before := pair.1, accepted := false }])) := by
  obtain ⟨state, receipts⟩ := pair
  unfold Play.Ends filed
  dsimp only
  cases x state <;> rfl

theorem filed_mirrors (order : Order) (x : Play s Unit)
    : Play.Mirrors Prod.fst Eq x (filed order x) := by
  rintro ⟨state, receipts⟩
  unfold filed
  dsimp only
  cases x state <;> exact ⟨rfl, rfl⟩

theorem Player.recorded_standsFor (player : Player s) : player.recorded.StandsFor Prod.fst player := by
  constructor
  . exact fun _ _ => .onFst _
  . exact fun _ _ _ => .onFst _
  . exact .onFst _
  . exact fun _ => filed_mirrors _ _
  . exact fun _ _ => filed_mirrors _ _
  . exact filed_mirrors _ _
  . exact .onFst _
  . exact .onFst _

end AutoDJ
