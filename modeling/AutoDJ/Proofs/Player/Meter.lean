import AutoDJ.Proofs.Play.Ends
import AutoDJ.Proofs.Player.StandIn

namespace AutoDJ

structure Meter where
  adds : Nat := 0
  accepted : Nat := 0
  readings : Nat := 0
deriving Repr, DecidableEq

namespace Meter

def read (meter : Meter) : Meter :=
  { meter with readings := meter.readings + 1 }

def accept (meter : Meter) : Meter :=
  { meter with adds := meter.adds + 1, accepted := meter.accepted + 1 }

def refuse (meter : Meter) : Meter :=
  { meter with adds := meter.adds + 1 }

end Meter

def metered (onOk onError : Meter → Meter) (x : Play s α) : Play (s × Meter) α := fun (state, meter) =>
  match x state with
  | .ok value after => .ok value (after, onOk meter)
  | .error e after => .error e (after, onError meter)

def Player.metered (player : Player s) : Player (s × Meter) where
  libraryPage offset limit := (player.libraryPage offset limit).onFst
  playlistPage name offset limit := (player.playlistPage name offset limit).onFst
  queuedUris := AutoDJ.metered Meter.read Meter.read player.queuedUris
  addTrack uri := AutoDJ.metered Meter.accept Meter.refuse (player.addTrack uri)
  addAlbum album albumArtist := AutoDJ.metered Meter.accept Meter.refuse (player.addAlbum album albumArtist)
  play := player.play.onFst
  status := player.status.onFst
  stats := player.stats.onFst

variable {s α : Type} {onOk onError : Meter → Meter}

theorem ends_metered {x : Play s α} {pair : s × Meter} {Q : α → s × Meter → Prop}
    {E : Error → s × Meter → Prop}
    : (metered onOk onError x).Ends pair Q E
        ↔ x.Ends pair.1 (fun value after => Q value (after, onOk pair.2))
            (fun e after => E e (after, onError pair.2)) := by
  obtain ⟨state, meter⟩ := pair
  unfold Play.Ends metered
  dsimp only
  cases x state <;> rfl

theorem metered_mirrors (onOk onError : Meter → Meter) (x : Play s α)
    : Play.Mirrors Prod.fst Eq x (metered onOk onError x) := by
  rintro ⟨state, meter⟩
  unfold metered
  dsimp only
  cases x state <;> exact ⟨rfl, rfl⟩

theorem Player.metered_standsFor (player : Player s) : player.metered.StandsFor Prod.fst player := by
  constructor
  . exact fun _ _ => .onFst _
  . exact fun _ _ _ => .onFst _
  . exact metered_mirrors _ _ _
  . exact fun _ => metered_mirrors _ _ _
  . exact fun _ _ => metered_mirrors _ _ _
  . exact .onFst _
  . exact .onFst _
  . exact .onFst _

end AutoDJ
