import AutoDJ.Proofs.Jukebox.StandIn
import AutoDJ.Proofs.Player.Receipts

namespace AutoDJ

open Play (Mirrors)

variable {s : Type}

namespace Deck

def recorded (deck : Deck s) : Deck (s × List (Receipt s)) :=
  { deck with device := (deck.device, []) }

def forget (deck : Deck (s × List (Receipt s))) : Deck s :=
  { deck with device := deck.device.1 }

@[simp]
theorem forget_recorded {deck : Deck s} : deck.recorded.forget = deck :=
  rfl

end Deck

namespace Booth

def recorded (booth : Booth s) : Booth (s × List (Receipt s)) where
  player := booth.player.recorded
  playedSince since := (booth.playedSince since).onFst
  caches := booth.caches
  pageSize := booth.pageSize
  now := booth.now

variable (booth : Booth s)

theorem recorded_standsFor : booth.recorded.StandsFor Prod.fst booth :=
  ⟨booth.player.recorded_standsFor, fun _ => .onFst _, rfl, rfl, rfl⟩

theorem keepFilled_mirrors : Mirrors Deck.forget Eq booth.keepFilled booth.recorded.keepFilled :=
  booth.recorded_standsFor.keepFilled

theorem addNow_mirrors (count : Nat) (albums : Bool)
    : Mirrors Deck.forget Eq (booth.addNow count albums) (booth.recorded.addNow count albums) :=
  booth.recorded_standsFor.addNow count albums

def ledger (booth : Booth s) (deck : Deck s) : List (Receipt s) :=
  (booth.recorded.keepFilled.after deck.recorded).device.2

def requestLedger (booth : Booth s) (count : Nat) (albums : Bool) (deck : Deck s) : List (Receipt s) :=
  ((booth.recorded.addNow count albums).after deck.recorded).device.2

end Booth

end AutoDJ
