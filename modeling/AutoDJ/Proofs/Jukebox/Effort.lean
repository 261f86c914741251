import AutoDJ.Proofs.Jukebox.StandIn
import AutoDJ.Proofs.Jukebox.Turns
import AutoDJ.Proofs.Player.Meter

namespace AutoDJ

open Play (Mirrors)

variable {s t : Type}

def Deck.metered (deck : Deck s) : Deck (s × Meter) :=
  { deck with device := (deck.device, {}) }

namespace Booth

def metered (booth : Booth s) : Booth (s × Meter) where
  player := booth.player.metered
  playedSince since := (booth.playedSince since).onFst
  caches := booth.caches
  pageSize := booth.pageSize
  now := booth.now

def effort (booth : Booth s) (plan : FillPlan) (count : Nat) (deck : Deck s) : Meter :=
  ((booth.metered.deliver plan count).after deck.metered).device.2

def Progress.meter (progress : Progress) (turns : Nat) : Meter :=
  { adds := turns, accepted := progress.tally.added, readings := progress.refilled.toNat }

theorem metered_standsFor (booth : Booth s) : booth.metered.StandsFor Prod.fst booth :=
  ⟨booth.player.metered_standsFor, fun _ => .onFst _, rfl, rfl, rfl⟩

section StandIn

variable {forget : t → s} {booth : Booth s} {booth' : Booth t} {plan : FillPlan} {count : Nat}

theorem StandsFor.turn (h : booth'.StandsFor forget booth) (c : Candidate) (rest : List Candidate)
    (progress : Progress)
    : Mirrors (Deck.project forget) Eq (booth.turn plan count c rest progress)
        (booth'.turn plan count c rest progress) := by
  unfold Booth.turn
  apply Mirrors.bind (Deck.modifyJukebox_mirrors _)
  rintro _ _ rfl
  apply Mirrors.bind (h.hand c progress.tally)
  rintro tally _ rfl
  apply Mirrors.ite
  . intro _
    apply Mirrors.bind (h.replenish _ _ _).outcome
    rintro _ _ rfl
    exact .pure rfl
  . intro _
    exact .pure rfl

theorem Turns.project (h : booth'.StandsFor forget booth) {turns : Nat} {progress progress' : Progress}
    {deck deck' : Deck t} (hturns : booth'.Turns plan count turns progress deck progress' deck')
    : booth.Turns plan count turns progress (deck.project forget) progress' (deck'.project forget) := by
  induction hturns with
  | none => exact .none
  | more hmissing hfront hturn hrest ih => exact .more hmissing hfront ((h.turn _ _ _).eq_ok hturn) ih

end StandIn

section Meter

variable {booth : Booth s} {plan : FillPlan} {count : Nat} {deck deck' : Deck (s × Meter)}

theorem ends_onFst_meter (x : Play s α) {pair : s × Meter} {meter : Meter} (h : pair.2 = meter)
    : (x.onFst : Play (s × Meter) α).Ends pair (fun _ after => after.2 = meter)
        (fun _ after => after.2 = meter) := by
  rw [Play.ends_onFst]
  exact Play.ends_of_forall (fun _ _ => h) (fun _ _ => h)

theorem recentlyPlayed_meter (settings : JukeboxSettings) (pair : s × Meter)
    : (booth.metered.recentlyPlayed settings).Ends pair (fun _ after => after.2 = pair.2.read)
        (fun _ after => after.2 = pair.2.read) := by
  unfold recentlyPlayed
  rw [Play.ends_bind]
  apply ends_metered.mpr
  apply Play.ends_of_forall
  . intro queued state
    rw [Play.ends_ite, Play.ends_bind]
    exact ⟨fun _ => rfl, fun _ => ends_onFst_meter _ rfl⟩
  . exact fun _ _ => rfl

theorem replenish_meter (needed target : Nat) (deck : Deck (s × Meter))
    : (booth.metered.replenish plan needed target).Ends deck
        (fun _ deck' => deck'.device.2 = deck.device.2.read)
        (fun _ deck' => deck'.device.2 = deck.device.2.read) := by
  have hpages (source : Source) (offset limit : Nat) (pair : s × Meter) (h : pair.2 = deck.device.2.read)
      : (booth.metered.player.sourcePage source offset limit).Ends pair
          (fun _ after => after.2 = deck.device.2.read) (fun _ after => after.2 = deck.device.2.read) := by
    cases source with
    | database => exact ends_onFst_meter _ h
    | playlist name => exact ends_onFst_meter _ h
  rw [ends_replenish]
  apply (recentlyPlayed_meter deck.jukebox.settings deck.device).mono
  . intro recent device hdevice
    apply (draw_ends hpages plan.albums _ _ _ hdevice).mono
    . rintro drawn _ ⟨-, device, random, hdevice, rfl⟩
      refine ⟨fun _ => hdevice, fun _ => ⟨fun _ => ?_, fun _ => hdevice⟩⟩
      apply (relax_ends ..).mono
      . rintro _ _ ⟨enforcing, events, rfl, -, -⟩
        exact hdevice
      . exact fun _ _ => False.elim
    . rintro _ _ ⟨device, random, hdevice, rfl⟩
      exact hdevice
  . exact fun _ _ hdevice => hdevice

theorem hand_meter (deck : Deck (s × Meter)) {tally : Tally} {refilled : Bool} {turns : Nat}
    (h : deck.device.2 = ({ tally, refilled } : Progress).meter turns) (c : Candidate)
    : (booth.metered.hand c tally).Ends deck
        (fun tally' deck' => deck'.device.2 = ({ tally := tally', refilled } : Progress).meter (turns + 1))
        (fun _ _ => False) := by
  rw [hand_ends]
  cases c.pick with
  | track uri tagValue | album key =>
    apply ends_metered.mpr
    rw [h]
    exact Play.ends_of_forall (fun _ _ => rfl) (fun _ _ => rfl)

theorem turn_meter {c : Candidate} {rest : List Candidate} {progress : Progress} {turns : Nat}
    (h : deck.device.2 = progress.meter turns)
    : (booth.metered.turn plan count c rest progress).Ends deck
        (fun progress' deck' => deck'.device.2 = progress'.meter (turns + 1)) (fun _ _ => False) := by
  rw [turn_ends]
  apply (hand_meter { deck with jukebox := deck.jukebox.setLane rest .waiting } h c).mono
  . intro tally deck' hdeck
    refine ⟨fun ⟨hfirst, _⟩ => ?_, fun _ => hdeck⟩
    apply (replenish_meter _ _ deck').imp
    intro deck'' hread
    rw [hread, hdeck, hfirst]
    rfl
  . exact fun _ _ => id

theorem Turns.meter {turns : Nat} {progress progress' : Progress}
    (hturns : booth.metered.Turns plan count turns progress deck progress' deck') (before : Nat)
    (h : deck.device.2 = progress.meter before) : deck'.device.2 = progress'.meter (before + turns) := by
  induction hturns generalizing before with
  | none => exact h
  | @more progress deck c rest progress' deck' turns progress'' deck'' hmissing hfront hturn hrest ih =>
    rw [Nat.add_comm turns, ← Nat.add_assoc]
    exact ih (before + 1) ((turn_meter h).of_ok hturn)

theorem deliver_meter (hlane : plan.lane = .waiting) {tally : Tally}
    (h : booth.metered.handOverWaiting plan count deck.jukebox.waiting {} deck = .ok tally deck')
    : ((booth.metered.deliver plan count).after deck).device.2 = deck'.device.2 := by
  apply Play.after_of_ends fun last : Deck (s × Meter) => last.device.2 = deck'.device.2
  rw [deliver_ends, hlane]
  apply (Play.ends_of_ok h).mpr
  apply Settles.of_play (P := fun last : Deck (s × Meter) => last.device.2 = deck'.device.2) rfl
  exact (ends_onFst_meter booth.player.play rfl).mono (fun _ _ hmeter _ => hmeter) (fun _ _ => id)

end Meter

/--
A delivery of waiting candidates ends, whatever the player does, and is done in turns, each of which takes one call
that adds something. It takes no more of them than there are candidates waiting, items needed and candidates drawn
in reserve. There is one refill at most, and at no time have more items been added than are needed.
-/
theorem deliver_bounded (booth : Booth s) (albums enforce : Bool) (count : Nat) (deck : Deck s)
    : let plan : FillPlan := { lane := .waiting, albums, enforce }
      let most := deck.jukebox.waiting.length + count + if albums then 10 else 50
      let effort := booth.effort plan count deck
      (∃ turns progress last, booth.Turns plan count turns {} deck progress last
        ∧ Complete count progress.tally last
        ∧ booth.handOverWaiting plan count deck.jukebox.waiting {} deck = .ok progress.tally last
        ∧ effort = progress.meter turns)
      ∧ (∀ turns progress between, booth.Turns plan count turns {} deck progress between
        → turns ≤ most ∧ progress.tally.added ≤ count)
      ∧ effort.adds ≤ most ∧ effort.readings ≤ 1 ∧ effort.accepted ≤ count := by
  intro plan most effort
  have hbound (turns : Nat) (progress : Progress) (between : Deck s)
      (h : booth.Turns plan count turns {} deck progress between)
      : turns ≤ most ∧ progress.tally.added ≤ count := by
    have hleft := h.turnsLeft_le rfl
    rw [turnsLeft_start] at hleft
    exact ⟨Nat.le_of_add_right_le hleft, h.added_le rfl (Nat.zero_le _)⟩
  have hexhausts
      : (booth.metered.handOverWaiting plan count deck.jukebox.waiting {}).Ends deck.metered
          (booth.metered.Exhausts plan count {} deck.metered) (fun _ _ => False) :=
    handOverWaiting_exhausts rfl _ {} deck.metered rfl
  obtain ⟨tally, last, hhanded, turns, refilled, hturns, hcomplete⟩ := hexhausts.exists_ok
  have hplain := (booth.metered_standsFor.handOverWaiting plan count _ {}).eq_ok hhanded
  have hproject := hturns.project booth.metered_standsFor
  have heffort : effort = ({ tally, refilled } : Progress).meter turns := by
    have hmeter := hturns.meter 0 rfl
    rw [Nat.zero_add] at hmeter
    exact (deliver_meter rfl hhanded).trans hmeter
  obtain ⟨hmost, hadded⟩ := hbound _ _ _ hproject
  refine ⟨⟨turns, _, _, hproject, hcomplete, hplain, heffort⟩, hbound, ?_⟩
  rw [heffort]
  exact ⟨hmost, Bool.toNat_le refilled, hadded⟩

def bottomless : Player Nat where
  libraryPage offset limit := fun asked =>
    let songs : List Song := (List.range (100 * asked)).map fun n => { uri := toString n }
    .ok ((songs.drop offset).take limit) asked
  playlistPage _ _ _ := throw (.protocol "playlist" "No such playlist")
  queuedUris := fun asked => .ok [] (asked + 1)
  addTrack _ := throw (.protocol "add" "No such song")
  addAlbum _ _ := throw (.protocol "findadd" "No such album")
  play := return
  status := return {}
  stats := return {}

/--
With one candidate waiting and one song needed, all that may be drawn is drawn and refused.
-/
example
    : let booth : Booth Nat :=
        { player := bottomless, playedSince := fun _ => pure [], caches := {}, pageSize := 1000, now := 0 }
      let jukebox : Jukebox :=
        { Jukebox.create "default" { mode := .addTracks } { word := fun _ => 0 } with
          waiting := [{ pick := .track "a.flac" none, drawnAt := 1 }] }
      booth.effort { lane := .waiting, albums := false, enforce := true } 1 { device := 0, jukebox }
        = { adds := 1 + 1 + 50, accepted := 0, readings := 1 } := by
  decide +kernel

end Booth

end AutoDJ
