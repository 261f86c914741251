import AutoDJ.Proofs.Jukebox.Frame
import AutoDJ.Proofs.Jukebox.Vetting
import AutoDJ.Proofs.Jukebox.Visits

namespace AutoDJ

variable {s : Type}

def Pick.isAlbum : Pick → Bool
  | track .. => false
  | album _ => true

def Jukebox.Suited (jukebox : Jukebox) : Prop :=
  ∀ c ∈ jukebox.waiting, c.pick.isAlbum = jukebox.addsAlbums

namespace Booth

def place (booth : Booth s) : Pick → Play s Unit
  | .track uri _ => booth.player.addTrack uri
  | .album key => booth.player.addAlbum key.album key.albumArtist

/--
The condition `L added` on the state of the player holds while so many items have been added during a fill
with albums or with tracks.
-/
structure Counts (booth : Booth s) (albums : Bool) (L : Nat → s → Prop) : Prop where
  draws : ∀ added, booth.Draws (L added) fun _ => L added
  place : ∀ pick, pick.isAlbum = albums → ∀ added state, L added state
    → (booth.place pick).Ends state (fun _ => L (added + 1)) (fun _ => L added)
  play : ∀ added, booth.player.play.Keeps (L added)

variable {booth : Booth s} {plan : FillPlan} {deck : Deck s} {L : Nat → s → Prop} {count : Nat}

theorem draw_suited (albums : Bool) (rules : Exclusions) (k : Nat) (deck : Deck s)
    : (booth.draw albums rules k).Ends deck (fun drawn _ => ∀ c ∈ drawn, c.pick.isAlbum = albums)
        (fun _ _ => True) := by
  cases albums with
  | true =>
    unfold draw Play.Ends
    cases booth.caches.albums with
    | none => exact trivial
    | some index => exact sampleAlbums_forall (P := fun pick => pick.isAlbum = true) (fun _ _ => rfl) k _
  | false =>
    rw [ends_draw_tracks]
    exact sampleTracks_forall (P := fun pick => pick.isAlbum = false) fun _ _ _ => rfl

theorem replenish_suited (hlane : plan.lane = .waiting) (halbums : plan.albums = deck.jukebox.addsAlbums)
    (needed target : Nat) (h : deck.jukebox.Suited)
    : (booth.replenish plan needed target).Ends deck (fun _ deck' => deck'.jukebox.Suited)
        (fun _ deck' => deck'.jukebox.Suited) := by
  rw [ends_replenish, hlane]
  apply Play.ends_of_forall
  . intro recent device
    dsimp only
    apply ((draw_suited plan.albums _ _ _).and (draw_changes booth plan.albums _ _ _)).mono
    . rintro drawn _ ⟨hdrawn, device, random, rfl⟩
      have hstocked
          : Jukebox.Suited ({ deck.jukebox with random }.setLane (deck.jukebox.waiting ++ drawn) .waiting) := by
        apply List.forall_mem_append.mpr ⟨h, _⟩
        rw [halbums] at hdrawn
        exact hdrawn
      refine ⟨fun _ => hstocked, fun _ => ⟨fun _ => ?_, fun _ => hstocked⟩⟩
      rw [ends_relax_waiting]
      exact ⟨fun _ => hstocked, fun _ => hstocked⟩
    . rintro _ _ ⟨-, device, random, rfl⟩
      exact h
  . intros
    exact h

structure Serving (settings : JukeboxSettings) (L : Nat → s → Prop) (count : Nat) (cs : List Candidate)
    (tally : Tally) (deck : Deck s) : Prop where
  unchanged : deck.jukebox.settings = settings
  suited : deck.jukebox.Suited
  left : ∀ c ∈ cs, c.pick.isAlbum = (settings.mode == .addAlbums)
  counted : L tally.added deck.device
  enough : tally.added ≤ count

variable {settings : JukeboxSettings}

theorem hand_serves (h : booth.Counts (settings.mode == .addAlbums) L) (c : Candidate)
    (rest : List Candidate) (tally : Tally) (deck : Deck s) (hmissing : tally.added < count)
    (hdeck : Serving settings L count (c :: rest) tally deck)
    : (booth.hand c tally).Ends { deck with jukebox := deck.jukebox.setLane rest .waiting }
        (Serving settings L count rest) (fun _ _ => False) := by
  obtain ⟨hsettings, -, hleft, hcounted, henough⟩ := hdeck
  obtain ⟨hc, hrest⟩ := List.forall_mem_cons.mp hleft
  have hsuited : (deck.jukebox.setLane rest .waiting).Suited := by
    rw [← hsettings] at hrest
    exact hrest
  rw [hand_ends]
  apply (h.place c.pick hc tally.added deck.device hcounted).mono
  . intro _ device hdevice
    exact ⟨hsettings, hsuited, hrest, hdevice, hmissing⟩
  . intro _ device hdevice
    exact ⟨hsettings, hsuited, hrest, hdevice, henough⟩

theorem replenish_serves (h : booth.Counts (settings.mode == .addAlbums) L) (hlane : plan.lane = .waiting)
    (halbums : plan.albums = (settings.mode == .addAlbums)) (needed target : Nat) {cs : List Candidate}
    {tally : Tally} {deck : Deck s} (hdeck : Serving settings L count cs tally deck)
    : (booth.replenish plan needed target).Ends deck
        (fun _ deck' => Serving settings L count deck'.jukebox.waiting tally deck')
        (fun _ deck' => Serving settings L count deck'.jukebox.waiting tally deck') := by
  obtain ⟨hsettings, hsuited, -, hcounted, henough⟩ := hdeck
  rw [← hsettings] at halbums
  apply ((replenish_ends (h.draws tally.added) hlane needed target deck hcounted).and
    (replenish_suited hlane halbums needed target hsuited)).imp
  rintro deck' ⟨hstocked, hsuited⟩
  have hsettings' := hstocked.settings.trans hsettings
  refine ⟨hsettings', hsuited, ?_, hstocked.device, henough⟩
  rw [← hsettings']
  exact hsuited

structure Served (settings : JukeboxSettings) (I : s → Prop) (deck : Deck s) : Prop where
  unchanged : deck.jukebox.settings = settings
  suited : deck.jukebox.Suited
  device : I deck.device

variable {I : s → Prop}

theorem Served.serving {deck : Deck s} (h : Served settings (L 0) deck)
    : Serving settings L count deck.jukebox.waiting {} deck := by
  refine ⟨h.unchanged, h.suited, ?_, h.device, Nat.zero_le count⟩
  rw [← h.unchanged]
  exact h.suited

theorem deliver_served (h : booth.Counts (settings.mode == .addAlbums) L) (hlane : plan.lane = .waiting)
    (halbums : plan.albums = (settings.mode == .addAlbums))
    (hI : ∀ added state, added ≤ count → L added state → I state) {deck : Deck s}
    (hdeck : Served settings (L 0) deck)
    : (booth.deliver plan count).Ends deck (fun _ => Served settings I) (fun _ => Served settings I) := by
  have hhanded := handOverWaiting_ends booth plan count (hand_serves h)
    (fun _ _ _ target => replenish_serves h hlane halbums _ target) deck.jukebox.waiting {} deck
    hdeck.serving
  rw [deliver_ends, hlane]
  apply hhanded.mono
  . rintro tally deck' ⟨left, ⟨hsettings, hsuited, -, hcounted, henough⟩, -⟩
    have hserved (device : s) (hdevice : L tally.added device) (events : List Event)
        : Served settings I { deck' with device, events } :=
      ⟨hsettings, hsuited, hI tally.added device henough hdevice⟩
    apply Settles.of_play (hserved _ hcounted _)
    apply (h.play tally.added deck'.device hcounted).mono
    . exact fun _ => hserved
    . exact fun _ device hdevice => hserved device hdevice _
  . exact fun _ _ => False.elim

theorem fillOnce_served
    (h : ∀ state, I state → booth.player.status.Ends state
      (fun status after => I after ∧ ∀ needed, settings.needed? status = .ok (some needed)
        → ∃ L, booth.Counts (settings.mode == .addAlbums) L ∧ L 0 after
          ∧ ∀ added state, added ≤ needed → L added state → I state)
      (fun _ => I))
    : booth.fillOnce.Keeps (Served settings I) := by
  intro deck hdeck
  rw [fillOnce_ends, hdeck.unchanged]
  apply (h deck.device hdeck.device).mono
  . rintro status device ⟨hdevice, hneeded⟩
    refine ⟨fun _ => ⟨hdeck.unchanged, hdeck.suited, hdevice⟩,
      fun _ => ⟨hdeck.unchanged, hdeck.suited, hdevice⟩, fun needed hsome => ?_⟩
    obtain ⟨L, hcounts, hstart, hI⟩ := hneeded needed hsome
    have halbums : deck.jukebox.plan.albums = (settings.mode == .addAlbums) := by
      rw [← hdeck.unchanged]
      rfl
    have hserved : Served settings (L 0) { deck with device } := ⟨hdeck.unchanged, hdeck.suited, hstart⟩
    have hserving : Serving settings L needed deck.jukebox.waiting {} { deck with device } :=
      hserved.serving
    refine ⟨fun _ => ?_, fun _ => deliver_served hcounts rfl halbums hI hserved⟩
    apply (replenish_serves hcounts rfl halbums needed _ hserving).mono
    . intro _ deck' hdeck'
      exact deliver_served hcounts rfl halbums hI ⟨hdeck'.unchanged, hdeck'.suited, hdeck'.counted⟩
    . intro _ deck' hdeck'
      exact ⟨hdeck'.unchanged, hdeck'.suited, hI 0 deck'.device (Nat.zero_le needed) hdeck'.counted⟩
  . intro _ device hdevice
    exact ⟨hdeck.unchanged, hdeck.suited, hdevice⟩

theorem keepFilled_served (h : booth.fillOnce.Keeps (Served settings I))
    : booth.keepFilled.Keeps (Served settings I) := by
  intro deck hdeck
  rw [keepFilled_ends]
  refine ⟨fun _ => hdeck, fun _ => ?_⟩
  apply (h deck hdeck).mono
  . exact fun _ _ => id
  . intro _ deck' hdeck'
    apply (h deck' hdeck').mono
    . exact fun _ _ => id
    . exact fun _ _ hend => ⟨hend.unchanged, hend.suited, hend.device⟩

theorem counts_trivial (booth : Booth s) (albums : Bool) : booth.Counts albums fun _ _ => True := by
  have hkeeps {α : Type} (x : Play s α) : x.Keeps fun _ => True :=
    fun _ _ => Play.ends_of_forall (fun _ _ => trivial) (fun _ _ => trivial)
  refine ⟨fun _ => ⟨?_, ?_, ?_, ?_⟩, ?_, ?_⟩
  . exact hkeeps _
  . exact fun _ since => hkeeps _
  . exact fun _ source offset limit => hkeeps _
  . exact fun _ _ => id
  . exact fun pick _ _ => hkeeps (booth.place pick)
  . exact fun _ => hkeeps _

theorem keepFilled_suited (booth : Booth s) (deck : Deck s) (h : deck.jukebox.Suited)
    : (booth.keepFilled.after deck).jukebox.Suited := by
  have hserved : booth.fillOnce.Keeps (Served deck.jukebox.settings fun _ => True) := by
    apply fillOnce_served
    intro state _
    apply Play.ends_of_forall
    . intro status after
      exact ⟨trivial, fun _ _ => ⟨_, counts_trivial booth _, trivial, fun _ _ _ => id⟩⟩
    . exact fun _ _ => trivial
  exact ((keepFilled_served hserved).after ⟨rfl, h, trivial⟩).suited

end Booth

namespace Jukebox

theorem Call.perform_suited (call : Call s) (deck : Deck s) (h : deck.jukebox.Suited)
    : (call.perform deck).jukebox.Suited := by
  cases call with
  | keepFilled booth => exact booth.keepFilled_suited deck h
  | addNow booth count albums =>
    obtain ⟨scratch, random, hjukebox⟩ := booth.addNow_jukebox count albums deck
    rw [perform, hjukebox]
    exact h
  | invalidate => exact fun _ => nofun
  | configure settings => exact fun _ => nofun

theorem Reached.suited {jukebox : Jukebox} (h : jukebox.Reached s) : jukebox.Suited :=
  h.induction (fun _ _ _ _ => nofun) Call.perform_suited

end Jukebox

end AutoDJ
