import AutoDJ.Proofs.Jukebox.Counting
import AutoDJ.Proofs.Jukebox.Distinct
import AutoDJ.Proofs.Jukebox.Shortage

namespace AutoDJ

variable {s : Type}

/--
The player of a booth has a playback queue of so many entries, as its status says. A track that is accepted
adds no more than one entry, and no other call of a fill with tracks adds any.
-/
structure Booth.Measures (booth : Booth s) (size : s → Nat) : Prop where
  status : ∀ state, booth.player.status.Ends state
    (fun status after => status.queueLength.toNat = size after ∧ size after ≤ size state)
    (fun _ after => size after ≤ size state)
  addTrack : ∀ uri state, (booth.player.addTrack uri).Ends state
    (fun _ after => size after ≤ size state + 1) (fun _ after => size after ≤ size state)
  queuedUris : ∀ limit, booth.player.queuedUris.Keeps (size · ≤ limit)
  sourcePage : ∀ source offset length limit,
    (booth.player.sourcePage source offset length).Keeps (size · ≤ limit)
  playedSince : ∀ since limit, (booth.playedSince since).Keeps (size · ≤ limit)
  play : ∀ limit, booth.player.play.Keeps (size · ≤ limit)

namespace Booth

variable {booth : Booth s} {size : s → Nat}

theorem Measures.counts (h : booth.Measures size) (length : Nat)
    : booth.Counts false fun added state => size state ≤ length + added := by
  refine ⟨fun added => ⟨?_, ?_, ?_, ?_⟩, ?_, ?_⟩
  . exact h.queuedUris _
  . exact fun _ since => h.playedSince since _
  . exact fun _ source offset limit => h.sourcePage source offset limit _
  . exact fun _ _ => id
  . intro pick hpick added state hstate
    cases pick with
    | album key => contradiction
    | track uri tagValue =>
      apply (h.addTrack uri state).mono
      . intro _ after hafter
        omega
      . intro _ after hafter
        omega
  . exact fun added => h.play _

theorem keepFilled_within (h : booth.Measures size) {settings : JukeboxSettings}
    (hmode : settings.mode = .addTracks) {limit : Nat} (hlimit : settings.queueLength.toNat + 1 ≤ limit)
    : booth.keepFilled.Keeps (Served settings (size · ≤ limit)) := by
  apply keepFilled_served
  apply fillOnce_served
  intro state hstate
  apply (h.status state).mono
  . rintro status after ⟨hlength, hafter⟩
    refine ⟨Nat.le_trans hafter hstate, fun needed hneeded => ?_⟩
    have hsum := settings.length_add_needed_le hneeded
    rw [hmode]
    refine ⟨_, h.counts (size after), Nat.le_refl _, ?_⟩
    intro added state hadded hstate
    omega
  . intro _ after hafter
    exact Nat.le_trans hafter hstate

end Booth

namespace Jukebox

inductive Upkeep (size : s → Nat) (start : Deck s) : Deck s → Prop where
  | start : Upkeep size start start
  | fill {booth : Booth s} (h : Upkeep size start deck) (hbooth : booth.Measures size)
    : Upkeep size start (booth.keepFilled.after deck)
  | invalidate (h : Upkeep size start deck)
    : Upkeep size start { deck with jukebox := deck.jukebox.invalidate }
  | between {device : s} (h : Upkeep size start deck) (hdevice : size device ≤ size deck.device)
    : Upkeep size start { deck with device, events }

theorem Upkeep.within {size : s → Nat} {start deck : Deck s} (h : Upkeep size start deck)
    {settings : JukeboxSettings} (hmode : settings.mode = .addTracks) {limit : Nat}
    (hlimit : settings.queueLength.toNat + 1 ≤ limit)
    (hstart : Booth.Served settings (size · ≤ limit) start)
    : Booth.Served settings (size · ≤ limit) deck := by
  induction h with
  | start => exact hstart
  | fill _ hbooth ih => exact (Booth.keepFilled_within hbooth hmode hlimit).after ih
  | invalidate _ ih => exact ⟨ih.unchanged, fun _ => nofun, ih.device⟩
  | between _ hdevice ih => exact ⟨ih.unchanged, ih.suited, Nat.le_trans hdevice ih.device⟩

theorem never_overshoots {size : s → Nat} {start deck : Deck s} (hreached : start.jukebox.Reached s)
    (hmode : start.jukebox.settings.mode = .addTracks) (h : Upkeep size start deck)
    : size deck.device ≤ max (size start.device) (start.jukebox.settings.queueLength.toNat + 1)
      ∧ ∀ booth : Booth s, booth.Measures size
        → size (booth.keepFilled.after deck).device
            ≤ max (size deck.device) (start.jukebox.settings.queueLength.toNat + 1) := by
  have hdeck : Booth.Served start.jukebox.settings _ deck :=
    h.within hmode (Nat.le_max_right (size start.device) _)
      ⟨rfl, hreached.suited, Nat.le_max_left ..⟩
  refine ⟨hdeck.device, fun booth hbooth => ?_⟩
  have hend : Booth.Served start.jukebox.settings _ (booth.keepFilled.after deck) :=
    (Booth.keepFilled_within hbooth hmode (Nat.le_max_right (size deck.device) _)).after
      ⟨hdeck.unchanged, hdeck.suited, Nat.le_max_left ..⟩
  exact hend.device

def reportedLength (p : Rehearsal.ScriptedPlayer) : Nat :=
  (p.queueLength.getD (UInt64.ofNat p.queue.length)).toNat

theorem enter_length (call : Rehearsal.Call) (p : Rehearsal.ScriptedPlayer)
    : (Rehearsal.ScriptedPlayer.enter call).Ends p
        (fun _ after => reportedLength after = reportedLength p)
        (fun _ after => reportedLength after = reportedLength p) := by
  simp [Rehearsal.ScriptedPlayer.enter, reportedLength]

theorem append_length (uri : String) (p : Rehearsal.ScriptedPlayer)
    : (Rehearsal.ScriptedPlayer.append [uri]).Ends p
        (fun _ after => reportedLength after ≤ reportedLength p + 1) (fun _ _ => False) := by
  unfold Rehearsal.ScriptedPlayer.append reportedLength
  rw [Play.ends_modify]
  cases p.queueLength with
  | some length => exact Nat.le_succ _
  | none =>
    simp only [List.length_append, List.length_singleton, Option.getD_none, UInt64.toNat_ofNat']
    omega

theorem rehearsalBooth_measures : rehearsalBooth.Measures reportedLength := by
  have hkeeps (call : Rehearsal.Call) (limit : Nat)
      : (Rehearsal.ScriptedPlayer.enter call).Keeps (reportedLength · ≤ limit) := by
    intro p hp
    apply (enter_length call p).imp
    exact fun after hafter => Nat.le_trans (Nat.le_of_eq hafter) hp
  constructor
  . intro p
    apply Play.ends_bind.mpr
    apply (enter_length .status p).mono
    . exact fun _ after hafter => ⟨rfl, Nat.le_of_eq hafter⟩
    . exact fun _ after hafter => Nat.le_of_eq hafter
  . intro uri p
    apply Play.ends_bind.mpr
    apply (enter_length (.addTrack uri) p).mono
    . intro _ after hafter
      rw [Play.ends_bind, Play.ends_get, Play.ends_ite, Play.ends_bind, Play.ends_throw, ← hafter]
      refine ⟨fun _ => Nat.le_refl _, fun _ => (append_length uri after).mono ?_ ?_⟩
      . exact fun _ _ => id
      . exact fun _ _ => False.elim
    . exact fun _ after hafter => Nat.le_of_eq hafter
  . intro limit
    exact (hkeeps _ limit).bind fun _ => Play.Keeps.get.bind fun _ => .pure _
  . intro source offset length limit
    cases source with
    | database => exact (hkeeps _ limit).bind fun _ => Play.Keeps.get.bind fun _ => .pure _
    | playlist name =>
      apply (hkeeps _ limit).bind
      intro _
      apply Play.Keeps.get.bind
      intro p
      cases p.playlists.lookup name with
      | some songs => exact .pure _
      | none => exact .throw _
  . exact fun _ _ => .pure _
  . exact hkeeps .play

def faltering : Deck Rehearsal.ScriptedPlayer :=
  { device :=
      { library := [{ uri := "a.flac" }, { uri := "b.flac" }, { uri := "c.flac" }]
        failures := [(.play, 0)] }
    jukebox := .create "default" { mode := .addTracks } { word := fun _ => 0 } }

theorem faltering_never_overshoots
    : (rehearsalBooth.keepFilled.after faltering).device.queue.length = 2
      ∧ reportedLength (rehearsalBooth.keepFilled.after faltering).device ≤ 2 := by
  have hreached : faltering.jukebox.Reached Rehearsal.ScriptedPlayer :=
    ⟨"default", { mode := .addTracks }, { word := fun _ => 0 }, {}, [], rfl⟩
  refine ⟨by decide +kernel, ?_⟩
  exact (never_overshoots hreached rfl .start).2 rehearsalBooth rehearsalBooth_measures

end Jukebox

end AutoDJ
