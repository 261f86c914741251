import AutoDJ.Jukebox.Fill
import AutoDJ.Proofs.Player.Listing
import AutoDJ.Proofs.Player.StandIn

namespace AutoDJ

open Play (Mirrors)

variable {s t : Type} {forget : t → s}

theorem sampleTracks_mirrors {player : Player s} {player' : Player t}
    (h : player'.StandsFor forget player) (source : Source) (pageSize : Nat) (rules : Exclusions) (k : Nat)
    : Mirrors (Prod.map forget id) Eq (sampleTracks player source pageSize rules k)
        (sampleTracks player' source pageSize rules k) := by
  have hwalk
      : Mirrors (Prod.map forget id : t × Sampler → s × Sampler) Eq
          (scanPages pageSize (fun offset limit => (player.sourcePage source offset limit).onFst)
            fun song walk => (walk.1, walk.2.visitSong rules song))
          (scanPages pageSize (fun offset limit => (player'.sourcePage source offset limit).onFst)
            fun song walk => (walk.1, walk.2.visitSong rules song)) := by
    apply scanPages_mirrors
    . intro offset limit
      exact (h.sourcePage source offset limit).lift
    . intros
      rfl
  rintro ⟨state, random⟩
  have hstart := hwalk (state, { reservoir := .empty k, random })
  unfold sampleTracks
  dsimp only [Prod.map_apply, id_eq] at *
  -- sampling visits pairs by a pattern where the walk above projects, which `rw` does not see through
  split at hstart
  . next hx hy =>
    erw [hx, hy]
    obtain ⟨-, rfl⟩ := hstart
    exact ⟨rfl, rfl⟩
  . next hx hy =>
    erw [hx, hy]
    obtain ⟨rfl, rfl⟩ := hstart
    exact ⟨rfl, rfl⟩
  . contradiction

namespace Deck

def project (forget : t → s) (deck : Deck t) : Deck s :=
  { deck with device := forget deck.device }

@[simp]
theorem project_jukebox {deck : Deck t} : (deck.project forget).jukebox = deck.jukebox :=
  rfl

theorem onDevice_mirrors {x : Play s α} {y : Play t α} (h : Mirrors forget Eq x y)
    : Mirrors (project forget) Eq (onDevice x) (onDevice y) := by
  intro deck
  have hdevice := h deck.device
  unfold onDevice
  cases hx : x (forget deck.device) <;> cases hy : y deck.device <;> simp_all [project]

theorem modifyJukebox_mirrors (f : Jukebox → Jukebox)
    : Mirrors (project forget) Eq (modifyJukebox f : Play (Deck s) Unit) (modifyJukebox f) := by
  apply Mirrors.modify
  intro deck
  rfl

theorem emit_mirrors (kind : EventKind) (message : Option String)
    : Mirrors (project forget) Eq (emit kind message : Play (Deck s) Unit) (emit kind message) := by
  apply Mirrors.modify
  intro deck
  rfl

theorem noteOverflow_mirrors
    : Mirrors (project forget) Eq (noteOverflow : Play (Deck s) Unit) noteOverflow := by
  apply Mirrors.modify
  intro deck
  rfl

end Deck

namespace Booth

structure StandsFor (booth' : Booth t) (forget : t → s) (booth : Booth s) : Prop where
  player : booth'.player.StandsFor forget booth.player
  playedSince : ∀ since, Mirrors forget Eq (booth.playedSince since) (booth'.playedSince since)
  caches : booth'.caches = booth.caches
  pageSize : booth'.pageSize = booth.pageSize
  now : booth'.now = booth.now

theorem relax_mirrors (lane : Lane)
    : Mirrors (Deck.project forget) Eq (relax lane : Play (Deck s) Unit) (relax lane) := by
  cases lane with
  | scratch => exact Deck.emit_mirrors _ _
  | waiting =>
    apply Mirrors.bind Mirrors.get
    rintro _ deck rfl
    rw [Deck.project_jukebox]
    split
    . apply Mirrors.bind (Deck.modifyJukebox_mirrors _)
      rintro _ _ rfl
      exact Deck.emit_mirrors _ _
    . exact .pure rfl

namespace StandsFor

variable {booth : Booth s} {booth' : Booth t} (h : booth'.StandsFor forget booth)

include h

theorem recentlyPlayed (settings : JukeboxSettings)
    : Mirrors forget Eq (booth.recentlyPlayed settings) (booth'.recentlyPlayed settings) := by
  have hsince : booth'.since settings = booth.since settings := by
    unfold since
    rw [h.now]
  unfold Booth.recentlyPlayed
  rw [hsince, h.caches]
  apply Mirrors.bind h.player.queuedUris
  rintro queued _ rfl
  split
  . exact .pure rfl
  . apply Mirrors.bind (h.playedSince _)
    rintro played _ rfl
    exact .pure rfl

theorem exclusions_eq (plan : FillPlan) (jukebox : Jukebox) (recent : RecentlyPlayed)
    : booth'.exclusions plan jukebox recent = booth.exclusions plan jukebox recent := by
  unfold exclusions
  rw [h.caches]

theorem draw (albums : Bool) (rules : Exclusions) (k : Nat)
    : Mirrors (Deck.project forget) Eq (booth.draw albums rules k) (booth'.draw albums rules k) := by
  intro deck
  unfold Booth.draw
  rw [h.caches, h.pageSize]
  cases albums with
  | true => cases booth.caches.albums <;> exact ⟨rfl, rfl⟩
  | false =>
    have hsample := sampleTracks_mirrors h.player deck.jukebox.settings.source booth.pageSize rules k
      (deck.device, deck.jukebox.random)
    dsimp only [Prod.map_apply, id_eq, Deck.project, Bool.false_eq_true, if_false] at *
    split at hsample
    . next hx hy =>
      rw [hx, hy]
      obtain ⟨rfl, rfl⟩ := hsample
      exact ⟨rfl, rfl⟩
    . next hx hy =>
      rw [hx, hy]
      obtain ⟨rfl, rfl⟩ := hsample
      exact ⟨rfl, rfl⟩
    . contradiction

theorem replenish (plan : FillPlan) (needed target : Nat)
    : Mirrors (Deck.project forget) Eq (booth.replenish plan needed target)
        (booth'.replenish plan needed target) := by
  apply Mirrors.bind Mirrors.get
  rintro _ deck rfl
  rw [Deck.project_jukebox]
  apply Mirrors.bind (Deck.onDevice_mirrors (h.recentlyPlayed _))
  rintro recent _ rfl
  rw [h.exclusions_eq]
  apply Mirrors.bind (h.draw _ _ _)
  rintro drawn _ rfl
  apply Mirrors.bind (Deck.modifyJukebox_mirrors _)
  rintro _ _ rfl
  have hrest (candidates : List Candidate)
      : Mirrors (Deck.project forget) Eq
          (if (candidates.length < needed && plan.enforce) = true then relax plan.lane
            else pure () : Play (Deck s) Unit)
          (if (candidates.length < needed && plan.enforce) = true then relax plan.lane
            else pure ()) :=
    .ite (fun _ => relax_mirrors _) (fun _ => .pure rfl)
  apply Mirrors.ite
  . intro _
    apply Mirrors.bind (R := Eq) (.throw _)
    rintro _ _ rfl
    exact hrest _
  . intro _
    exact hrest _

theorem hand (c : Candidate) (tally : Tally)
    : Mirrors (Deck.project forget) Eq (booth.hand c tally) (booth'.hand c tally) := by
  unfold Booth.hand
  cases c.pick with
  | track uri tagValue =>
    apply Mirrors.bind (Deck.onDevice_mirrors (h.player.addTrack uri)).outcome
    rintro result _ rfl
    cases result <;> exact .pure rfl
  | album key =>
    apply Mirrors.bind (Deck.onDevice_mirrors (h.player.addAlbum _ _)).outcome
    rintro result _ rfl
    cases result <;> exact .pure rfl

theorem handOver (lane : Lane) (count : Nat) (cs : List Candidate) (tally : Tally)
    : Mirrors (Deck.project forget) Eq (booth.handOver lane count cs tally)
        (booth'.handOver lane count cs tally) := by
  induction cs generalizing tally with
  | nil => exact .pure rfl
  | cons c rest ih =>
    unfold Booth.handOver
    split
    . exact .pure rfl
    . apply Mirrors.bind (Deck.modifyJukebox_mirrors _)
      rintro _ _ rfl
      apply Mirrors.bind (h.hand c tally)
      rintro tally _ rfl
      exact ih tally

theorem handOverWaiting (plan : FillPlan) (count : Nat) (cs : List Candidate) (tally : Tally)
    : Mirrors (Deck.project forget) Eq (booth.handOverWaiting plan count cs tally)
        (booth'.handOverWaiting plan count cs tally) := by
  induction cs generalizing tally with
  | nil => exact .pure rfl
  | cons c rest ih =>
    unfold Booth.handOverWaiting
    split
    . exact .pure rfl
    . apply Mirrors.bind (Deck.modifyJukebox_mirrors _)
      rintro _ _ rfl
      apply Mirrors.bind (h.hand c tally)
      rintro tally _ rfl
      split
      . apply Mirrors.bind (h.replenish _ _ _).outcome
        rintro _ _ rfl
        apply Mirrors.bind Mirrors.get
        rintro _ deck rfl
        exact h.handOver _ _ _ _
      . exact ih tally

theorem deliver (plan : FillPlan) (count : Nat)
    : Mirrors (Deck.project forget) Eq (booth.deliver plan count) (booth'.deliver plan count) := by
  apply Mirrors.bind Mirrors.get
  rintro _ deck rfl
  rw [Deck.project_jukebox]
  cases plan.lane
  case' waiting => apply Mirrors.bind (h.handOverWaiting _ _ _ _)
  case' scratch => apply Mirrors.bind (h.handOver _ _ _ _)
  -- what follows the handing over is the same for both queues
  all_goals
    rintro tally _ rfl
    apply Mirrors.ite
    . intro _
      cases tally.lastError with
      | some e => exact .throw e
      | none => exact .pure rfl
    . intro _
      apply Mirrors.bind (Deck.onDevice_mirrors h.player.play)
      rintro _ _ rfl
      apply Mirrors.bind (Deck.emit_mirrors _ _)
      rintro _ _ rfl
      exact .pure rfl

theorem fillOnce : Mirrors (Deck.project forget) Eq booth.fillOnce booth'.fillOnce := by
  apply Mirrors.bind (Deck.onDevice_mirrors h.player.status)
  rintro status _ rfl
  apply Mirrors.bind Mirrors.get
  rintro _ deck rfl
  rw [Deck.project_jukebox]
  dsimp only
  match deck.jukebox.settings.needed? status with
  | .error .overflow =>
    apply Mirrors.bind Deck.noteOverflow_mirrors
    rintro _ _ rfl
    exact .pure rfl
  | .ok none => exact .pure rfl
  | .ok (some needed) =>
    apply Mirrors.ite
    . intro _
      apply Mirrors.bind (h.replenish _ _ _)
      rintro _ _ rfl
      exact h.deliver _ _
    . intro _
      exact h.deliver _ _

theorem keepFilled : Mirrors (Deck.project forget) Eq booth.keepFilled booth'.keepFilled := by
  apply Mirrors.bind Mirrors.get
  rintro _ deck rfl
  rw [Deck.project_jukebox]
  apply Mirrors.ite
  . intro _
    exact .pure rfl
  . intro _
    apply Mirrors.bind (h.fillOnce.retry _).outcome
    rintro result _ rfl
    cases result with
    | ok added => exact .pure rfl
    | error last =>
      apply Mirrors.bind (Deck.emit_mirrors _ _)
      rintro _ _ rfl
      exact .throw _

theorem addNow (count : Nat) (albums : Bool)
    : Mirrors (Deck.project forget) Eq (booth.addNow count albums) (booth'.addNow count albums) := by
  unfold Booth.addNow
  apply Mirrors.ite
  . intro _
    exact .pure rfl
  . intro _
    apply Mirrors.bind Mirrors.get
    rintro _ deck rfl
    rw [Deck.project_jukebox]
    apply Mirrors.bind (Deck.modifyJukebox_mirrors _)
    rintro _ _ rfl
    apply Mirrors.bind (h.replenish _ _ _)
    rintro _ _ rfl
    apply Mirrors.bind (h.deliver _ _).outcome
    rintro result _ rfl
    apply Mirrors.bind (Deck.modifyJukebox_mirrors _)
    rintro _ _ rfl
    cases result with
    | ok added => exact .pure rfl
    | error e => exact .throw e

end StandsFor

end Booth

end AutoDJ
