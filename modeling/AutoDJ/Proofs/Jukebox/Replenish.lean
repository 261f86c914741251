import AutoDJ.Jukebox.Fill
import AutoDJ.Proofs.Jukebox.Sampling

namespace AutoDJ

variable {s : Type}

def Deck.updates (deck : Deck s) : Nat :=
  deck.events.countP (·.kind == .updateJukebox)

namespace Booth

variable {booth : Booth s} {plan : FillPlan} {I : s → Prop} {K : List String → s → Prop}

/--
How the calls of the player that a draw makes bear on two conditions: `I` holds before the playback queue
has been asked for, and `K` from then on, of the answer, too.
-/
structure Draws (booth : Booth s) (I : s → Prop) (K : List String → s → Prop) : Prop where
  queuedUris : ∀ state, I state → booth.player.queuedUris.Ends state K (fun _ => I)
  playedSince : ∀ uris since state, K uris state
    → (booth.playedSince since).Ends state (fun _ => K uris) (fun _ => K uris)
  sourcePage : ∀ uris source offset limit state, K uris state
    → (booth.player.sourcePage source offset limit).Ends state (fun _ => K uris) (fun _ => K uris)
  weaken : ∀ uris state, K uris state → I state

theorem recentlyPlayed_ends (h : booth.Draws I K) (settings : JukeboxSettings) (state : s)
    (hstate : I state)
    : (booth.recentlyPlayed settings).Ends state
        (fun recent state => ∃ uris, K uris state ∧ ∀ uri ∈ uris, recent.contains uri = true)
        (fun _ => I) := by
  unfold recentlyPlayed
  rw [Play.ends_bind]
  apply (h.queuedUris state hstate).mono
  . intro queued state hqueued
    rw [Play.ends_ite]
    refine ⟨fun _ => ?_, fun _ => ?_⟩
    . refine ⟨queued, hqueued, ?_⟩
      intro uri huri
      simp [RecentlyPlayed.contains, huri]
    . rw [Play.ends_bind]
      apply (h.playedSince queued _ state hqueued).mono
      . intro played state hplayed
        refine ⟨queued, hplayed, ?_⟩
        intro uri huri
        simp [RecentlyPlayed.contains, huri]
      . intro _ state hplayed
        exact h.weaken queued state hplayed
  . intro _ _ h
    exact h

theorem ends_draw_tracks {rules : Exclusions} {k : Nat} {deck : Deck s}
    {Q : List Candidate → Deck s → Prop} {E : Error → Deck s → Prop}
    : (booth.draw false rules k).Ends deck Q E
        ↔ (sampleTracks booth.player deck.jukebox.settings.source booth.pageSize rules k).Ends
            (deck.device, deck.jukebox.random)
            (fun drawn after =>
              Q drawn
                { deck with device := after.1, jukebox := { deck.jukebox with random := after.2 } })
            (fun e after =>
              E e
                { deck with device := after.1, jukebox := { deck.jukebox with random := after.2 } }) := by
  unfold Play.Ends draw
  simp only [Bool.false_eq_true, if_false]
  cases sampleTracks booth.player deck.jukebox.settings.source booth.pageSize rules k
    (deck.device, deck.jukebox.random) <;> rfl

theorem draw_ends
    (hpages : ∀ source offset limit state, I state
      → (booth.player.sourcePage source offset limit).Ends state (fun _ => I) (fun _ => I))
    (albums : Bool) (rules : Exclusions) (k : Nat) (deck : Deck s) (h : I deck.device)
    : (booth.draw albums rules k).Ends deck
        (fun drawn deck' => (albums = false → rules.Admits drawn) ∧ ∃ device random, I device
          ∧ deck' = { deck with device, jukebox := { deck.jukebox with random } })
        (fun _ deck' => ∃ device random, I device
          ∧ deck' = { deck with device, jukebox := { deck.jukebox with random } }) := by
  cases albums with
  | true =>
    unfold draw Play.Ends
    cases booth.caches.albums with
    | none => exact ⟨_, _, h, rfl⟩
    | some index => exact ⟨by simp, _, _, h, rfl⟩
  | false =>
    rw [ends_draw_tracks]
    apply (sampleTracks_ends (hpages deck.jukebox.settings.source) booth.pageSize rules k deck.device
      deck.jukebox.random h).mono
    . rintro drawn after ⟨hadmits, hafter⟩
      exact ⟨fun _ => hadmits, _, _, hafter, rfl⟩
    . intro _ after hafter
      exact ⟨_, _, hafter, rfl⟩

theorem ends_relax_waiting {deck : Deck s} {Q : Unit → Deck s → Prop} {E : Error → Deck s → Prop}
    : (relax .waiting).Ends deck Q E
        ↔ (deck.jukebox.enforcing = true → Q ⟨⟩
            { deck with
              jukebox := { deck.jukebox with enforcing := false }
              events := deck.events ++ [{
                kind := .jukeboxWarning
                partition := deck.jukebox.partition
                message := some relaxWarning }] })
          ∧ (¬deck.jukebox.enforcing = true → Q ⟨⟩ deck) := by
  unfold relax
  rw [Play.ends_bind, Play.ends_get, Play.ends_ite, Play.ends_bind, Deck.ends_modifyJukebox,
    Deck.ends_emit]
  rfl

theorem relax_ends (lane : Lane) (deck : Deck s)
    : (relax lane).Ends deck
        (fun _ deck' => ∃ enforcing events,
          deck' = { deck with jukebox := { deck.jukebox with enforcing }, events }
            ∧ (enforcing = true → deck.jukebox.enforcing = true) ∧ deck'.updates = deck.updates)
        (fun _ _ => False) := by
  cases lane with
  | scratch => exact ⟨_, _, rfl, id, by simp [Deck.updates]⟩
  | waiting =>
    rw [ends_relax_waiting]
    refine ⟨fun _ => ⟨_, _, rfl, ?_, ?_⟩, fun _ => ⟨_, _, rfl, id, rfl⟩⟩
    . simp
    . simp [Deck.updates]

theorem ends_replenish {needed target : Nat} {deck : Deck s} {Q : Unit → Deck s → Prop}
    {E : Error → Deck s → Prop}
    : (booth.replenish plan needed target).Ends deck Q E
        ↔ (booth.recentlyPlayed deck.jukebox.settings).Ends deck.device
            (fun recent device =>
              let pending := deck.jukebox.lane plan.lane
              (booth.draw plan.albums (booth.exclusions plan deck.jukebox recent)
                  (target - pending.length)).Ends { deck with device }
                (fun drawn deck' =>
                  let deck'' : Deck s :=
                    { deck' with jukebox := deck'.jukebox.setLane (pending ++ drawn) plan.lane }
                  (pending ++ drawn = [] → E .noCandidates deck'')
                    ∧ (pending ++ drawn ≠ [] →
                      ((pending ++ drawn).length < needed ∧ plan.enforce = true
                        → (relax plan.lane).Ends deck'' Q E)
                      ∧ (¬((pending ++ drawn).length < needed ∧ plan.enforce = true)
                        → Q ⟨⟩ deck'')))
                E)
            (fun e device => E e { deck with device }) := by
  unfold replenish
  rw [Play.ends_bind, Play.ends_get, Play.ends_bind, Deck.ends_onDevice]
  apply Play.ends_congr
  intro recent device
  dsimp only
  rw [Play.ends_bind]
  apply Play.ends_congr
  intro drawn deck'
  rw [Play.ends_bind, Deck.ends_modifyJukebox, Play.ends_ite, Play.ends_bind, Play.ends_throw,
    List.isEmpty_iff, Play.ends_ite, Bool.and_eq_true, decide_eq_true_iff]
  rfl

structure Restocked (booth : Booth s) (plan : FillPlan) (I : s → Prop) (K : List String → s → Prop)
    (deck deck' : Deck s) : Prop where
  device : I deck'.device
  settings : deck'.jukebox.settings = deck.jukebox.settings
  enforcing : deck'.jukebox.enforcing = true → deck.jukebox.enforcing = true
  updates : deck'.updates = deck.updates
  waiting : deck'.jukebox.waiting = deck.jukebox.waiting
    ∨ ∃ uris recent drawn, K uris deck'.device ∧ (∀ uri ∈ uris, recent.contains uri = true)
      ∧ (plan.albums = false → (booth.exclusions plan deck.jukebox recent).Admits drawn)
      ∧ deck'.jukebox.waiting = deck.jukebox.waiting ++ drawn

theorem replenish_ends (h : booth.Draws I K) (hlane : plan.lane = .waiting) (needed target : Nat)
    (deck : Deck s) (hdeck : I deck.device)
    : (booth.replenish plan needed target).Ends deck (fun _ => booth.Restocked plan I K deck)
        (fun _ => booth.Restocked plan I K deck) := by
  rw [ends_replenish, hlane]
  apply (recentlyPlayed_ends h deck.jukebox.settings deck.device hdeck).mono
  . rintro recent device ⟨uris, huris, hrecent⟩
    apply (draw_ends (h.sourcePage uris) plan.albums _ _ _ huris).mono
    . rintro drawn _ ⟨hadmits, device, random, hdevice, rfl⟩
      have hstocked : booth.Restocked plan I K deck
          { deck with
            device
            jukebox := { deck.jukebox with random }.setLane
              (deck.jukebox.waiting ++ drawn) .waiting } :=
        ⟨h.weaken uris device hdevice, rfl, id, rfl, .inr ⟨uris, recent, drawn, hdevice, hrecent, hadmits, rfl⟩⟩
      -- neither reporting that nothing was found nor giving up uniqueness undoes what was drawn
      refine ⟨fun _ => hstocked, fun _ => ⟨fun _ => ?_, fun _ => hstocked⟩⟩
      apply (relax_ends ..).mono
      . rintro _ _ ⟨enforcing, events, rfl, henforcing, hupdates⟩
        exact ⟨hstocked.device, hstocked.settings, henforcing, hupdates, hstocked.waiting⟩
      . intro _ _ hfalse
        exact hfalse.elim
    . rintro _ _ ⟨device, random, hdevice, rfl⟩
      exact ⟨h.weaken uris device hdevice, rfl, id, rfl, .inl rfl⟩
  . intro _ device hdevice
    exact ⟨hdevice, rfl, id, rfl, .inl rfl⟩

end Booth

end AutoDJ
