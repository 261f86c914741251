import AutoDJ.Proofs.Jukebox.Fill
import AutoDJ.Proofs.Jukebox.Replenish

/-!
This module contains what a fill leaves alone: a condition that none of its steps touches holds afterwards
if it held before, whatever the player does.
-/

namespace AutoDJ

variable {s : Type} {lane : Lane} {P : Deck s → Prop}

/--
A condition that does not depend on the player, on the random words, on a queue of candidates and on
events other than warnings.
-/
structure Deck.Aloof (lane : Lane) (P : Deck s → Prop) : Prop where
  device : ∀ deck device, P deck → P { deck with device }
  random : ∀ deck random, P deck → P { deck with jukebox := { deck.jukebox with random } }
  setLane : ∀ deck cs, P deck → P { deck with jukebox := deck.jukebox.setLane cs lane }
  emit : ∀ kind message, kind ≠ .jukeboxWarning → (Deck.emit kind message).Keeps P

structure Deck.Untouched (lane : Lane) (P : Deck s → Prop) : Prop extends Deck.Aloof lane P where
  relax : (Booth.relax lane).Keeps P
  overflow : ∀ deck status, deck.jukebox.settings.needed? status = .error .overflow
    → P deck → P { deck with overflowed := true }

namespace Booth

variable {booth : Booth s} {plan : FillPlan}

theorem onDevice_keeps (h : Deck.Aloof lane P) (x : Play s α) : (Deck.onDevice x).Keeps P := by
  intro deck hdeck
  rw [Deck.ends_onDevice]
  apply Play.ends_of_forall
  . exact fun _ device => h.device deck device hdeck
  . exact fun _ device => h.device deck device hdeck

theorem setLane_keeps (h : Deck.Aloof lane P) (cs : List Candidate)
    : (Deck.modifyJukebox fun jukebox => jukebox.setLane cs lane).Keeps P :=
  fun deck hdeck => h.setLane deck cs hdeck

theorem draw_changes (booth : Booth s) (albums : Bool) (rules : Exclusions) (k : Nat) (deck : Deck s)
    : (booth.draw albums rules k).Ends deck
        (fun _ deck' => ∃ device random,
          deck' = { deck with device, jukebox := { deck.jukebox with random } })
        (fun _ deck' => ∃ device random,
          deck' = { deck with device, jukebox := { deck.jukebox with random } }) := by
  have hpages (source : Source) (offset limit : Nat) (state : s) (_ : True)
      : (booth.player.sourcePage source offset limit).Ends state (fun _ _ => True) (fun _ _ => True) :=
    Play.ends_of_forall (fun _ _ => trivial) (fun _ _ => trivial)
  apply (draw_ends hpages albums rules k deck trivial).mono
  . rintro _ _ ⟨-, device, random, -, h⟩
    exact ⟨device, random, h⟩
  . rintro _ _ ⟨device, random, -, h⟩
    exact ⟨device, random, h⟩

theorem draw_keeps (h : Deck.Aloof lane P) (albums : Bool) (rules : Exclusions) (k : Nat)
    : (booth.draw albums rules k).Keeps P := by
  intro deck hdeck
  apply (draw_changes booth albums rules k deck).imp
  rintro _ ⟨device, random, rfl⟩
  exact h.random _ random (h.device deck device hdeck)

theorem replenish_keeps (h : Deck.Untouched plan.lane P) (needed target : Nat)
    : (booth.replenish plan needed target).Keeps P := by
  unfold replenish
  apply Play.Keeps.get.bind
  intro deck
  apply (onDevice_keeps h.toAloof _).bind
  intro recent
  apply (draw_keeps h.toAloof _ _ _).bind
  intro drawn
  apply (setLane_keeps h.toAloof _).bind
  intro _
  apply Play.Keeps.ite
  . intro _
    apply (Play.Keeps.throw _).bind
    intro _
    exact .ite (fun _ => h.relax) (fun _ => .pure _)
  . intro _
    exact .ite (fun _ => h.relax) (fun _ => .pure _)

theorem hand_keeps (h : Deck.Aloof lane P) (c : Candidate) (tally : Tally)
    : (booth.hand c tally).Keeps P := by
  apply (onDevice_keeps h _).outcome.bind
  intro result
  cases result <;> exact .pure _

theorem handOver_keeps (h : Deck.Aloof lane P) (count : Nat) (cs : List Candidate) (tally : Tally)
    : (booth.handOver lane count cs tally).Keeps P := by
  induction cs generalizing tally with
  | nil => exact .pure _
  | cons c rest ih =>
    unfold handOver
    apply Play.Keeps.ite
    . intro _
      exact .pure _
    . intro _
      apply (setLane_keeps h rest).bind
      intro _
      apply (hand_keeps h c tally).bind
      exact ih

theorem handOverWaiting_keeps (h : Deck.Untouched .waiting P) (hlane : plan.lane = .waiting)
    (count : Nat) (cs : List Candidate) (tally : Tally)
    : (booth.handOverWaiting plan count cs tally).Keeps P := by
  induction cs generalizing tally with
  | nil => exact .pure _
  | cons c rest ih =>
    unfold handOverWaiting
    apply Play.Keeps.ite
    . intro _
      exact .pure _
    . intro _
      apply (setLane_keeps h.toAloof rest).bind
      intro _
      apply (hand_keeps h.toAloof c tally).bind
      intro tally
      apply Play.Keeps.ite
      . intro _
        apply (replenish_keeps (hlane ▸ h) _ _).outcome.bind
        intro _
        apply Play.Keeps.get.bind
        intro deck
        exact handOver_keeps h.toAloof _ _ _
      . intro _
        exact ih tally

theorem deliver_keeps (h : Deck.Untouched plan.lane P) (count : Nat)
    : (booth.deliver plan count).Keeps P := by
  unfold deliver
  apply Play.Keeps.get.bind
  intro deck
  cases hlane : plan.lane
  case' waiting => apply (handOverWaiting_keeps (hlane ▸ h) hlane count _ _).bind
  case' scratch => apply (handOver_keeps (hlane ▸ h.toAloof) count _ _).bind
  -- what follows the handing over is the same for both queues
  all_goals
    intro tally
    apply Play.Keeps.ite
    . intro _
      cases tally.lastError with
      | some e => exact .throw e
      | none => exact .pure _
    . intro _
      apply (onDevice_keeps h.toAloof _).bind
      intro _
      apply (h.emit _ _ (by decide)).bind
      intro _
      exact .pure _

theorem fillOnce_keeps (h : Deck.Untouched .waiting P) : booth.fillOnce.Keeps P := by
  intro deck hdeck
  rw [fillOnce_ends]
  apply Play.ends_of_forall
  . intro status device
    have hdevice : P { deck with device } := h.device deck device hdeck
    refine ⟨fun hover => ?_, fun _ => hdevice, fun needed _ => ⟨fun _ => ?_, fun _ => ?_⟩⟩
    . exact h.overflow { deck with device } status hover hdevice
    . apply (replenish_keeps h _ _ _ hdevice).mono
      . exact fun _ => deliver_keeps h _
      . exact fun _ _ => id
    . exact deliver_keeps h _ _ hdevice
  . exact fun _ device => h.device deck device hdeck

theorem keepFilled_keeps (h : Deck.Untouched .waiting P) : booth.keepFilled.Keeps P := by
  apply Play.Keeps.get.bind
  intro deck
  apply Play.Keeps.ite
  . intro _
    exact .pure _
  . intro _
    apply ((fillOnce_keeps h).retry _).outcome.bind
    intro result
    cases result with
    | ok added => exact .pure _
    | error last =>
      apply (h.emit _ _ (by decide)).bind
      intro _
      exact .throw _

theorem addNow_keeps (h : Deck.Untouched .scratch P) (count : Nat) (albums : Bool)
    : (booth.addNow count albums).Keeps P := by
  unfold addNow
  apply Play.Keeps.ite
  . intro _
    exact .pure _
  . intro _
    apply Play.Keeps.get.bind
    intro deck
    apply (setLane_keeps h.toAloof []).bind
    intro _
    apply (replenish_keeps h _ _).bind
    intro _
    apply (deliver_keeps h _).outcome.bind
    intro result
    apply (setLane_keeps h.toAloof []).bind
    intro _
    cases result with
    | ok added => exact .pure _
    | error e => exact .throw e

theorem addNow_jukebox (booth : Booth s) (count : Nat) (albums : Bool) (deck : Deck s)
    : ∃ scratch random,
        ((booth.addNow count albums).after deck).jukebox = { deck.jukebox with scratch, random } := by
  have huntouched
      : Deck.Untouched .scratch fun deck' : Deck s =>
          ∃ scratch random, deck'.jukebox = { deck.jukebox with scratch, random } := by
    refine ⟨⟨?_, ?_, ?_, ?_⟩, ?_, ?_⟩
    . exact fun _ _ h => h
    . rintro deck' random ⟨scratch, _, h⟩
      exact ⟨scratch, random, by rw [h]⟩
    . rintro deck' cs ⟨_, random, h⟩
      exact ⟨cs, random, by rw [h]; rfl⟩
    . exact fun _ _ _ _ h => h
    . exact fun _ h => h
    . exact fun _ _ _ h => h
  exact (addNow_keeps huntouched count albums).after ⟨_, _, rfl⟩

/--
The sums of a fill fit into their words, unless the playback queue should be as long as a word can say.
-/
theorem keepFilled_overflowed (booth : Booth s) {deck : Deck s}
    (h : deck.jukebox.settings.queueLength.toNat ≠ UInt64.size - 1)
    : (booth.keepFilled.after deck).overflowed = deck.overflowed := by
  have huntouched
      : Deck.Untouched .waiting fun deck' : Deck s =>
          deck'.jukebox.settings = deck.jukebox.settings ∧ deck'.overflowed = deck.overflowed := by
    refine ⟨⟨?_, ?_, ?_, ?_⟩, ?_, ?_⟩
    . exact fun _ _ h => h
    . exact fun _ _ h => h
    . exact fun _ _ h => h
    . exact fun _ _ _ _ h => h
    . intro deck' hdeck'
      rw [ends_relax_waiting]
      exact ⟨fun _ => hdeck', fun _ => hdeck'⟩
    . rintro deck' status hover ⟨hsettings, -⟩
      rw [hsettings] at hover
      exact absurd (JukeboxSettings.exceeds_of_needed? hover).queueLength h
  exact ((keepFilled_keeps huntouched).after ⟨rfl, rfl⟩).2

end Booth

end AutoDJ
