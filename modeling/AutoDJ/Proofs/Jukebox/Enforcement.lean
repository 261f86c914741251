import AutoDJ.Proofs.Jukebox.Frame
import AutoDJ.Proofs.Jukebox.Relaxing
import AutoDJ.Proofs.Jukebox.Visits

namespace AutoDJ

variable {s : Type}

structure Deck.Loosens (before after : Deck s) : Prop where
  settings : after.jukebox.settings = before.jukebox.settings
  enforcing : after.jukebox.enforcing = before.jukebox.enforcing ∧ after.warnings = before.warnings
    ∨ before.jukebox.enforcing = true ∧ after.jukebox.enforcing = false
      ∧ after.warnings = before.warnings + 1

namespace Booth

theorem loosens_untouched (start : Deck s) : Deck.Untouched .waiting start.Loosens := by
  refine ⟨⟨?_, ?_, ?_, ?_⟩, ?_, fun _ _ _ h => ⟨h.settings, h.enforcing⟩⟩
  . exact fun _ _ h => ⟨h.settings, h.enforcing⟩
  . exact fun _ _ h => ⟨h.settings, h.enforcing⟩
  . exact fun _ _ h => ⟨h.settings, h.enforcing⟩
  . rintro kind message hkind deck ⟨hsettings, henforcing⟩
    refine ⟨hsettings, ?_⟩
    simpa [Deck.warnings, hkind] using henforcing
  . rintro deck ⟨hsettings, henforcing⟩
    rw [ends_relax_waiting]
    refine ⟨fun hon => ⟨hsettings, ?_⟩, fun _ => ⟨hsettings, henforcing⟩⟩
    -- uniqueness can only be given up while it is still as it was at the start
    obtain ⟨hsame, hwarnings⟩ | ⟨-, hoff, -⟩ := henforcing
    . refine .inr ⟨hsame ▸ hon, rfl, ?_⟩
      rw [← hwarnings]
      simp [Deck.warnings]
    . simp [hoff] at hon

theorem keepFilled_loosens (booth : Booth s) (deck : Deck s)
    : deck.Loosens (booth.keepFilled.after deck) :=
  (keepFilled_keeps (loosens_untouched deck)).after ⟨rfl, .inl ⟨rfl, rfl⟩⟩

end Booth

namespace Jukebox

structure Call.Lawful (call : Call s) (before after : Deck s) : Prop where
  relaxing : before.jukebox.enforcing = true → after.jukebox.enforcing = false
    → call.isKeepFilled = true ∨ ∃ settings, call = .configure settings ∧ settings.enforceUnique = false
  restoring : before.jukebox.enforcing = false → after.jukebox.enforcing = true
    → ∃ settings, call = .configure settings ∧ settings.enforceUnique = true
  warning : call.isKeepFilled = true
    → after.warnings = if before.jukebox.enforcing && !after.jukebox.enforcing then 1 else 0
  settings : after.jukebox.settings ≠ before.jukebox.settings → call.isConfigure = true
  configuring : ∀ settings, call = .configure settings
    → after.jukebox.settings = settings ∧ after.jukebox.enforcing = settings.enforceUnique

theorem visit_lawful (deck : Deck s) (visit : Visit s) : visit.call.Lawful deck (deck.visit visit) := by
  obtain ⟨call, device⟩ := visit
  cases call with
  | keepFilled booth =>
    obtain ⟨hsettings, henforcing⟩
        : Deck.Loosens { deck with device, events := [] } (deck.visit ⟨.keepFilled booth, device⟩) :=
      booth.keepFilled_loosens _
    refine ⟨fun _ _ => .inl rfl, ?_, fun _ => ?_, fun h => absurd hsettings h, by simp⟩
    . intro hoff hon
      obtain ⟨hsame, -⟩ | ⟨hstart, -⟩ := henforcing
      . simp [hsame, hoff] at hon
      . simp [hoff] at hstart
    . obtain ⟨hsame, hwarnings⟩ | ⟨hstart, hoff, hwarnings⟩ := henforcing
      . rw [hwarnings, hsame]
        simp [Deck.warnings]
      . rw [hwarnings, hoff]
        simpa [Deck.warnings] using hstart
  | addNow booth count albums =>
    obtain ⟨scratch, random, hjukebox⟩
        : ∃ scratch random, (deck.visit ⟨.addNow booth count albums, device⟩).jukebox
          = { deck.jukebox with scratch, random } :=
      booth.addNow_jukebox count albums { deck with device, events := [] }
    refine ⟨fun hon hoff => ?_, fun hoff hon => ?_, fun h => absurd h Bool.false_ne_true,
      fun h => ?_, by simp⟩
    . simp [hjukebox, hon] at hoff
    . simp [hjukebox, hoff] at hon
    . simp [hjukebox] at h
  | invalidate =>
    refine ⟨fun hon hoff => ?_, fun hoff hon => ?_, fun h => absurd h Bool.false_ne_true,
      fun h => absurd rfl h, by simp⟩
    . exact absurd (hon.symm.trans hoff) (by decide)
    . exact absurd (hon.symm.trans hoff) (by decide)
  | configure settings =>
    refine ⟨fun _ hoff => .inr ⟨settings, rfl, hoff⟩, fun _ hon => ⟨settings, rfl, hon⟩,
      fun h => absurd h Bool.false_ne_true, fun _ => rfl, ?_⟩
    rintro _ ⟨rfl⟩
    exact ⟨rfl, rfl⟩

end Jukebox

namespace Deck

open Jukebox (Visit)

def fillWarnings (deck : Deck s) : List (Visit s) → Nat
  | [] => 0
  | visit :: visits =>
    (if visit.call.isKeepFilled then (deck.visit visit).warnings else 0)
      + (deck.visit visit).fillWarnings visits

theorem fillWarnings_visit (deck : Deck s) {visit : Visit s} (h : visit.call.isConfigure = false)
    : (if visit.call.isKeepFilled then (deck.visit visit).warnings else 0)
        + (deck.visit visit).jukebox.enforcing.toNat = deck.jukebox.enforcing.toNat := by
  have hlawful := Jukebox.visit_lawful deck visit
  have hrestoring (hoff : deck.jukebox.enforcing = false)
      : (deck.visit visit).jukebox.enforcing = false := by
    rw [← Bool.not_eq_true]
    intro hon
    obtain ⟨settings, hcall, -⟩ := hlawful.restoring hoff hon
    simp [hcall, Jukebox.Call.isConfigure] at h
  have hrelaxing (hon : deck.jukebox.enforcing = true) (hcall : ¬visit.call.isKeepFilled = true)
      : (deck.visit visit).jukebox.enforcing = true := by
    rw [← Bool.not_eq_false]
    intro hoff
    obtain hfill | ⟨settings, hconfigure, -⟩ := hlawful.relaxing hon hoff
    . exact hcall hfill
    . simp [hconfigure, Jukebox.Call.isConfigure] at h
  split
  . next hfill =>
    rw [hlawful.warning hfill]
    cases hbefore : deck.jukebox.enforcing with
    | false => rw [hrestoring hbefore]; rfl
    | true => cases (deck.visit visit).jukebox.enforcing <;> rfl
  . next hother =>
    cases hbefore : deck.jukebox.enforcing with
    | false => rw [hrestoring hbefore]; rfl
    | true => rw [hrelaxing hbefore hother]; rfl

theorem fillWarnings_add (deck : Deck s) {visits : List (Visit s)}
    (h : ∀ visit ∈ visits, visit.call.isConfigure = false)
    : deck.fillWarnings visits + (deck.visitAll visits).jukebox.enforcing.toNat
        = deck.jukebox.enforcing.toNat := by
  induction visits generalizing deck with
  | nil => exact Nat.zero_add _
  | cons visit visits ih =>
    obtain ⟨hvisit, hvisits⟩ := List.forall_mem_cons.mp h
    rw [← fillWarnings_visit deck hvisit, ← ih (deck.visit visit) hvisits]
    exact Nat.add_assoc ..

end Deck

namespace Jukebox

/--
Uniqueness is given up only by a fill that a jukebox makes of its own accord, which warns once then, or by
settings that do not ask for it, and is restored only by settings that do; nothing else changes the
settings. So the fills between two changes of the settings warn at most once, and not at all if the
settings do not ask for uniqueness.
-/
theorem enforcement_lifecycle (start : Deck s) (visits : List (Visit s))
    : (∀ visit : Visit s, visit.call.Lawful (start.visitAll visits) ((start.visitAll visits).visit visit))
      ∧ ∀ others : List (Visit s), (∀ visit ∈ others, visit.call.isConfigure = false)
        → (start.visitAll visits).fillWarnings others
            = (if (start.visitAll visits).jukebox.enforcing
                && !((start.visitAll visits).visitAll others).jukebox.enforcing then 1 else 0)
          ∧ ∀ settings device,
            ((start.visitAll visits).visit { call := .configure settings, device }).fillWarnings others
              ≤ if settings.enforceUnique then 1 else 0 := by
  refine ⟨visit_lawful _, fun others hothers => ⟨?_, fun settings device => ?_⟩⟩
  . have hadd := (start.visitAll visits).fillWarnings_add hothers
    cases hbefore : (start.visitAll visits).jukebox.enforcing
      <;> cases hafter : ((start.visitAll visits).visitAll others).jukebox.enforcing
      <;> simp only [hbefore, hafter, Bool.toNat_false, Bool.toNat_true] at hadd
      <;> simp
      <;> omega
  . have hadd := ((start.visitAll visits).visit
      { call := .configure settings, device }).fillWarnings_add hothers
    have hconfigured
        : ((start.visitAll visits).visit { call := .configure settings, device }).jukebox.enforcing
          = settings.enforceUnique := rfl
    rw [hconfigured] at hadd
    cases hunique : settings.enforceUnique
      <;> simp only [hunique, Bool.toNat_false, Bool.toNat_true] at hadd
      <;> simp only [Bool.false_eq_true, if_false, if_true]
      <;> omega

def meagreVisits : List (Visit (Nat × Rehearsal.Stage)) :=
  let fill := .keepFilled (Booth.meagre.booth 0)
  [fill, .invalidate, fill].map fun call => { call, device := Booth.meagre.deck.device }

theorem meagre_warns_once
    : (∀ visit ∈ meagreVisits, visit.call.isConfigure = false)
      ∧ Booth.meagre.deck.fillWarnings meagreVisits = 1 := by
  have hothers : ∀ visit ∈ meagreVisits, visit.call.isConfigure = false := by
    simp [meagreVisits, Call.isConfigure]
  refine ⟨hothers, ((enforcement_lifecycle Booth.meagre.deck []).2 meagreVisits hothers).1.trans ?_⟩
  decide +kernel

theorem configure_gives_up
    : ¬∀ (start : Deck Unit) (visits : List (Visit Unit)) (visit : Visit Unit),
        (start.visitAll visits).jukebox.enforcing = true
          → ((start.visitAll visits).visit visit).jukebox.enforcing = false
          → visit.call.isKeepFilled = true := by
  intro hfills
  let jukebox : Jukebox := .create "default" { mode := .addTracks } { word := fun _ => 0 }
  let visit : Visit Unit :=
    { call := .configure { mode := .addTracks, enforceUnique := false }, device := () }
  have hfill := hfills { device := (), jukebox } [] visit rfl rfl
  contradiction

end Jukebox

end AutoDJ
