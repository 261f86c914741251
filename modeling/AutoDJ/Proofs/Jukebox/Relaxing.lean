import AutoDJ.Proofs.Jukebox.Fill
import AutoDJ.Proofs.Jukebox.Frame
import AutoDJ.Proofs.Jukebox.Notebook
import AutoDJ.Rehearsal.Jukebox

namespace AutoDJ

variable {s : Type}

namespace Refill

def isShort (refill : Refill) : Bool :=
  refill.left < refill.needed

def isScarce (refill : Refill) : Bool :=
  0 < refill.left && refill.left < refill.needed

end Refill

def Booth.refillList : Notebook (List Refill) where
  refill refill refills := refills ++ [refill]

def Booth.refills (booth : Booth s) (deck : Deck s) : List Refill :=
  ((Noted.keepFilled booth refillList).after (deck, [])).2

def Deck.warnings (deck : Deck s) : Nat :=
  deck.events.countP (·.kind == .jukeboxWarning)

def Play.IsQuiet (x : Play (Deck s) α) : Prop :=
  ∀ enforcing warnings, x.Keeps fun deck => deck.jukebox.enforcing = enforcing ∧ deck.warnings = warnings

theorem Play.isQuiet_of_aloof (lane : Lane) {x : Play (Deck s) α}
    (h : ∀ P, Deck.Aloof lane P → x.Keeps P) : x.IsQuiet := by
  intro enforcing warnings
  apply h
  refine ⟨fun _ _ hdeck => hdeck, fun _ _ hdeck => hdeck, ?_, ?_⟩
  . intro deck cs hdeck
    cases lane <;> exact hdeck
  . rintro kind message hkind deck ⟨henforcing, hwarnings⟩
    refine ⟨henforcing, ?_⟩
    simpa [Deck.warnings, hkind] using hwarnings

open Play (isQuiet_of_aloof)

namespace Deck

theorem onDevice_quiet (x : Play s α) : (onDevice x).IsQuiet :=
  isQuiet_of_aloof .waiting fun _ h => Booth.onDevice_keeps h x

theorem setLane_quiet (cs : List Candidate) (lane : Lane)
    : (modifyJukebox fun jukebox => jukebox.setLane cs lane : Play (Deck s) Unit).IsQuiet :=
  isQuiet_of_aloof lane fun _ h => Booth.setLane_keeps h cs

theorem emit_quiet {kind : EventKind} (hkind : kind ≠ .jukeboxWarning) (message : Option String)
    : (emit kind message : Play (Deck s) Unit).IsQuiet :=
  isQuiet_of_aloof .waiting fun _ h => h.emit kind message hkind

end Deck

namespace Booth

variable (booth : Booth s)

theorem stock_quiet (plan : FillPlan) (target : Nat) : (booth.stock plan target).IsQuiet := by
  apply isQuiet_of_aloof plan.lane
  intro P h
  apply Play.Keeps.get.bind
  intro deck
  apply (onDevice_keeps h _).bind
  intro recent
  apply (draw_keeps h _ _ _).bind
  intro drawn
  apply (setLane_keeps h _).bind
  intro _
  exact .pure _

theorem hand_quiet (c : Candidate) (tally : Tally) : (booth.hand c tally).IsQuiet :=
  isQuiet_of_aloof .waiting fun _ h => hand_keeps h c tally

theorem handOver_quiet (lane : Lane) (count : Nat) (cs : List Candidate) (tally : Tally)
    : (booth.handOver lane count cs tally).IsQuiet :=
  isQuiet_of_aloof lane fun _ h => handOver_keeps h count cs tally

end Booth

structure Relaxing (start : Deck s) (state : Deck s × List Refill) : Prop where
  insisting : state.1.jukebox.enforcing = true
    → state.1.warnings = start.warnings ∧ ∀ refill ∈ state.2, refill.isScarce = false
  relaxed : state.1.jukebox.enforcing = false
    → state.1.warnings = start.warnings + 1 ∧ ∃ refill ∈ state.2, refill.isScarce = true

structure Attempting (start : Deck s) (plan : FillPlan) (state : Deck s × List Refill) : Prop
    extends Relaxing start state where
  enforce : state.1.jukebox.enforcing = true → plan.enforce = true

variable {start : Deck s} {plan : FillPlan} {booth : Booth s}

theorem Relaxing.frame {deck deck' : Deck s} {refills : List Refill} (h : Relaxing start (deck, refills))
    (henforcing : deck'.jukebox.enforcing = deck.jukebox.enforcing)
    (hwarnings : deck'.warnings = deck.warnings) : Relaxing start (deck', refills) := by
  constructor
  . rw [henforcing, hwarnings]
    exact h.insisting
  . rw [henforcing, hwarnings]
    exact h.relaxed

theorem Play.IsQuiet.relaxing {x : Play (Deck s) α} (h : x.IsQuiet)
    : x.onFst.Keeps (Relaxing start) := by
  rintro ⟨deck, refills⟩ hstate
  rw [Play.ends_onFst]
  apply (h _ _ deck ⟨rfl, rfl⟩).imp
  rintro deck' ⟨henforcing, hwarnings⟩
  exact hstate.frame henforcing hwarnings

theorem Play.IsQuiet.attempting {x : Play (Deck s) α} (h : x.IsQuiet)
    : x.onFst.Keeps (Attempting start plan) := by
  rintro ⟨deck, refills⟩ ⟨hstate, henforce⟩
  rw [Play.ends_onFst]
  apply (h _ _ deck ⟨rfl, rfl⟩).imp
  rintro deck' ⟨henforcing, hwarnings⟩
  refine ⟨hstate.frame henforcing hwarnings, ?_⟩
  rw [henforcing]
  exact henforce

theorem Attempting.note {deck : Deck s} {refills : List Refill}
    (h : Attempting start plan (deck, refills)) {refill : Refill}
    (hrefill : deck.jukebox.enforcing = true → refill.isScarce = false)
    : Attempting start plan (deck, refills ++ [refill]) := by
  refine ⟨⟨fun henforcing => ?_, fun hrelaxed => ?_⟩, h.enforce⟩
  . obtain ⟨hwarnings, hnone⟩ := h.insisting henforcing
    refine ⟨hwarnings, fun other hother => ?_⟩
    obtain hother | hother := List.mem_append.mp hother
    . exact hnone other hother
    . rw [List.mem_singleton.mp hother]
      exact hrefill henforcing
  . obtain ⟨hwarnings, other, hother, hscarce⟩ := h.relaxed hrelaxed
    exact ⟨hwarnings, other, List.mem_append_left _ hother, hscarce⟩

theorem Attempting.judge (hlane : plan.lane = .waiting) {deck : Deck s} {refills : List Refill}
    (h : Attempting start plan (deck, refills)) (needed left : Nat)
    : (Booth.judge plan needed left).Ends deck
        (fun _ deck' => Attempting start plan (deck', refills ++ [⟨needed, left⟩]))
        (fun _ deck' => Attempting start plan (deck', refills ++ [⟨needed, left⟩])) := by
  unfold Booth.judge
  dsimp only
  rw [hlane, Play.ends_ite, Play.ends_bind, Play.ends_throw, Play.ends_ite, Booth.ends_relax_waiting,
    Play.ends_pure, Bool.and_eq_true, decide_eq_true_iff]
  refine ⟨fun hnone => ?_, fun hsome => ⟨fun ⟨hshort, _⟩ => ⟨fun henforcing => ?_, fun hrelaxed => ?_⟩,
    fun henough => ?_⟩⟩
  . apply h.note
    simp [Refill.isScarce, hnone]
  . -- this is where uniqueness is given up
    obtain ⟨hwarnings, -⟩ := h.insisting henforcing
    refine ⟨⟨by simp, fun _ => ⟨?_, ⟨needed, left⟩, by simp, ?_⟩⟩, by simp⟩
    . simpa [Deck.warnings] using hwarnings
    . simp only [Refill.isScarce, Bool.and_eq_true, decide_eq_true_iff]
      exact ⟨Nat.pos_of_ne_zero hsome, hshort⟩
  . apply h.note
    intro henforcing
    contradiction
  . apply h.note
    intro henforcing
    have henforce := h.enforce henforcing
    simp only [Refill.isScarce, Bool.and_eq_false_iff, decide_eq_false_iff_not]
    exact .inr fun hshort => henough ⟨hshort, henforce⟩

namespace Booth.Noted

theorem replenish_attempting (hlane : plan.lane = .waiting) (needed target : Nat)
    : (replenish booth refillList plan needed target).Keeps (Attempting start plan) := by
  apply (booth.stock_quiet plan target).attempting.bind
  rintro left ⟨deck, refills⟩ h
  rw [Play.ends_bind, Play.ends_modify, Play.ends_onFst]
  exact h.judge hlane needed left

theorem handOverWaiting_attempting (hlane : plan.lane = .waiting) (count : Nat) (cs : List Candidate)
    (tally : Tally)
    : (handOverWaiting booth refillList plan count cs tally).Keeps (Attempting start plan) := by
  induction cs generalizing tally with
  | nil => exact .pure _
  | cons c rest ih =>
    unfold handOverWaiting
    apply Play.Keeps.ite
    . intro _
      exact .pure _
    . intro _
      apply (Deck.setLane_quiet rest .waiting).attempting.bind
      intro _
      rw [hand_eq_onFst booth refillList rfl]
      apply (booth.hand_quiet c tally).attempting.bind
      intro tally
      apply Play.Keeps.ite
      . intro _
        apply (replenish_attempting hlane _ _).outcome.bind
        intro _
        apply Play.Keeps.get.bind
        intro state
        rw [handOver_eq_onFst booth refillList rfl]
        exact (booth.handOver_quiet _ _ _ _).attempting
      . intro _
        exact ih tally

theorem deliver_attempting (hlane : plan.lane = .waiting) (count : Nat)
    : (deliver booth refillList plan count).Keeps (Attempting start plan) := by
  unfold deliver
  rw [hlane]
  apply Play.Keeps.get.bind
  intro state
  apply (handOverWaiting_attempting hlane _ _ _).bind
  intro tally
  apply Play.Keeps.ite
  . intro _
    cases tally.lastError with
    | some e => exact .throw e
    | none => exact .pure _
  . intro _
    apply (Deck.onDevice_quiet _).attempting.bind
    intro _
    apply (Deck.emit_quiet (by decide) _).attempting.bind
    intro _
    exact .pure _

theorem fillOnce_relaxing : (fillOnce booth refillList).Keeps (Relaxing start) := by
  apply (Deck.onDevice_quiet _).relaxing.bind
  intro status state hstate
  rw [Play.ends_bind, Play.ends_get]
  dsimp only
  match state.1.jukebox.settings.needed? status with
  | .error .overflow => exact hstate.frame rfl rfl
  | .ok none => exact hstate
  | .ok (some needed) =>
    -- the plan is made now, so that it says whether uniqueness is enforced
    have hplan : Attempting start state.1.jukebox.plan state := ⟨hstate, id⟩
    refine Play.Ends.imp (Play.Keeps.ite ?_ ?_ state hplan) fun _ h => h.toRelaxing
    . intro _
      apply (replenish_attempting rfl _ _).bind
      intro _
      exact deliver_attempting rfl _
    . intro _
      exact deliver_attempting rfl _

theorem keepFilled_relaxing : (keepFilled booth refillList).Keeps (Relaxing start) := by
  apply Play.Keeps.get.bind
  intro state
  apply Play.Keeps.ite
  . intro _
    exact .pure _
  . intro _
    apply (fillOnce_relaxing.retry _).outcome.bind
    intro result
    cases result with
    | ok added => exact .pure _
    | error last =>
      apply (Deck.emit_quiet (by decide) _).relaxing.bind
      intro _
      exact .throw _

end Booth.Noted

namespace Booth

/--
If a refill leaves fewer candidates than are needed, uniqueness has been given up after the fill, and one
warning has been emitted.
-/
def RelaxesWhenShort (booth : Booth s) (deck : Deck s) : Prop :=
  (∃ refill ∈ booth.refills deck, refill.isShort = true)
    → (booth.keepFilled.after deck).jukebox.enforcing = false
      ∧ (booth.keepFilled.after deck).warnings = deck.warnings + 1

/--
A fill that starts while uniqueness is enforced gives it up, with one warning, if and only if a refill
leaves too few candidates, but some. So a jukebox relaxes when it runs short if and only if not all of its
short refills leave none.
-/
theorem relaxes_iff_scarce (booth : Booth s) {deck : Deck s} (h : deck.jukebox.enforcing = true)
    : ((booth.keepFilled.after deck).jukebox.enforcing = false
          ↔ ∃ refill ∈ booth.refills deck, refill.isScarce = true)
      ∧ (booth.keepFilled.after deck).warnings
          = deck.warnings + (if (booth.keepFilled.after deck).jukebox.enforcing then 0 else 1)
      ∧ (booth.RelaxesWhenShort deck
          ↔ ((∃ refill ∈ booth.refills deck, refill.isShort = true)
            → ∃ refill ∈ booth.refills deck, refill.isScarce = true)) := by
  have hstart : Relaxing deck (deck, []) := by
    refine ⟨fun _ => ⟨rfl, by simp⟩, fun hrelaxed => ?_⟩
    simp [h] at hrelaxed
  have hend : Relaxing deck ((Noted.keepFilled booth refillList).after (deck, [])) :=
    Noted.keepFilled_relaxing.after hstart
  have hforget := (Noted.keepFilled_mirrors booth refillList).after_eq (deck, [])
  obtain ⟨hinsisting, hrelaxed⟩ := hend
  rw [← hforget] at hinsisting hrelaxed
  have hscarce
      : (booth.keepFilled.after deck).jukebox.enforcing = false
        ↔ ∃ refill ∈ booth.refills deck, refill.isScarce = true := by
    refine ⟨fun hoff => (hrelaxed hoff).2, ?_⟩
    rintro ⟨refill, hmem, hrefill⟩
    rw [← Bool.not_eq_true]
    intro hon
    simp [(hinsisting hon).2 refill hmem] at hrefill
  have hwarnings
      : (booth.keepFilled.after deck).warnings
        = deck.warnings + (if (booth.keepFilled.after deck).jukebox.enforcing then 0 else 1) := by
    split
    . next hon => exact (hinsisting hon).1
    . next hoff => exact (hrelaxed (Bool.not_eq_true _ ▸ hoff)).1
  refine ⟨hscarce, hwarnings, fun hrelaxes hshort => hscarce.mp (hrelaxes hshort).1, ?_⟩
  intro hcondition hshort
  have hoff := hscarce.mpr (hcondition hshort)
  exact ⟨hoff, (hrelaxed hoff).1⟩

def meagre : Rehearsal.JukeboxRig :=
  .create { library := [{ uri := "a.flac" }, { uri := "b.flac" }], queue := ["a.flac"] } {}
    (.create "default" { mode := .addTracks, queueLength := 3 } { word := fun _ => 0 }) .create
    "history" 1000

theorem meagre_relaxes
    : meagre.deck.jukebox.enforcing = true
      ∧ ((meagre.booth 0).keepFilled.after meagre.deck).jukebox.enforcing = false := by
  refine ⟨rfl, (relaxes_iff_scarce (meagre.booth 0) rfl).1.mpr ?_⟩
  decide +kernel

def exhausted : Rehearsal.JukeboxRig :=
  .create { library := [{ uri := "a.flac" }], queue := ["a.flac"] } {}
    (.create "default" { mode := .addTracks, queueLength := 1 } { word := fun _ => 0 }) .create
    "history" 1000

theorem exhausted_insists : ¬(exhausted.booth 0).RelaxesWhenShort exhausted.deck := by
  intro hrelaxes
  have hshort : ∃ refill ∈ (exhausted.booth 0).refills exhausted.deck, refill.isShort = true := by
    decide +kernel
  have henforcing : ((exhausted.booth 0).keepFilled.after exhausted.deck).jukebox.enforcing = true := by
    decide +kernel
  have hrelaxed := (hrelaxes hshort).1
  simp [henforcing] at hrelaxed

end Booth

end AutoDJ
