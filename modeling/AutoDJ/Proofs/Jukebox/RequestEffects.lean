import AutoDJ.Proofs.Jukebox.Apart
import AutoDJ.Proofs.Jukebox.Idle

namespace AutoDJ

variable {s : Type}

namespace Booth

variable (booth : Booth s) {plan : FillPlan}

theorem hand_counts (c : Candidate) (tally : Tally) (deck : Deck s)
    : (booth.hand c tally).Ends deck
        (fun tally' _ => tally'.added ≤ tally.added + 1
          ∧ (tally'.added = 0 → tally'.lastError ≠ none))
        (fun _ _ => False) := by
  rw [hand_ends]
  apply Play.ends_of_forall
  . intro _ _
    exact ⟨Nat.le_refl _, fun hnone => absurd hnone (Nat.succ_ne_zero _)⟩
  . intro e _
    exact ⟨Nat.le_succ _, fun _ => Option.some_ne_none e⟩

theorem handOver_counts (count : Nat) (hcount : 0 < count) {deck : Deck (s × List (Receipt s))}
    (h : deck.jukebox.scratch ≠ [])
    : (booth.recorded.handOver .scratch count deck.jukebox.scratch {}).Ends deck
        (fun tally deck' => Books deck tally.added deck' ∧ tally.added ≤ count
          ∧ (tally.added = 0 → tally.lastError ≠ none))
        (fun _ _ => False) := by
  apply (handOver_ends count
    (J := fun cs tally deck' => Books deck tally.added deck' ∧ tally.added ≤ count
      ∧ (tally.added = 0 → tally.lastError = none → cs ≠ []))
    ?_ deck.jukebox.scratch {} deck ⟨.refl deck, Nat.zero_le _, fun _ _ => h⟩).mono
  . rintro tally deck' ⟨left, ⟨hbooks, hadded, htried⟩, hend⟩
    refine ⟨hbooks, hadded, fun hnone herror => ?_⟩
    obtain hempty | henough := hend
    . exact htried hnone herror hempty
    . omega
  . exact fun _ _ => id
  . rintro c rest tally deck' hmissing ⟨⟨haccepted, hrefused, hupdates⟩, -, -⟩
    have hbooks : Books deck tally.added { deck' with jukebox := deck'.jukebox.setLane rest .scratch } :=
      ⟨haccepted, hrefused, hupdates⟩
    apply ((hand_books c tally hbooks).and (hand_counts booth.recorded c tally _)).mono
    . rintro tally' _ ⟨hbooks, hadded, htried⟩
      exact ⟨hbooks, Nat.le_trans hadded hmissing, fun hnone herror => absurd herror (htried hnone)⟩
    . exact fun _ _ => And.left

theorem acceptedAdds_play (deck : Deck (s × List (Receipt s))) (after : s) (receipt : Receipt s)
    (hplay : receipt.order = .play) (events : List Event)
    : ({ deck with device := (after, deck.device.2 ++ [receipt]), events }
        : Deck (s × List (Receipt s))).acceptedAdds = deck.acceptedAdds := by
  simp [Deck.acceptedAdds, Receipt.isAcceptedAdd, Order.isAdd, hplay]

theorem deliver_counts (hlane : plan.lane = .scratch) (count : Nat) (hcount : 0 < count)
    {deck : Deck (s × List (Receipt s))} (h : deck.jukebox.scratch ≠ [])
    : (booth.recorded.deliver plan count).Ends deck
        (fun added deck' => deck'.acceptedAdds = deck.acceptedAdds + added ∧ added ≤ count ∧ added ≠ 0)
        (fun _ deck' => deck'.acceptedAdds ≤ deck.acceptedAdds + count) := by
  rw [deliver_ends, hlane]
  apply (handOver_counts booth count hcount h).mono
  . rintro tally deck' ⟨⟨haccepted, -, -⟩, hadded, htried⟩
    unfold Settles
    split
    . next hnone =>
      cases herror : tally.lastError with
      | some e =>
        dsimp only
        omega
      | none => exact absurd herror (htried hnone)
    . next hsome =>
      apply ends_filed.mpr
      apply Play.ends_of_forall
      . intro _ after
        refine ⟨?_, hadded, hsome⟩
        exact (acceptedAdds_play deck' after { order := .play, before := _, accepted := true } rfl _).trans
          haccepted
      . intro _ after
        have hsame := acceptedAdds_play deck' after
          { order := .play, before := deck'.device.1, accepted := false } rfl deck'.events
        dsimp only at *
        omega
  . exact fun _ _ => False.elim

theorem addNow_counts (count : Nat) (albums : Bool) (deck : Deck (s × List (Receipt s)))
    (h : deck.jukebox.scratch = [])
    : (booth.recorded.addNow count albums).Ends deck
        (fun added deck' => deck'.jukebox.scratch = [] ∧ deck'.acceptedAdds = deck.acceptedAdds + added
          ∧ added ≤ min count maxAdd ∧ (added = 0 → count = 0))
        (fun _ deck' => deck'.jukebox.scratch = []
          ∧ deck'.acceptedAdds ≤ deck.acceptedAdds + min count maxAdd) := by
  rw [addNow_ends]
  refine ⟨fun hnone => ⟨h, rfl, Nat.zero_le _, fun _ => ?_⟩, fun hsome => ?_⟩
  . unfold maxAdd at hnone
    omega
  . have hsame {deck' : Deck (s × List (Receipt s))} (hreceipts : deck'.device.2 = deck.device.2)
        : deck'.acceptedAdds = deck.acceptedAdds := by
      rw [Deck.acceptedAdds, hreceipts]
      rfl
    apply (replenish_unmoved _ _ _).mono
    . rintro _ deck' ⟨⟨hscratch, hreceipts⟩, -⟩
      rw [← hsame hreceipts]
      apply (deliver_counts booth rfl _ (Nat.pos_of_ne_zero hsome) hscratch).mono
      . rintro added _ ⟨haccepted, hadded, hnonzero⟩
        exact ⟨rfl, haccepted, hadded, fun hzero => absurd hzero hnonzero⟩
      . exact fun _ _ haccepted => ⟨rfl, haccepted⟩
    . rintro _ deck' ⟨⟨hreceipts, random, hjukebox⟩, -⟩
      rw [hjukebox]
      exact ⟨rfl, hsame hreceipts ▸ Nat.le_add_right _ _⟩

theorem addNow_scratch (count : Nat) (albums : Bool) {deck : Deck s} (h : deck.jukebox.scratch = [])
    : ((booth.addNow count albums).after deck).jukebox.scratch = [] := by
  apply Play.after_of_ends fun deck : Deck s => deck.jukebox.scratch = []
  apply ((booth.addNow_mirrors count albums).ends_iff deck.recorded).mpr
  exact (addNow_counts booth count albums deck.recorded h).mono (fun _ _ => And.left) (fun _ _ => And.left)

theorem keepFilled_scratch {deck : Deck s} (h : deck.jukebox.scratch = [])
    : (booth.keepFilled.after deck).jukebox.scratch = [] := by
  have huntouched : Deck.Untouched .waiting fun deck : Deck s => deck.jukebox.scratch = [] := by
    refine ⟨⟨fun _ _ => id, fun _ _ => id, fun _ _ => id, fun _ _ _ _ => id⟩, ?_, fun _ _ _ => id⟩
    intro deck hdeck
    rw [ends_relax_waiting]
    exact ⟨fun _ => hdeck, fun _ => hdeck⟩
  exact (keepFilled_keeps huntouched).after h

end Booth

namespace Jukebox

theorem Reached.scratch {jukebox : Jukebox} (h : jukebox.Reached s) : jukebox.scratch = [] := by
  apply h.induction
  . exact fun _ _ _ => rfl
  . intro call deck hdeck
    cases call with
    | keepFilled booth => exact booth.keepFilled_scratch hdeck
    | addNow booth count albums => exact booth.addNow_scratch count albums hdeck
    | invalidate => rfl
    | configure settings => rfl

theorem addNow_effects (booth : Booth s) (count : Nat) (albums : Bool) {deck : Deck s}
    (h : deck.jukebox.Reached s)
    : ((booth.addNow count albums).after deck).jukebox.scratch = []
      ∧ (∃ random, ((booth.addNow count albums).after deck).jukebox = { deck.jukebox with random })
      ∧ (booth.requestLedger count albums deck).countP Receipt.isAcceptedAdd ≤ min count maxAdd
      ∧ (booth.addNow count albums).Ends deck
          (fun added _ =>
            added = (booth.requestLedger count albums deck).countP Receipt.isAcceptedAdd
              ∧ (added = 0 → count = 0))
          (fun _ _ => True) := by
  have hscratch := booth.addNow_scratch count albums h.scratch
  have hcounts := booth.addNow_counts count albums deck.recorded h.scratch
  refine ⟨hscratch, ?_, ?_, ?_⟩
  . obtain ⟨scratch, random, hjukebox⟩ := booth.addNow_jukebox count albums deck
    rw [hjukebox] at hscratch
    obtain rfl : scratch = [] := hscratch
    refine ⟨random, ?_⟩
    rw [hjukebox, ← h.scratch]
  . have hstart : deck.recorded.acceptedAdds = 0 := rfl
    apply Play.after_of_ends fun deck' : Deck (s × List (Receipt s)) => deck'.acceptedAdds ≤ min count maxAdd
    apply hcounts.mono
    . rintro added deck' ⟨-, haccepted, hadded, -⟩
      omega
    . rintro _ deck' ⟨-, haccepted⟩
      omega
  . apply ((booth.addNow_mirrors count albums).ends_iff deck.recorded).mpr
    apply (hcounts.and (Play.ends_self _ _)).mono
    . rintro added deck' ⟨⟨-, haccepted, -, hnonzero⟩, hrun⟩
      rw [Booth.requestLedger, Play.after_eq_of_ok hrun]
      exact ⟨(haccepted.trans (Nat.zero_add added)).symm, hnonzero⟩
    . exact fun _ _ _ => trivial

theorem fussy_addNow_effects
    : let filled := fussy.visitAll fussyVisits
      filled.jukebox.waiting.length = 2
        ∧ ((rehearsalBooth.addNow 3 false).after filled).jukebox.scratch = []
        ∧ ((rehearsalBooth.addNow 3 false).after filled).jukebox.waiting = filled.jukebox.waiting
        ∧ (rehearsalBooth.requestLedger 3 false filled).countP Receipt.isAcceptedAdd ≤ 3
        ∧ (rehearsalBooth.addNow 3 false).Ends filled (fun added _ => added = 1) (fun _ _ => False) := by
  have hreached : (fussy.visitAll fussyVisits).jukebox.Reached Rehearsal.ScriptedPlayer :=
    ⟨"default", _, _, fussy.device, fussyVisits, rfl⟩
  obtain ⟨hscratch, ⟨random, hjukebox⟩, haccepted, -⟩ := addNow_effects rehearsalBooth 3 false hreached
  refine ⟨by decide +kernel, hscratch, ?_, haccepted, by decide +kernel⟩
  rw [hjukebox]

end Jukebox

end AutoDJ
