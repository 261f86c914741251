import AutoDJ.Proofs.Jukebox.Accounting
import AutoDJ.Proofs.Jukebox.Distinct

namespace AutoDJ

variable {s : Type}

namespace Jukebox

theorem lane_setLane (jukebox : Jukebox) (cs : List Candidate) (lane : Lane)
    : (jukebox.setLane cs lane).lane lane = cs := by
  cases lane <;> rfl

theorem setLane_eq_self {jukebox : Jukebox} {cs : List Candidate} {lane : Lane}
    (h : jukebox.lane lane = cs) : jukebox.setLane cs lane = jukebox := by
  cases lane <;> rw [← h] <;> rfl

end Jukebox

namespace Deck

def errors (deck : Deck s) : Nat :=
  deck.events.countP (·.kind == .jukeboxError)

/--
The player has received no order, and the jukebox has changed at most in its random words.
-/
structure Unmoved (deck deck' : Deck (s × List (Receipt s))) : Prop where
  receipts : deck'.device.2 = deck.device.2
  jukebox : ∃ random, deck'.jukebox = { deck.jukebox with random }

def Moved (deck : Deck (s × List (Receipt s))) : Prop :=
  ∃ receipt ∈ deck.device.2, receipt.order.isAdd = true

variable {deck deck' deck'' : Deck (s × List (Receipt s))}

theorem Unmoved.trans (h : Unmoved deck deck') (h' : Unmoved deck' deck'') : Unmoved deck deck'' := by
  obtain ⟨random, hjukebox⟩ := h.jukebox
  obtain ⟨random', hjukebox'⟩ := h'.jukebox
  refine ⟨h'.receipts.trans h.receipts, random', ?_⟩
  rw [hjukebox', hjukebox]

theorem Moved.of_receipts (h : Moved deck) (hreceipts : deck'.device.2 = deck.device.2) : Moved deck' := by
  unfold Moved
  rwa [hreceipts]

end Deck

open Deck (Unmoved Moved)

namespace Booth

variable {booth : Booth s} {plan : FillPlan}

theorem relax_errors (lane : Lane) (deck : Deck s)
    : (relax lane).Ends deck
        (fun _ deck' => deck'.device = deck.device ∧ deck'.jukebox.lane lane = deck.jukebox.lane lane
          ∧ deck'.errors = deck.errors)
        (fun _ _ => False) := by
  cases lane with
  | scratch => exact ⟨rfl, rfl, by simp [Deck.errors]⟩
  | waiting =>
    rw [ends_relax_waiting]
    exact ⟨fun _ => ⟨rfl, rfl, by simp [Deck.errors]⟩, fun _ => ⟨rfl, rfl, rfl⟩⟩

theorem replenish_unmoved (needed target : Nat) (deck : Deck (s × List (Receipt s)))
    : (booth.recorded.replenish plan needed target).Ends deck
        (fun _ deck' => (deck'.jukebox.lane plan.lane ≠ [] ∧ deck'.device.2 = deck.device.2)
          ∧ deck'.errors = deck.errors)
        (fun _ deck' => Unmoved deck deck' ∧ deck'.errors = deck.errors) := by
  have hdraws := booth.recorded_draws deck.device.2
  rw [ends_replenish]
  apply (recentlyPlayed_ends hdraws deck.jukebox.settings deck.device rfl).mono
  . rintro recent device ⟨uris, huris, -⟩
    apply (draw_ends (hdraws.sourcePage uris) plan.albums _ _ _ huris).mono
    . rintro drawn _ ⟨-, device, random, hdevice, rfl⟩
      have hlane := Jukebox.lane_setLane { deck.jukebox with random }
        (deck.jukebox.lane plan.lane ++ drawn) plan.lane
      refine ⟨fun hnone => ⟨⟨hdevice, random, ?_⟩, rfl⟩, fun hsome => ⟨fun _ => ?_, fun _ => ?_⟩⟩
      . -- nothing was pending either
        apply Jukebox.setLane_eq_self
        rw [hnone, ← (List.append_eq_nil_iff.mp hnone).1]
        cases plan.lane <;> rfl
      . apply (relax_errors plan.lane _).mono
        . rintro _ deck' ⟨hdevice', hlane', herrors⟩
          exact ⟨⟨(hlane'.trans hlane).trans_ne hsome, hdevice' ▸ hdevice⟩, herrors⟩
        . exact fun _ _ => False.elim
      . exact ⟨⟨hlane.trans_ne hsome, hdevice⟩, rfl⟩
    . rintro _ _ ⟨device, random, hdevice, rfl⟩
      exact ⟨⟨hdevice, random, rfl⟩, rfl⟩
  . exact fun _ _ hdevice => ⟨⟨hdevice, deck.jukebox.random, rfl⟩, rfl⟩

theorem hand_moved (c : Candidate) (tally : Tally) (deck : Deck (s × List (Receipt s)))
    : (booth.recorded.hand c tally).Ends deck (fun _ deck' => Moved deck' ∧ deck'.errors = deck.errors)
        (fun _ _ => False) := by
  rw [hand_ends]
  have hfiled (order : Order) (hadd : order.isAdd = true) (x : Play s Unit)
      : (filed order x).Ends deck.device
          (fun _ device => Moved { deck with device } ∧ { deck with device }.errors = deck.errors)
          (fun _ device => Moved { deck with device } ∧ { deck with device }.errors = deck.errors) := by
    rw [ends_filed]
    apply Play.ends_of_forall
    . exact fun _ _ => ⟨⟨_, List.mem_append_right _ (List.mem_singleton_self _), hadd⟩, rfl⟩
    . exact fun _ _ => ⟨⟨_, List.mem_append_right _ (List.mem_singleton_self _), hadd⟩, rfl⟩
  cases c.pick with
  | track uri tagValue => exact hfiled (.addTrack uri) rfl _
  | album key => exact hfiled (.addAlbum key.album key.albumArtist) rfl _

theorem deliver_moved (hlane : plan.lane = .waiting) {count : Nat} (hcount : 0 < count)
    (deck : Deck (s × List (Receipt s))) (h : deck.jukebox.waiting ≠ [])
    : (booth.recorded.deliver plan count).Ends deck
        (fun _ deck' => Moved deck' ∧ deck'.errors = deck.errors)
        (fun _ deck' => Moved deck' ∧ deck'.errors = deck.errors) := by
  have hhanded :=
    handOverWaiting_ends booth.recorded plan count
      (J := fun cs tally deck' =>
        (Moved deck' ∨ tally.added = 0 ∧ cs ≠ [] ∧ deck'.jukebox.waiting = cs)
          ∧ deck'.errors = deck.errors)
      (by
        rintro c rest tally deck' - ⟨-, herrors⟩
        apply (hand_moved c tally _).mono
        . rintro _ _ ⟨hmoved, hsame⟩
          exact ⟨.inl hmoved, hsame.trans herrors⟩
        . exact fun _ _ => id)
      (by
        rintro rest tally deck' target ⟨hmoved, herrors⟩
        apply (replenish_unmoved _ target deck').mono
        . rintro _ deck'' ⟨⟨hwaiting, hreceipts⟩, hsame⟩
          rw [hlane] at hwaiting
          refine ⟨hmoved.imp (·.of_receipts hreceipts) ?_, hsame.trans herrors⟩
          rintro ⟨hnone, -, -⟩
          exact ⟨hnone, hwaiting, rfl⟩
        . rintro _ deck'' ⟨hunmoved, hsame⟩
          refine ⟨hmoved.imp (·.of_receipts hunmoved.receipts) ?_, hsame.trans herrors⟩
          rintro ⟨hnone, hrest, hwaiting⟩
          obtain ⟨random, hjukebox⟩ := hunmoved.jukebox
          rw [hjukebox]
          exact ⟨hnone, hwaiting ▸ hrest, rfl⟩)
      deck.jukebox.waiting {} deck ⟨.inr ⟨rfl, h, rfl⟩, rfl⟩
  rw [deliver_ends, hlane]
  apply hhanded.mono
  . rintro tally deck' ⟨left, ⟨hmoved, herrors⟩, hend⟩
    have hmoved : Moved deck' := by
      obtain hmoved | ⟨hnone, hleft, -⟩ := hmoved
      . exact hmoved
      . obtain hempty | henough := hend
        . contradiction
        . omega
    unfold Settles
    split
    . cases tally.lastError <;> exact ⟨hmoved, herrors⟩
    . obtain ⟨receipt, hreceipt, hadd⟩ := hmoved
      apply ends_filed.mpr
      apply Play.ends_of_forall
      . intro _ _
        refine ⟨⟨receipt, List.mem_append_left _ hreceipt, hadd⟩, ?_⟩
        simpa [Deck.errors] using herrors
      . exact fun _ _ => ⟨⟨receipt, List.mem_append_left _ hreceipt, hadd⟩, herrors⟩
  . exact fun _ _ => False.elim

theorem fillOnce_moved (deck : Deck (s × List (Receipt s)))
    : booth.recorded.fillOnce.Ends deck
        (fun _ deck' => (Unmoved deck deck' ∨ Moved deck') ∧ deck'.errors = deck.errors)
        (fun _ deck' => (Unmoved deck deck' ∨ Moved deck') ∧ deck'.errors = deck.errors) := by
  have hstatus (state : s) : Unmoved deck { deck with device := (state, deck.device.2) } :=
    ⟨rfl, deck.jukebox.random, rfl⟩
  rw [fillOnce_ends]
  apply (Play.ends_onFst (x := booth.player.status)).mpr
  apply Play.ends_of_forall
  . intro status state
    refine ⟨fun _ => ⟨.inl ⟨rfl, deck.jukebox.random, rfl⟩, rfl⟩, fun _ => ⟨.inl (hstatus state), rfl⟩,
      fun needed hneeded => ?_⟩
    have hpos := JukeboxSettings.needed_pos hneeded
    have hdelivered (deck' : Deck (s × List (Receipt s))) (hwaiting : deck'.jukebox.waiting ≠ [])
        (herrors : deck'.errors = deck.errors)
        : (booth.recorded.deliver deck.jukebox.plan needed).Ends deck'
            (fun _ deck' => (Unmoved deck deck' ∨ Moved deck') ∧ deck'.errors = deck.errors)
            (fun _ deck' => (Unmoved deck deck' ∨ Moved deck') ∧ deck'.errors = deck.errors) := by
      apply (deliver_moved rfl hpos deck' hwaiting).imp
      rintro deck'' ⟨hmoved, hsame⟩
      exact ⟨.inr hmoved, hsame.trans herrors⟩
    refine ⟨fun _ => ?_, fun hplenty => ?_⟩
    . apply (replenish_unmoved needed _ _).mono
      . rintro _ deck' ⟨⟨hwaiting, -⟩, herrors⟩
        exact hdelivered deck' hwaiting herrors
      . rintro _ deck' ⟨hunmoved, herrors⟩
        exact ⟨.inl ((hstatus state).trans hunmoved), herrors⟩
    . refine hdelivered _ (fun hnone => hplenty ?_) rfl
      dsimp only at hnone
      rwa [hnone]
  . exact fun _ state => ⟨.inl (hstatus state), rfl⟩

def FailsTwice (booth : Booth s) (deck : Deck s) : Prop :=
  deck.jukebox.settings.mode ≠ .off
    ∧ ∃ e middle e' last, booth.fillOnce deck = .error e middle ∧ booth.fillOnce middle = .error e' last

theorem keepFilled_moved (booth : Booth s) (deck : Deck (s × List (Receipt s)))
    : booth.recorded.keepFilled.Ends deck
        (fun _ deck' => (Unmoved deck deck' ∨ Moved deck') ∧ deck'.errors = deck.errors)
        (fun _ deck' => (Unmoved deck deck' ∨ Moved deck') ∧ deck'.errors = deck.errors + 1) := by
  have hsecond {middle deck' : Deck (s × List (Receipt s))} (hfirst : Unmoved deck middle ∨ Moved middle)
      (h : Unmoved middle deck' ∨ Moved deck') : Unmoved deck deck' ∨ Moved deck' := by
    obtain hunmoved | hmoved := h
    . exact hfirst.imp (·.trans hunmoved) (·.of_receipts hunmoved.receipts)
    . exact .inr hmoved
  rw [keepFilled_ends]
  refine ⟨fun _ => ⟨.inl ⟨rfl, deck.jukebox.random, rfl⟩, rfl⟩, fun _ => ?_⟩
  apply (fillOnce_moved deck).mono
  . exact fun _ _ => id
  . rintro _ middle ⟨hfirst, herrors⟩
    apply (fillOnce_moved middle).mono
    . rintro _ deck' ⟨h, hsame⟩
      exact ⟨hsecond hfirst h, hsame.trans herrors⟩
    . rintro _ deck' ⟨h, hsame⟩
      refine ⟨(hsecond hfirst h).imp (fun hunmoved => ⟨hunmoved.receipts, hunmoved.jukebox⟩) id, ?_⟩
      rw [← herrors, ← hsame]
      simp [Deck.errors]

theorem keepFilled_failsTwice (booth : Booth s) (deck : Deck s)
    : booth.keepFilled.Ends deck (fun _ _ => ¬booth.FailsTwice deck) (fun _ _ => booth.FailsTwice deck) := by
  rw [keepFilled_ends]
  refine ⟨fun hoff hfails => hfails.1 hoff, fun hmode => ?_⟩
  apply (Play.ends_self booth.fillOnce deck).mono
  . rintro added deck' hfirst ⟨-, e, middle, -, -, hfailed, -⟩
    rw [hfirst] at hfailed
    contradiction
  . intro e middle hfirst
    apply (Play.ends_self booth.fillOnce middle).mono
    . rintro added deck' hsecond ⟨-, _, _, e', last, hfailed, hfailed'⟩
      rw [hfirst] at hfailed
      cases hfailed
      rw [hsecond] at hfailed'
      contradiction
    . intro e' last hsecond
      exact ⟨hmode, e, middle, e', last, hfirst, hsecond⟩

theorem keepFilled_idle (booth : Booth s) (deck : Deck s)
    : ((∀ receipt ∈ booth.ledger deck, receipt.order.isAdd = false)
        → booth.ledger deck = []
          ∧ ∃ random, (booth.keepFilled.after deck).jukebox = { deck.jukebox with random })
      ∧ booth.keepFilled.Ends deck
          (fun _ deck' => ¬booth.FailsTwice deck ∧ deck'.errors = deck.errors)
          (fun _ deck' => booth.FailsTwice deck ∧ deck'.errors = deck.errors + 1) := by
  have hrun := keepFilled_moved booth deck.recorded
  refine ⟨fun hnone => ?_, (keepFilled_failsTwice booth deck).and ?_⟩
  . have hmoved : Unmoved deck.recorded (booth.recorded.keepFilled.after deck.recorded)
        ∨ Moved (booth.recorded.keepFilled.after deck.recorded) :=
      Play.ends_after.mp (hrun.mono (fun _ _ => And.left) (fun _ _ => And.left))
    obtain ⟨hreceipts, hjukebox⟩ | ⟨receipt, hreceipt, hadd⟩ := hmoved
    . have hafter := booth.keepFilled_mirrors.after_eq deck.recorded
      rw [Deck.forget_recorded] at hafter
      rw [hafter]
      exact ⟨hreceipts, hjukebox⟩
    . rw [hnone receipt hreceipt] at hadd
      contradiction
  . apply (booth.keepFilled_mirrors.ends_iff deck.recorded).mpr
    exact hrun.mono (fun _ _ => And.right) (fun _ _ => And.right)

end Booth

namespace Jukebox

def stranded : Deck Rehearsal.ScriptedPlayer :=
  { device := { failures := [(.libraryPage, 0), (.libraryPage, 1)] }
    jukebox :=
      { Jukebox.create "default" { mode := .addTracks } { word := fun _ => 0 } with
        waiting := [{ pick := .track "a.flac" none, drawnAt := 1 }] } }

theorem stranded_idle
    : rehearsalBooth.ledger stranded = []
      ∧ (rehearsalBooth.keepFilled.after stranded).jukebox.waiting = stranded.jukebox.waiting
      ∧ rehearsalBooth.FailsTwice stranded
      ∧ (rehearsalBooth.keepFilled.after stranded).errors = 1 := by
  obtain ⟨hidle, hends⟩ := rehearsalBooth.keepFilled_idle stranded
  have hnone : ∀ receipt ∈ rehearsalBooth.ledger stranded, receipt.order.isAdd = false := by
    decide +kernel
  obtain ⟨hledger, random, hjukebox⟩ := hidle hnone
  have hfails : rehearsalBooth.keepFilled.Ends stranded (fun _ _ => False) (fun _ _ => True) := by
    decide +kernel
  have htold
      : rehearsalBooth.keepFilled.Ends stranded
          (fun _ deck => rehearsalBooth.FailsTwice stranded ∧ deck.errors = 1)
          (fun _ deck => rehearsalBooth.FailsTwice stranded ∧ deck.errors = 1) :=
    (hfails.and hends).mono (fun _ _ h => h.1.elim) (fun _ _ h => h.2)
  refine ⟨hledger, ?_, Play.ends_after.mp htold⟩
  rw [hjukebox]

end Jukebox

end AutoDJ
