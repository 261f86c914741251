import AutoDJ.Proofs.Jukebox.Fill
import AutoDJ.Proofs.Jukebox.Receipts
import AutoDJ.Proofs.Jukebox.Replenish
import AutoDJ.Rehearsal.Jukebox

namespace AutoDJ

variable {s : Type}

namespace Deck

def acceptedAdds (deck : Deck (s × List (Receipt s))) : Nat :=
  deck.device.2.countP Receipt.isAcceptedAdd

def refusedPlays (deck : Deck (s × List (Receipt s))) : Nat :=
  deck.device.2.countP Receipt.isRefusedPlay

end Deck

namespace Booth

variable (booth : Booth s)

theorem recorded_draws (receipts : List (Receipt s))
    : booth.recorded.Draws (fun state => state.2 = receipts) (fun _ state => state.2 = receipts) := by
  have honFst {α : Type} (x : Play s α) (state : s × List (Receipt s)) (h : state.2 = receipts)
      : x.onFst.Ends state (fun _ state => state.2 = receipts) (fun _ state => state.2 = receipts) := by
    rw [Play.ends_onFst]
    exact Play.ends_of_forall (fun _ _ => h) (fun _ _ => h)
  constructor
  . exact honFst _
  . intro _ since
    exact honFst _
  . intro _ source offset limit
    cases source with
    | database => exact honFst _
    | playlist name => exact honFst _
  . intro _ _ h
    exact h

structure Books (deck : Deck (s × List (Receipt s))) (added : Nat)
    (deck' : Deck (s × List (Receipt s))) : Prop where
  accepted : deck'.acceptedAdds = deck.acceptedAdds + added
  refused : deck'.refusedPlays = deck.refusedPlays
  updates : deck'.updates = deck.updates

variable {booth}

theorem Books.refl (deck : Deck (s × List (Receipt s))) : Books deck 0 deck :=
  ⟨rfl, rfl, rfl⟩

theorem replenish_books {plan : FillPlan} (hlane : plan.lane = .waiting) (needed target : Nat)
    {deck deck' : Deck (s × List (Receipt s))} {added : Nat} (h : Books deck added deck')
    : (booth.recorded.replenish plan needed target).Ends deck' (fun _ => Books deck added)
        (fun _ => Books deck added) := by
  have hstocked := replenish_ends (booth.recorded_draws deck'.device.2) hlane needed target deck' rfl
  apply hstocked.imp
  intro deck'' hstocked
  refine ⟨?_, ?_, hstocked.updates.trans h.updates⟩
  . rw [← h.accepted, Deck.acceptedAdds, hstocked.device, Deck.acceptedAdds]
  . rw [← h.refused, Deck.refusedPlays, hstocked.device, Deck.refusedPlays]

theorem Books.file {deck deck' : Deck (s × List (Receipt s))} {added : Nat} (h : Books deck added deck')
    (after : s) (receipt : Receipt s) (hadd : receipt.order.isAdd = true)
    : Books deck (added + if receipt.accepted then 1 else 0)
        { deck' with device := (after, deck'.device.2 ++ [receipt]) } := by
  obtain ⟨haccepted, hrefused, hupdates⟩ := h
  refine ⟨?_, ?_, hupdates⟩
  . simp only [Deck.acceptedAdds] at *
    rw [List.countP_append, haccepted, List.countP_singleton, Receipt.isAcceptedAdd, hadd]
    simp only [Bool.true_and]
    omega
  . simp only [Deck.refusedPlays] at *
    rw [List.countP_append, hrefused, List.countP_singleton, Receipt.isRefusedPlay, hadd]
    simp

theorem hand_books (c : Candidate) (tally : Tally) {deck deck' : Deck (s × List (Receipt s))}
    (h : Books deck tally.added deck')
    : (booth.recorded.hand c tally).Ends deck' (fun tally => Books deck tally.added)
        (fun _ _ => False) := by
  rw [hand_ends]
  have hfiled (order : Order) (hadd : order.isAdd = true) (x : Play s Unit)
      : (filed order x).Ends deck'.device
          (fun _ device => Books deck (tally.added + 1) { deck' with device })
          (fun _ device => Books deck tally.added { deck' with device }) := by
    rw [ends_filed]
    apply Play.ends_of_forall
    . intro _ after
      exact h.file after { order, before := deck'.device.1, accepted := true } hadd
    . intro _ after
      exact h.file after { order, before := deck'.device.1, accepted := false } hadd
  cases c.pick with
  | track uri tagValue => exact hfiled (.addTrack uri) rfl _
  | album key => exact hfiled (.addAlbum key.album key.albumArtist) rfl _

structure Settled (deck : Deck (s × List (Receipt s))) (added : Nat)
    (deck' : Deck (s × List (Receipt s))) : Prop where
  accepted : deck'.acceptedAdds = deck.acceptedAdds + added
  refused : deck'.refusedPlays = deck.refusedPlays
  updates : deck'.updates = deck.updates + if added = 0 then 0 else 1

structure Failed (deck deck' : Deck (s × List (Receipt s))) : Prop where
  updates : deck'.updates = deck.updates
  accepted : Books deck 0 deck'
    ∨ deck.acceptedAdds < deck'.acceptedAdds ∧ deck.refusedPlays < deck'.refusedPlays

theorem handOverWaiting_books {plan : FillPlan} (hlane : plan.lane = .waiting) (count : Nat)
    (cs : List Candidate) {deck deck' : Deck (s × List (Receipt s))} (h : Books deck 0 deck')
    : (booth.recorded.handOverWaiting plan count cs {}).Ends deck'
        (fun tally => Books deck tally.added) (fun _ _ => False) := by
  have hhanded :=
    handOverWaiting_ends booth.recorded plan count
      (J := fun _ tally => Books deck tally.added)
      (fun c _ tally _ _ h => hand_books c tally ⟨h.accepted, h.refused, h.updates⟩)
      (fun _ _ _ target h => replenish_books hlane _ target h) cs {} deck' h
  apply hhanded.mono
  . rintro tally deck'' ⟨-, hbooks, -⟩
    exact hbooks
  . intro _ _ hfalse
    exact hfalse

theorem deliver_books {plan : FillPlan} (hlane : plan.lane = .waiting) (count : Nat)
    {deck deck' : Deck (s × List (Receipt s))} (h : Books deck 0 deck')
    : (booth.recorded.deliver plan count).Ends deck' (Settled deck) (fun _ => Failed deck) := by
  rw [deliver_ends, hlane]
  apply (handOverWaiting_books hlane count _ h).mono
  . intro tally deck'' hbooks
    unfold Settles
    split
    . next hnone =>
      rw [hnone] at hbooks
      cases tally.lastError with
      | some e => exact ⟨hbooks.updates, .inl hbooks⟩
      | none => exact ⟨hbooks.accepted, hbooks.refused, hbooks.updates⟩
    . next hsome =>
      obtain ⟨haccepted, hrefused, hupdates⟩ := hbooks
      apply ends_filed.mpr
      apply Play.ends_of_forall
      . intro _ after
        refine ⟨?_, ?_, ?_⟩
        . simpa [Deck.acceptedAdds, Receipt.isAcceptedAdd, Order.isAdd] using haccepted
        . simpa [Deck.refusedPlays, Receipt.isRefusedPlay, Order.isAdd] using hrefused
        . rw [if_neg hsome]
          simpa [Deck.updates] using hupdates
      . intro _ after
        refine ⟨hupdates, .inr ⟨?_, ?_⟩⟩
        . have : 0 < tally.added := by omega
          simp only [Deck.acceptedAdds] at *
          rw [List.countP_append]
          omega
        . simp [Deck.refusedPlays, Receipt.isRefusedPlay, Order.isAdd] at *
          omega
  . intro _ _ hfalse
    exact hfalse.elim

theorem fillOnce_books (deck : Deck (s × List (Receipt s)))
    : booth.recorded.fillOnce.Ends deck (Settled deck) (fun _ => Failed deck) := by
  rw [fillOnce_ends]
  apply (Play.ends_onFst (x := booth.player.status)).mpr
  apply Play.ends_of_forall
  . intro status state
    have hbooks : Books deck 0 { deck with device := (state, deck.device.2) } := ⟨rfl, rfl, rfl⟩
    refine ⟨fun _ => ⟨rfl, rfl, rfl⟩, fun _ => ⟨rfl, rfl, rfl⟩,
      fun needed _ => ⟨fun _ => ?_, fun _ => deliver_books rfl _ hbooks⟩⟩
    apply (replenish_books rfl _ _ hbooks).mono
    . intro _ _ h
      exact deliver_books rfl _ h
    . intro _ _ h
      exact ⟨h.updates, .inl h⟩
  . intro _ state
    exact ⟨rfl, .inl ⟨rfl, rfl, rfl⟩⟩

theorem keepFilled_books (booth : Booth s) (deck : Deck (s × List (Receipt s)))
    : booth.recorded.keepFilled.Ends deck
        (fun added deck' => Settled deck added deck'
          ∨ ∃ middle, Failed deck middle ∧ Settled middle added deck')
        (fun _ deck' => ∃ middle, Failed deck middle ∧ Failed middle deck') := by
  rw [keepFilled_ends]
  refine ⟨fun _ => .inl ⟨rfl, rfl, rfl⟩, fun _ => ?_⟩
  apply (fillOnce_books deck).mono
  . intro added deck' h
    exact .inl h
  . intro _ middle hfirst
    apply (fillOnce_books middle).mono
    . intro added deck' h
      exact .inr ⟨middle, hfirst, h⟩
    . rintro e deck' ⟨hupdates, haccepted⟩
      refine ⟨middle, hfirst, ?_, ?_⟩
      . simpa [Deck.updates] using hupdates
      . obtain h | h := haccepted
        . refine .inl ⟨h.accepted, h.refused, ?_⟩
          simpa [Deck.updates] using h.updates
        . exact .inr h

/--
What a fill tells is the truth: the number it gives is that of the additions the player has accepted,
and it announces an addition if and only if there has been one.
-/
structure Truthful (booth : Booth s) (deck : Deck s) : Prop where
  count : ∀ added deck', booth.keepFilled deck = .ok added deck'
    → (booth.ledger deck).countP Receipt.isAcceptedAdd = added
  announcement : deck.updates < (booth.keepFilled.after deck).updates
    ↔ ∃ receipt ∈ booth.ledger deck, receipt.isAcceptedAdd = true

theorem exists_acceptedAdd_iff {receipts : List (Receipt s)}
    : (∃ receipt ∈ receipts, receipt.isAcceptedAdd = true)
        ↔ 0 < receipts.countP Receipt.isAcceptedAdd :=
  List.countP_pos_iff.symm

theorem no_refusedPlay_iff {receipts : List (Receipt s)}
    : (∀ receipt ∈ receipts, receipt.order = .play → receipt.accepted = true)
        ↔ receipts.countP Receipt.isRefusedPlay = 0 := by
  rw [List.countP_eq_zero]
  apply forall₂_congr
  intro receipt _
  cases h : receipt.order <;> simp [Receipt.isRefusedPlay, Order.isAdd, h]

theorem truthful_of_ok_iff {booth : Booth s} {deck : Deck s} {added : Nat}
    {deck' : Deck (s × List (Receipt s))}
    (hrun : booth.recorded.keepFilled deck.recorded = .ok added deck')
    : booth.Truthful deck
        ↔ deck'.acceptedAdds = added ∧ (deck.updates < deck'.updates ↔ 0 < deck'.acceptedAdds) := by
  have hplain : booth.keepFilled deck = .ok added deck'.forget := booth.keepFilled_mirrors.eq_ok hrun
  have hledger : booth.ledger deck = deck'.device.2 := by
    rw [ledger, Play.after_eq_of_ok hrun]
  constructor
  . rintro ⟨hcount, hannounce⟩
    rw [Play.after_eq_of_ok hplain, exists_acceptedAdd_iff, hledger] at hannounce
    have hadded := hcount added _ hplain
    rw [hledger] at hadded
    exact ⟨hadded, hannounce⟩
  . rintro ⟨hcount, hannounce⟩
    constructor
    . intro added' deck'' hok
      rw [hplain] at hok
      cases hok
      rw [hledger]
      exact hcount
    . rw [Play.after_eq_of_ok hplain, exists_acceptedAdd_iff, hledger]
      exact hannounce

theorem truthful_of_error_iff {booth : Booth s} {deck : Deck s} {e : Error}
    {deck' : Deck (s × List (Receipt s))}
    (hrun : booth.recorded.keepFilled deck.recorded = .error e deck')
    : booth.Truthful deck ↔ (deck.updates < deck'.updates ↔ 0 < deck'.acceptedAdds) := by
  have hplain : booth.keepFilled deck = .error e deck'.forget :=
    booth.keepFilled_mirrors.eq_error hrun
  have hledger : booth.ledger deck = deck'.device.2 := by
    rw [ledger, Play.after_eq_of_error hrun]
  constructor
  . rintro ⟨-, hannounce⟩
    rw [Play.after_eq_of_error hplain, exists_acceptedAdd_iff, hledger] at hannounce
    exact hannounce
  . intro hannounce
    constructor
    . intro added deck'' hok
      rw [hplain] at hok
      contradiction
    . rw [Play.after_eq_of_error hplain, exists_acceptedAdd_iff, hledger]
      exact hannounce

theorem truthful_iff (booth : Booth s) (deck : Deck s)
    : booth.Truthful deck
        ↔ ∀ receipt ∈ booth.ledger deck, receipt.order = .play → receipt.accepted = true := by
  have hbooks := keepFilled_books booth deck.recorded
  have hstart : deck.recorded.acceptedAdds = 0 ∧ deck.recorded.refusedPlays = 0
      ∧ deck.recorded.updates = deck.updates := ⟨rfl, rfl, rfl⟩
  rw [no_refusedPlay_iff]
  cases hrun : booth.recorded.keepFilled deck.recorded with
  | ok added deck' =>
    have hledger : (booth.ledger deck).countP Receipt.isRefusedPlay = deck'.refusedPlays := by
      rw [ledger, Play.after_eq_of_ok hrun, Deck.refusedPlays]
    rw [truthful_of_ok_iff hrun, hledger]
    obtain ⟨haccepted, hrefused, hupdates⟩
        | ⟨middle, ⟨hmiddle, hfirst⟩, haccepted, hrefused, hupdates⟩ := hbooks.of_ok hrun
    . split at hupdates <;> omega
    . -- what the first attempt has added is missing from the number told by the second
      obtain ⟨hnone, hkept, -⟩ | hfirst := hfirst
      . split at hupdates <;> omega
      . split at hupdates <;> omega
  | error e deck' =>
    have hledger : (booth.ledger deck).countP Receipt.isRefusedPlay = deck'.refusedPlays := by
      rw [ledger, Play.after_eq_of_error hrun, Deck.refusedPlays]
    rw [truthful_of_error_iff hrun, hledger]
    -- a failed attempt announces nothing, whatever it has added
    obtain ⟨middle, ⟨hmiddle, hfirst⟩, hlast, hsecond⟩ := hbooks.of_error hrun
    obtain ⟨hnone, hkept, -⟩ | hfirst := hfirst
    . obtain ⟨hnone', hkept', -⟩ | hsecond := hsecond <;> omega
    . obtain ⟨hnone', hkept', -⟩ | hsecond := hsecond <;> omega

def stumbling : Rehearsal.JukeboxRig :=
  .create
    { library := [{ uri := "a.flac" }, { uri := "b.flac" }, { uri := "c.flac" }]
      failures := [(.play, 0)] }
    {} (.create "default" { mode := .addTracks } { word := fun _ => 0 }) .create "history" 1000

theorem stumbling_tells_nothing
    : (stumbling.booth 0).keepFilled.Ends stumbling.deck (fun added _ => added = 0)
        (fun _ _ => False) := by
  decide +kernel

theorem stumbling_not_truthful : ¬(stumbling.booth 0).Truthful stumbling.deck := by
  intro htruthful
  have haccepted : ((stumbling.booth 0).ledger stumbling.deck).countP Receipt.isAcceptedAdd = 2 := by
    decide +kernel
  cases hrun : (stumbling.booth 0).keepFilled stumbling.deck with
  | ok added deck' =>
    have hcount := htruthful.count added deck' hrun
    have hadded := stumbling_tells_nothing.of_ok hrun
    omega
  | error e deck' => exact stumbling_tells_nothing.of_error hrun

end Booth

end AutoDJ
