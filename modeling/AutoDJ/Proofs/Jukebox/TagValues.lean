import AutoDJ.Proofs.Jukebox.Apart
import AutoDJ.Proofs.Jukebox.Enforcement
import AutoDJ.Proofs.Jukebox.Offers

/-!
This module contains what is known of the values, among the tracks accepted in one attempt, of the tag by
which tracks are kept apart. Candidates that are drawn in the middle of an attempt are compared with those
still waiting, but not with those already handed over.
-/

namespace AutoDJ

variable {s : Type}

namespace Booth

variable (booth : Booth s) {plan : FillPlan}

theorem replenish_appends (hlane : plan.lane = .waiting) (henforce : plan.enforce = true)
    (needed target : Nat) (deck : Deck s)
    (h : (deck.jukebox.waiting.filterMap Candidate.tagValue?).Nodup)
    : (booth.replenish plan needed target).Ends deck
        (fun _ deck' => (deck.jukebox.waiting <+: deck'.jukebox.waiting
            ∧ (deck'.jukebox.waiting.filterMap Candidate.tagValue?).Nodup)
          ∧ (deck'.jukebox.enforcing = true → needed ≤ deck'.jukebox.waiting.length))
        (fun _ deck' => deck.jukebox.waiting <+: deck'.jukebox.waiting
          ∧ (deck'.jukebox.waiting.filterMap Candidate.tagValue?).Nodup) := by
  rw [ends_replenish, hlane]
  apply Play.ends_of_forall
  . intro recent device
    have hpending : (booth.exclusions plan deck.jukebox recent).pending = deck.jukebox.waiting := by
      rw [exclusions, hlane]
      rfl
    have hrules : (booth.exclusions plan deck.jukebox recent).Separates Candidate.tagValue? :=
      Exclusions.separates_tagValue henforce
    apply ((draw_apart hrules (hpending ▸ h) plan.albums _ _).and
      (draw_changes booth plan.albums _ _ _)).mono
    . rintro drawn _ ⟨hdrawn, device, random, rfl⟩
      rw [hpending] at hdrawn
      have hstocked : deck.jukebox.waiting <+: deck.jukebox.waiting ++ drawn := List.prefix_append _ _
      refine ⟨fun _ => ⟨hstocked, hdrawn⟩, fun _ => ⟨fun _ => ?_, fun hnot => ?_⟩⟩
      . rw [ends_relax_waiting]
        refine ⟨fun _ => ⟨⟨hstocked, hdrawn⟩, fun hon => ?_⟩,
          fun hoff => ⟨⟨hstocked, hdrawn⟩, fun hon => absurd hon hoff⟩⟩
        contradiction
      . exact ⟨⟨hstocked, hdrawn⟩, fun _ => Nat.not_lt.mp fun hshort => hnot ⟨hshort, henforce⟩⟩
    . rintro _ _ ⟨-, device, random, rfl⟩
      exact ⟨List.prefix_rfl, h⟩
  . exact fun _ _ => ⟨List.prefix_rfl, h⟩

namespace Noted

theorem hand_ends (late : Bool) (c : Candidate) (tally : Tally) (deck : Deck s) (offers : List Offer)
    : (hand booth offerList late c tally).Ends (deck, offers)
        (fun after state => ∃ offer, state.2 = offers ++ [offer] ∧ offer.candidate = c
          ∧ offer.late = late ∧ after.added = tally.added + offer.accepted.toNat
          ∧ state.1.jukebox = deck.jukebox)
        (fun _ _ => False) := by
  unfold hand
  rw [Play.ends_bind, Play.ends_onFst, Booth.hand_ends]
  apply Play.ends_of_forall
  . intro _ device
    exact ⟨_, rfl, rfl, rfl, by simp, rfl⟩
  . intro e device
    exact ⟨_, rfl, rfl, rfl, by simp, rfl⟩

theorem handOver_offers (late : Bool) (lane : Lane) (count : Nat) (cs : List Candidate) (tally : Tally)
    (state : Deck s × List Offer)
    : (handOver booth offerList late lane count cs tally).Ends state
        (fun tally' after => ∃ offers, after.2 = state.2 ++ offers
          ∧ Offered late cs (count - tally.added) offers
          ∧ tally'.added = tally.added + offers.countP Offer.accepted)
        (fun _ _ => False) := by
  induction cs generalizing tally state with
  | nil => exact ⟨[], by simp, .nil, rfl⟩
  | cons c rest ih =>
    unfold handOver
    rw [Play.ends_ite]
    refine ⟨fun _ => ⟨[], by simp, .nil, rfl⟩, fun hmissing => ?_⟩
    rw [Play.ends_bind, Play.ends_onFst, Deck.ends_modifyJukebox, Play.ends_bind]
    apply (hand_ends booth late c tally _ state.2).mono
    . rintro after ⟨deck, _⟩ ⟨offer, rfl, rfl, hlate, hadded, -⟩
      apply (ih after _).mono
      . rintro tally' last ⟨offers, hlast, hoffers, hcount⟩
        refine ⟨offer :: offers, by simp [hlast], hoffers.cons hlate fun haccepted => ?_, ?_⟩
        . rw [haccepted, Bool.toNat_true] at hadded
          omega
        . rw [Offer.countP_accepted_cons, hcount, hadded, Nat.add_assoc]
      . exact fun _ _ => id
    . exact fun _ _ => False.elim

def Finishes (cs : List Candidate) (count : Nat) (tally : Tally) (offers : List Offer) (tally' : Tally)
    (state : Deck s × List Offer) : Prop :=
  ∃ early later, state.2 = offers ++ (early ++ later) ∧ Round cs (count - tally.added) early later
    ∧ tally'.added = tally.added + (early ++ later).countP Offer.accepted

theorem Finishes.start {cs : List Candidate} {count : Nat} {tally : Tally} {state : Deck s × List Offer}
    : Finishes cs count tally state.2 tally state :=
  ⟨[], [], by simp, .nil, rfl⟩

theorem Finishes.cons {rest : List Candidate} {count : Nat} {tally after tally' : Tally} {offer : Offer}
    {offers : List Offer} {state : Deck s × List Offer}
    (h : Finishes rest count after (offers ++ [offer]) tally' state) (hlate : offer.late = false)
    (hmissing : tally.added < count) (hadded : after.added = tally.added + offer.accepted.toNat)
    : Finishes (offer.candidate :: rest) count tally offers tally' state := by
  obtain ⟨early, later, hoffers, hround, hcount⟩ := h
  refine ⟨offer :: early, later, by simp [hoffers], hround.cons hlate fun haccepted => ?_, ?_⟩
  . rw [haccepted, Bool.toNat_true] at hadded
    omega
  . rw [List.cons_append, Offer.countP_accepted_cons, hcount, hadded, Nat.add_assoc]

theorem handOver_finishes {rest : List Candidate} (count : Nat) (tally : Tally) (deck : Deck s)
    (offers : List Offer) (hfront : rest <+: deck.jukebox.waiting)
    (hwaiting : (deck.jukebox.waiting.filterMap Candidate.tagValue?).Nodup)
    : (handOver booth offerList true .waiting count deck.jukebox.waiting tally).Ends (deck, offers)
        (Finishes rest count tally offers) (fun _ _ => False) := by
  apply (handOver_offers booth true .waiting count _ tally _).mono
  . rintro _ after ⟨later, hafter, hlater, hcount⟩
    -- what waits after the refill takes the place of what was left before it
    exact ⟨[], later, hafter, .refilled hfront hwaiting hlater, hcount⟩
  . exact fun _ _ => id

theorem handOverWaiting_finishes (hlane : plan.lane = .waiting) (henforce : plan.enforce = true)
    (count : Nat) (cs : List Candidate) (tally : Tally) (state : Deck s × List Offer)
    (h : (cs.filterMap Candidate.tagValue?).Nodup)
    : (handOverWaiting booth offerList plan count cs tally).Ends state (Finishes cs count tally state.2)
        (fun _ _ => False) := by
  induction cs generalizing tally state with
  | nil => exact .start
  | cons c rest ih =>
    have hrest : (rest.filterMap Candidate.tagValue?).Nodup :=
      h.sublist ((List.sublist_cons_self c rest).filterMap _)
    unfold handOverWaiting
    rw [Play.ends_ite]
    refine ⟨fun _ => .start, fun henough => ?_⟩
    have hmissing := Nat.not_le.mp henough
    rw [Play.ends_bind, Play.ends_onFst, Deck.ends_modifyJukebox, Play.ends_bind]
    apply (hand_ends booth false c tally _ state.2).mono
    . rintro after ⟨deck, _⟩ ⟨offer, rfl, rfl, hlate, hadded, hjukebox⟩
      have hrefilled (deck' : Deck s) (hfront : rest <+: deck'.jukebox.waiting)
          (hwaiting : (deck'.jukebox.waiting.filterMap Candidate.tagValue?).Nodup)
          : (handOver booth offerList true .waiting count deck'.jukebox.waiting after).Ends
              (deck', state.2 ++ [offer]) (Finishes (offer.candidate :: rest) count tally state.2)
              (fun _ _ => False) :=
        (handOver_finishes booth count after deck' _ hfront hwaiting).mono
          (fun _ _ hrest => hrest.cons hlate hmissing hadded) (fun _ _ => id)
      rw [Play.ends_ite]
      refine ⟨fun _ => ?_, fun _ => ?_⟩
      . have hwaiting : deck.jukebox.waiting = rest := congrArg Jukebox.waiting hjukebox
        rw [Play.ends_bind, Play.ends_outcome, replenish_eq_onFst booth offerList rfl,
          Play.ends_onFst]
        apply (replenish_appends booth hlane henforce (count - after.added) _ deck
          (hwaiting ▸ hrest)).mono
        . rintro _ deck' ⟨⟨hfront, hdistinct⟩, -⟩
          exact hrefilled deck' (hwaiting ▸ hfront) hdistinct
        . rintro _ deck' ⟨hfront, hdistinct⟩
          exact hrefilled deck' (hwaiting ▸ hfront) hdistinct
      . exact (ih after _ hrest).mono (fun _ _ hrest => hrest.cons hlate hmissing hadded) (fun _ _ => id)
    . exact fun _ _ => False.elim

def Attempted (state : Deck s × List Offer) : Prop :=
  ∃ cs missing early later, (cs.filterMap Candidate.tagValue?).Nodup ∧ state.2 = early ++ later
    ∧ Round cs missing early later ∧ (state.1.jukebox.enforcing = true → missing ≤ cs.length)

theorem Attempted.start (deck : Deck s) : Attempted (deck, []) :=
  ⟨[], 0, [], [], List.nodup_nil, rfl, .nil, fun _ => Nat.le_refl _⟩

theorem deliver_finishes (hlane : plan.lane = .waiting) (henforce : plan.enforce = true) (count : Nat)
    (deck : Deck s) (h : (deck.jukebox.waiting.filterMap Candidate.tagValue?).Nodup)
    : (deliver booth offerList plan count).Ends (deck, [])
        (fun added state => ∃ tally, Finishes deck.jukebox.waiting count {} [] tally state
          ∧ added = tally.added)
        (fun _ state => ∃ tally, Finishes deck.jukebox.waiting count {} [] tally state) := by
  unfold deliver
  rw [Play.ends_bind, Play.ends_get]
  dsimp only
  rw [hlane]
  dsimp only
  rw [Play.ends_bind]
  apply (handOverWaiting_finishes booth hlane henforce count _ {} (deck, []) h).mono
  . intro tally state hfinishes
    rw [Play.ends_ite]
    refine ⟨fun hnone => ?_, fun _ => ?_⟩
    . cases tally.lastError with
      | some e => exact ⟨tally, hfinishes⟩
      | none => exact ⟨tally, hfinishes, hnone.symm⟩
    . rw [Play.ends_bind, Play.ends_onFst, Deck.ends_onDevice]
      exact Play.ends_of_forall (fun _ _ => ⟨tally, hfinishes, rfl⟩) (fun _ _ => ⟨tally, hfinishes⟩)
  . exact fun _ _ => False.elim

theorem deliver_attempted (hlane : plan.lane = .waiting) (henforce : plan.enforce = true) (count : Nat)
    (deck : Deck s) (h : (deck.jukebox.waiting.filterMap Candidate.tagValue?).Nodup)
    (hcount : deck.jukebox.enforcing = true → count ≤ deck.jukebox.waiting.length)
    : (deliver booth offerList plan count).Ends (deck, [])
        (fun added state => Attempted state ∧ state.2.countP Offer.accepted = added)
        (fun _ => Attempted) := by
  have hloosens : (booth.deliver plan count).Keeps deck.Loosens :=
    deliver_keeps (hlane ▸ loosens_untouched deck) count
  have hkept := ((deliver_mirrors booth offerList plan count).ends_iff (deck, [])).mp
    (hloosens deck ⟨rfl, .inl ⟨rfl, rfl⟩⟩)
  have hattempted {tally : Tally} {state : Deck s × List Offer} (hloosens : deck.Loosens state.1)
      (hfinishes : Finishes deck.jukebox.waiting count {} [] tally state)
      : Attempted state ∧ state.2.countP Offer.accepted = tally.added := by
    obtain ⟨early, later, hoffers, hround, hadded⟩ := hfinishes
    rw [List.nil_append] at hoffers
    refine ⟨⟨_, count, early, later, h, hoffers, hround, fun hon => hcount ?_⟩, ?_⟩
    . obtain ⟨hsame, -⟩ | ⟨hbefore, -, -⟩ := hloosens.enforcing
      . exact hsame ▸ hon
      . exact hbefore
    . rw [hoffers, hadded, Nat.zero_add]
  apply ((deliver_finishes booth hlane henforce count deck h).and hkept).mono
  . rintro _ state ⟨⟨tally, hfinishes, rfl⟩, hloosens⟩
    exact hattempted hloosens hfinishes
  . rintro _ state ⟨⟨tally, hfinishes⟩, hloosens⟩
    exact (hattempted hloosens hfinishes).1

theorem fillOnce_attempted {deck : Deck s} (hon : deck.jukebox.enforcing = true)
    (h : (deck.jukebox.waiting.filterMap Candidate.tagValue?).Nodup)
    : (fillOnce booth offerList).Ends (deck, [])
        (fun added state => Attempted state ∧ state.2.countP Offer.accepted = added)
        (fun _ => Attempted) := by
  unfold fillOnce
  rw [Play.ends_bind, Play.ends_onFst, Deck.ends_onDevice]
  apply Play.ends_of_forall
  . intro status device
    rw [Play.ends_bind, Play.ends_get]
    dsimp only
    match deck.jukebox.settings.needed? status with
    | .error .overflow =>
      rw [Play.ends_bind, Play.ends_onFst, Deck.ends_noteOverflow]
      exact ⟨.start _, rfl⟩
    | .ok none => exact ⟨.start _, rfl⟩
    | .ok (some needed) =>
      dsimp only
      rw [Play.ends_ite]
      refine ⟨fun _ => ?_, fun hplenty => ?_⟩
      . rw [Play.ends_bind, replenish_eq_onFst booth offerList rfl, Play.ends_onFst]
        apply (replenish_appends booth rfl hon needed _ { deck with device } h).mono
        . rintro _ deck' ⟨⟨-, hdistinct⟩, henough⟩
          exact deliver_attempted booth rfl hon needed deck' hdistinct henough
        . exact fun _ _ _ => .start _
      . exact deliver_attempted booth rfl hon needed _ h fun _ => Nat.not_lt.mp hplenty
  . exact fun _ _ => .start _

end Noted

/--
What is known of the tag values of the tracks accepted in one attempt that starts with uniqueness enforced: two
of them are the same only if one of these tracks has been offered before the refill in the middle of the
attempt and the other one after it. That does not happen unless the player refuses a track or uniqueness is
given up. An attempt that succeeds tells how many tracks have been accepted.
-/
theorem values_distinct_iff {deck : Deck s} (hreached : deck.jukebox.Reached s)
    (hon : deck.jukebox.enforcing = true)
    : ((Offer.values (booth.offers deck)).Nodup
          ↔ (Offer.values (Offer.early (booth.offers deck))).Disjoint
              (Offer.values (Offer.later (booth.offers deck))))
      ∧ ((∀ offer ∈ booth.offers deck, offer.accepted = true)
        → (booth.fillOnce.after deck).jukebox.enforcing = true
        → (Offer.values (booth.offers deck)).Nodup)
      ∧ booth.fillOnce.Ends deck (fun added _ => (booth.offers deck).countP Offer.accepted = added)
          (fun _ _ => True) := by
  have hwaiting := hreached.apart (fun _ => Exclusions.separates_tagValue) hon
  have hattempt := Noted.fillOnce_attempted booth hon hwaiting
  have hmirrors := Noted.fillOnce_mirrors booth offerList
  have hafter : Noted.Attempted ((Noted.fillOnce booth offerList).after (deck, [])) :=
    Play.ends_after.mp (hattempt.mono (fun _ _ => And.left) (fun _ _ => id))
  obtain ⟨cs, missing, early, later, hcs, hoffers, hround, henough⟩ := hafter
  refine ⟨?_, fun hall hinsisting => ?_, ?_⟩
  . unfold offers
    rw [hoffers]
    exact hround.nodup_values_iff hcs
  . unfold offers at *
    rw [hoffers] at *
    refine hround.nodup_values hcs hall (henough ?_)
    rwa [← hmirrors.after_eq]
  . apply (hmirrors.ends_iff (deck, [])).mpr
    apply (hattempt.and (Play.ends_self _ _)).mono
    . rintro added state ⟨⟨-, hcount⟩, hrun⟩
      rw [offers, Play.after_eq_of_ok hrun]
      exact hcount
    . exact fun _ _ _ => trivial

end Booth

namespace Jukebox

def duotone : Deck Rehearsal.ScriptedPlayer :=
  let songs := [("b.flac", "Rock"), ("a.flac", "Jazz"), ("c.flac", "Jazz")]
  { device := { library := songs.map fun (uri, genre) => { uri, genre := some genre } }
    jukebox :=
      .create "default" { mode := .addTracks, uniqueTag := some .genre } { word := fun _ => 0 } }

theorem duotone_reached : duotone.jukebox.Reached Rehearsal.ScriptedPlayer :=
  ⟨"default", _, _, duotone.device, [], rfl⟩

theorem duotone_values_distinct
    : (rehearsalBooth.fillOnce.after duotone).device.queue = ["a.flac", "b.flac"]
      ∧ (Offer.values (rehearsalBooth.offers duotone)).Nodup
      ∧ (Offer.values (Offer.early (rehearsalBooth.offers duotone))).Disjoint
          (Offer.values (Offer.later (rehearsalBooth.offers duotone))) := by
  obtain ⟨hiff, hsmooth, -⟩ := rehearsalBooth.values_distinct_iff duotone_reached rfl
  have hdistinct : (Offer.values (rehearsalBooth.offers duotone)).Nodup := by
    apply hsmooth
    . decide +kernel
    . decide +kernel
  exact ⟨by decide +kernel, hdistinct, hiff.mp hdistinct⟩

def rebuffed : Deck Rehearsal.ScriptedPlayer :=
  { duotone with device.reject := ["b.flac"] }

theorem rebuffed_values_repeat
    : rebuffed.jukebox.Reached Rehearsal.ScriptedPlayer ∧ rebuffed.jukebox.enforcing = true
      ∧ (rehearsalBooth.fillOnce.after rebuffed).jukebox.enforcing = true
      ∧ (rehearsalBooth.fillOnce.after rebuffed).device.queue = ["a.flac", "c.flac"]
      ∧ ¬(Offer.values (rehearsalBooth.offers rebuffed)).Nodup := by
  refine ⟨duotone_reached, rfl, ?_, ?_, ?_⟩ <;> decide +kernel

end Jukebox

end AutoDJ
