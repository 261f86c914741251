import AutoDJ.Proofs.Jukebox.Notebook
import Mathlib.Data.List.Nodup

namespace AutoDJ

namespace Offer

def early (offers : List Offer) : List Offer :=
  offers.filter fun offer => !offer.late

def later (offers : List Offer) : List Offer :=
  offers.filter Offer.late

def values (offers : List Offer) : List String :=
  (offers.filter Offer.accepted).filterMap fun offer => offer.candidate.tagValue?

theorem values_append (offers offers' : List Offer)
    : values (offers ++ offers') = values offers ++ values offers' := by
  unfold values
  rw [List.filter_append, List.filterMap_append]

theorem values_sublist (offers : List Offer)
    : (values offers).Sublist ((offers.map Offer.candidate).filterMap Candidate.tagValue?) := by
  rw [List.filterMap_map]
  exact List.filter_sublist.filterMap _

theorem countP_accepted_cons (offer : Offer) (offers : List Offer)
    : (offer :: offers).countP Offer.accepted
        = offer.accepted.toNat + offers.countP Offer.accepted := by
  rw [List.countP_cons]
  cases offer.accepted <;> simp [Nat.add_comm]

end Offer

structure Offered (late : Bool) (cs : List Candidate) (missing : Nat) (offers : List Offer) : Prop where
  late : ∀ offer ∈ offers, offer.late = late
  candidates : offers.map Offer.candidate <+: cs
  length : (∀ offer ∈ offers, offer.accepted = true) → offers.length ≤ missing

namespace Offered

variable {late : Bool} {rest cs : List Candidate} {missing missing' : Nat} {offers : List Offer}

theorem nil : Offered late cs missing [] :=
  ⟨by simp, List.nil_prefix, fun _ => Nat.zero_le _⟩

theorem cons {offer : Offer} (hlate : offer.late = late) (h : Offered late rest missing' offers)
    (hmissing : offer.accepted = true → missing' < missing)
    : Offered late (offer.candidate :: rest) missing (offer :: offers) := by
  refine ⟨List.forall_mem_cons.mpr ⟨hlate, h.late⟩, ?_, fun hall => ?_⟩
  . rw [List.map_cons]
    exact List.cons_prefix_cons.mpr ⟨rfl, h.candidates⟩
  . obtain ⟨haccepted, hall⟩ := List.forall_mem_cons.mp hall
    have hlength := h.length hall
    have hless := hmissing haccepted
    rw [List.length_cons]
    omega

end Offered

/--
What is offered of some candidates, with a refill in the middle, when so many are still missing. Unless the
player refuses one, the candidates that are drawn in the middle have no turn if there were enough before.
-/
structure Round (cs : List Candidate) (missing : Nat) (early later : List Offer) : Prop where
  front : Offered false cs missing early
  late : ∀ offer ∈ later, offer.late = true
  distinct : ((later.map Offer.candidate).filterMap Candidate.tagValue?).Nodup
  straight : (∀ offer ∈ early ++ later, offer.accepted = true) → missing ≤ cs.length
    → (early ++ later).map Offer.candidate <+: cs

namespace Round

variable {rest cs : List Candidate} {missing missing' : Nat} {early later : List Offer}

theorem nil : Round cs missing [] [] :=
  ⟨.nil, by simp, List.nodup_nil, fun _ _ => List.nil_prefix⟩

theorem cons {offer : Offer} (hlate : offer.late = false) (h : Round rest missing' early later)
    (hmissing : offer.accepted = true → missing' < missing)
    : Round (offer.candidate :: rest) missing (offer :: early) later := by
  refine ⟨h.front.cons hlate hmissing, h.late, h.distinct, fun hall hlength => ?_⟩
  obtain ⟨haccepted, hall⟩ := List.forall_mem_cons.mp hall
  have hless := hmissing haccepted
  rw [List.length_cons] at hlength
  rw [List.cons_append, List.map_cons]
  exact List.cons_prefix_cons.mpr ⟨rfl, h.straight hall (by omega)⟩

theorem refilled {waiting : List Candidate} (hfront : rest <+: waiting)
    (hwaiting : (waiting.filterMap Candidate.tagValue?).Nodup) (h : Offered true waiting missing later)
    : Round rest missing [] later := by
  refine ⟨.nil, h.late, hwaiting.sublist (h.candidates.sublist.filterMap _), fun hall hlength => ?_⟩
  have hcount := h.length hall
  apply List.prefix_of_prefix_length_le h.candidates hfront
  rw [List.length_map]
  omega

variable (h : Round cs missing early later)

include h

theorem early_append : Offer.early (early ++ later) = early := by
  have hearly : early.filter (fun offer => !offer.late) = early :=
    List.filter_eq_self.mpr fun offer hoffer => by simp [h.front.late offer hoffer]
  have hlater : later.filter (fun offer => !offer.late) = [] :=
    List.filter_eq_nil_iff.mpr fun offer hoffer => by simp [h.late offer hoffer]
  rw [Offer.early, List.filter_append, hearly, hlater, List.append_nil]

theorem later_append : Offer.later (early ++ later) = later := by
  have hearly : early.filter Offer.late = [] :=
    List.filter_eq_nil_iff.mpr fun offer hoffer => by simp [h.front.late offer hoffer]
  have hlater : later.filter Offer.late = later :=
    List.filter_eq_self.mpr h.late
  rw [Offer.later, List.filter_append, hearly, hlater, List.nil_append]

theorem nodup_values_iff (hcs : (cs.filterMap Candidate.tagValue?).Nodup)
    : (Offer.values (early ++ later)).Nodup
        ↔ (Offer.values (Offer.early (early ++ later))).Disjoint
            (Offer.values (Offer.later (early ++ later))) := by
  have hearly : (Offer.values early).Nodup :=
    (hcs.sublist (h.front.candidates.sublist.filterMap _)).sublist (Offer.values_sublist early)
  have hlater : (Offer.values later).Nodup :=
    h.distinct.sublist (Offer.values_sublist later)
  rw [h.early_append, h.later_append, Offer.values_append, List.nodup_append']
  exact ⟨fun hall => hall.2.2, fun hdisjoint => ⟨hearly, hlater, hdisjoint⟩⟩

theorem nodup_values (hcs : (cs.filterMap Candidate.tagValue?).Nodup)
    (hall : ∀ offer ∈ early ++ later, offer.accepted = true) (hlength : missing ≤ cs.length)
    : (Offer.values (early ++ later)).Nodup :=
  (hcs.sublist ((h.straight hall hlength).sublist.filterMap _)).sublist (Offer.values_sublist _)

end Round

namespace Booth

def offerList : Notebook (List Offer) where
  offer offer offers := offers ++ [offer]

def offers {s : Type} (booth : Booth s) (deck : Deck s) : List Offer :=
  ((Noted.fillOnce booth offerList).after (deck, [])).2

end Booth

end AutoDJ
