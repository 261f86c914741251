import AutoDJ.Proofs.Jukebox.Slots
import Mathlib.Algebra.BigOperators.Fin
import Mathlib.Data.Fintype.BigOperators
import Mathlib.Data.Nat.Factorial.BigOperators

/-!
This module contains the proof that a reservoir keeps a uniform sample: of the ways in which the places of
the later items can be drawn, equally many lead to each possible sample.
-/

namespace AutoDJ

open scoped Nat

/--
The places that can be drawn for `count` items that are offered after `seen` others: for the `i`-th of all
items, it is one of `i` numbers.
-/
abbrev Reservoir.Slots (seen count : Nat) : Type :=
  (i : Fin count) → Fin (seen + i + 1)

def WordStream.slots (seen count : Nat) (r : WordStream) : Reservoir.Slots seen count := fun i =>
  ⟨((r.afterSlots seen i).below64 (seen + i + 1)).1, below64_lt (by omega) _⟩

namespace Reservoir

variable {α : Type}

namespace Slots

variable {k count : Nat}

def slotAfter (slots : Slots k count) (n : Nat) : Nat :=
  if h : n - k < count then slots ⟨n - k, h⟩ else 0

def extend (slots : Slots k count) (slot : Fin (k + count + 1)) : Slots k (count + 1) :=
  Fin.snoc (α := fun i : Fin (count + 1) => Fin (k + i + 1)) slots slot

theorem slotAfter_extend_of_lt (slots : Slots k count) (slot : Fin (k + count + 1)) {n : Nat}
    (hk : k ≤ n) (hn : n < k + count) : (slots.extend slot).slotAfter n = slots.slotAfter n := by
  have hbefore : n - k < count := by omega
  unfold slotAfter
  rw [dif_pos hbefore, dif_pos (by omega)]
  exact congrArg Fin.val
    (Fin.snoc_castSucc (α := fun i : Fin (count + 1) => Fin (k + i + 1)) slot slots ⟨n - k, hbefore⟩)

theorem slotAfter_extend_last (slots : Slots k count) (slot : Fin (k + count + 1))
    : (slots.extend slot).slotAfter (k + count) = slot := by
  have hlast : k + count - k = count := by omega
  have hindex : (⟨k + count - k, by omega⟩ : Fin (count + 1)) = Fin.last count := Fin.ext hlast
  unfold slotAfter
  rw [dif_pos (by omega), hindex]
  exact congrArg Fin.val
    (Fin.snoc_last (α := fun i : Fin (count + 1) => Fin (k + i + 1)) slot slots)

theorem sum_extend (f : Slots k (count + 1) → Nat)
    : ∑ slots, f slots = ∑ slots : Slots k count, ∑ slot, f (slots.extend slot) := by
  rw [← (Fin.snocEquiv fun i : Fin (count + 1) => Fin (k + i + 1)).sum_comp,
    Fintype.sum_prod_type_right]
  rfl

theorem card_eq (k count : Nat) : Fintype.card (Slots k count) = (k + count)! / k ! := by
  rw [Fintype.card_pi]
  simp only [Fintype.card_fin]
  rw [← Nat.ascFactorial_eq_div, Nat.ascFactorial_eq_prod_range,
    Fin.prod_univ_eq_prod_range (fun i => k + i + 1)]
  apply Finset.prod_congr rfl
  intros
  omega

end Slots

theorem held_extend {k count : Nat} {items : List α} (hlength : items.length = k + count)
    (slots : Slots k count) (slot : Fin (k + count + 1)) (last : α)
    : held k (slots.extend slot).slotAfter (items ++ [last])
        = (held k slots.slotAfter items).set slot last := by
  rw [held_append, if_pos (by omega), hlength, slots.slotAfter_extend_last]
  congr 1
  unfold held
  rw [offerAllAt_congr .empty]
  intro n hk hn
  apply slots.slotAfter_extend_of_lt slot hk
  simp only [empty] at hn
  omega

theorem offerAll_eq_held (k : Nat) (items : List α) (r : WordStream)
    : ((empty k).offerAll items r).2.1.items.toList
        = held k (r.slots k (items.length - k)).slotAfter items := by
  have hdrawn := offerAll_go_eq k r items (empty k) [] .empty
  have hstart : (empty k : Reservoir α).seen - k = 0 := by simp [empty]
  rw [hstart, WordStream.afterSlots] at hdrawn
  unfold offerAll held
  rw [hdrawn, offerAllAt_congr .empty]
  intro n hk hn
  simp only [empty] at hn
  have hindex : k + (n - k) + 1 = n + 1 := by omega
  unfold Slots.slotAfter
  rw [dif_pos (by omega)]
  simp only [WordStream.slots, hindex]

variable [DecidableEq α]

theorem toFinset_set {items : List α} (hnodup : items.Nodup) (item : α) {slot : Nat}
    (hslot : slot < items.length)
    : (items.set slot item).toFinset = insert item (items.toFinset.erase items[slot]) := by
  have hperm := List.getElem_cons_eraseIdx_perm hslot
  have hnew : items[slot] ∉ items.eraseIdx slot :=
    (List.nodup_cons.mp (hperm.nodup_iff.mpr hnodup)).1
  rw [List.toFinset_eq_of_perm _ _ (List.set_perm_cons_eraseIdx hslot item),
    ← List.toFinset_eq_of_perm _ _ hperm, List.toFinset_cons, List.toFinset_cons,
    Finset.erase_insert (by simpa using hnew)]

theorem toFinset_set_eq_iff {items : List α} (hnodup : items.Nodup) {item : α} (hitem : item ∉ items)
    {sample : Finset α} (hmem : item ∈ sample) {slot : Nat}
    : (items.set slot item).toFinset = sample
        ↔ ∃ hslot : slot < items.length, items.toFinset.erase items[slot] = sample.erase item := by
  have hnew : item ∉ items.toFinset := by simpa using hitem
  by_cases hslot : slot < items.length
  . rw [toFinset_set hnodup item hslot]
    constructor
    . rintro rfl
      refine ⟨hslot, ?_⟩
      rw [Finset.erase_insert]
      exact fun h => hnew (Finset.mem_of_mem_erase h)
    . rintro ⟨_, h⟩
      rw [h, Finset.insert_erase hmem]
  . rw [List.set_eq_of_length_le (by omega)]
    constructor
    . rintro rfl
      contradiction
    . rintro ⟨h, _⟩
      contradiction

theorem card_slots_of_mem {items : List α} (hnodup : items.Nodup) {item : α} (hitem : item ∉ items)
    {sample : Finset α} (hcard : sample.card = items.length) (hmem : item ∈ sample) {bound : Nat}
    (hbound : items.length ≤ bound)
    : ((Finset.range bound).filter fun slot => (items.set slot item).toFinset = sample).card
        = if sample.erase item ⊆ items.toFinset then 1 else 0 := by
  simp only [toFinset_set_eq_iff hnodup hitem hmem]
  split
  . next hsub =>
    -- the sample before has one item more than the rest of the new one, and its place is the one
    have hone : (sample.erase item).card + 1 = items.toFinset.card := by
      rw [Finset.card_erase_add_one hmem, hcard, List.toFinset_card_of_nodup hnodup]
    obtain ⟨old, hold, hinsert⟩ := Finset.exists_eq_insert_iff.mpr ⟨hsub, hone⟩
    have hmemOld : old ∈ items := by
      rw [← List.mem_toFinset, ← hinsert]
      exact Finset.mem_insert_self _ _
    obtain ⟨place, hplace, rfl⟩ := List.getElem_of_mem hmemOld
    apply Finset.card_eq_one.mpr
    refine ⟨place, ?_⟩
    ext slot
    rw [Finset.mem_filter, Finset.mem_range, Finset.mem_singleton]
    constructor
    . rintro ⟨-, hslot, h⟩
      have hmemSlot : items[slot] ∈ insert items[place] (sample.erase item) := by
        rw [hinsert]
        simp
      have hgone : items[slot] ∉ sample.erase item := by
        rw [← h]
        exact Finset.notMem_erase _ _
      exact (hnodup.getElem_inj_iff).mp ((Finset.mem_insert.mp hmemSlot).resolve_right hgone)
    . rintro rfl
      refine ⟨by omega, hplace, ?_⟩
      rw [← hinsert, Finset.erase_insert hold]
  . next hsub =>
    apply Finset.card_eq_zero.mpr
    apply Finset.filter_eq_empty_iff.mpr
    rintro slot - ⟨hslot, h⟩
    apply hsub
    rw [← h]
    exact Finset.erase_subset _ _

theorem card_slots_of_notMem {items : List α} (hnodup : items.Nodup) {item : α}
    {sample : Finset α} (hmem : item ∉ sample) (bound : Nat)
    : ((Finset.range bound).filter fun slot => (items.set slot item).toFinset = sample).card
        = if items.toFinset = sample then bound - items.length else 0 := by
  have hset (slot : Nat)
      : (items.set slot item).toFinset = sample
          ↔ items.length ≤ slot ∧ items.toFinset = sample := by
    by_cases hslot : slot < items.length
    . rw [toFinset_set hnodup item hslot]
      constructor
      . rintro rfl
        exact absurd (Finset.mem_insert_self _ _) hmem
      . rintro ⟨h, -⟩
        omega
    . rw [List.set_eq_of_length_le (by omega)]
      exact ⟨fun h => ⟨by omega, h⟩, fun h => h.2⟩
  simp only [hset]
  split
  . next h =>
    have houtside : (Finset.range bound).filter (fun slot => items.length ≤ slot)
        = Finset.Ico items.length bound := by
      ext slot
      simp only [Finset.mem_filter, Finset.mem_range, Finset.mem_Ico]
      omega
    simp only [h, and_true]
    rw [houtside, Nat.card_Ico]
  . next h => simp [h]

theorem card_filter_subset {ι : Type} [Fintype ι] {rest items : Finset α} (samples : ι → Finset α)
    (hsamples : ∀ i, samples i ⊆ items ∧ (samples i).card = rest.card + 1)
    : (Finset.univ.filter fun i => rest ⊆ samples i).card
        = ∑ old ∈ items \ rest, (Finset.univ.filter fun i => samples i = insert old rest).card := by
  simp only [Finset.card_filter]
  rw [Finset.sum_comm]
  apply Finset.sum_congr rfl
  intro i _
  obtain ⟨hitems, hcard⟩ := hsamples i
  rw [← Finset.card_filter]
  symm
  split
  . next hsub =>
    obtain ⟨old, hold, hinsert⟩ := Finset.exists_eq_insert_iff.mpr ⟨hsub, hcard.symm⟩
    apply Finset.card_eq_one.mpr
    refine ⟨old, ?_⟩
    ext other
    rw [Finset.mem_filter, Finset.mem_sdiff, Finset.mem_singleton, ← hinsert]
    constructor
    . rintro ⟨⟨-, hother⟩, heq⟩
      have hmem : other ∈ insert old rest := by
        rw [heq]
        exact Finset.mem_insert_self _ _
      exact (Finset.mem_insert.mp hmem).resolve_right hother
    . rintro rfl
      refine ⟨⟨hitems ?_, hold⟩, rfl⟩
      rw [← hinsert]
      exact Finset.mem_insert_self _ _
  . next hsub =>
    apply Finset.card_eq_zero.mpr
    apply Finset.filter_eq_empty_iff.mpr
    intro old _ heq
    apply hsub
    rw [heq]
    exact Finset.subset_insert _ _

section Count

variable {k count : Nat} {items : List α} {last : α} {sample : Finset α}

theorem toFinset_held (hlength : items.length = k + count) (hnodup : items.Nodup) (slot : Nat → Nat)
    : (held k slot items).toFinset ⊆ items.toFinset ∧ (held k slot items).toFinset.card = k := by
  constructor
  . intro item hitem
    rw [List.mem_toFinset] at *
    exact held_subset hitem
  . rw [List.toFinset_card_of_nodup (nodup_held hnodup), length_held]
    omega

theorem card_slots_append (hlength : items.length = k + count) (last : α) (sample : Finset α)
    : (Finset.univ.filter fun slots : Slots k (count + 1) =>
          (held k slots.slotAfter (items ++ [last])).toFinset = sample).card
        = ∑ slots : Slots k count, ((Finset.range (k + count + 1)).filter fun slot =>
            ((held k slots.slotAfter items).set slot last).toFinset = sample).card := by
  rw [Finset.card_filter, Slots.sum_extend]
  simp only [held_extend hlength]
  apply Finset.sum_congr rfl
  intro slots _
  rw [Fin.sum_univ_eq_sum_range fun slot =>
    if ((held k slots.slotAfter items).set slot last).toFinset = sample then 1 else 0,
    Finset.card_filter]

theorem card_slots_append_of_mem (hlength : items.length = k + count) (hnodup : items.Nodup)
    (hlast : last ∉ items) (hcard : sample.card = k) (hmem : last ∈ sample)
    : (Finset.univ.filter fun slots : Slots k (count + 1) =>
          (held k slots.slotAfter (items ++ [last])).toFinset = sample).card
        = ∑ old ∈ items.toFinset \ sample.erase last, (Finset.univ.filter fun slots : Slots k count =>
            (held k slots.slotAfter items).toFinset = insert old (sample.erase last)).card := by
  have hplace (slots : Slots k count)
      : ((Finset.range (k + count + 1)).filter fun slot =>
            ((held k slots.slotAfter items).set slot last).toFinset = sample).card
          = if sample.erase last ⊆ (held k slots.slotAfter items).toFinset then 1 else 0 := by
    have hheld : (held k slots.slotAfter items).length = k := by
      rw [length_held]
      omega
    apply card_slots_of_mem (nodup_held hnodup) (fun h => hlast (held_subset h)) _ hmem (by omega)
    rw [hcard, hheld]
  rw [card_slots_append hlength]
  simp only [hplace]
  rw [← Finset.card_filter]
  apply card_filter_subset
  intro slots
  rw [Finset.card_erase_add_one hmem, hcard]
  exact toFinset_held hlength hnodup _

theorem card_slots_append_of_notMem (hlength : items.length = k + count) (hnodup : items.Nodup)
    (hmem : last ∉ sample)
    : (Finset.univ.filter fun slots : Slots k (count + 1) =>
          (held k slots.slotAfter (items ++ [last])).toFinset = sample).card
        = (count + 1) * (Finset.univ.filter fun slots : Slots k count =>
            (held k slots.slotAfter items).toFinset = sample).card := by
  have hplace (slots : Slots k count)
      : ((Finset.range (k + count + 1)).filter fun slot =>
            ((held k slots.slotAfter items).set slot last).toFinset = sample).card
          = if (held k slots.slotAfter items).toFinset = sample then count + 1 else 0 := by
    have hheld : k + count + 1 - (held k slots.slotAfter items).length = count + 1 := by
      rw [length_held]
      omega
    rw [card_slots_of_notMem (nodup_held hnodup) hmem, hheld]
  rw [card_slots_append hlength]
  simp only [hplace]
  rw [← Finset.sum_filter, Finset.sum_const, smul_eq_mul, mul_comm]

theorem card_slots_of_sample (hlength : items.length = k + count) (hnodup : items.Nodup)
    (hsub : sample ⊆ items.toFinset) (hcard : sample.card = k)
    : (Finset.univ.filter fun slots : Slots k count =>
        (held k slots.slotAfter items).toFinset = sample).card = count ! := by
  induction count generalizing items sample with
  | zero =>
    have hall : sample = items.toFinset := by
      apply Finset.eq_of_subset_of_card_le hsub
      rw [List.toFinset_card_of_nodup hnodup]
      omega
    have hheld (slots : Slots k 0) : (held k slots.slotAfter items).toFinset = sample := by
      rw [held_of_room (by omega), hall]
    simp only [hheld, Finset.filter_true, Finset.card_univ, Slots.card_eq]
    exact Nat.div_self (Nat.factorial_pos k)
  | succ count ih =>
    obtain rfl | ⟨init, last, rfl⟩ := List.eq_nil_or_concat items
    . simp at hlength
    rw [List.concat_eq_append] at *
    rw [List.length_append, List.length_singleton] at hlength
    have hinit : init.length = k + count := by omega
    obtain ⟨hnodup, -, hdisjoint⟩ := List.nodup_append'.mp hnodup
    have hlast : last ∉ init := fun h => hdisjoint h (by simp)
    have hrest : sample.erase last ⊆ init.toFinset := by
      intro item hitem
      have hitems := hsub (Finset.mem_of_mem_erase hitem)
      rw [List.toFinset_append, Finset.mem_union] at hitems
      apply hitems.resolve_right
      simpa using Finset.ne_of_mem_erase hitem
    rw [Nat.factorial_succ]
    by_cases hmem : last ∈ sample
    . -- in the place of the last item there may have been any that is missing now
      rw [card_slots_append_of_mem hinit hnodup hlast hcard hmem]
      have hone := Finset.card_erase_add_one hmem
      have hmissing : (init.toFinset \ sample.erase last).card = count + 1 := by
        rw [Finset.card_sdiff_of_subset hrest, List.toFinset_card_of_nodup hnodup]
        omega
      rw [← hmissing, ← smul_eq_mul, ← Finset.sum_const]
      apply Finset.sum_congr rfl
      intro old hold
      obtain ⟨hold, hnew⟩ := Finset.mem_sdiff.mp hold
      apply ih hinit hnodup (Finset.insert_subset hold hrest)
      rw [Finset.card_insert_of_notMem hnew, hone, hcard]
    . rw [card_slots_append_of_notMem hinit hnodup hmem, ih hinit hnodup _ hcard]
      rwa [Finset.erase_eq_of_notMem hmem] at hrest

end Count

def kept (k : Nat) (items : List α) (slots : Slots k (items.length - k)) : Finset α :=
  ((empty k).offerAllAt slots.slotAfter items).items.toList.toFinset

/--
A reservoir keeps what the places drawn from the stream tell. Of all ways to draw them, equally many lead
to each set of as many items as there is room for; if there is room for all items, all are kept.
-/
theorem offerAll_uniform (k : Nat) {items : List α} (hnodup : items.Nodup)
    : (∀ r, ((empty k).offerAll items r).2.1.items.toList.toFinset
        = kept k items (r.slots k (items.length - k)))
      ∧ (k ≤ items.length →
        Fintype.card (Slots k (items.length - k)) = items.length ! / k !
          ∧ ∀ positions : Finset (Fin items.length), positions.card = k →
            (Finset.univ.filter fun slots => kept k items slots = positions.image items.get).card
              = (items.length - k)!)
      ∧ (items.length < k → ∀ r, ((empty k).offerAll items r).2.1.items.toList = items) := by
  refine ⟨fun r => ?_, fun hk => ⟨?_, ?_⟩, fun hk r => ?_⟩
  . rw [offerAll_eq_held]
    rfl
  . rw [Slots.card_eq, Nat.add_sub_cancel' hk]
  . intro positions hpositions
    apply card_slots_of_sample (by omega) hnodup
    . intro item hitem
      obtain ⟨position, -, rfl⟩ := Finset.mem_image.mp hitem
      simp
    . rw [Finset.card_image_of_injective _ (List.nodup_iff_injective_get.mp hnodup), hpositions]
  . rw [offerAll_eq_held, held_of_room (by omega)]

theorem two_of_four_uniform
    : ["a", "b", "c", "d"].Nodup ∧ Fintype.card (Slots 2 2) = 12
        ∧ (Finset.univ.filter fun slots => kept 2 ["a", "b", "c", "d"] slots = {"a", "d"}).card = 2 := by
  have hnodup : ["a", "b", "c", "d"].Nodup := by decide
  obtain ⟨htotal, hsample⟩ := (offerAll_uniform 2 hnodup).2.1 (by decide)
  exact ⟨hnodup, htotal, hsample {0, 3} rfl⟩

end Reservoir

end AutoDJ
