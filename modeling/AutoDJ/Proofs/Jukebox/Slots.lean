import AutoDJ.Jukebox.Reservoir
import Mathlib.Data.List.Induction
import Mathlib.Data.List.Nodup

/-!
This module contains the reservoir as a function of the places that are drawn for the items offered to it,
and what it holds after each of them.
-/

namespace AutoDJ

namespace WordStream

theorem below_go_lt {bits bound : Nat} {draw : WordStream → Nat × WordStream}
    (hdraw : ∀ r, (draw r).1 < 1 <<< bits) (hbound : 0 < bound) (patience : Nat) (r : WordStream)
    : (below.go bits draw bound patience r).1 < bound := by
  have hscaled (r : WordStream) : ((draw r).1 * bound) >>> bits < bound := by
    have hword := hdraw r
    rw [Nat.one_shiftLeft] at hword
    rw [Nat.shiftRight_eq_div_pow]
    apply Nat.div_lt_of_lt_mul
    exact Nat.mul_lt_mul_of_pos_right hword hbound
  induction patience generalizing r with
  | zero => exact hscaled r
  | succ patience ih =>
    unfold below.go
    dsimp only
    split
    . exact hscaled r
    . exact ih _

theorem below64_lt {bound : Nat} (hbound : 0 < bound) (r : WordStream)
    : (r.below64 bound).1 < bound := by
  apply below_go_lt _ hbound
  intro r
  exact UInt64.toNat_lt_size _

def afterSlots (seen : Nat) (r : WordStream) : (count : Nat) → WordStream
  | 0 => r
  | count + 1 => ((r.afterSlots seen count).below64 (seen + count + 1)).2

end WordStream

namespace Reservoir

variable {α : Type}

def offerAt (res : Reservoir α) (item : α) (slot : Nat) : Reservoir α :=
  if res.isFull then res.replace item slot else res.push item

theorem offer_eq (res : Reservoir α) (item : α) (r : WordStream)
    : (res.offer item r).2.1 = res.offerAt item (r.below64 (res.seen + 1)).1 := by
  unfold offer offerAt
  split <;> rfl

theorem seen_offerAt (res : Reservoir α) (item : α) (slot : Nat)
    : (res.offerAt item slot).seen = res.seen + 1 := by
  unfold offerAt
  split <;> rfl

theorem toList_offerAt (res : Reservoir α) (item : α) (slot : Nat)
    : (res.offerAt item slot).items.toList
        = if res.isFull then res.items.toList.set slot item else res.items.toList ++ [item] := by
  unfold offerAt
  split
  . exact Array.toList_setIfInBounds
  . exact Array.toList_push

structure Filled (k : Nat) (res : Reservoir α) : Prop where
  capacity : res.capacity = k
  size : res.items.size = min k res.seen

namespace Filled

variable {k : Nat} {res : Reservoir α}

theorem empty : (Reservoir.empty k : Reservoir α).Filled k :=
  ⟨rfl, by simp [Reservoir.empty]⟩

theorem isFull_iff (h : res.Filled k) : res.isFull = true ↔ k ≤ res.seen := by
  rw [isFull, h.capacity, h.size, decide_eq_true_iff]
  omega

theorem offerAt (h : res.Filled k) (item : α) (slot : Nat) : (res.offerAt item slot).Filled k := by
  obtain ⟨hcapacity, hsize⟩ := h
  unfold Reservoir.offerAt
  split
  . next hfull =>
    rw [isFull, hcapacity, hsize, decide_eq_true_iff] at hfull
    refine ⟨hcapacity, ?_⟩
    simp only [replace, Array.size_setIfInBounds]
    omega
  . next hroom =>
    rw [isFull, hcapacity, hsize, decide_eq_true_iff] at hroom
    refine ⟨hcapacity, ?_⟩
    simp only [push, Array.size_push]
    omega

end Filled

def offerAllAt (slot : Nat → Nat) (res : Reservoir α) (items : List α) : Reservoir α :=
  items.foldl (fun res item => res.offerAt item (slot res.seen)) res

theorem offerAllAt_append (slot : Nat → Nat) (res : Reservoir α) (items : List α) (last : α)
    : res.offerAllAt slot (items ++ [last])
        = (res.offerAllAt slot items).offerAt last (slot (res.offerAllAt slot items).seen) := by
  simp [offerAllAt]

theorem seen_offerAllAt (slot : Nat → Nat) (res : Reservoir α) (items : List α)
    : (res.offerAllAt slot items).seen = res.seen + items.length := by
  induction items using List.reverseRecOn with
  | nil => rfl
  | append_singleton items last ih =>
    rw [offerAllAt_append, seen_offerAt, ih, List.length_append, List.length_singleton]
    omega

theorem offerAllAt_filled {k : Nat} (slot : Nat → Nat) {res : Reservoir α} (h : res.Filled k)
    (items : List α) : (res.offerAllAt slot items).Filled k := by
  induction items using List.reverseRecOn with
  | nil => exact h
  | append_singleton items last ih =>
    rw [offerAllAt_append]
    exact ih.offerAt _ _

theorem offerAllAt_congr {k : Nat} {slot slot' : Nat → Nat} {res : Reservoir α} (h : res.Filled k)
    (items : List α) (heq : ∀ n, k ≤ n → n < res.seen + items.length → slot n = slot' n)
    : res.offerAllAt slot items = res.offerAllAt slot' items := by
  induction items using List.reverseRecOn with
  | nil => rfl
  | append_singleton items last ih =>
    rw [List.length_append, List.length_singleton] at heq
    rw [offerAllAt_append, offerAllAt_append, ih fun n hk hn => heq n hk (by omega)]
    unfold offerAt
    split
    . next hfull =>
      rw [(offerAllAt_filled slot' h items).isFull_iff, seen_offerAllAt] at hfull
      rw [seen_offerAllAt, heq _ hfull (by omega)]
    . rfl

theorem offerAll_go_eq (k : Nat) (r : WordStream) (items : List α) (res : Reservoir α)
    (flags : List Bool) (h : res.Filled k)
    : (offerAll.go items res (r.afterSlots k (res.seen - k)) flags).2.1
        = res.offerAllAt (fun n => ((r.afterSlots k (n - k)).below64 (n + 1)).1) items := by
  induction items generalizing res flags with
  | nil => rfl
  | cons item items ih =>
    have hrest (flag : Bool) := ih _ (flag :: flags)
      (h.offerAt item ((r.afterSlots k (res.seen - k)).below64 (res.seen + 1)).1)
    simp only [seen_offerAt] at hrest
    unfold offerAll.go offer
    dsimp only
    rw [offerAllAt, List.foldl_cons]
    unfold offerAt at *
    split
    . next hfull =>
      -- a place is drawn, which moves the stream on
      have hk := h.isFull_iff.mp hfull
      have hstep : res.seen + 1 - k = (res.seen - k) + 1 := by omega
      have hbound : k + (res.seen - k) + 1 = res.seen + 1 := by omega
      simp only [if_pos hfull, hstep, WordStream.afterSlots, hbound] at hrest
      exact hrest _
    . next hroom =>
      have hk : ¬k ≤ res.seen := fun hk => hroom (h.isFull_iff.mpr hk)
      have hstep : res.seen + 1 - k = res.seen - k := by omega
      simp only [if_neg hroom, hstep] at hrest
      exact hrest _

def held (k : Nat) (slot : Nat → Nat) (items : List α) : List α :=
  ((empty k).offerAllAt slot items).items.toList

section Held

variable {k : Nat} {slot : Nat → Nat} {items : List α}

theorem length_held : (held k slot items).length = min k items.length := by
  unfold held
  rw [Array.length_toList, (offerAllAt_filled slot .empty items).size, seen_offerAllAt]
  simp [empty]

theorem held_append (item : α)
    : held k slot (items ++ [item])
        = if k ≤ items.length then (held k slot items).set (slot items.length) item
          else held k slot items ++ [item] := by
  have hseen : ((empty k).offerAllAt slot items).seen = items.length := by
    rw [seen_offerAllAt]
    simp [empty]
  unfold held
  rw [offerAllAt_append, toList_offerAt, hseen]
  simp only [(offerAllAt_filled slot .empty items).isFull_iff, hseen]

theorem held_of_room (hroom : items.length ≤ k) : held k slot items = items := by
  induction items using List.reverseRecOn with
  | nil => rfl
  | append_singleton items last ih =>
    rw [List.length_append, List.length_singleton] at hroom
    rw [held_append, if_neg (by omega), ih (by omega)]

theorem held_subset : held k slot items ⊆ items := by
  induction items using List.reverseRecOn with
  | nil => exact List.Subset.refl _
  | append_singleton items last ih =>
    intro item hitem
    rw [held_append] at hitem
    split at hitem
    . obtain hitem | rfl := List.mem_or_eq_of_mem_set hitem
      . exact List.mem_append_left _ (ih hitem)
      . simp
    . obtain hitem | hitem := List.mem_append.mp hitem
      . exact List.mem_append_left _ (ih hitem)
      . exact List.mem_append_right _ hitem

theorem nodup_held (hnodup : items.Nodup) : (held k slot items).Nodup := by
  induction items using List.reverseRecOn with
  | nil => exact List.nodup_nil
  | append_singleton items last ih =>
    obtain ⟨hitems, -, hdisjoint⟩ := List.nodup_append'.mp hnodup
    have hlast : last ∉ held k slot items := fun h => hdisjoint (held_subset h) (by simp)
    rw [held_append]
    split
    . exact (ih hitems).set hlast
    . exact (ih hitems).append (by simp) (by simpa using hlast)

end Held

end Reservoir

end AutoDJ
