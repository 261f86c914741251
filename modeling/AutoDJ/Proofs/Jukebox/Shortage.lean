import AutoDJ.Jukebox.Settings
import Mathlib.Logic.Basic

/-!
This module contains what the rule comes to that tells how many items a playback queue is short of. It counts in
64-bit words, and agrees with the numbers that it stands for unless a sum of them does not fit into a word.
-/

namespace AutoDJ

theorem map_toNat_checkedSum (a b : UInt64)
    : (checkedSum a b).map UInt64.toNat
        = if a.toNat + b.toNat < UInt64.size then .ok (a.toNat + b.toNat) else .error .overflow := by
  unfold checkedSum
  split
  . next hfits => exact congrArg Except.ok ((UInt64.toNat_add a b).trans (Nat.mod_eq_of_lt hfits))
  . rfl

theorem eq_ok_iff_of_eq_ite {α ε : Type} {x : Except ε α} {a : α} {e : ε} {c : Prop} [Decidable c]
    (h : x = if c then .error e else .ok a) : x = .ok a ↔ ¬c := by
  subst h
  split
  . next hc => simp [hc]
  . next hc => simp [hc]

theorem toNat_difference (a b : UInt64) : (if b ≤ a then a - b else 0).toNat = a.toNat - b.toNat := by
  split
  . next hle => exact UInt64.toNat_sub_of_le _ _ hle
  . next hlarge =>
    rw [UInt64.le_iff_toNat_le] at hlarge
    rw [Nat.sub_eq_zero_of_le (by omega)]
    rfl

namespace JukeboxSettings

/--
How many items a playback queue of length `remaining` is short of, and one more if the current song no longer
counts and the queue is not too long.
-/
def shortfall (settings : JukeboxSettings) (timePassed : Bool) (remaining : Nat) : Nat :=
  (settings.queueLength.toNat - remaining)
    + if timePassed = true ∧ remaining ≤ settings.queueLength.toNat then 1 else 0

/--
How many items are to be added to a playback queue of length `remaining`, if any: as many as it is short of, but
no more than a single fill adds, and none while it is long enough and the current song counts.
-/
def due? (settings : JukeboxSettings) (timePassed : Bool) (remaining : Nat) : Option Nat :=
  if settings.shortfall timePassed remaining = 0
      ∨ settings.queueLength.toNat ≤ remaining ∧ timePassed = false then
    none
  else
    some (min (settings.shortfall timePassed remaining) 99)

/--
The playback queue is empty, the current song does not count, and the queue should be as long as a word can say.
-/
structure Exceeds (settings : JukeboxSettings) (timePassed : Bool) (remaining : Nat) : Prop where
  queueLength : settings.queueLength.toNat = UInt64.size - 1
  remaining : remaining = 0
  timePassed : timePassed = true

variable (settings : JukeboxSettings) (timePassed : Bool)

theorem size_le_shortfall_iff {remaining : Nat}
    : UInt64.size ≤ settings.shortfall timePassed remaining ↔ settings.Exceeds timePassed remaining := by
  have hlength := settings.queueLength.toNat_lt_size
  unfold shortfall
  constructor
  . intro hsize
    split at hsize
    . next h => exact ⟨by omega, by omega, h.1⟩
    . omega
  . rintro ⟨hlargest, rfl, hpassed⟩
    rw [if_pos ⟨hpassed, Nat.zero_le _⟩]
    omega

instance {remaining : Nat} : Decidable (settings.Exceeds timePassed remaining) :=
  decidable_of_iff _ (settings.size_le_shortfall_iff timePassed)

namespace Exceeds

variable {settings : JukeboxSettings} {timePassed : Bool} {remaining : Nat}

theorem not_long (h : settings.Exceeds timePassed remaining)
    : ¬(settings.queueLength.toNat ≤ remaining ∧ timePassed = false) :=
  fun hlong => Bool.false_ne_true (hlong.2.symm.trans h.timePassed)

theorem due?_eq (h : settings.Exceeds timePassed remaining) : settings.due? timePassed remaining = some 99 := by
  have hsize := (settings.size_le_shortfall_iff timePassed).mpr h
  have hlarge : 99 < UInt64.size := by decide
  unfold JukeboxSettings.due?
  rw [if_neg, Nat.min_eq_right (by omega)]
  rintro (hnone | hlong)
  . omega
  . exact h.not_long hlong

end Exceeds

theorem map_toNat_missing (remaining : UInt64)
    : (settings.missing timePassed remaining).map UInt64.toNat
        = if settings.Exceeds timePassed remaining.toNat then .error .overflow
          else .ok (settings.shortfall timePassed remaining.toNat) := by
  have hcounts : (timePassed && decide (remaining ≤ settings.queueLength)) = true
      ↔ timePassed = true ∧ remaining.toNat ≤ settings.queueLength.toNat := by
    rw [Bool.and_eq_true, decide_eq_true_iff, UInt64.le_iff_toNat_le]
  unfold missing
  simp only [← size_le_shortfall_iff, hcounts]
  unfold shortfall
  split
  . rw [map_toNat_checkedSum, toNat_difference, UInt64.toNat_one]
    split
    . next hfits => rw [if_neg (Nat.not_le.mpr hfits)]
    . next hexceeds => rw [if_pos (Nat.not_lt.mp hexceeds)]
  . have hfits : ¬UInt64.size ≤ settings.queueLength.toNat - remaining.toNat := by
      have hlength := settings.queueLength.toNat_lt_size
      omega
    rw [Nat.add_zero, if_neg hfits, ← toNat_difference]
    rfl

theorem shortage?_eq_map (remaining : UInt64)
    : settings.shortage? timePassed remaining
        = if settings.queueLength.toNat ≤ remaining.toNat ∧ timePassed = false then .ok none
          else ((settings.missing timePassed remaining).map UInt64.toNat).map fun count =>
            if count = 0 then none else some (min count 99) := by
  have hlong : (decide (settings.queueLength ≤ remaining) && !timePassed) = true
      ↔ settings.queueLength.toNat ≤ remaining.toNat ∧ timePassed = false := by
    rw [Bool.and_eq_true, decide_eq_true_iff, UInt64.le_iff_toNat_le, Bool.not_eq_true']
  have hnone (count : Nat) : min count maxAdd = 0 ↔ count = 0 := by
    unfold maxAdd
    omega
  unfold shortage?
  simp only [hlong]
  split
  . rfl
  . cases settings.missing timePassed remaining with
    | error e => rfl
    | ok word =>
      change Except.ok _ = Except.ok _
      simp only [hnone]
      rfl

theorem shortage?_eq (remaining : UInt64)
    : settings.shortage? timePassed remaining
        = if settings.Exceeds timePassed remaining.toNat then .error .overflow
          else .ok (settings.due? timePassed remaining.toNat) := by
  rw [shortage?_eq_map, map_toNat_missing]
  by_cases hexceeds : settings.Exceeds timePassed remaining.toNat
  . rw [if_neg hexceeds.not_long, if_pos hexceeds, if_pos hexceeds]
    rfl
  . rw [if_neg hexceeds, if_neg hexceeds, due?]
    split
    . next hlong => rw [if_pos (Or.inr hlong)]
    . next hlong =>
      simp only [hlong, or_false]
      rfl

theorem length_add_shortfall_le {remaining : Nat} (h : settings.shortfall timePassed remaining ≠ 0)
    : remaining + settings.shortfall timePassed remaining ≤ settings.queueLength.toNat + 1 := by
  unfold shortfall at *
  split
  . omega
  . next hcounts =>
    rw [if_neg hcounts] at h
    omega

section Needed

variable {settings : JukeboxSettings} {status : PlayerStatus} {needed : Nat}

theorem needed_eq (h : settings.needed? status = .ok (some needed))
    : settings.shortfall (settings.timePassed status) status.queueLength.toNat ≠ 0
      ∧ needed = min (settings.shortfall (settings.timePassed status) status.queueLength.toNat) 99 := by
  rw [needed?, shortage?_eq] at h
  split at h
  . contradiction
  . have hdue := Except.ok.inj h
    unfold due? at hdue
    split at hdue
    . contradiction
    . next hshort => exact ⟨(not_or.mp hshort).1, (Option.some.inj hdue).symm⟩

theorem exceeds_of_needed? (h : settings.needed? status = .error .overflow)
    : settings.Exceeds (settings.timePassed status) status.queueLength.toNat := by
  rw [needed?, shortage?_eq] at h
  split at h
  . assumption
  . contradiction

theorem needed_pos (h : settings.needed? status = .ok (some needed)) : 0 < needed := by
  have hneeded := needed_eq h
  omega

theorem length_add_needed_le (h : settings.needed? status = .ok (some needed))
    : status.queueLength.toNat + needed ≤ settings.queueLength.toNat + 1 := by
  obtain ⟨hshort, hneeded⟩ := needed_eq h
  have hlength := settings.length_add_shortfall_le _ hshort
  omega

end Needed

/--
The rule agrees with the numbers that it stands for, and none of its sums overflows, unless the playback queue is
empty, the current song does not count, and the queue should be as long as a word can say. In that case the sum
overflows, where as many items are due as a single fill adds.
-/
theorem needed?_eq_due?_iff (status : PlayerStatus)
    : (settings.needed? status
          = .ok (settings.due? (settings.timePassed status) status.queueLength.toNat)
        ↔ ¬settings.Exceeds (settings.timePassed status) status.queueLength.toNat)
      ∧ ((settings.missing (settings.timePassed status) status.queueLength).map UInt64.toNat
          = .ok (settings.shortfall (settings.timePassed status) status.queueLength.toNat)
        ↔ ¬settings.Exceeds (settings.timePassed status) status.queueLength.toNat)
      ∧ (settings.Exceeds (settings.timePassed status) status.queueLength.toNat
        → settings.needed? status = .error .overflow
          ∧ settings.due? (settings.timePassed status) status.queueLength.toNat = some 99) := by
  have hneeded := settings.shortage?_eq (settings.timePassed status) status.queueLength
  have hmissing := settings.map_toNat_missing (settings.timePassed status) status.queueLength
  refine ⟨eq_ok_iff_of_eq_ite hneeded, eq_ok_iff_of_eq_ite hmissing, fun hexceeds => ?_⟩
  exact ⟨hneeded.trans (if_pos hexceeds), hexceeds.due?_eq⟩

def insatiable : JukeboxSettings where
  mode := .addTracks
  queueLength := 18446744073709551615

theorem insatiable_overflows
    : insatiable.needed? {} = .error .overflow
      ∧ insatiable.due? (insatiable.timePassed {}) 0 = some 99
      ∧ insatiable.missing (insatiable.timePassed {}) 0 = .error .overflow
      ∧ insatiable.shortfall (insatiable.timePassed {}) 0 = 18446744073709551616 := by
  have hpassed : insatiable.timePassed {} = true := rfl
  rw [needed?, hpassed]
  exact ⟨rfl, rfl, rfl, rfl⟩

end JukeboxSettings

end AutoDJ
