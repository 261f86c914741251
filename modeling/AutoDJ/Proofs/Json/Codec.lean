import AutoDJ.Json.Codec
import AutoDJ.Proofs.Json.RoundTrip
import AutoDJ.Proofs.Text.Numeral
import Mathlib.Data.List.Forall2

/-!
This module contains the law of codecs, that they read what they write, and its proof for each way in which codecs
are put together.
-/

namespace AutoDJ.Json

structure Codec.Lawful (codec : Codec α) : Prop where
  wellFormed (a : α) : (codec.write a).WellFormed
  read?_write (a : α) : codec.read? (codec.write a) = some a

/--
A field that can be read from what is written of it: it gives a record the value that it has in another.
-/
structure Field.Copies (field : Field ρ) (copy : ρ → ρ → ρ) : Prop where
  wellFormed (r : ρ) : (field.write r).WellFormed
  read?_write (r blank : ρ) : field.read? (field.write r) blank = some (copy r blank)

theorem Field.copies_of {name : String} {codec : Codec α} {get : ρ → α} {set : α → ρ → ρ}
    (h : codec.Lawful) : (Field.of name codec get set).Copies fun r blank => set (get r) blank where
  wellFormed r := h.wellFormed (get r)
  read?_write r blank := by
    unfold Field.of
    dsimp only
    rw [h.read?_write, Option.map_some]

namespace Codec

variable {α ρ : Type} {codec : Codec α}

theorem lawful_bool : bool.Lawful where
  wellFormed b := .bool b
  read?_write _ := rfl

theorem lawful_text : text.Lawful where
  wellFormed text := .string text
  read?_write _ := rfl

theorem wellFormed_ofNat (n : Nat) : (Value.ofNat n).WellFormed := by
  refine .number ?_
  rw [Nat.toString_eq_repr, Nat.toList_repr]
  exact Numeral.isWritten_toDigits n

theorem read?_natBelow {bound n : Nat} (h : n < bound)
    : (natBelow bound).read? (.ofNat n) = some n := by
  unfold natBelow Value.ofNat
  dsimp only
  rw [Nat.toString_eq_repr, Nat.toList_repr, Text.digits?_toDigits]
  simpa using h

theorem lawful_word {bound : Nat} {ofNat : Nat → α} {toNat : α → Nat} (hbound : ∀ a, toNat a < bound)
    (hofNat : ∀ a, ofNat (toNat a) = a) : ((natBelow bound).imap ofNat toNat).Lawful where
  wellFormed a := wellFormed_ofNat (toNat a)
  read?_write a := by
    have hread : (natBelow bound).read? ((natBelow bound).write (toNat a)) = some (toNat a) :=
      read?_natBelow (hbound a)
    unfold imap
    dsimp only
    rw [hread, Option.map_some, hofNat]

theorem lawful_uint16 : uint16.Lawful :=
  lawful_word UInt16.toNat_lt_size fun _ => UInt16.ofNat_toNat

theorem lawful_uint32 : uint32.Lawful :=
  lawful_word UInt32.toNat_lt_size fun _ => UInt32.ofNat_toNat

theorem lawful_uint64 : uint64.Lawful :=
  lawful_word UInt64.toNat_lt_size fun _ => UInt64.ofNat_toNat

theorem lawful_optional (h : codec.Lawful) (hnull : ∀ a, codec.write a ≠ .null)
    : codec.optional.Lawful where
  wellFormed a? := by
    cases a? with
    | none => exact .null
    | some a => exact h.wellFormed a
  read?_write a? := by
    cases a? with
    | none => rfl
    | some a =>
      unfold optional
      dsimp only
      split
      . next hwrite => exact absurd hwrite (hnull a)
      . rw [h.read?_write, Option.map_some]

theorem lawful_list (h : codec.Lawful) : codec.list.Lawful where
  wellFormed as := by
    refine .array fun item hitem => ?_
    obtain ⟨a, -, rfl⟩ := List.mem_map.mp hitem
    exact h.wellFormed a
  read?_write as := by
    unfold list
    dsimp only
    induction as with
    | nil => rfl
    | cons a as ih =>
      rw [List.map_cons, List.mapM_cons, h.read?_write, ih]
      rfl

theorem lawful_choice {all : List α} {name : α → String}
    (h : ∀ a, all.find? (name · == name a) = some a) : (choice all name).Lawful where
  wellFormed a := .string (name a)
  read?_write a := h a

section Records

variable {fields : List (Field ρ)} {copies : List (ρ → ρ → ρ)} {r blank : ρ}

theorem write_record (fields : List (Field ρ)) (blank r : ρ)
    : (record fields blank).write r
        = .object (fields.map fun field => (some field.name, field.write r)) := by
  simp [record, Value.ofMembers]

def copyAll (copies : List (ρ → ρ → ρ)) (r blank : ρ) : ρ :=
  copies.foldl (fun blank copy => copy r blank) blank

theorem find?_field (hnames : (fields.map (·.name)).Nodup)
    : ∀ field ∈ fields, fields.find? (·.name == field.name) = some field := by
  induction fields with
  | nil => simp
  | cons first fields ih =>
    obtain ⟨hfirst, hnames⟩ := List.nodup_cons.mp hnames
    intro field hfield
    obtain rfl | hfield := List.mem_cons.mp hfield
    . simp
    . have hother : first.name ≠ field.name :=
        fun heq => hfirst (List.mem_map.mpr ⟨field, hfield, heq.symm⟩)
      rw [List.find?_cons_of_neg (by simpa using hother)]
      exact ih hnames field hfield

theorem readMembers_write {todo : List (Field ρ)} (h : todo.Forall₂ Field.Copies copies)
    (hfind : ∀ field ∈ todo, fields.find? (·.name == field.name) = some field)
    (hnames : (todo.map (·.name)).Nodup) (seen : List String) (hseen : ∀ field ∈ todo, field.name ∉ seen)
    (r blank : ρ)
    : readMembers fields (todo.map fun field => (some field.name, field.write r)) seen blank
        = some (copyAll copies r blank) := by
  induction h generalizing seen blank with
  | nil => rfl
  | @cons field copy todo copies hfield _ ih =>
    obtain ⟨hname, hnames⟩ := List.nodup_cons.mp hnames
    obtain ⟨hfirst, hfind⟩ := List.forall_mem_cons.mp hfind
    obtain ⟨hfresh, hseen⟩ := List.forall_mem_cons.mp hseen
    have hlater : ∀ other ∈ todo, other.name ∉ field.name :: seen := by
      intro other hother hmem
      obtain heq | hmem := List.mem_cons.mp hmem
      . exact hname (List.mem_map.mpr ⟨other, hother, heq⟩)
      . exact hseen other hother hmem
    rw [List.map_cons, readMembers, hfirst]
    dsimp only
    rw [if_neg (by simpa using hfresh), hfield.read?_write, Option.bind_some, ih hfind hnames _ hlater]
    rfl

theorem wellFormed_write (h : fields.Forall₂ Field.Copies copies) (r : ρ)
    : ∀ field ∈ fields, (field.write r).WellFormed := by
  induction h with
  | nil => simp
  | cons hfield _ ih => exact List.forall_mem_cons.mpr ⟨hfield.wellFormed r, ih⟩

theorem lawful_record (hnames : (fields.map (·.name)).Nodup) (h : fields.Forall₂ Field.Copies copies)
    (hall : ∀ r, copyAll copies r blank = r) : (record fields blank).Lawful where
  wellFormed r := by
    rw [write_record]
    refine .object ?_ ?_
    . simp
    . simpa using wellFormed_write h r
  read?_write r := by
    have hread := readMembers_write h (find?_field hnames) hnames [] (by simp) r blank
    rw [hall] at hread
    rw [write_record]
    exact hread

end Records

end Codec

end AutoDJ.Json
