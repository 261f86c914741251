import AutoDJ.Proofs.Json.RoundTrip

namespace AutoDJ.Json

def IsPrintable (cs : List Char) : Prop :=
  ∀ c ∈ cs, 0x20 ≤ c.toNat

@[simp]
theorem isPrintable_append {cs ds : List Char} : IsPrintable (cs ++ ds) ↔ IsPrintable cs ∧ IsPrintable ds :=
  List.forall_mem_append

@[simp]
theorem isPrintable_cons {c : Char} {cs : List Char} : IsPrintable (c :: cs) ↔ 0x20 ≤ c.toNat ∧ IsPrintable cs :=
  List.forall_mem_cons

@[simp]
theorem isPrintable_nil : IsPrintable [] :=
  nofun

namespace Numeral

variable {numeral numeral' : Numeral} {c : Char}

theorem le_toNat_of_isDigit (h : c.isDigit = true) : 0x20 ≤ c.toNat := by
  have hzero : '0'.toNat = 48 := rfl
  have := Char.isDigit_iff_toNat.mp h
  omega

theorem le_toNat_of_next? (h : numeral.next? c = some numeral') : 0x20 ≤ c.toNat := by
  obtain hcontrol | hle := Nat.lt_or_ge c.toNat 0x20
  . have hdigit : c.isDigit = false :=
      Bool.eq_false_iff.mpr fun hdigit => Nat.not_le_of_lt hcontrol (le_toNat_of_isDigit hdigit)
    have hne (d : Char) (hd : 0x20 ≤ d.toNat) : c ≠ d := by
      rintro rfl
      exact Nat.not_le_of_lt hcontrol hd
    cases numeral <;>
      simp [next?, start?, afterWhole?, hdigit, hne '-', hne '+', hne '0', hne '.', hne 'e', hne 'E'] at h
  . exact hle

theorem isPrintable_of_isWritten {cs : List Char} (h : IsWritten cs) : IsPrintable cs := by
  obtain ⟨numeral, hread, -⟩ := h
  have hrest (cs : List Char) (start : Numeral) (hcs : cs.foldlM next? start = some numeral)
      : IsPrintable cs := by
    induction cs generalizing start with
    | nil => exact isPrintable_nil
    | cons c cs ih =>
      rw [List.foldlM_cons] at hcs
      obtain ⟨next, hnext, hcs⟩ := Option.bind_eq_some_iff.mp hcs
      exact isPrintable_cons.mpr ⟨le_toNat_of_next? hnext, ih next hcs⟩
  cases cs with
  | nil => exact isPrintable_nil
  | cons c cs =>
    obtain ⟨start, hstart, hcs⟩ := Option.bind_eq_some_iff.mp hread
    refine isPrintable_cons.mpr ⟨?_, hrest cs start hcs⟩
    obtain rfl | hdigit := start?_some hstart
    . decide
    . exact le_toNat_of_isDigit hdigit

end Numeral

namespace Value

theorem isPrintable_items {depth : Nat} {items : List Value}
    (h : ∀ item ∈ items, IsPrintable (item.write .singleLine depth))
    : IsPrintable (writeItems .singleLine depth items) := by
  induction items with
  | nil => exact isPrintable_nil
  | cons item items ih =>
    obtain ⟨hitem, hitems⟩ := List.forall_mem_cons.mp h
    simp [writeItems, Layout.lineBreak, hitem, ih hitems]

theorem isPrintable_member {depth : Nat} {member : Quotation × Value}
    (h : IsPrintable (member.2.write .singleLine depth))
    : IsPrintable (writeMember .singleLine depth member) := by
  obtain ⟨name, value⟩ := member
  have hname : IsPrintable (writeQuotation name) := Quoted.le_toNat_of_mem_write
  simp [writeMember, Layout.colon, hname, h]

theorem isPrintable_members {depth : Nat} {members : List (Quotation × Value)}
    (h : ∀ member ∈ members, IsPrintable (member.2.write .singleLine depth))
    : IsPrintable (writeMembers .singleLine depth members) := by
  induction members with
  | nil => exact isPrintable_nil
  | cons member members ih =>
    obtain ⟨hmember, hmembers⟩ := List.forall_mem_cons.mp h
    simp [writeMembers, Layout.lineBreak, isPrintable_member hmember, ih hmembers]

theorem isPrintable_write {value : Value} (h : value.WellFormed) (depth : Nat)
    : IsPrintable (value.write .singleLine depth) := by
  induction h generalizing depth with
  | null => simp [write]
  | bool b => cases b <;> simp [write]
  | number h => exact Numeral.isPrintable_of_isWritten h
  | string text => exact Quoted.le_toNat_of_mem_write
  | @array items _ ih =>
    cases items with
    | nil => simp [write]
    | cons item items =>
      obtain ⟨hitem, hitems⟩ := List.forall_mem_cons.mp fun item hitem => ih item hitem (depth + 1)
      simp [write, Layout.lineBreak, hitem, isPrintable_items hitems]
  | @object members _ _ ih =>
    cases members with
    | nil => simp [write]
    | cons member members =>
      obtain ⟨hmember, hmembers⟩ := List.forall_mem_cons.mp fun member hmember => ih member hmember (depth + 1)
      simp [write, Layout.lineBreak, isPrintable_member hmember, isPrintable_members hmembers]

end Value

end AutoDJ.Json
