import AutoDJ.Text.Numeral

namespace AutoDJ.Text

theorem digits?_go_eq {cs : List Char} (h : ∀ c ∈ cs, c.isDigit = true) (n : Nat)
    : digits?.go cs n = some (Nat.ofDigitChars 10 cs n) := by
  induction cs generalizing n with
  | nil => rfl
  | cons c cs ih =>
    obtain ⟨hc, hcs⟩ := List.forall_mem_cons.mp h
    rw [digits?.go, if_pos hc, ih hcs]
    rfl

theorem isDigit_of_mem_toDigits {n : Nat} : ∀ c ∈ Nat.toDigits 10 n, c.isDigit = true :=
  fun _ => Nat.isDigit_of_mem_toDigits (by decide) (by decide)

@[simp]
theorem digits?_toDigits (n : Nat) : digits? (Nat.toDigits 10 n) = some n := by
  unfold digits?
  rw [if_neg (by simp), digits?_go_eq isDigit_of_mem_toDigits,
    Nat.ofDigitChars_toDigits (by decide) (by decide)]

theorem toList_toString_ofNat (n : Nat) : (toString (Int.ofNat n)).toList = Nat.toDigits 10 n :=
  String.toList_ofList

theorem toList_toString_negSucc (n : Nat)
    : (toString (Int.negSucc n)).toList = '-' :: Nat.toDigits 10 (n + 1) := by
  change ("-" ++ (n + 1).repr).toList = _
  rw [String.toList_append, Nat.toList_repr]
  rfl

theorem mem_toList_toString {i : Int} {c : Char} (h : c ∈ (toString i).toList)
    : c = '-' ∨ c.isDigit = true := by
  cases i with
  | ofNat n =>
    rw [toList_toString_ofNat] at h
    exact .inr (isDigit_of_mem_toDigits c h)
  | negSucc n =>
    rw [toList_toString_negSucc] at h
    obtain rfl | h := List.mem_cons.mp h
    . exact .inl rfl
    . exact .inr (isDigit_of_mem_toDigits c h)

theorem unsigned?_toDigits {bound n : Nat} (h : n < bound)
    : unsigned? bound (Nat.toDigits 10 n) = some n := by
  unfold unsigned?
  -- the first digit is no sign
  split
  . next rest hrest =>
    have := isDigit_of_mem_toDigits (n := n) '+' (by simp [hrest])
    contradiction
  . simp [h]

theorem toList_toString_uint64 (n : UInt64) : (toString n).toList = Nat.toDigits 10 n.toNat :=
  Nat.toList_repr

@[simp]
theorem readUInt64?_toString (n : UInt64) : readUInt64? (toString n) = some n := by
  unfold readUInt64?
  rw [toList_toString_uint64, unsigned?_toDigits n.toNat_lt_size]
  simp

theorem signed?_toString {bound : Nat} {i : Int} (hlow : -(bound : Int) ≤ i) (hhigh : i < bound)
    : signed? bound (toString i).toList = some i := by
  unfold signed?
  cases i with
  | ofNat n =>
    rw [toList_toString_ofNat]
    -- the first digit is no sign
    split
    . next rest hrest =>
      have := isDigit_of_mem_toDigits (n := n) '+' (by simp [hrest])
      contradiction
    . next rest hrest =>
      have := isDigit_of_mem_toDigits (n := n) '-' (by simp [hrest])
      contradiction
    . simp only [digits?_toDigits, Option.bind_eq_bind, Option.bind_some, Option.pure_def,
        Option.map_some, Option.filter_some]
      rw [if_pos]
      . rfl
      . simp only [Bool.and_eq_true, decide_eq_true_eq]
        exact ⟨hlow, hhigh⟩
  | negSucc n =>
    rw [toList_toString_negSucc]
    simp only [digits?_toDigits, Option.bind_eq_bind, Option.bind_some, Option.pure_def,
      Option.map_some, Option.filter_some]
    rw [if_pos]
    . rfl
    . simp only [Bool.and_eq_true, decide_eq_true_eq]
      exact ⟨hlow, hhigh⟩

@[simp]
theorem readInt64?_toString (n : Int64) : readInt64? (toString n) = some n := by
  have hprinted : toString n = toString n.toInt := rfl
  unfold readInt64?
  rw [hprinted, signed?_toString]
  . simp
  . exact Int64.le_toInt n
  . exact Int64.toInt_lt n

end AutoDJ.Text
