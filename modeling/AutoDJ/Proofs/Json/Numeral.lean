import AutoDJ.Json.Numeral

namespace AutoDJ.Json.Numeral

def read? : List Char → Option Numeral
  | [] => none
  | c :: cs => (start? c).bind fun numeral => cs.foldlM next? numeral

def IsWritten (cs : List Char) : Prop :=
  ∃ numeral, read? cs = some numeral ∧ numeral.isComplete = true

theorem read?_append {cs : List Char} {numeral : Numeral} (h : read? cs = some numeral) (rest : List Char)
    : read? (cs ++ rest) = rest.foldlM next? numeral := by
  cases cs with
  | nil => contradiction
  | cons c cs =>
    obtain ⟨start, hstart, hcs⟩ := Option.bind_eq_some_iff.mp h
    unfold read? at *
    rw [List.cons_append]
    simp [hstart, hcs]

theorem isDigit_digitChar : ∀ d < 10, (Nat.digitChar d).isDigit = true := by
  decide

theorem read?_digitChar : ∀ d < 10, read? [Nat.digitChar d] = some (if d = 0 then zero else whole) := by
  decide

theorem read?_toDigits (n : Nat) : read? (Nat.toDigits 10 n) = some (if n = 0 then zero else whole) := by
  induction n using Nat.strongRecOn with
  | ind n ih =>
    by_cases hsmall : n < 10
    . rw [Nat.toDigits_of_lt_base hsmall]
      exact read?_digitChar n hsmall
    . have hfront := ih (n / 10) (by omega)
      have hdigit : (Nat.digitChar (n % 10)).isDigit = true :=
        isDigit_digitChar _ (Nat.mod_lt n (by decide))
      rw [if_neg (by omega)] at hfront
      rw [Nat.toDigits_of_base_le (by decide) (by omega), read?_append hfront, if_neg (by omega)]
      simp [next?, hdigit]

theorem isWritten_toDigits (n : Nat) : IsWritten (Nat.toDigits 10 n) := by
  refine ⟨_, read?_toDigits n, ?_⟩
  split <;> rfl

end AutoDJ.Json.Numeral
