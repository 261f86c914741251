import AutoDJ.Text.Blank

namespace AutoDJ.Text

variable {c : Char} {cs word : List Char}

theorem wordChars_go_eq (word : List Char) (done : List (List Char))
    : wordChars.go cs word done = done.reverse ++ wordChars.go cs word [] := by
  induction cs generalizing word done with
  | nil =>
    unfold wordChars.go wordChars.close
    split <;> simp
  | cons c cs ih =>
    unfold wordChars.go
    split
    . rw [ih [] (wordChars.close word done), ih [] (wordChars.close word [])]
      unfold wordChars.close
      split <;> simp
    . exact ih (c :: word) done

theorem wordChars_go_append (hc : isBlank c = true) (rest : List Char) (word : List Char)
    (done : List (List Char))
    : wordChars.go (cs ++ c :: rest) word done = wordChars.go cs word done ++ wordChars rest := by
  induction cs generalizing word done with
  | nil =>
    have hblank
        : wordChars.go (c :: rest) word done = wordChars.go rest [] (wordChars.close word done) := by
      rw [wordChars.go, if_pos hc]
    rw [List.nil_append, hblank, wordChars_go_eq]
    rfl
  | cons d cs ih =>
    rw [List.cons_append, wordChars.go, wordChars.go]
    split
    . exact ih [] (wordChars.close word done)
    . exact ih (d :: word) done

theorem wordChars_append (hc : isBlank c = true) (cs rest : List Char)
    : wordChars (cs ++ c :: rest) = wordChars cs ++ wordChars rest :=
  wordChars_go_append hc rest [] []

theorem wordChars_blanks_append (hc : isBlank c = true) (n : Nat) (cs : List Char)
    : wordChars (List.replicate n c ++ cs) = wordChars cs := by
  induction n with
  | zero => rfl
  | succ n ih =>
    rw [List.replicate_succ, List.cons_append, ← ih]
    exact wordChars_append hc [] _

theorem wordChars_go_of_no_blank (h : ∀ c ∈ cs, isBlank c = false) (word : List Char)
    (done : List (List Char))
    : wordChars.go cs word done = (wordChars.close (cs.reverse ++ word) done).reverse := by
  induction cs generalizing word with
  | nil => rfl
  | cons c cs ih =>
    obtain ⟨hc, hcs⟩ := List.forall_mem_cons.mp h
    rw [wordChars.go, hc, if_neg Bool.false_ne_true, ih hcs]
    simp

theorem wordChars_eq_singleton (hempty : word ≠ []) (h : ∀ c ∈ word, isBlank c = false)
    : wordChars word = [word] := by
  unfold wordChars
  rw [wordChars_go_of_no_blank h]
  simp [wordChars.close, hempty]

end AutoDJ.Text
