import AutoDJ.Json.Quoted

namespace AutoDJ.Json.Quoted

theorem hexDigit?_digitChar : ∀ d < 16, hexDigit? (Nat.digitChar d) = some d := by
  decide

theorem le_toNat_digitChar : ∀ d < 16, 0x20 ≤ (Nat.digitChar d).toNat := by
  decide

theorem le_toNat_of_mem_write {text : String} : ∀ c ∈ write text, 0x20 ≤ c.toNat := by
  have hescape (c : Char) : ∀ d ∈ escapeChar c, 0x20 ≤ d.toNat := by
    unfold escapeChar
    split
    case h_8 =>
      split
      . next hcontrol =>
        have hhigh := le_toNat_digitChar (c.toNat / 16) (by omega)
        have hlow := le_toNat_digitChar (c.toNat % 16) (by omega)
        simp [hhigh, hlow]
      . next hcontrol => simpa using hcontrol
    all_goals simp
  intro c hc
  simp only [write, escape, List.mem_cons, List.mem_append, List.mem_flatMap, List.not_mem_nil,
    or_false] at hc
  obtain (rfl | ⟨d, -, hd⟩) | rfl := hc
  . decide
  . exact hescape d c hd
  . decide

namespace Reading

def goOn? (r : Reading) (c : Char) : Option Reading :=
  if r.isClosedBy c then none else r.next? c

theorem foldlM_number {n : Nat} (h : n < 0x20) (done : List Char)
    : ['\\', 'u', '0', '0', Nat.digitChar (n / 16), Nat.digitChar (n % 16)].foldlM goOn?
        { chars := some done }
        = some { chars := some (Char.ofNat n :: done) } := by
  have hhigh : hexDigit? (Nat.digitChar (n / 16)) = some (n / 16) := hexDigit?_digitChar _ (by omega)
  have hlow : hexDigit? (Nat.digitChar (n % 16)) = some (n % 16) := hexDigit?_digitChar _ (by omega)
  have hzero : hexDigit? '0' = some 0 := rfl
  have hcode : n / 16 * 16 + n % 16 = n := by omega
  have hfirst : isFirstSurrogate n = false := by simp [isFirstSurrogate]; omega
  have hsecond : isSecondSurrogate n = false := by simp [isSecondSurrogate]; omega
  simp [goOn?, next?, isClosedBy, hhigh, hlow, hzero, pushCode, hcode, hfirst, hsecond]

theorem foldlM_escapeChar (c : Char) (done : List Char)
    : (escapeChar c).foldlM goOn? { chars := some done } = some { chars := some (c :: done) } := by
  unfold escapeChar
  split
  any_goals rfl
  next hquote hbackslash _ _ _ _ _ =>
    split
    . next hcontrol => rw [foldlM_number hcontrol, Char.ofNat_toNat]
    . next hcontrol => simpa [goOn?, next?, isClosedBy, push, hcontrol] using And.intro hquote hbackslash

theorem foldlM_escape (cs done : List Char)
    : (escape cs).foldlM goOn? { chars := some done } = some { chars := some (cs.reverse ++ done) } := by
  induction cs generalizing done with
  | nil => rfl
  | cons c cs ih =>
    have hcons : escape (c :: cs) = escapeChar c ++ escape cs := rfl
    rw [hcons, List.foldlM_append, foldlM_escapeChar]
    simpa using ih (c :: done)

end Reading

end AutoDJ.Json.Quoted
