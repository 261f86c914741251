import AutoDJ.Text.Blank
import AutoDJ.Text.Lines
import Mathlib.Data.List.Basic
import Mathlib.Data.List.TakeWhile

namespace AutoDJ.Text

variable {cs line rest : List Char}

theorem lineChars_go_append (h : '\n' ∉ line) (done : List Char)
    : lineChars.go (line ++ '\n' :: rest) done
        = (lineChars.dropReturn (line.reverse ++ done)).reverse :: lineChars rest := by
  induction line generalizing done with
  | nil => rfl
  | cons c line ih =>
    obtain ⟨hc, hline⟩ := not_or.mp (mt List.mem_cons.mpr h)
    rw [List.cons_append, lineChars.go, if_neg (Ne.symm hc), ih hline]
    simp

theorem dropReturn_reverse (h : line.getLast? ≠ some '\r')
    : lineChars.dropReturn line.reverse = line.reverse := by
  unfold lineChars.dropReturn
  split
  . next hline =>
    rw [← List.head?_reverse, hline] at h
    contradiction
  . rfl

theorem lineChars_append (hfeed : '\n' ∉ line) (hreturn : line.getLast? ≠ some '\r')
    : lineChars (line ++ '\n' :: rest) = line :: lineChars rest := by
  unfold lineChars
  rw [lineChars_go_append hfeed, List.append_nil, dropReturn_reverse hreturn, List.reverse_reverse]
  rfl

theorem dropReturn_append {c : Char} (hc : c ≠ '\r') (cs rest : List Char)
    : lineChars.dropReturn (cs ++ c :: rest) = lineChars.dropReturn cs ++ c :: rest := by
  unfold lineChars.dropReturn
  cases cs with
  | nil => simp [hc]
  | cons d cs =>
    rw [List.cons_append]
    split <;> simp_all

theorem lineChars_append_of_ne {c : Char} {tail : List Char} (rest : List Char) (hc : c ≠ '\r')
    (hfeed : '\n' ∉ line ++ c :: tail)
    : ∃ kept, lineChars (line ++ c :: tail ++ '\n' :: rest) = (line ++ c :: kept) :: lineChars rest := by
  refine ⟨(lineChars.dropReturn tail.reverse).reverse, ?_⟩
  have hreverse : (line ++ c :: tail).reverse = tail.reverse ++ c :: line.reverse := by simp
  unfold lineChars
  rw [lineChars_go_append hfeed, List.append_nil, hreverse, dropReturn_append hc]
  simp [lineChars]

theorem dropReturn_subset (cs : List Char) : lineChars.dropReturn cs ⊆ cs := by
  unfold lineChars.dropReturn
  split
  . exact List.subset_cons_self _ _
  . exact List.Subset.refl _

theorem linefeed_not_mem_lineChars_go {done : List Char} (hdone : '\n' ∉ done)
    : ∀ line ∈ lineChars.go cs done, '\n' ∉ line := by
  induction cs generalizing done with
  | nil =>
    unfold lineChars.go
    split <;> simp [hdone]
  | cons c cs ih =>
    unfold lineChars.go
    split
    . intro line hline
      obtain rfl | hline := List.mem_cons.mp hline
      . rw [List.mem_reverse]
        exact fun h => hdone (dropReturn_subset _ h)
      . exact ih List.not_mem_nil line hline
    . next hc => exact ih (by simp [Ne.symm hc, hdone])

theorem linefeed_not_mem_of_mem_lines {text line : String} (h : line ∈ lines text)
    : '\n' ∉ line.toList := by
  obtain ⟨cs, hcs, rfl⟩ := List.mem_map.mp h
  rw [String.toList_ofList]
  exact linefeed_not_mem_lineChars_go List.not_mem_nil cs hcs

section Breaking

variable {before after : List Char}

theorem breakChars_some {sep : List Char} (h : breakChars sep cs = some (before, after))
    : cs = before ++ sep ++ after := by
  induction cs generalizing before with
  | nil =>
    unfold breakChars at h
    split at h
    . next hprefix =>
      obtain ⟨rfl, rfl⟩ := Prod.mk.inj (Option.some.inj h)
      exact List.isPrefixOf?_eq_some_iff_append_eq.mp hprefix |>.symm
    . contradiction
    . contradiction
  | cons c cs ih =>
    unfold breakChars at h
    split at h
    . next hprefix =>
      obtain ⟨rfl, rfl⟩ := Prod.mk.inj (Option.some.inj h)
      exact List.isPrefixOf?_eq_some_iff_append_eq.mp hprefix |>.symm
    . contradiction
    . next hcs =>
      obtain ⟨rfl, rfl⟩ := List.cons.inj hcs
      obtain ⟨⟨before', after'⟩, hbreak, hpair⟩ := Option.map_eq_some_iff.mp h
      obtain ⟨rfl, rfl⟩ := Prod.mk.inj hpair
      rw [ih hbreak]
      rfl

theorem breakChars_append {c : Char} (sep : List Char) (h : c ∉ before)
    : breakChars (c :: sep) (before ++ c :: sep ++ after) = some (before, after) := by
  induction before with
  | nil =>
    have hprefix : (c :: sep).isPrefixOf? (c :: sep ++ after) = some after :=
      List.isPrefixOf?_eq_some_iff_append_eq.mpr rfl
    unfold breakChars
    rw [List.nil_append, hprefix]
  | cons d before ih =>
    obtain ⟨hd, hbefore⟩ := not_or.mp (mt List.mem_cons.mpr h)
    have hprefix : (c :: sep).isPrefixOf? (d :: (before ++ c :: sep ++ after)) = none := by
      simp [List.isPrefixOf?, hd]
    unfold breakChars
    rw [List.cons_append, List.cons_append, hprefix]
    dsimp only
    rw [ih hbefore]
    rfl

theorem breakOn_append {before after sep : String} {c : Char} {cs : List Char}
    (hsep : sep.toList = c :: cs) (h : c ∉ before.toList)
    : breakOn sep (before ++ sep ++ after) = some (before, after) := by
  unfold breakOn
  rw [String.toList_append, String.toList_append, hsep, breakChars_append cs h]
  simp

end Breaking

@[simp]
theorem dropStart?_append (start rest : String) : dropStart? start (start ++ rest) = some rest := by
  have hprefix : start.toList.isPrefixOf? (start.toList ++ rest.toList) = some rest.toList :=
    List.isPrefixOf?_eq_some_iff_append_eq.mpr rfl
  unfold dropStart?
  rw [String.toList_append, hprefix]
  simp

section Trimming

variable {p : Char → Bool} {before after : List Char}

theorem stripChars_append_left (h : ∀ c ∈ before, p c = true)
    : stripChars p (before ++ cs) = stripChars p cs := by
  unfold stripChars
  rw [List.dropWhile_append_of_pos h]

theorem stripChars_append_right (h : ∀ c ∈ after, p c = true)
    : stripChars p (cs ++ after) = stripChars p cs := by
  have hreverse : ∀ c ∈ after.reverse, p c = true := by simpa using h
  unfold stripChars
  rw [List.dropWhile_append]
  split
  . next hdropped => rw [List.isEmpty_iff.mp hdropped, List.dropWhile_eq_nil_iff.mpr h]
  . rw [List.reverse_append, List.dropWhile_append_of_pos hreverse]

theorem stripChars_eq_self (hfirst : ∀ c ∈ cs.head?, p c = false) (hlast : ∀ c ∈ cs.getLast?, p c = false)
    : stripChars p cs = cs := by
  have hdrop {cs : List Char} (h : ∀ c ∈ cs.head?, p c = false) : cs.dropWhile p = cs := by
    cases cs with
    | nil => rfl
    | cons c cs => simp [h c rfl]
  unfold stripChars
  rw [hdrop hfirst, hdrop (by rwa [List.head?_reverse]), List.reverse_reverse]

def Strips (p : Char → Bool) (cs kept : List Char) : Prop :=
  ∃ before after, cs = before ++ (kept ++ after)
    ∧ (∀ c ∈ before, p c = true) ∧ (∀ c ∈ after, p c = true)
    ∧ (∀ c ∈ kept.head?, p c = false) ∧ (∀ c ∈ kept.getLast?, p c = false)

theorem strips_stripChars (p : Char → Bool) (cs : List Char) : Strips p cs (stripChars p cs) := by
  have hfront := List.takeWhile_append_dropWhile (p := p) (l := cs)
  have hkept : cs.dropWhile p = stripChars p cs ++ ((cs.dropWhile p).reverse.takeWhile p).reverse := by
    have hback := List.takeWhile_append_dropWhile (p := p) (l := (cs.dropWhile p).reverse)
    rw [← List.reverse_inj, List.reverse_append, List.reverse_reverse]
    unfold stripChars
    rw [List.reverse_reverse, hback]
  have hhead {cs : List Char} {c : Char} (hc : (cs.dropWhile p).head? = some c) : p c = false := by
    have hkept := List.head?_dropWhile_not p cs
    rwa [hc] at hkept
  refine ⟨cs.takeWhile p, _, hfront.symm.trans (congrArg _ hkept), fun c => List.mem_takeWhile_imp,
    fun c hc => List.mem_takeWhile_imp (List.mem_reverse.mp hc), fun c hc => ?_, fun c hc => ?_⟩
  . apply hhead
    rw [hkept, List.head?_append, Option.mem_def.mp hc, Option.some_or]
  . unfold stripChars at hc
    rw [List.getLast?_reverse] at hc
    exact hhead hc

theorem stripChars_eq_iff {kept : List Char} : stripChars p cs = kept ↔ Strips p cs kept := by
  constructor
  . rintro rfl
    exact strips_stripChars p cs
  . rintro ⟨before, after, rfl, hbefore, hafter, hfirst, hlast⟩
    rw [stripChars_append_left hbefore, stripChars_append_right hafter, stripChars_eq_self hfirst hlast]

theorem isBlank_of_isDigit {c : Char} (h : c.isDigit = true) : isBlank c = false := by
  obtain ⟨hlow, hhigh⟩ := Char.isDigit_iff_toNat.mp h
  have hzero : '0'.toNat = 48 := rfl
  have hnine : '9'.toNat = 57 := rfl
  unfold isBlank
  simp only [Bool.or_eq_false_iff, Bool.and_eq_false_iff, decide_eq_false_iff_not,
    beq_eq_false_iff_ne]
  omega

theorem trim_eq_self {s : String} (h : ∀ c ∈ s.toList, isBlank c = false) : trim s = s := by
  unfold trim trimChars
  rw [stripChars_eq_self (fun c hc => h c (List.mem_of_mem_head? hc))
    (fun c hc => h c (List.mem_of_mem_getLast? hc)), String.ofList_toList]

theorem trim_append {line blanks : String} (h : ∀ c ∈ blanks.toList, isBlank c = true)
    : trim (line ++ blanks) = trim line := by
  unfold trim trimChars
  rw [String.toList_append, stripChars_append_right h]

theorem trim_indent {line blanks : String} (h : ∀ c ∈ blanks.toList, isBlank c = true)
    : trim (blanks ++ line) = trim line := by
  unfold trim trimChars
  rw [String.toList_append, stripChars_append_left h]

theorem isBlank_getLast?_trim {s : String} {c : Char} (h : (trim s).toList.getLast? = some c)
    : isBlank c = false := by
  obtain ⟨before, after, -, -, -, -, hlast⟩ := strips_stripChars isBlank s.toList
  unfold trim trimChars at h
  rw [String.toList_ofList] at h
  exact hlast c h

theorem trim_ne_empty {s : String} {c : Char} (hmem : c ∈ s.toList) (hc : isBlank c = false)
    : trim s ≠ "" := by
  have hdrop {cs : List Char} (hcs : c ∈ cs) : c ∈ cs.dropWhile isBlank := by
    rw [← List.takeWhile_append_dropWhile (p := isBlank) (l := cs)] at hcs
    obtain htake | hdrop := List.mem_append.mp hcs
    . have := List.mem_takeWhile_imp htake
      simp [hc] at this
    . exact hdrop
  have hkept : c ∈ (trim s).toList := by
    unfold trim trimChars stripChars
    rw [String.toList_ofList, List.mem_reverse]
    exact hdrop (List.mem_reverse.mpr (hdrop hmem))
  intro hempty
  simp [hempty] at hkept

theorem exists_not_blank {s : String} (h : trim s ≠ "") : ∃ c ∈ s.toList, isBlank c = false := by
  by_contra hall
  have hblank (c : Char) (hc : c ∈ s.toList) : isBlank c = true := by
    simpa using fun hkept => hall ⟨c, hc, hkept⟩
  apply h
  unfold trim trimChars stripChars
  rw [List.dropWhile_eq_nil_iff.mpr hblank]
  rfl

end Trimming

end AutoDJ.Text
