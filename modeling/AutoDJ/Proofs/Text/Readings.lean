import AutoDJ.Text.Blank
import AutoDJ.Text.Lines
import Mathlib.Data.List.TakeWhile

/-!
This module contains the reading of texts that are put together of parts: the fields of a line come back from
the line, and the lines of a text are read one by one where a carriage return at the end of a line does not
matter.
-/

namespace AutoDJ.Text

section Fields

theorem fields_joinWith {sep : Char} {parts : List String} (hne : parts ≠ [])
    (h : ∀ part ∈ parts, sep ∉ part.toList)
    : fields sep (joinWith (String.singleton sep) parts) = parts := by
  unfold fields joinWith
  rw [String.toList_intercalate, String.toList_singleton, List.splitOn_intercalate sep (by simpa using h)
    (by simpa using hne)]
  simp

theorem mem_joinWith {sep : String} {parts : List String} {c : Char} (h : c ∈ (joinWith sep parts).toList)
    : c ∈ sep.toList ∨ ∃ part ∈ parts, c ∈ part.toList := by
  unfold joinWith at h
  induction parts with
  | nil => simp at h
  | cons part parts ih =>
    cases parts with
    | nil => exact .inr ⟨part, by simp, by simpa using h⟩
    | cons next parts =>
      rw [String.intercalate_cons_cons, String.toList_append, String.toList_append, List.mem_append,
        List.mem_append] at h
      obtain (hpart | hsep) | hrest := h
      . exact .inr ⟨part, by simp, hpart⟩
      . exact .inl hsep
      . obtain hsep | ⟨other, hother, hc⟩ := ih hrest
        . exact .inl hsep
        . exact .inr ⟨other, List.mem_cons_of_mem _ hother, hc⟩

theorem splitOn_concat {sep c : Char} (hc : c ≠ sep) (cs : List Char)
    : ∃ init last, cs.splitOn sep = init ++ [last] ∧ (cs ++ [c]).splitOn sep = init ++ [last ++ [c]] := by
  simp only [List.splitOn_eq_splitOnP]
  induction cs with
  | nil => exact ⟨[], [], by simp, by simp [List.splitOnP_cons_eq_if_modifyHead, hc]⟩
  | cons x cs ih =>
    obtain ⟨init, last, hcs, hmore⟩ := ih
    rw [List.cons_append, List.splitOnP_cons_eq_if_modifyHead, List.splitOnP_cons_eq_if_modifyHead, hcs,
      hmore]
    split
    . exact ⟨[] :: init, last, rfl, rfl⟩
    . cases init with
      | nil => exact ⟨[], x :: last, rfl, rfl⟩
      | cons first init => exact ⟨(x :: first) :: init, last, rfl, rfl⟩

theorem join_lines (parts : List String)
    : String.join (parts.map (· ++ "\n")) = joinWith "\n" (parts ++ [""]) := by
  unfold joinWith
  induction parts with
  | nil => rfl
  | cons part parts ih =>
    rw [List.map_cons, String.join_cons, ih, List.cons_append,
      String.intercalate_cons_of_ne_nil (List.append_ne_nil_of_right_ne_nil _ (List.cons_ne_nil _ _))]

end Fields

section Lines

theorem lineChars_go_line {line : List Char} (h : '\n' ∉ line) (done : List Char)
    : lineChars.go line done = if done.isEmpty && line.isEmpty then [] else [done.reverse ++ line] := by
  induction line generalizing done with
  | nil => simp [lineChars.go]
  | cons c line ih =>
    obtain ⟨hc, hline⟩ := not_or.mp (mt List.mem_cons.mpr h)
    rw [lineChars.go, if_neg (Ne.symm hc), ih hline]
    simp

theorem lines_line {line : String} (h : '\n' ∉ line.toList) : lines line = if line = "" then [] else [line] := by
  unfold lines lineChars
  rw [lineChars_go_line h]
  by_cases hempty : line = "" <;> simp [hempty]

variable {α : Type} {f : String → Option α}

/--
A reading of lines for which a carriage return at the end does not matter, and which makes nothing of an empty
line.
-/
structure IsLineReading (f : String → Option α) : Prop where
  empty : f "" = none
  carriageReturn (line : String) : f (line ++ "\r") = f line

namespace IsLineReading

theorem dropReturn (h : IsLineReading f) (line : List Char)
    : f (String.ofList (lineChars.dropReturn line).reverse) = f (String.ofList line.reverse) := by
  unfold lineChars.dropReturn
  split
  . next line =>
    rw [List.reverse_cons, String.ofList_append]
    exact (h.carriageReturn _).symm
  . rfl

theorem filterMap_lineChars_go (h : IsLineReading f) (cs rest done : List Char)
    : (lineChars.go (cs ++ '\n' :: rest) done).filterMap (f ∘ String.ofList)
        = (lineChars.go cs done).filterMap (f ∘ String.ofList)
          ++ (lineChars rest).filterMap (f ∘ String.ofList) := by
  induction cs generalizing done with
  | nil =>
    rw [List.nil_append]
    unfold lineChars.go
    rw [if_pos rfl, List.filterMap_cons, Function.comp_apply, h.dropReturn]
    cases done with
    | nil =>
      rw [List.reverse_nil, String.ofList_nil, h.empty]
      rfl
    | cons c done =>
      rw [List.isEmpty_cons, if_neg Bool.false_ne_true, List.filterMap_cons, Function.comp_apply]
      cases f (String.ofList (c :: done).reverse) <;> rfl
  | cons c cs ih =>
    rw [List.cons_append]
    unfold lineChars.go
    split
    . rw [List.filterMap_cons, List.filterMap_cons, ih]
      split <;> rfl
    . exact ih (c :: done)

theorem filterMap_lines_append (h : IsLineReading f) (text rest : String)
    : (lines (text ++ "\n" ++ rest)).filterMap f = (lines text).filterMap f ++ (lines rest).filterMap f := by
  have hchars : (text ++ "\n" ++ rest).toList = text.toList ++ '\n' :: rest.toList := by simp
  unfold lines
  rw [hchars, List.filterMap_map, List.filterMap_map, List.filterMap_map]
  exact h.filterMap_lineChars_go _ _ _

theorem filterMap_lines_joinWith (h : IsLineReading f) (parts : List String)
    : (lines (joinWith "\n" parts)).filterMap f = parts.flatMap fun part => (lines part).filterMap f := by
  unfold joinWith
  induction parts with
  | nil => rfl
  | cons part parts ih =>
    cases parts with
    | nil => simp
    | cons next parts =>
      rw [String.intercalate_cons_cons, h.filterMap_lines_append, ih]
      rfl

theorem filterMap_lines_line (h : IsLineReading f) {line : String} (hfeed : '\n' ∉ line.toList)
    : (lines line).filterMap f = (f line).toList := by
  rw [lines_line hfeed]
  split
  . next hempty =>
    rw [hempty, h.empty]
    rfl
  . rw [List.filterMap_cons]
    cases f line <;> rfl

theorem filterMap_lines_indent_go (h : IsLineReading f)
    (hindent : ∀ blanks line : String, (∀ c ∈ blanks.toList, isBlank c = true) → f (blanks ++ line) = f line)
    {line : String} (hfeed : '\n' ∉ line.toList) {before blanks : List Char}
    (hbefore : ∀ c ∈ before, isBlank c = true ∧ c ≠ '\n') (hblanks : ∀ c ∈ blanks, isBlank c = true)
    : (lines (String.ofList (before ++ blanks) ++ line)).filterMap f = (f line).toList := by
  induction blanks generalizing before with
  | nil =>
    have hfree : '\n' ∉ before := fun hmem => (hbefore _ hmem).2 rfl
    have hstart : f (String.ofList before ++ line) = f line :=
      hindent _ _ fun c hc => (hbefore c (by simpa using hc)).1
    rw [List.append_nil, h.filterMap_lines_line (by simp [hfree, hfeed]), hstart]
  | cons c blanks ih =>
    obtain ⟨hc, hblanks⟩ := List.forall_mem_cons.mp hblanks
    by_cases hlf : c = '\n'
    . -- the blanks before the line feed are a line of their own
      have hcut : String.ofList (before ++ c :: blanks) ++ line
          = String.ofList before ++ "\n" ++ (String.ofList ([] ++ blanks) ++ line) := by
        rw [hlf, ← String.toList_inj]
        simp
      have hfree : '\n' ∉ (String.ofList before).toList := by
        rw [String.toList_ofList]
        exact fun hmem => (hbefore _ hmem).2 rfl
      have hempty : f (String.ofList before) = none := by
        rw [← String.append_empty (s := String.ofList before), hindent _ _ ?_, h.empty]
        exact fun c hc => (hbefore c (by simpa using hc)).1
      rw [hcut, h.filterMap_lines_append, h.filterMap_lines_line hfree, hempty,
        ih (List.forall_mem_nil _) hblanks]
      rfl
    . have hnext : before ++ c :: blanks = before ++ [c] ++ blanks := by simp
      rw [hnext]
      exact ih (List.forall_mem_append.mpr ⟨hbefore, by simpa using ⟨hc, hlf⟩⟩) hblanks

theorem filterMap_lines_indent (h : IsLineReading f)
    (hindent : ∀ blanks line : String, (∀ c ∈ blanks.toList, isBlank c = true) → f (blanks ++ line) = f line)
    {blanks line : String} (hfeed : '\n' ∉ line.toList) (hblanks : ∀ c ∈ blanks.toList, isBlank c = true)
    : (lines (blanks ++ line)).filterMap f = (f line).toList := by
  have hlist := h.filterMap_lines_indent_go hindent hfeed (List.forall_mem_nil _) hblanks
  rwa [List.nil_append, String.ofList_toList] at hlist

theorem findSome?_lines_line (h : IsLineReading f) {line : String} (hfeed : '\n' ∉ line.toList)
    : (lines line).findSome? f = f line := by
  rw [← List.head?_filterMap, h.filterMap_lines_line hfeed]
  cases f line <;> rfl

theorem findSome?_lines_joinWith (h : IsLineReading f) (parts : List String)
    : (lines (joinWith "\n" parts)).findSome? f = parts.findSome? fun part => (lines part).findSome? f := by
  rw [← List.head?_filterMap, h.filterMap_lines_joinWith, List.head?_flatMap]
  simp only [List.head?_filterMap]

theorem findSome?_lines_indent (h : IsLineReading f)
    (hindent : ∀ blanks line : String, (∀ c ∈ blanks.toList, isBlank c = true) → f (blanks ++ line) = f line)
    {blanks line : String} (hfeed : '\n' ∉ line.toList) (hblanks : ∀ c ∈ blanks.toList, isBlank c = true)
    : (lines (blanks ++ line)).findSome? f = f line := by
  rw [← List.head?_filterMap, h.filterMap_lines_indent hindent hfeed hblanks]
  cases f line <;> rfl

end IsLineReading

end Lines

end AutoDJ.Text
