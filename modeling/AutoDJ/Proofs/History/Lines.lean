import AutoDJ.History.Entry
import AutoDJ.Proofs.Text.Lines
import AutoDJ.Proofs.Text.Numeral

/-!
This module contains the proof that entries of the play history are read back from the text they are
stored in.

A line cannot hold every URI: it ends at the first line feed, and a carriage return at its end is taken
for a part of the line break.
-/

namespace AutoDJ.HistoryEntry

structure Writable (uri : String) : Prop where
  ne_empty : uri ≠ ""
  no_linefeed : '\n' ∉ uri.toList
  no_return : uri.toList.getLast? ≠ some '\r'

variable {entry : HistoryEntry} {entries : List HistoryEntry}

section Line

theorem toList_toLine (entry : HistoryEntry)
    : entry.toLine.toList
        = (toString entry.timestamp).toList ++ ':' :: [':'] ++ entry.uri.toList := by
  simp [toLine]

theorem mem_timestamp {n : Int64} {c : Char} (h : c ∈ (toString n).toList)
    : c = '-' ∨ c.isDigit = true :=
  Text.mem_toList_toString (i := n.toInt) h

theorem isBlank_of_mem_timestamp {n : Int64} {c : Char} (h : c ∈ (toString n).toList)
    : Text.isBlank c = false := by
  obtain rfl | hc := mem_timestamp h
  . rfl
  . exact Text.isBlank_of_isDigit hc

theorem breakOn_toLine (entry : HistoryEntry)
    : Text.breakOn "::" entry.toLine = some (toString entry.timestamp, entry.uri) := by
  have hcolon : ':' ∉ (toString entry.timestamp).toList := by
    intro hmem
    obtain hc | hc := mem_timestamp hmem <;> contradiction
  exact Text.breakOn_append rfl hcolon

theorem ofLine?_toLine (h : entry.uri ≠ "") : ofLine? entry.toLine = some entry := by
  unfold ofLine?
  rw [breakOn_toLine]
  simp [Text.trim_eq_self fun _ => isBlank_of_mem_timestamp, h]

theorem trim_toLine (entry : HistoryEntry) : Text.trim entry.toLine ≠ "" := by
  apply Text.trim_ne_empty (c := ':')
  . simp [toList_toLine]
  . rfl

theorem linefeed_not_mem_toLine (h : '\n' ∉ entry.uri.toList) : '\n' ∉ entry.toLine.toList := by
  intro hmem
  simp only [toList_toLine, List.append_assoc, List.mem_append, List.cons_append, List.mem_cons,
    List.nil_append] at hmem
  obtain htime | hcolon | hcolon | huri := hmem
  . obtain hc | hc := mem_timestamp htime <;> contradiction
  . contradiction
  . contradiction
  . exact h huri

theorem getLast?_toLine (entry : HistoryEntry)
    : entry.toLine.toList.getLast? = some (entry.uri.toList.getLast?.getD ':') := by
  simp [toList_toLine, List.getLast?_append, List.getLast?_cons]

theorem getLast?_toLine_ne_return (h : entry.uri.toList.getLast? ≠ some '\r')
    : entry.toLine.toList.getLast? ≠ some '\r' := by
  rw [getLast?_toLine]
  cases hlast : entry.uri.toList.getLast? with
  | none => decide
  | some c => rwa [hlast] at h

theorem ofLine?_some {line : String} (h : ofLine? line = some entry)
    : entry.uri ≠ "" ∧ entry.uri.toList ⊆ line.toList := by
  obtain ⟨⟨timestamp, uri⟩, hbreak, h⟩ := Option.bind_eq_some_iff.mp h
  obtain ⟨n, -, h⟩ := Option.bind_eq_some_iff.mp h
  obtain ⟨⟨before, after⟩, hchars, hpair⟩ := Option.map_eq_some_iff.mp hbreak
  obtain ⟨-, rfl⟩ := Prod.mk.inj hpair
  split at h
  . contradiction
  . next hempty =>
    obtain rfl := Option.some.inj h
    refine ⟨by simpa using hempty, ?_⟩
    rw [Text.breakChars_some hchars, String.toList_ofList]
    exact List.subset_append_right _ _

end Line

theorem lines_toText_cons (h : Writable entry.uri)
    : Text.lines (toText (entry :: entries)) = entry.toLine :: Text.lines (toText entries) := by
  have htext : (toText (entry :: entries)).toList
      = entry.toLine.toList ++ '\n' :: (toText entries).toList := by
    simp [toText]
  unfold Text.lines
  rw [htext, Text.lineChars_append (linefeed_not_mem_toLine h.no_linefeed)
    (getLast?_toLine_ne_return h.no_return)]
  simp

theorem ofText_toText (h : ∀ entry ∈ entries, Writable entry.uri)
    : ofText (toText entries) = entries := by
  induction entries with
  | nil => rfl
  | cons entry entries ih =>
    obtain ⟨hentry, hentries⟩ := List.forall_mem_cons.mp h
    have ih := ih hentries
    unfold ofText at *
    rw [lines_toText_cons hentry, List.filter_cons_of_pos (by simp [trim_toLine]),
      List.filterMap_cons_some (ofLine?_toLine hentry.ne_empty), ih]

theorem uri_of_mem_ofText {text : String} (h : entry ∈ ofText text)
    : entry.uri ≠ "" ∧ '\n' ∉ entry.uri.toList := by
  obtain ⟨line, hline, hentry⟩ := List.mem_filterMap.mp h
  obtain ⟨hempty, hsubset⟩ := ofLine?_some hentry
  have hmem := List.mem_of_mem_filter hline
  exact ⟨hempty, fun hfeed => Text.linefeed_not_mem_of_mem_lines hmem (hsubset hfeed)⟩

end AutoDJ.HistoryEntry
