import AutoDJ.Proofs.History.Lines
import AutoDJ.Proofs.History.Tail

namespace AutoDJ

open HistoryEntry (Writable)

namespace History

variable {s : Type} {tail : Tail s} {text : s → Option String}

def stored (text : s → Option String) (state : s) : List HistoryEntry :=
  ((text state).map HistoryEntry.ofText).getD []

theorem stored_congr {state state' : s} (h : text state' = text state)
    : stored text state' = stored text state := by
  unfold stored
  rw [h]

theorem stored_of_toText {state : s} {entries : List HistoryEntry}
    (htext : text state = some (HistoryEntry.toText entries))
    (h : ∀ entry ∈ entries, Writable entry.uri) : stored text state = entries := by
  unfold stored
  rw [htext]
  exact HistoryEntry.ofText_toText h

def known (text : s → Option String) (now : History × s) : List HistoryEntry :=
  now.1.recent ++ stored text now.2

theorem entries_ends (htail : tail.Faithful text) (history : History) (state : s)
    : (history.entries tail).Ends state
        (fun entries after => entries = known text (history, state) ∧ text after = text state)
        (fun _ after => text after = text state) := by
  unfold entries
  rw [Play.ends_bind]
  apply (htail.entries_ends state).mono
  . rintro entries after ⟨rfl, hafter⟩
    exact ⟨rfl, hafter⟩
  . exact fun _ _ => id

/--
What a history and its tail know is the front of all entries, and only entries that `bound` has no room
for are missing from it.
-/
structure Retains (bound : Nat) (all known : List HistoryEntry) : Prop where
  isPrefix : known <+: all
  long : min all.length bound ≤ known.length
  writable : ∀ entry ∈ known, Writable entry.uri

namespace Retains

variable {bound : Nat} {all known : List HistoryEntry} {entry : HistoryEntry}

theorem refl (h : ∀ entry ∈ all, Writable entry.uri) : Retains bound all all :=
  ⟨List.prefix_refl all, Nat.min_le_left _ _, h⟩

theorem cons (h : Retains bound all known) (hentry : Writable entry.uri)
    : Retains bound (entry :: all) (entry :: known) := by
  constructor
  . exact (List.prefix_cons_inj entry).mpr h.isPrefix
  . have := h.long
    rw [List.length_cons, List.length_cons]
    omega
  . exact List.forall_mem_cons.mpr ⟨hentry, h.writable⟩

theorem take (h : Retains bound all known) : Retains bound all (known.take bound) := by
  constructor
  . exact (List.take_prefix bound known).trans h.isPrefix
  . have := h.long
    rw [List.length_take]
    omega
  . exact fun entry hentry => h.writable entry (List.mem_of_mem_take hentry)

end Retains

structure Sound (text : s → Option String) (rotateSize bound : Nat) (all : List HistoryEntry)
    (now : History × s) : Prop where
  rotateSize : now.1.rotateSize = rotateSize
  maxEntries : now.1.maxEntries = bound
  retains : Retains bound all (known text now)

namespace Sound

variable {rotateSize bound : Nat} {all : List HistoryEntry} {now : History × s}

theorem congr (h : Sound text rotateSize bound all now) {after : History × s}
    (hhistory : after.1 = now.1) (htext : text after.2 = text now.2)
    : Sound text rotateSize bound all after := by
  have hknown : known text after = known text now := by
    unfold known
    rw [hhistory, stored_congr htext]
  constructor
  . rw [hhistory, h.rotateSize]
  . rw [hhistory, h.maxEntries]
  . rw [hknown]
    exact h.retains

theorem push (h : Sound text rotateSize bound all now) {uri : String} (huri : Writable uri)
    (timestamp : Int64)
    : Sound text rotateSize bound ({ timestamp, uri } :: all)
        ({ now.1 with recent := { timestamp, uri } :: now.1.recent }, now.2) :=
  ⟨h.rotateSize, h.maxEntries, h.retains.cons huri⟩

theorem rotate_ends (h : Sound text rotateSize bound all now) (htail : tail.Faithful text)
    : (rotate tail).Ends now
        (fun _ after =>
          Sound text rotateSize bound all after
            ∧ (now.1.recent ≠ [] → (stored text after.2).length ≤ bound))
        (fun _ after => after.1 = now.1 ∧ text after.2 = text now.2) := by
  unfold rotate
  simp only [Play.ends_bind, Play.ends_get, Play.ends_ite, Play.ends_onSnd, Play.ends_modify,
    Play.ends_pure]
  constructor
  . intro hempty
    exact ⟨h, fun hrecent => absurd (List.isEmpty_iff.mp hempty) hrecent⟩
  intro _
  apply (entries_ends htail now.1 now.2).mono
  . rintro entries state ⟨rfl, hstate⟩
    apply (htail.replace _ state).mono
    . intro _ after hafter
      have hkept := h.retains.take
      rw [h.maxEntries] at hafter
      have hstored : stored text after = (known text now).take bound :=
        stored_of_toText hafter hkept.writable
      refine ⟨⟨h.rotateSize, h.maxEntries, ?_⟩, fun _ => ?_⟩
      . rw [known, hstored]
        exact hkept
      . rw [hstored]
        exact List.length_take_le _ _
    . intro _ after hafter
      exact ⟨trivial, hafter.trans hstate⟩
  . intro _ after hafter
    exact ⟨trivial, hafter⟩

theorem record_ends (h : Sound text rotateSize bound all now) (htail : tail.Faithful text)
    {uri : String} (huri : Writable uri) (timestamp : Int64)
    : (record tail uri timestamp).Ends now
        (fun _ after =>
          Sound text rotateSize bound ({ timestamp, uri } :: all) after
            ∧ (rotateSize < now.1.recent.length + 1 → (stored text after.2).length ≤ bound))
        (fun _ after =>
          Sound text rotateSize bound ({ timestamp, uri } :: all) after
            ∧ after.1.recent = { timestamp, uri } :: now.1.recent ∧ text after.2 = text now.2) := by
  have hpush := h.push huri timestamp
  unfold record
  simp only [Play.ends_bind, Play.ends_get, Play.ends_ite, Play.ends_modify, Play.ends_pure]
  constructor
  . intro _
    apply (hpush.rotate_ends htail).mono
    . rintro _ after ⟨hafter, hlength⟩
      exact ⟨hafter, fun _ => hlength (List.cons_ne_nil _ _)⟩
    . rintro _ after ⟨hhistory, htext⟩
      exact ⟨hpush.congr hhistory htext, by rw [hhistory], htext⟩
  . intro hsmall
    rw [h.rotateSize, List.length_cons] at hsmall
    exact ⟨hpush, fun hlarge => absurd hlarge hsmall⟩

end Sound

inductive Course (tail : Tail s) (text : s → Option String) (start : History × s)
    : List HistoryEntry → History × s → Prop where
  | start : Course tail text start [] start
  | record {recorded now} (h : Course tail text start recorded now) (uri : String)
    (timestamp : Int64) (huri : Writable uri)
    : Course tail text start ({ timestamp, uri } :: recorded)
        ((History.record tail uri timestamp).after now)
  | flush {recorded now} (h : Course tail text start recorded now)
    : Course tail text start recorded ((History.flush tail).after now)
  | between {recorded now} (h : Course tail text start recorded now) (state : s)
    (hstate : text state = text now.2)
    : Course tail text start recorded (now.1, state)

theorem Course.sound {start now : History × s} {recorded initial : List HistoryEntry}
    (h : Course tail text start recorded now) (htail : tail.Faithful text) {rotateSize bound : Nat}
    (hstart : Sound text rotateSize bound initial start)
    : Sound text rotateSize bound (recorded ++ initial) now := by
  induction h with
  | start => exact hstart
  | record _ uri timestamp huri ih =>
    apply Play.after_of_ends
    exact (ih.record_ends htail huri timestamp).mono (fun _ _ h => h.1) (fun _ _ h => h.1)
  | flush _ ih =>
    apply Play.after_of_ends
    apply (ih.rotate_ends htail).mono
    . exact fun _ _ h => h.1
    . rintro _ after ⟨hhistory, htext⟩
      exact ih.congr hhistory htext
  | between _ state hstate ih => exact ih.congr rfl hstate

theorem create_sound {rotateSize maxEntries : Nat} {state : s}
    (h : ∀ entry ∈ stored text state, entry.uri.toList.getLast? ≠ some '\r')
    : Sound text rotateSize (max maxEntries 1) (stored text state)
        (create rotateSize maxEntries, state) := by
  refine ⟨rfl, rfl, Retains.refl fun entry hentry => ?_⟩
  cases htext : text state with
  | none => simp [stored, htext] at hentry
  | some content =>
    have hmem : entry ∈ HistoryEntry.ofText content := by
      simpa [stored, htext] using hentry
    obtain ⟨hempty, hfeed⟩ := HistoryEntry.uri_of_mem_ofText hmem
    exact ⟨hempty, hfeed, h entry hentry⟩

/--
Whatever calls of a history have been made and have failed, its entries are the front of those recorded
and those that were in the tail in the beginning, and all there is room for. They include the ones in
memory. A rotation cuts the tail to its length, and a call that fails changes nothing but that the new
entry is in memory.
-/
theorem retains_newest (htail : tail.Faithful text) {rotateSize maxEntries : Nat} {state : s}
    (hstart : ∀ entry ∈ stored text state, entry.uri.toList.getLast? ≠ some '\r')
    {recorded : List HistoryEntry} {now : History × s}
    (h : Course tail text (create rotateSize maxEntries, state) recorded now)
    : (now.1.entries tail).Ends now.2
        (fun entries after =>
          entries <+: recorded ++ stored text state
            ∧ min (recorded ++ stored text state).length (max 1 maxEntries) ≤ entries.length
            ∧ now.1.recent <+: entries
            ∧ text after = text now.2)
        (fun _ after => text after = text now.2)
      ∧ (∀ uri timestamp, Writable uri →
          (record tail uri timestamp).Ends now
            (fun _ after =>
              rotateSize < now.1.recent.length + 1
                → (stored text after.2).length ≤ max 1 maxEntries)
            (fun _ after =>
              after.1.recent = { timestamp, uri } :: now.1.recent ∧ text after.2 = text now.2))
      ∧ (flush tail).Ends now
          (fun _ after =>
            now.1.recent ≠ [] → (stored text after.2).length ≤ max 1 maxEntries)
          (fun _ after => after.1 = now.1 ∧ text after.2 = text now.2) := by
  have hnow := h.sound htail (create_sound hstart)
  rw [Nat.max_comm] at hnow
  refine ⟨?_, ?_, ?_⟩
  . apply (entries_ends htail now.1 now.2).mono
    . rintro entries after ⟨rfl, hafter⟩
      exact ⟨hnow.retains.isPrefix, hnow.retains.long, List.prefix_append _ _, hafter⟩
    . exact fun _ _ => id
  . intro uri timestamp huri
    exact (hnow.record_ends htail huri timestamp).mono (fun _ _ h => h.2) (fun _ _ h => h.2)
  . exact (hnow.rotate_ends htail).mono (fun _ _ h => h.2) (fun _ _ => id)

def cramped : History × Disk :=
  (create 0 1, { entries := [(["history"], .file (Text.encode "5::a.flac\n"))] })

def cramped.played : History × Disk :=
  (record (Disk.tail "history") "b.flac" 9).after cramped

theorem cramped_retains_newest
    : (Disk.tail "history").Faithful (Disk.textAt "history")
      ∧ (∀ entry ∈ stored (Disk.textAt "history") cramped.2,
          entry.uri.toList.getLast? ≠ some '\r')
      ∧ Course (Disk.tail "history") (Disk.textAt "history") cramped
          [{ timestamp := 9, uri := "b.flac" }] cramped.played
      ∧ (cramped.played.1.entries (Disk.tail "history")).Ends cramped.played.2
          (fun entries after =>
            entries <+: { timestamp := 9, uri := "b.flac" }
                :: stored (Disk.textAt "history") cramped.2
              ∧ 1 ≤ entries.length
              ∧ cramped.played.1.recent <+: entries
              ∧ Disk.textAt "history" after = Disk.textAt "history" cramped.played.2)
          (fun _ after => Disk.textAt "history" after = Disk.textAt "history" cramped.played.2) := by
  have htail : (Disk.tail "history").Faithful (Disk.textAt "history") := Disk.tail_faithful rfl
  have hstart : ∀ entry ∈ stored (Disk.textAt "history") cramped.2,
      entry.uri.toList.getLast? ≠ some '\r' := by
    decide +kernel
  have hcourse : Course (Disk.tail "history") (Disk.textAt "history") cramped
      [{ timestamp := 9, uri := "b.flac" }] cramped.played :=
    .record .start "b.flac" 9 ⟨by decide, by decide, by decide⟩
  refine ⟨htail, hstart, hcourse, ?_⟩
  apply (retains_newest htail hstart hcourse).1.mono
  . rintro entries after ⟨hfront, hlength, hrest⟩
    exact ⟨hfront, by simpa using hlength, hrest⟩
  . exact fun _ _ => id

def untidy : History × Disk :=
  (create 0, { entries := [(["history"], .file (Text.encode "5::abc\r\r\n"))] })

theorem return_lost
    : Course (Disk.tail "history") (Disk.textAt "history") untidy
        [{ timestamp := 9, uri := "new.flac" }]
        ((record (Disk.tail "history") "new.flac" 9).after untidy)
      ∧ ¬(((record (Disk.tail "history") "new.flac" 9).after untidy).1.entries
            (Disk.tail "history")).Ends ((record (Disk.tail "history") "new.flac" 9).after untidy).2
          (fun entries _ =>
            entries <+: [{ timestamp := 9, uri := "new.flac" }]
              ++ stored (Disk.textAt "history") untidy.2)
          (fun _ _ => True) := by
  constructor
  . exact .record .start "new.flac" 9 ⟨by decide, by decide, by decide⟩
  . decide +kernel

end History

end AutoDJ
