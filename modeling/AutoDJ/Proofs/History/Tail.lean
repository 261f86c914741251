import AutoDJ.Proofs.Files.Disk

/-!
This module contains what the play history relies on in its tail: reading it finds its text, and
replacing that text either succeeds as a whole or does nothing to it. The tail in a file is such a one.
-/

namespace AutoDJ

/--
A tail whose text is a part of the state. An operation may change the state in other respects, and it
may fail.
-/
structure Tail.Faithful (tail : Tail s) (text : s → Option String) : Prop where
  read (state : s)
    : tail.read.Ends state (fun found after => found = text state ∧ text after = text state)
        (fun _ after => text after = text state)
  replace (new : String) (state : s)
    : (tail.replace new).Ends state (fun _ after => text after = some new)
        (fun _ after => text after = text state)

theorem Tail.Faithful.entries_ends {tail : Tail s} {text : s → Option String}
    (h : tail.Faithful text) (state : s)
    : tail.entries.Ends state
        (fun entries after =>
          entries = ((text state).map HistoryEntry.ofText).getD [] ∧ text after = text state)
        (fun _ after => text after = text state) := by
  unfold Tail.entries
  rw [Play.ends_bind]
  apply (h.read state).mono
  . rintro found after ⟨rfl, hafter⟩
    split
    . next hfound => simpa [hfound] using hafter
    . next hfound => simpa [hfound] using hafter
  . exact fun _ _ => id

namespace Disk

variable {path : String}

theorem tail_faithful (h : Path.parent? path = some "") : (tail path).Faithful (textAt path) := by
  constructor
  . intro disk
    unfold tail textAt
    rw [ends_ask]
    split
    . next text htext => simp [htext]
    . rfl
  . intro new disk
    have hparent : makeParent path = pure () := by
      unfold makeParent makeDirectories
      rw [h]
      rfl
    unfold tail
    dsimp only
    rw [hparent, pure_bind, Play.ends_bind, Play.ends_discard, ends_ask]
    split
    . apply (writeText_ends path new disk).mono
      . exact fun _ _ => id
      . rintro _ _ ⟨rfl, -⟩
        rfl
    . rfl

end Disk

end AutoDJ
