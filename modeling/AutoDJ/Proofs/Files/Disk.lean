import AutoDJ.Files.Disk
import AutoDJ.Proofs.Play.Ends

namespace AutoDJ

theorem Text.decode?_encode (s : String) : Text.decode? (Text.encode s) = some s := by
  change String.fromUTF8? s.toUTF8 = some s
  unfold String.fromUTF8?
  rw [String.toUTF8_eq_toByteArray, dif_pos s.isValidUTF8]
  rfl

namespace Disk

variable {disk : Disk} {location start next : List String} {path part : String}

@[simp]
theorem ends_ask {question : Disk → Except FileError α} {Q : α → Disk → Prop}
    {E : Error → Disk → Prop}
    : (ask question).Ends disk Q E
        ↔ match question disk with
          | .ok answer => Q answer disk
          | .error e => E e.toError disk := by
  unfold Play.Ends ask
  cases question disk <;> rfl

theorem entry?_put_self (h : location ≠ []) (entry : DiskEntry)
    : Disk.entry? (disk.put location entry) location = some entry := by
  unfold entry? put
  simp [h]

theorem entry?_put_of_ne (h : start ≠ location) (entry : DiskEntry)
    : Disk.entry? (disk.put location entry) start = disk.entry? start := by
  have hne : (start == location) = false := by simpa using h
  have hlookup (entries : List (List String × DiskEntry))
      : (entries.filter fun entry => entry.1 ≠ location).lookup start = entries.lookup start := by
    induction entries with
    | nil => rfl
    | cons head entries ih =>
      obtain ⟨other, found⟩ := head
      by_cases hother : other = location
      . rw [List.filter_cons_of_neg (by simpa using hother), ih, List.lookup_cons, hother, hne]
      . rw [List.filter_cons_of_pos (by simpa using hother), List.lookup_cons, List.lookup_cons, ih]
  unfold entry? put
  dsimp only
  rw [List.lookup_cons, hne, hlookup]

theorem enter_put (h : disk.enter start part = .ok next)
    (hlocation : disk.entry? location ≠ some .directory) (bytes : List UInt8)
    : (disk.put location (.file bytes)).enter start part = .ok next := by
  have hstart : disk.entry? start = some .directory := by
    unfold enter at h
    split at h <;> first | contradiction | assumption
  have hne : start ≠ location := by
    rintro rfl
    exact hlocation hstart
  unfold enter at *
  rwa [entry?_put_of_ne hne]

theorem locate_put (h : disk.locate path = .ok location)
    (hlocation : disk.entry? location ≠ some .directory) (bytes : List UInt8)
    : (disk.put location (.file bytes)).locate path = .ok location := by
  have hfold (parts : List String) (start : List String)
      (hparts : parts.foldlM disk.enter start = .ok location)
      : parts.foldlM (disk.put location (.file bytes)).enter start = .ok location := by
    induction parts generalizing start with
    | nil => exact hparts
    | cons part parts ih =>
      rw [List.foldlM_cons] at *
      cases hnext : disk.enter start part with
      | error e =>
        rw [hnext] at hparts
        contradiction
      | ok next =>
        rw [hnext] at hparts
        rw [enter_put hnext hlocation]
        exact ih next hparts
  unfold locate at *
  cases hcheck : checkPath path with
  | error e =>
    rw [hcheck] at h
    contradiction
  | ok =>
    rw [hcheck] at h
    exact hfold _ _ h

theorem readText?_put (h : disk.locate path = .ok location)
    (hlocation : disk.entry? location ≠ some .directory) (text : String)
    : (disk.put location (.file (Text.encode text))).readText? path = .ok (some text) := by
  have hne : location ≠ [] := by
    rintro rfl
    exact hlocation rfl
  have hread : (disk.put location (.file (Text.encode text))).read path = .ok (Text.encode text) := by
    unfold read
    rw [locate_put h hlocation]
    simp only [bind, Except.bind, entry?_put_self hne]
    rfl
  unfold readText? readText
  rw [hread]
  simp only [bind, Except.bind, Text.decode?_encode]
  rfl

def textAt (path : String) (disk : Disk) : Option String :=
  match disk.readText? path with
  | .ok text => text
  | .error _ => none

theorem readText?_of_textAt {text : String} (h : textAt path disk = some text)
    : disk.readText? path = .ok (some text) := by
  unfold textAt at h
  split at h
  . next hread => rw [hread, h]
  . contradiction

/--
The reason for which no file can be written to a path, if there is one.
-/
def obstacle? (disk : Disk) (path : String) : Option FileError :=
  match disk.locate path with
  | .error e => some e
  | .ok location => if disk.entry? location = some .directory then some .isADirectory else none

theorem writeText_ends (path text : String) (disk : Disk)
    : (writeText path text).Ends disk (fun _ after => textAt path after = some text)
        (fun e after =>
          after = disk ∧ ∃ obstacle, disk.obstacle? path = some obstacle ∧ e = obstacle.toError) := by
  unfold writeText write obstacle?
  rw [Play.ends_bind, ends_ask]
  cases hlocation : disk.locate path with
  | error e => exact ⟨rfl, e, rfl, rfl⟩
  | ok location =>
    dsimp only
    rw [Play.ends_bind, Play.ends_get, Play.ends_ite]
    constructor
    . intro hdirectory
      rw [if_pos hdirectory]
      exact ⟨rfl, _, rfl, rfl⟩
    . intro hdirectory
      rw [Play.ends_modify, textAt, readText?_put hlocation hdirectory]

end Disk

end AutoDJ
