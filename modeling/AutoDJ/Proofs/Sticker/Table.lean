import AutoDJ.Sticker.Table
import Mathlib.Data.List.Perm.Basic
import Mathlib.Data.List.Nodup

/-!
This module contains the proof that the sticker of a song is put together from its rows field by field: the last row
with the name of the field counts whose value is a number of its range. Where no name occurs twice, the order of the
rows does not matter.
-/

namespace AutoDJ

namespace Sticker

def reading? (read? : String → Option α) (field name value : String) : Option α :=
  if name = field then read? (Text.trim value) else none

def lastRead (read? : String → Option α) (field : String) (values : List (String × String)) : Option α :=
  values.reverse.findSome? fun (name, value) => reading? read? field name value

/--
A sticker that has in each field what the last readable value with its name says, if there is one.
-/
structure Shows (sticker : Sticker) (values : List (String × String)) : Prop where
  playCount : sticker.playCount = (lastRead Text.readUInt32? "playCount" values).getD 0
  skipCount : sticker.skipCount = (lastRead Text.readUInt32? "skipCount" values).getD 0
  like : sticker.like = ((lastRead Text.readInt64? "like" values).map Like.ofNumber).getD .neutral
  lastPlayed : sticker.lastPlayed = (lastRead Text.readInt64? "lastPlayed" values).getD 0
  lastSkipped : sticker.lastSkipped = (lastRead Text.readInt64? "lastSkipped" values).getD 0
  elapsed : sticker.elapsed = (lastRead Text.readUInt32? "elapsed" values).getD 0

def IsReadable (name value : String) : Prop :=
  (name ∈ ["playCount", "skipCount", "elapsed"] ∧ (Text.readUInt32? (Text.trim value)).isSome = true)
    ∨ (name ∈ ["like", "lastPlayed", "lastSkipped"] ∧ (Text.readInt64? (Text.trim value)).isSome = true)

theorem apply_of_not_isReadable {name value : String} (h : ¬IsReadable name value) (sticker : Sticker)
    : sticker.apply name value = sticker := by
  unfold IsReadable at h
  unfold apply
  dsimp only
  split <;> simp_all

theorem apply_eq (sticker : Sticker) (name value : String)
    : sticker.apply name value
        = { playCount := (reading? Text.readUInt32? "playCount" name value).getD sticker.playCount
            skipCount := (reading? Text.readUInt32? "skipCount" name value).getD sticker.skipCount
            like :=
              (reading? (fun value => (Text.readInt64? value).map Like.ofNumber) "like" name value).getD
                sticker.like
            lastPlayed := (reading? Text.readInt64? "lastPlayed" name value).getD sticker.lastPlayed
            lastSkipped := (reading? Text.readInt64? "lastSkipped" name value).getD sticker.lastSkipped
            elapsed := (reading? Text.readUInt32? "elapsed" name value).getD sticker.elapsed } := by
  unfold apply reading?
  dsimp only
  split <;> simp_all

def SetBy (get : Sticker → α) (field : String) (read? : String → Option α) : Prop :=
  ∀ (sticker : Sticker) (name value : String),
    get (sticker.apply name value) = (reading? read? field name value).getD (get sticker)

section Fields

theorem setBy_playCount : SetBy (·.playCount) "playCount" Text.readUInt32? :=
  fun sticker name value => congrArg (·.playCount) (sticker.apply_eq name value)

theorem setBy_skipCount : SetBy (·.skipCount) "skipCount" Text.readUInt32? :=
  fun sticker name value => congrArg (·.skipCount) (sticker.apply_eq name value)

theorem setBy_like : SetBy (·.like) "like" fun value => (Text.readInt64? value).map Like.ofNumber :=
  fun sticker name value => congrArg (·.like) (sticker.apply_eq name value)

theorem setBy_lastPlayed : SetBy (·.lastPlayed) "lastPlayed" Text.readInt64? :=
  fun sticker name value => congrArg (·.lastPlayed) (sticker.apply_eq name value)

theorem setBy_lastSkipped : SetBy (·.lastSkipped) "lastSkipped" Text.readInt64? :=
  fun sticker name value => congrArg (·.lastSkipped) (sticker.apply_eq name value)

theorem setBy_elapsed : SetBy (·.elapsed) "elapsed" Text.readUInt32? :=
  fun sticker name value => congrArg (·.elapsed) (sticker.apply_eq name value)

end Fields

def applyAll (sticker : Sticker) (values : List (String × String)) : Sticker :=
  values.foldl (fun sticker (name, value) => sticker.apply name value) sticker

section Values

variable {get : Sticker → α} {read? : String → Option α} {field : String}

theorem reading?_map {f : α → β} {name value : String}
    : reading? (fun value => (read? value).map f) field name value
        = (reading? read? field name value).map f := by
  unfold reading?
  split <;> rfl

theorem lastRead_map {f : α → β} {values : List (String × String)}
    : lastRead (fun value => (read? value).map f) field values
        = (lastRead read? field values).map f := by
  unfold lastRead
  rw [List.map_findSome?]
  simp only [reading?_map, Function.comp_def]

theorem lastRead_cons {name value : String} {values : List (String × String)}
    : lastRead read? field ((name, value) :: values)
        = (lastRead read? field values).or (reading? read? field name value) := by
  simp [lastRead, List.findSome?_append]

theorem SetBy.applyAll (h : SetBy get field read?) (sticker : Sticker) (values : List (String × String))
    : get (sticker.applyAll values) = (lastRead read? field values).getD (get sticker) := by
  -- a value counts only if no later one does
  induction values generalizing sticker with
  | nil => rfl
  | cons first values ih =>
    obtain ⟨name, value⟩ := first
    rw [lastRead_cons, Option.getD_or, ← h sticker name value]
    exact ih (sticker.apply name value)

theorem SetBy.comm (h : SetBy get field read?) (sticker : Sticker) {first second : String}
    (hne : first ≠ second) (value other : String)
    : get ((sticker.apply first value).apply second other)
        = get ((sticker.apply second other).apply first value) := by
  rw [h, h, h, h]
  unfold reading?
  -- the field has at most one of the two names
  by_cases hfirst : first = field
  . rw [if_neg (by rw [← hfirst]; exact hne.symm)]
    rfl
  . rw [if_neg hfirst]
    rfl

end Values

theorem shows_applyAll (values : List (String × String)) : (applyAll {} values).Shows values where
  playCount := setBy_playCount.applyAll {} values
  skipCount := setBy_skipCount.applyAll {} values
  like := by
    rw [← lastRead_map]
    exact setBy_like.applyAll {} values
  lastPlayed := setBy_lastPlayed.applyAll {} values
  lastSkipped := setBy_lastSkipped.applyAll {} values
  elapsed := setBy_elapsed.applyAll {} values

theorem apply_comm (sticker : Sticker) {first second : String} (hne : first ≠ second)
    (value other : String)
    : (sticker.apply first value).apply second other
        = (sticker.apply second other).apply first value := by
  have hplayCount := setBy_playCount.comm sticker hne value other
  have hskipCount := setBy_skipCount.comm sticker hne value other
  have hlike := setBy_like.comm sticker hne value other
  have hlastPlayed := setBy_lastPlayed.comm sticker hne value other
  have hlastSkipped := setBy_lastSkipped.comm sticker hne value other
  have helapsed := setBy_elapsed.comm sticker hne value other
  rw [Sticker.mk.injEq]
  exact ⟨hplayCount, hskipCount, hlike, hlastPlayed, hlastSkipped, helapsed⟩

theorem applyAll_perm (sticker : Sticker) {values values' : List (String × String)}
    (hperm : values.Perm values') (hnames : (values.map (·.1)).Nodup)
    : sticker.applyAll values = sticker.applyAll values' := by
  apply hperm.foldl_eq'
  intro first hfirst second hsecond sticker
  -- two values of one name come from the same place
  by_cases hsame : first.1 = second.1
  . rw [List.inj_on_of_nodup_map hnames hfirst hsecond hsame]
  . exact apply_comm sticker hsame first.2 second.2

theorem applyAll_erase (sticker : Sticker) {name value : String} (h : ¬IsReadable name value)
    (before after : List (String × String))
    : sticker.applyAll (before ++ (name, value) :: after) = sticker.applyAll (before ++ after) := by
  unfold applyAll
  rw [List.foldl_append, List.foldl_cons, List.foldl_append]
  dsimp only
  rw [apply_of_not_isReadable h]

end Sticker

namespace StickerRow

def namedValue? (row : StickerRow) : Option (String × String) := do
  return (← row.name, ← row.value)

def IsComplete (row : StickerRow) : Prop :=
  row.namedValue?.isSome = true

instance : DecidablePred IsComplete :=
  fun row => inferInstanceAs (Decidable (row.namedValue?.isSome = true))

end StickerRow

namespace StickerTable

def ofRows (rows : List StickerRow) : StickerTable :=
  { rows? := some rows }

def valuesOf (uri : String) (rows : List StickerRow) : List (String × String) :=
  (rows.filter (StickerRow.belongsTo uri)).filterMap StickerRow.namedValue?

variable {rows : List StickerRow} {uri : String}

theorem collect_cons {row : StickerRow} {name value : String} {sticker : Option Sticker}
    (h : row.namedValue? = some (name, value))
    : collect (row :: rows) sticker = collect rows (some ((sticker.getD {}).apply name value)) := by
  obtain ⟨type, uri, rowName, rowValue⟩ := row
  cases rowName <;> cases rowValue <;> simp_all [StickerRow.namedValue?, collect]

theorem collect_eq (hcomplete : ∀ row ∈ rows, row.IsComplete) (sticker : Option Sticker)
    : collect rows sticker
        = .ok
            (if rows.filterMap StickerRow.namedValue? = [] then sticker
              else some ((sticker.getD {}).applyAll (rows.filterMap StickerRow.namedValue?))) := by
  induction rows generalizing sticker with
  | nil => rfl
  | cons row rows ih =>
    obtain ⟨hrow, hrows⟩ := List.forall_mem_cons.mp hcomplete
    obtain ⟨⟨name, value⟩, hnamed⟩ := Option.isSome_iff_exists.mp hrow
    rw [collect_cons hnamed, ih hrows, List.filterMap_cons_some hnamed, if_neg (List.cons_ne_nil _ _)]
    split
    . next hnone =>
      rw [hnone]
      rfl
    . rfl

theorem lookup_eq (hcomplete : ∀ row ∈ rows, row.belongsTo uri = true → row.IsComplete)
    : (ofRows rows).lookup uri
        = .ok
            (if valuesOf uri rows = [] then none
              else some (Sticker.applyAll {} (valuesOf uri rows))) := by
  apply collect_eq
  intro row hrow
  obtain ⟨hmem, hbelongs⟩ := List.mem_filter.mp hrow
  exact hcomplete row hmem hbelongs

theorem valuesOf_eq_nil (hcomplete : ∀ row ∈ rows, row.belongsTo uri = true → row.IsComplete)
    : valuesOf uri rows = [] ↔ ∀ row ∈ rows, row.belongsTo uri = false := by
  unfold valuesOf
  rw [List.filterMap_eq_nil_iff]
  constructor
  . intro h row hrow
    by_contra hbelongs
    rw [Bool.not_eq_false] at hbelongs
    have hcomplete := hcomplete row hrow hbelongs
    rw [StickerRow.IsComplete, h row (List.mem_filter.mpr ⟨hrow, hbelongs⟩)] at hcomplete
    contradiction
  . intro h row hrow
    obtain ⟨hmem, hbelongs⟩ := List.mem_filter.mp hrow
    rw [h row hmem] at hbelongs
    contradiction

theorem valuesOf_ne_nil (hcomplete : ∀ row ∈ rows, row.belongsTo uri = true → row.IsComplete)
    (h : ∃ row ∈ rows, row.belongsTo uri = true) : valuesOf uri rows ≠ [] := by
  obtain ⟨row, hrow, hbelongs⟩ := h
  intro hnone
  have hother := (valuesOf_eq_nil hcomplete).mp hnone row hrow
  rw [hother] at hbelongs
  contradiction

theorem valuesOf_append (before after : List StickerRow)
    : valuesOf uri (before ++ after) = valuesOf uri before ++ valuesOf uri after := by
  unfold valuesOf
  rw [List.filter_append, List.filterMap_append]

theorem lookup_erase {before after : List StickerRow} {row : StickerRow} {name value : String}
    (hcomplete : ∀ other ∈ before ++ row :: after, other.belongsTo uri = true → other.IsComplete)
    (hnamed : row.namedValue? = some (name, value)) (hread : ¬Sticker.IsReadable name value)
    (hothers : ∃ other ∈ before ++ after, other.belongsTo uri = true)
    : (ofRows (before ++ after)).lookup uri = (ofRows (before ++ row :: after)).lookup uri := by
  have hsubset : before ++ after ⊆ before ++ row :: after :=
    List.append_subset.mpr ⟨List.subset_append_left _ _,
      List.Subset.trans (List.subset_cons_self _ _) (List.subset_append_right _ _)⟩
  have hrest (other : StickerRow) (hother : other ∈ before ++ after) (hbelongs : other.belongsTo uri = true)
      : other.IsComplete :=
    hcomplete other (hsubset hother) hbelongs
  have hleft : valuesOf uri (before ++ after) ≠ [] := valuesOf_ne_nil hrest hothers
  have hall : valuesOf uri (before ++ row :: after) ≠ [] := by
    obtain ⟨other, hother, hbelongs⟩ := hothers
    exact valuesOf_ne_nil hcomplete ⟨other, hsubset hother, hbelongs⟩
  rw [lookup_eq hrest, lookup_eq hcomplete, if_neg hleft, if_neg hall, valuesOf_append,
    valuesOf_append]
  cases hrow : row.belongsTo uri with
  | true =>
    have hvalues : valuesOf uri (row :: after) = (name, value) :: valuesOf uri after := by
      unfold valuesOf
      rw [List.filter_cons_of_pos hrow, List.filterMap_cons_some hnamed]
    rw [hvalues, Sticker.applyAll_erase {} hread]
  | false =>
    have hvalues : valuesOf uri (row :: after) = valuesOf uri after := by
      unfold valuesOf
      rw [List.filter_cons_of_neg (by simp [hrow])]
    rw [hvalues]

theorem lookup_perm {rows' : List StickerRow} (hperm : rows'.Perm rows)
    (hcomplete : ∀ row ∈ rows, row.belongsTo uri = true → row.IsComplete)
    (hnames : ((valuesOf uri rows).map (·.1)).Nodup)
    : (ofRows rows').lookup uri = (ofRows rows).lookup uri := by
  have hcomplete' (row : StickerRow) (hrow : row ∈ rows') (hbelongs : row.belongsTo uri = true)
      : row.IsComplete :=
    hcomplete row (hperm.mem_iff.mp hrow) hbelongs
  have hvalues : (valuesOf uri rows).Perm (valuesOf uri rows') :=
    (hperm.symm.filter _).filterMap _
  have hnone : valuesOf uri rows' = [] ↔ valuesOf uri rows = [] := by
    rw [← List.length_eq_zero_iff, ← List.length_eq_zero_iff, hvalues.length_eq]
  rw [lookup_eq hcomplete, lookup_eq hcomplete', Sticker.applyAll_perm {} hvalues hnames]
  simp only [hnone]

/--
A song without a row has no sticker. Otherwise each field of its sticker is what the last of its rows says that has
the name of the field and a number of its range. A row with another name or without such a number is as good as
missing, and the order of the rows does not matter if no two of them have the same name.
-/
theorem lookup_reads_last (rows : List StickerRow) (uri : String)
    (hcomplete : ∀ row ∈ rows, row.belongsTo uri = true → row.IsComplete)
    : ((ofRows rows).lookup uri = .ok none ↔ ∀ row ∈ rows, row.belongsTo uri = false)
      ∧ ((∃ row ∈ rows, row.belongsTo uri = true)
        → ∃ sticker : Sticker,
            (ofRows rows).lookup uri = .ok (some sticker) ∧ sticker.Shows (valuesOf uri rows))
      ∧ (∀ before row after name value, rows = before ++ row :: after
        → row.namedValue? = some (name, value) → ¬Sticker.IsReadable name value
        → (∃ other ∈ before ++ after, other.belongsTo uri = true)
        → (ofRows (before ++ after)).lookup uri = (ofRows rows).lookup uri)
      ∧ (((valuesOf uri rows).map (·.1)).Nodup
        → ∀ rows', rows'.Perm rows → (ofRows rows').lookup uri = (ofRows rows).lookup uri) := by
  refine ⟨?_, ?_, ?_, ?_⟩
  . rw [lookup_eq hcomplete, ← valuesOf_eq_nil hcomplete]
    split <;> simp_all
  . intro hbelongs
    refine ⟨Sticker.applyAll {} (valuesOf uri rows), ?_, Sticker.shows_applyAll _⟩
    rw [lookup_eq hcomplete, if_neg (valuesOf_ne_nil hcomplete hbelongs)]
  . rintro before row after name value rfl hnamed hread hothers
    exact lookup_erase hcomplete hnamed hread hothers
  . intro hnames rows' hperm
    exact lookup_perm hperm hcomplete hnames

def mixedRows : List StickerRow :=
  [{ type := some "song", uri := some "one.flac", name := some "playCount", value := some "12" },
    { type := some "song", uri := some "two.flac", name := some "playCount", value := none },
    { type := some "song", uri := some "one.flac", name := some "skipCount", value := some "4294967296" },
    { type := some "song", uri := some "one.flac", name := some "like", value := some " 2 " },
    { type := some "song", uri := some "one.flac", name := some "rating", value := some "7" }]

theorem lookup_mixedRows
    : (∀ row ∈ mixedRows, row.belongsTo "one.flac" = true → row.IsComplete)
      ∧ (∃ sticker : Sticker,
          (ofRows mixedRows).lookup "one.flac" = .ok (some sticker)
            ∧ sticker.Shows (valuesOf "one.flac" mixedRows))
      ∧ (ofRows mixedRows.dropLast).lookup "one.flac" = (ofRows mixedRows).lookup "one.flac"
      ∧ (ofRows mixedRows.reverse).lookup "one.flac" = .ok (some { playCount := 12, like := .love }) := by
  have hcomplete : ∀ row ∈ mixedRows, row.belongsTo "one.flac" = true → row.IsComplete := by
    decide
  obtain ⟨-, hshows, herase, hperm⟩ := lookup_reads_last mixedRows "one.flac" hcomplete
  refine ⟨hcomplete, hshows ?_, ?_, ?_⟩
  . decide
  . exact herase mixedRows.dropLast _ [] "rating" "7" rfl rfl (by simp [Sticker.IsReadable]) (by decide)
  . rw [hperm (by decide) _ (List.reverse_perm mixedRows)]
    decide +kernel

end StickerTable

end AutoDJ
