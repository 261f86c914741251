import AutoDJ.MpdConf
import AutoDJ.Proofs.Text.Lines
import AutoDJ.Proofs.Text.Readings

namespace AutoDJ.MpdConf

def Quotes (quoted value : List Char) : Prop :=
  ∃ inner, Text.Strips (· == '"') quoted inner ∧ Text.Strips (· == '\x27') inner value

def Assigns (line key value : String) : Prop :=
  ∃ gap quoted : List Char, (Text.trim line).toList = key.toList ++ (gap ++ quoted)
    ∧ gap ≠ [] ∧ (∀ c ∈ gap, Text.isBlank c = true) ∧ (∀ c ∈ quoted.head?, Text.isBlank c = false)
    ∧ Quotes quoted value.toList

/--
A line that is no comment assigns a value to a key, and the value is not empty.
-/
structure Gives (line key value : String) : Prop where
  no_comment : (Text.trim line).toList.head? ≠ some '#'
  assigns : Assigns line key value
  ne_empty : value ≠ ""

inductive Idle (key line : String) : Prop where
  | comment (h : (Text.trim line).toList.head? = some '#')
  | longerKey (c : Char) (rest : List Char) (hc : Text.isBlank c = false)
    (h : (Text.trim line).toList = key.toList ++ c :: rest)
  | keyAlone (h : Text.trim line = key)
  | noValue (h : Assigns line key "")

/--
A line that gives a key a value in double quotes, with blanks around its parts.
-/
structure Entry where
  indent : String
  key : String
  gap : String
  value : String
  tail : String
  indent_blank : ∀ c ∈ indent.toList, Text.isBlank c = true
  key_ne_empty : key ≠ ""
  key_no_blank : ∀ c ∈ key.toList, Text.isBlank c = false
  key_no_comment : key.toList.head? ≠ some '#'
  gap_ne_empty : gap ≠ ""
  gap_blank : ∀ c ∈ gap.toList, Text.isBlank c = true
  gap_no_linefeed : '\n' ∉ gap.toList
  value_ne_empty : value ≠ ""
  value_no_linefeed : '\n' ∉ value.toList
  value_first : ∀ c ∈ value.toList.head?, c ≠ '"' ∧ c ≠ '\x27'
  value_last : ∀ c ∈ value.toList.getLast?, c ≠ '"' ∧ c ≠ '\x27'
  tail_blank : ∀ c ∈ tail.toList, Text.isBlank c = true
  tail_no_linefeed : '\n' ∉ tail.toList

def Entry.line (entry : Entry) : String :=
  entry.key ++ entry.gap ++ "\"" ++ entry.value ++ "\"" ++ entry.tail

section Line

variable {key line value : String}

theorem unquote_eq_iff {quoted value : List Char} : value?.unquote quoted = value ↔ Quotes quoted value := by
  unfold value?.unquote Quotes
  simp only [← Text.stripChars_eq_iff, exists_eq_left']

theorem trimChars_rest {start gap quoted : List Char} (hline : (Text.trim line).toList = start ++ (gap ++ quoted))
    (hblank : ∀ c ∈ gap, Text.isBlank c = true) (hfirst : ∀ c ∈ quoted.head?, Text.isBlank c = false)
    : Text.trimChars (gap ++ quoted) = quoted := by
  have hlast : ∀ c ∈ quoted.getLast?, Text.isBlank c = false := by
    intro c hc
    apply Text.isBlank_getLast?_trim (s := line)
    rw [hline, List.getLast?_append, List.getLast?_append, Option.mem_def.mp hc]
    rfl
  unfold Text.trimChars
  rw [Text.stripChars_append_left hblank, Text.stripChars_eq_self hfirst hlast]

theorem value?_of_assigns (hcomment : (Text.trim line).toList.head? ≠ some '#') (h : Assigns line key value)
    : value? key line = if value = "" then none else some value := by
  obtain ⟨gap, quoted, hline, hgap, hblank, hfirst, hquotes⟩ := h
  have hvalue := unquote_eq_iff.mpr hquotes
  have hrest : Text.dropStart? key (Text.trim line) = some (String.ofList (gap ++ quoted)) := by
    unfold Text.dropStart?
    rw [List.isPrefixOf?_eq_some_iff_append_eq.mpr hline.symm]
    rfl
  have hhead : (gap ++ quoted).head?.any Text.isBlank = true := by
    cases gap with
    | nil => exact absurd rfl hgap
    | cons c gap => exact hblank c List.mem_cons_self
  unfold value?
  dsimp only
  rw [if_neg hcomment, hrest]
  simp only [Option.bind_eq_bind, Option.bind_some, String.toList_ofList, hhead,
    trimChars_rest hline hblank hfirst, hvalue, Bool.not_true, Bool.false_eq_true, if_false, List.isEmpty_iff,
    String.toList_eq_nil_iff, String.ofList_toList]

theorem gives_of_value? (h : value? key line = some value) : Gives line key value := by
  unfold value? at h
  dsimp only at h
  split at h
  . cases h
  . next hcomment =>
    rw [Option.bind_eq_bind, Option.bind_eq_some_iff] at h
    obtain ⟨rest, hrest, h⟩ := h
    unfold Text.dropStart? at hrest
    rw [Option.map_eq_some_iff] at hrest
    obtain ⟨cs, hprefix, rfl⟩ := hrest
    have hline := List.isPrefixOf?_eq_some_iff_append_eq.mp hprefix
    rw [String.toList_ofList] at h
    split at h
    . cases h
    . next hstart =>
      split at h
      . cases h
      . next hvalue =>
        obtain rfl := Option.some.inj h
        have hgap : cs.takeWhile Text.isBlank ≠ [] := by
          cases cs with
          | nil => exact absurd rfl hstart
          | cons c cs =>
            have hc : Text.isBlank c = true := by simpa using hstart
            rw [List.takeWhile_cons_of_pos hc]
            exact List.cons_ne_nil _ _
        have hblank : ∀ c ∈ cs.takeWhile Text.isBlank, Text.isBlank c = true :=
          fun _ => List.mem_takeWhile_imp
        have hfirst : ∀ c ∈ (cs.dropWhile Text.isBlank).head?, Text.isBlank c = false := by
          intro c hc
          have hkept := List.head?_dropWhile_not Text.isBlank cs
          rwa [Option.mem_def.mp hc] at hkept
        rw [← List.takeWhile_append_dropWhile (p := Text.isBlank) (l := cs)] at hline
        have htrim := trimChars_rest hline.symm hblank hfirst
        rw [List.takeWhile_append_dropWhile] at htrim
        refine ⟨hcomment, ⟨_, _, hline.symm, hgap, hblank, hfirst, ?_⟩, ?_⟩
        . rw [String.toList_ofList, htrim]
          exact unquote_eq_iff.mp rfl
        . rwa [ne_eq, String.ofList_eq_empty_iff, ← List.isEmpty_iff]

theorem value?_eq_some_iff : value? key line = some value ↔ Gives line key value := by
  refine ⟨gives_of_value?, fun h => ?_⟩
  rw [value?_of_assigns h.no_comment h.assigns, if_neg h.ne_empty]

theorem value?_of_idle (h : Idle key line) : value? key line = none := by
  rw [Option.eq_none_iff_forall_ne_some]
  intro value hvalue
  obtain ⟨hcomment, hassigns, hne⟩ := value?_eq_some_iff.mp hvalue
  cases h with
  | comment h => exact hcomment h
  | longerKey c rest hc h =>
    obtain ⟨gap, quoted, hline, hgap, hblank, -, -⟩ := hassigns
    rw [h] at hline
    cases gap with
    | nil => exact hgap rfl
    | cons d gap =>
      obtain ⟨rfl, -⟩ := List.cons.inj (List.append_cancel_left hline)
      exact Bool.false_ne_true (hc.symm.trans (hblank c List.mem_cons_self))
  | keyAlone h =>
    obtain ⟨gap, quoted, hline, hgap, -⟩ := hassigns
    have hrest : gap ++ quoted = [] := List.append_right_eq_self.mp (hline.symm.trans (by rw [h]))
    exact hgap (List.append_eq_nil_iff.mp hrest).1
  | noValue h =>
    rw [value?_of_assigns hcomment h, if_pos rfl] at hvalue
    exact absurd hvalue nofun

theorem value?_append {blanks : String} (h : ∀ c ∈ blanks.toList, Text.isBlank c = true)
    : value? key (line ++ blanks) = value? key line := by
  unfold value?
  rw [Text.trim_append h]

theorem value?_indent {blanks : String} (h : ∀ c ∈ blanks.toList, Text.isBlank c = true)
    : value? key (blanks ++ line) = value? key line := by
  unfold value?
  rw [Text.trim_indent h]

theorem isLineReading_value? (key : String) : Text.IsLineReading (value? key) where
  empty := by
    rw [Option.eq_none_iff_forall_ne_some]
    intro value hvalue
    obtain ⟨gap, quoted, hline, hgap, -⟩ := (value?_eq_some_iff.mp hvalue).assigns
    have hempty : key.toList = [] ∧ gap = [] ∧ quoted = [] := by
      rw [← List.append_eq_nil_iff, ← List.append_eq_nil_iff, ← hline]
      decide
    exact hgap hempty.2.1
  carriageReturn line := value?_append (by simp [Text.isBlank])

end Line

namespace Entry

variable (entry : Entry)

theorem quotes_value : Quotes (['"'] ++ (entry.value.toList ++ ['"'])) entry.value.toList := by
  refine ⟨entry.value.toList, ⟨['"'], ['"'], rfl, by simp, by simp, ?_, ?_⟩,
    ⟨[], [], by simp, nofun, nofun, ?_, ?_⟩⟩
  . exact fun c hc => beq_false_of_ne (entry.value_first c hc).1
  . exact fun c hc => beq_false_of_ne (entry.value_last c hc).1
  . exact fun c hc => beq_false_of_ne (entry.value_first c hc).2
  . exact fun c hc => beq_false_of_ne (entry.value_last c hc).2

theorem head?_key_append (rest : List Char) : (entry.key.toList ++ rest).head? = entry.key.toList.head? :=
  List.head?_append_of_ne_nil _ (by simpa using entry.key_ne_empty)

theorem trim_line
    : (Text.trim entry.line).toList
        = entry.key.toList ++ (entry.gap.toList ++ (['"'] ++ (entry.value.toList ++ ['"']))) := by
  unfold line
  rw [Text.trim_append entry.tail_blank]
  unfold Text.trim Text.trimChars
  have hchars : (entry.key ++ entry.gap ++ "\"" ++ entry.value ++ "\"").toList
      = entry.key.toList ++ (entry.gap.toList ++ (['"'] ++ (entry.value.toList ++ ['"']))) := by
    simp
  rw [String.toList_ofList, hchars, Text.stripChars_eq_self]
  . intro c hc
    rw [head?_key_append] at hc
    exact entry.key_no_blank c (List.mem_of_mem_head? hc)
  . intro c hc
    obtain rfl : '"' = c := by
      rw [← List.append_assoc, ← List.append_assoc, ← List.append_assoc, List.getLast?_concat] at hc
      exact Option.some.inj hc
    rfl

theorem gives_line : Gives entry.line entry.key entry.value where
  no_comment := by
    rw [trim_line, head?_key_append]
    exact entry.key_no_comment
  assigns := by
    refine ⟨entry.gap.toList, _, entry.trim_line, ?_, entry.gap_blank, ?_, ?_⟩
    . simpa using entry.gap_ne_empty
    . rintro _ ⟨⟩
      rfl
    . exact entry.quotes_value
  ne_empty := entry.value_ne_empty

theorem linefeed_not_mem_line : '\n' ∉ entry.line.toList := by
  have hkey : '\n' ∉ entry.key.toList := fun hmem => absurd (entry.key_no_blank _ hmem) (by decide)
  simp [line, hkey, entry.gap_no_linefeed, entry.value_no_linefeed, entry.tail_no_linefeed]

theorem findSome?_indent
    : (Text.lines (entry.indent ++ entry.line)).findSome? (value? entry.key) = some entry.value := by
  rw [(isLineReading_value? entry.key).findSome?_lines_indent (fun _ _ => value?_indent)
    entry.linefeed_not_mem_line entry.indent_blank]
  exact value?_eq_some_iff.mpr entry.gives_line

end Entry

theorem setting?_joinWith (dirs : UserDirectories) (key : String) (parts : List String)
    : setting? dirs key (Text.joinWith "\n" parts)
        = (parts.findSome? fun part => (Text.lines part).findSome? (value? key)).map dirs.expand := by
  unfold setting?
  rw [(isLineReading_value? key).findSome?_lines_joinWith]

theorem setting?_finds_first (dirs : UserDirectories) (entry : Entry) (before after : List String)
    (hbefore : ∀ line ∈ before, '\n' ∉ line.toList ∧ ∀ value, ¬Gives line entry.key value)
    : setting? dirs entry.key (Text.joinWith "\n" (before ++ (entry.indent ++ entry.line) :: after))
        = some (dirs.expand entry.value)
      ∧ ∀ (above below : List String) (line : String), '\n' ∉ line.toList → Idle entry.key line
        → setting? dirs entry.key (Text.joinWith "\n" (above ++ line :: below))
          = setting? dirs entry.key (Text.joinWith "\n" (above ++ below)) := by
  have hreading := isLineReading_value? entry.key
  constructor
  . have hpassed : (before.findSome? fun line => (Text.lines line).findSome? (value? entry.key)) = none := by
      rw [List.findSome?_eq_none_iff]
      intro line hline
      obtain ⟨hfeed, hnone⟩ := hbefore line hline
      rw [hreading.findSome?_lines_line hfeed, Option.eq_none_iff_forall_ne_some]
      exact fun value hvalue => hnone value (value?_eq_some_iff.mp hvalue)
    rw [setting?_joinWith, List.findSome?_append, hpassed, List.findSome?_cons, entry.findSome?_indent]
    rfl
  . intro above below line hfeed hidle
    have hline : (Text.lines line).findSome? (value? entry.key) = none := by
      rw [hreading.findSome?_lines_line hfeed]
      exact value?_of_idle hidle
    rw [setting?_joinWith, setting?_joinWith, List.findSome?_append, List.findSome?_append,
      List.findSome?_cons, hline]

def stickerEntry : Entry where
  indent := "\n\t"
  key := "sticker_file"
  gap := "  "
  value := "~/.mpd/sticker.sql"
  tail := "\r"
  indent_blank := by simp [Text.isBlank]
  key_ne_empty := by decide
  key_no_blank := by simp [Text.isBlank]
  key_no_comment := by decide
  gap_ne_empty := by decide
  gap_blank := by simp [Text.isBlank]
  gap_no_linefeed := by decide
  value_ne_empty := by decide
  value_no_linefeed := by decide
  value_first := by simp
  value_last := by simp
  tail_blank := by simp [Text.isBlank]
  tail_no_linefeed := by decide

theorem setting?_finds_stickerEntry
    : setting? { home := some "/home/dj" } "sticker_file"
        (Text.joinWith "\n" (["# sticker_file \"/commented/out\"", "sticker_file_backup \"/nope\"",
            "sticker_file \"\""]
          ++ (stickerEntry.indent ++ stickerEntry.line) :: ["sticker_file \"/later\""]))
      = some "/home/dj/.mpd/sticker.sql"
      ∧ setting? { home := some "/home/dj" } "sticker_file"
          (Text.joinWith "\n" ([] ++ "# sticker_file \"/commented/out\"" :: ["sticker_file \"/later\""]))
        = setting? { home := some "/home/dj" } "sticker_file"
            (Text.joinWith "\n" ([] ++ ["sticker_file \"/later\""])) := by
  have hbefore : ∀ line ∈ ["# sticker_file \"/commented/out\"", "sticker_file_backup \"/nope\"",
      "sticker_file \"\""], '\n' ∉ line.toList ∧ value? stickerEntry.key line = none := by decide
  have hnone (line : String) (h : value? stickerEntry.key line = none) (value : String)
      : ¬Gives line stickerEntry.key value := by
    rw [← value?_eq_some_iff, h]
    nofun
  have hfinds := setting?_finds_first { home := some "/home/dj" } stickerEntry _ ["sticker_file \"/later\""]
    fun line hline => ⟨(hbefore line hline).1, hnone line (hbefore line hline).2⟩
  exact ⟨hfinds.1.trans (by decide), hfinds.2 _ _ _ (by decide) (.comment (by decide))⟩

end AutoDJ.MpdConf
