import AutoDJ.Proofs.Mpc.AddAlbum
import AutoDJ.Proofs.Text.Readings
import Mathlib.Data.List.Forall2

namespace AutoDJ.Mpc

/--
A text that is told from a missing one in a field of a line, and comes back as it is.
-/
structure IsValue (text : String) : Prop where
  ne_empty : text ≠ ""
  trimmed : Text.trim text = text
  no_tab : '\t' ∉ text.toList
  no_linefeed : '\n' ∉ text.toList

structure ListedSong where
  song : Song
  isValue_uri : IsValue song.uri
  isValue_tag (tag : Tag) : ∀ value ∈ song.tag? tag, IsValue value
  time : String
  time_no_tab : '\t' ∉ time.toList
  time_no_linefeed : '\n' ∉ time.toList

def columns (format : String) : List String :=
  (Text.fields '\t' format).map fun field =>
    String.ofList (Text.stripChars (fun c => c == '%' || c == '[' || c == ']') field.toList)

namespace ListedSong

def column (listed : ListedSong) (name : String) : String :=
  match name with
  | "file" => listed.song.uri
  | "time" => listed.time
  | name => ((Tag.all.find? fun tag => tag.mpcName = name).bind listed.song.tag?).getD ""

def line (listed : ListedSong) : String :=
  Text.joinWith "\t" ((columns songFormat).map listed.column)

structure IsReadAs (listed : ListedSong) (song : Song) : Prop where
  uri : song.uri = listed.song.uri
  tag (tag : Tag) : song.tag? tag = listed.song.tag? tag

end ListedSong

def songListing (songs : List ListedSong) : String :=
  String.join (songs.map fun listed => listed.line ++ "\n")

section Fields

theorem columns_songFormat : columns songFormat = "file" :: (Tag.all.map Tag.mpcName ++ ["time"]) := by
  decide +kernel

theorem readField?_append {field blanks : String} (h : ∀ c ∈ blanks.toList, Text.isBlank c = true)
    : readField? (field ++ blanks) = readField? field := by
  unfold readField?
  rw [Text.trim_append h]

theorem readField?_of_isValue {text : String} (h : IsValue text) : readField? text = some text := by
  unfold readField?
  simp [h.trimmed, h.ne_empty]

theorem readField?_getD {value : Option String} (h : ∀ text ∈ value, IsValue text)
    : readField? (value.getD "") = value := by
  cases value with
  | none => decide
  | some text => exact readField?_of_isValue (h text rfl)

theorem isLineReading_readSong? : Text.IsLineReading readSong? where
  empty := by decide
  carriageReturn line := by
    -- the carriage return belongs to the last field, where it is dropped
    obtain ⟨init, last, hline, hreturn⟩ := Text.splitOn_concat (by decide : '\r' ≠ '\t') line.toList
    have hchars : (line ++ "\r").toList = line.toList ++ ['\r'] := by simp
    have hlast : readField? (String.ofList (last ++ ['\r'])) = readField? (String.ofList last) := by
      rw [String.ofList_append]
      exact readField?_append (by simp [Text.isBlank])
    have hfields : (Text.fields '\t' (line ++ "\r")).map readField?
        = (Text.fields '\t' line).map readField? := by
      unfold Text.fields
      rw [hchars, hline, hreturn]
      simp only [List.map_append, List.map_cons, List.map_nil, hlast]
    unfold readSong?
    rw [hfields]

end Fields

namespace ListedSong

variable (listed : ListedSong)

theorem column_mpcName (tag : Tag) : listed.column tag.mpcName = (listed.song.tag? tag).getD "" := by
  cases tag <;> rfl

theorem map_column
    : (columns songFormat).map listed.column
        = listed.song.uri :: (Tag.all.map (fun tag => (listed.song.tag? tag).getD "") ++ [listed.time]) := by
  have htags : listed.column ∘ Tag.mpcName = fun tag => (listed.song.tag? tag).getD "" :=
    funext listed.column_mpcName
  rw [columns_songFormat, List.map_cons, List.map_append, List.map_map, htags]
  rfl

theorem not_mem_column {c : Char} (hvalue : ∀ text, IsValue text → c ∉ text.toList)
    (htime : c ∉ listed.time.toList)
    : ∀ text ∈ (columns songFormat).map listed.column, c ∉ text.toList := by
  intro text htext
  rw [map_column, List.mem_cons, List.mem_append, List.mem_singleton] at htext
  obtain rfl | htag | rfl := htext
  . exact hvalue _ listed.isValue_uri
  . obtain ⟨tag, -, rfl⟩ := List.mem_map.mp htag
    cases hmissing : listed.song.tag? tag with
    | none => simp
    | some value => exact hvalue value (listed.isValue_tag tag value hmissing)
  . exact htime

theorem linefeed_not_mem_line : '\n' ∉ listed.line.toList := by
  intro hmem
  obtain htab | ⟨text, htext, hfeed⟩ := Text.mem_joinWith hmem
  . exact absurd htab (by decide)
  . exact listed.not_mem_column (fun _ => IsValue.no_linefeed) listed.time_no_linefeed text htext hfeed

theorem fields_line : Text.fields '\t' listed.line = (columns songFormat).map listed.column := by
  apply Text.fields_joinWith
  . rw [columns_songFormat]
    exact List.cons_ne_nil _ _
  . exact listed.not_mem_column (fun _ => IsValue.no_tab) listed.time_no_tab

theorem readFields_line
    : (Text.fields '\t' listed.line).map readField?
        = some listed.song.uri :: (Tag.all.map listed.song.tag? ++ [readField? listed.time]) := by
  have htag (tag : Tag) : readField? ((listed.song.tag? tag).getD "") = listed.song.tag? tag :=
    readField?_getD (listed.isValue_tag tag)
  rw [fields_line, map_column, List.map_cons, List.map_append, List.map_map,
    readField?_of_isValue listed.isValue_uri]
  simp only [Function.comp_def, htag, List.map_cons, List.map_nil]

def reading (listed : ListedSong) : Song :=
  { listed.song with duration := ((readField? listed.time).map readDuration).getD 0 }

theorem isReadAs_reading : listed.IsReadAs listed.reading where
  uri := by simp only [reading]
  tag tag := by cases tag <;> simp only [reading, Song.tag?]

theorem readSong?_line : readSong? listed.line = some listed.reading := by
  unfold readSong?
  rw [readFields_line]
  simp [Tag.all, Song.tag?, reading]

end ListedSong

theorem readSongs_joinWith {lines : List String} (h : ∀ line ∈ lines, '\n' ∉ line.toList)
    : readSongs (Text.joinWith "\n" lines) = lines.filterMap readSong? := by
  unfold readSongs
  rw [isLineReading_readSong?.filterMap_lines_joinWith, List.filterMap_eq_flatMap_toList]
  exact List.flatMap_congr fun line hline => isLineReading_readSong?.filterMap_lines_line (h line hline)

theorem readSongs_songListing (songs : List ListedSong)
    : songs.Forall₂ ListedSong.IsReadAs (readSongs (songListing songs))
      ∧ songs.Forall₂ ListedSong.IsReadAs (readSongs (Text.joinWith "\n" (songs.map ListedSong.line))) := by
  have hfeed : ∀ line ∈ songs.map ListedSong.line, '\n' ∉ line.toList := by
    simpa using fun listed _ => ListedSong.linefeed_not_mem_line listed
  have hread : (songs.map ListedSong.line).filterMap readSong? = songs.map ListedSong.reading := by
    simp only [List.filterMap_map, Function.comp_def, ListedSong.readSong?_line]
    rw [List.filterMap_eq_map']
  have hall : songs.Forall₂ ListedSong.IsReadAs (songs.map ListedSong.reading) := by
    rw [List.forall₂_map_right_iff]
    exact List.forall₂_same.mpr fun listed _ => listed.isReadAs_reading
  have hlisting : songListing songs = Text.joinWith "\n" (songs.map ListedSong.line ++ [""]) := by
    rw [← Text.join_lines, List.map_map]
    rfl
  constructor
  . have hopen : ∀ line ∈ songs.map ListedSong.line ++ [""], '\n' ∉ line.toList :=
      List.forall_mem_append.mpr ⟨hfeed, by decide⟩
    rw [hlisting, readSongs_joinWith hopen, List.filterMap_append, hread,
      List.filterMap_cons_none isLineReading_readSong?.empty, List.filterMap_nil, List.append_nil]
    exact hall
  . rw [readSongs_joinWith hfeed, hread]
    exact hall

def sparselyTagged : ListedSong where
  song := { uri := "jazz/sugar.flac", artist := "Nina Simone", date := "1959" }
  isValue_uri := by constructor <;> decide
  isValue_tag := by rintro ⟨⟩ _ ⟨⟩ <;> constructor <;> decide
  time := "2:35\r"
  time_no_tab := by decide
  time_no_linefeed := by decide

example : songListing [sparselyTagged] = "jazz/sugar.flac\t\tNina Simone\t\t\t\t1959\t2:35\r\n" := by
  decide +kernel

end AutoDJ.Mpc
