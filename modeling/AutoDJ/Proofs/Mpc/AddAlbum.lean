import AutoDJ.Mpc.Client
import AutoDJ.Proofs.Cache.Albums
import AutoDJ.Proofs.Play.Ends
import AutoDJ.Proofs.Text.Lines

/-!
This module contains what an `mpc` client appends for an album, and when these are the tracks that the index has
for it. The index settles for each song on its own whether the artist stands in for the album artist; the client
settles it once for all of them.
-/

namespace AutoDJ

def Tag.mpcName : Tag → String
  | title => "title"
  | artist => "artist"
  | album => "album"
  | albumArtist => "albumartist"
  | genre => "genre"
  | date => "date"

namespace Mpc

def selection (library : List Song) (album : String) (tag : Tag) (value : String) : List Song :=
  library.filter fun song => song.album.getD "" = album ∧ (song.tag? tag).getD "" = value

/--
What `mpc` does to find the songs that a query selects, and to add them to the playback queue: in some order it
prints a line with the URI of each, or appends the URI of each.
-/
structure Selects (run : Runner ω) (library : List Song) (queue : ω → List String) : Prop where
  find (album : String) (tag : Tag) (value : String) (world : ω)
    : (run ["-f", uriFormat, "find", "album", album, tag.mpcName, value]).Ends world
        (fun text after => queue after = queue world
          ∧ ∃ found : List Song, found.Perm (selection library album tag value)
            ∧ text = String.join (found.map fun song => song.uri ++ "\n"))
        (fun _ _ => False)
  findadd (album : String) (tag : Tag) (value : String) (world : ω)
    : (run ["findadd", "album", album, tag.mpcName, value]).Ends world
        (fun _ after => ∃ found : List Song, found.Perm (selection library album tag value)
          ∧ queue after = queue world ++ found.map (·.uri))
        (fun _ _ => False)

def albumTag (library : List Song) (key : AlbumKey) : Tag :=
  if selection library key.album .albumArtist key.albumArtist = [] then .artist else .albumArtist

def IsFound (library : List Song) (key : AlbumKey) : Prop :=
  ∃ song ∈ library, song.album.getD "" = key.album ∧ song.albumArtist.getD "" = key.albumArtist

/--
The songs with the name of an album agree on the tag that says whose album it is. If some of them have its album
artist, those without any are on it just if what is missing counts as that artist; if none of them has, those by
its artist have no album artist at all.
-/
structure AgreeOn (library : List Song) (key : AlbumKey) : Prop where
  found : IsFound library key → ∀ song ∈ library, song.album.getD "" = key.album → song.albumArtist = none
    → (song.OnAlbum key ↔ key.albumArtist = "")
  notFound : ¬IsFound library key → ∀ song ∈ library, song.album.getD "" = key.album
    → song.artist.getD "" = key.albumArtist → song.albumArtist = none

variable {ω : Type} {run : Runner ω} {library : List Song} {queue : ω → List String} {key : AlbumKey}

theorem mem_selection {album value : String} {tag : Tag} {song : Song}
    : song ∈ selection library album tag value
        ↔ song ∈ library ∧ song.album.getD "" = album ∧ (song.tag? tag).getD "" = value := by
  rw [selection, List.mem_filter, decide_eq_true_iff]

theorem trim_ne_empty_of_readField? {field value : String} (h : readField? field = some value)
    : Text.trim value ≠ "" := by
  unfold readField? at h
  dsimp only at h
  split at h
  . contradiction
  . next hempty =>
    obtain rfl := Option.some.inj h
    have hne : (Text.trim field).toList ≠ [] := by simpa using hempty
    have hlast := List.getLast?_eq_some_getLast hne
    exact Text.trim_ne_empty (List.getLast_mem hne) (Text.isBlank_getLast?_trim hlast)

-- all that a client lists meets what is asked below of the URIs of a library
theorem trim_uri_ne_empty {listing : String} {song : Song} (h : song ∈ readSongs listing)
    : Text.trim song.uri ≠ "" := by
  obtain ⟨line, -, hline⟩ := List.mem_filterMap.mp h
  obtain ⟨uri, huri, rfl⟩ := Option.map_eq_some_iff.mp hline
  dsimp only at huri ⊢
  rw [List.getElem?_map] at huri
  obtain ⟨field, -, hfield⟩ := Option.map_eq_some_iff.mp (Option.join_eq_some_iff.mp huri)
  exact trim_ne_empty_of_readField? hfield

theorem isEmpty_trim_lines {songs : List Song} (huri : ∀ song ∈ songs, Text.trim song.uri ≠ "")
    : (Text.trim (String.join (songs.map fun song => song.uri ++ "\n"))).isEmpty = true ↔ songs = [] := by
  cases songs with
  | nil => simp; rfl
  | cons song songs =>
    obtain ⟨c, hc, hkept⟩ := Text.exists_not_blank (huri song List.mem_cons_self)
    have hmem : c ∈ (String.join ((song :: songs).map fun song => song.uri ++ "\n")).toList := by
      simp [hc]
    simpa using Text.trim_ne_empty hmem hkept

theorem addAlbum_ends (hmpc : Selects run library queue)
    (huri : ∀ song ∈ library, Text.trim song.uri ≠ "") (key : AlbumKey) (world : ω)
    : (addAlbum run key.album key.albumArtist).Ends world
        (fun _ after => ∃ found : List Song,
          found.Perm (selection library key.album (albumTag library key) key.albumArtist)
            ∧ queue after = queue world ++ found.map (·.uri))
        (fun _ _ => False) := by
  unfold addAlbum
  rw [Play.ends_bind]
  apply (hmpc.find key.album .albumArtist key.albumArtist world).mono
  . rintro text after ⟨hqueue, found, hfound, rfl⟩
    have hempty : (Text.trim (String.join (found.map fun song => song.uri ++ "\n"))).isEmpty = true
        ↔ selection library key.album .albumArtist key.albumArtist = [] := by
      rw [isEmpty_trim_lines fun song hsong => huri song (mem_selection.mp (hfound.mem_iff.mp hsong)).1]
      constructor
      . rintro rfl
        exact hfound.symm.eq_nil
      . intro hnone
        exact (hnone ▸ hfound).eq_nil
    have htag : (if (Text.trim (String.join (found.map fun song => song.uri ++ "\n"))).isEmpty then "artist"
          else "albumartist") = (albumTag library key).mpcName := by
      unfold albumTag
      simp only [hempty]
      split <;> rfl
    simp only [htag, Play.ends_bind, Play.ends_pure]
    rw [← hqueue]
    exact hmpc.findadd _ _ _ _
  . exact fun _ _ => id

theorem selects_iff_of_found {song : Song} (halbum : song.album.getD "" = key.album)
    : (song.albumArtist.getD "" = key.albumArtist ↔ song.OnAlbum key)
        ↔ (song.albumArtist = none → (song.OnAlbum key ↔ key.albumArtist = "")) := by
  cases hartist : song.albumArtist with
  | none =>
    simp only [Option.getD_none, forall_const]
    rw [eq_comm]
    exact Iff.comm
  | some albumArtist =>
    have hon : song.OnAlbum key ↔ albumArtist = key.albumArtist := by
      constructor
      . rintro ⟨-, -, hkey⟩
        simpa [hartist] using hkey.symm
      . rintro rfl
        exact ⟨by simp [Song.isLoose, hartist], halbum.symm, by simp [hartist]⟩
    simp [hon]

theorem selects_iff_of_not_found {song : Song} (halbum : song.album.getD "" = key.album)
    (hother : song.albumArtist.getD "" ≠ key.albumArtist)
    : (song.artist.getD "" = key.albumArtist ↔ song.OnAlbum key)
        ↔ (song.artist.getD "" = key.albumArtist → song.albumArtist = none) := by
  cases hartist : song.albumArtist with
  | none =>
    have hon : song.artist.getD "" = key.albumArtist ↔ song.OnAlbum key := by
      constructor
      . intro hkey
        have hsome : song.artist.isNone = false := by
          cases hnone : song.artist with
          | none => simp_all
          | some _ => rfl
        exact ⟨by simp [Song.isLoose, hsome], halbum.symm, by simp [hartist, hkey]⟩
      . rintro ⟨-, -, hkey⟩
        simpa [hartist] using hkey.symm
    simp [hon]
  | some albumArtist =>
    have hoff : ¬song.OnAlbum key := by
      rintro ⟨-, -, hkey⟩
      simp [hartist, hkey] at hother
    simp [hoff]

theorem agreeOn_iff
    : AgreeOn library key
        ↔ ∀ song ∈ library,
          song.album.getD "" = key.album ∧ (song.tag? (albumTag library key)).getD "" = key.albumArtist
            ↔ song.OnAlbum key := by
  have hfound : selection library key.album .albumArtist key.albumArtist = [] ↔ ¬IsFound library key := by
    rw [List.eq_nil_iff_forall_not_mem, ← not_exists, not_iff_not]
    simp only [mem_selection]
    rfl
  -- songs of another name are neither selected nor on the album
  have hnamed (tag : Tag)
      : (∀ song ∈ library, song.album.getD "" = key.album ∧ (song.tag? tag).getD "" = key.albumArtist
            ↔ song.OnAlbum key)
          ↔ ∀ song ∈ library, song.album.getD "" = key.album
            → ((song.tag? tag).getD "" = key.albumArtist ↔ song.OnAlbum key) := by
    apply forall₂_congr
    intro song hsong
    by_cases halbum : song.album.getD "" = key.album
    . simp [halbum]
    . have hoff : ¬song.OnAlbum key := fun hon => halbum hon.album.symm
      simp [halbum, hoff]
  rw [hnamed, albumTag]
  by_cases hsome : IsFound library key
  . rw [if_neg fun hnone => hfound.mp hnone hsome]
    constructor
    . intro h song hsong halbum
      exact (selects_iff_of_found halbum).mpr (h.found hsome song hsong halbum)
    . intro h
      refine ⟨fun _ song hsong halbum => ?_, fun hnone => absurd hsome hnone⟩
      exact (selects_iff_of_found halbum).mp (h song hsong halbum)
  . rw [if_pos (hfound.mpr hsome)]
    have hother (song : Song) (hsong : song ∈ library) (halbum : song.album.getD "" = key.album)
        : song.albumArtist.getD "" ≠ key.albumArtist :=
      fun hkey => hsome ⟨song, hsong, halbum, hkey⟩
    constructor
    . intro h song hsong halbum
      exact (selects_iff_of_not_found halbum (hother song hsong halbum)).mpr
        (h.notFound hsome song hsong halbum)
    . intro h
      refine ⟨fun hfound => absurd hfound hsome, fun _ song hsong halbum => ?_⟩
      exact (selects_iff_of_not_found halbum (hother song hsong halbum)).mp (h song hsong halbum)

theorem filter_uris_perm_iff {p q : Song → Bool} (hdistinct : (library.map (·.uri)).Nodup)
    : ((library.filter p).map (·.uri)).Perm ((library.filter q).map (·.uri))
        ↔ ∀ song ∈ library, p song = true ↔ q song = true := by
  have hmem {p : Song → Bool} {song : Song} (hsong : song ∈ library)
      : song.uri ∈ (library.filter p).map (·.uri) ↔ p song = true := by
    rw [List.mem_map]
    constructor
    . rintro ⟨other, hother, heq⟩
      obtain ⟨hother, hp⟩ := List.mem_filter.mp hother
      obtain rfl := List.inj_on_of_nodup_map hdistinct hother hsong heq
      exact hp
    . intro hp
      exact ⟨song, List.mem_filter.mpr ⟨hsong, hp⟩, rfl⟩
  constructor
  . intro hperm song hsong
    rw [← hmem hsong, hperm.mem_iff, hmem hsong]
  . intro h
    rw [List.filter_congr fun song hsong => Bool.eq_iff_iff.mpr (h song hsong)]

theorem addAlbum_appends_iff (hmpc : Selects run library queue) (hdistinct : (library.map (·.uri)).Nodup)
    (huri : ∀ song ∈ library, Text.trim song.uri ≠ "") {album : Album}
    (halbum : (AlbumIndex.ofSongs library).get? key = some album) (client : Client) (world : ω)
    : ((player run).addAlbum key.album key.albumArtist).Ends (client, world)
        (fun _ after => ∃ appended, queue after.2 = queue world ++ appended
          ∧ (appended.Perm album.uris ↔ AgreeOn library key))
        (fun _ _ => False) := by
  rw [AlbumIndex.get?_ofSongs] at halbum
  have huris : album.uris = (key.tracks library).map (·.uri) := (Album.records_of_ofTracks? halbum).uris
  unfold player
  rw [Play.ends_onSnd]
  apply (addAlbum_ends hmpc huri key world).mono
  . rintro _ after ⟨found, hfound, hqueue⟩
    refine ⟨found.map (·.uri), hqueue, ?_⟩
    rw [huris, (hfound.map _).congr_left, selection, AlbumKey.tracks, filter_uris_perm_iff hdistinct,
      agreeOn_iff]
    simp only [decide_eq_true_iff]
  . exact fun _ _ => id

def shelf (library : List Song) : Runner (List String)
  | ["-f", _, "find", "album", album, tag, value] =>
    return String.join ((selected album tag value).map fun song => song.uri ++ "\n")
  | ["findadd", "album", album, tag, value] => do
    modify (· ++ (selected album tag value).map (·.uri))
    return ""
  | arguments => throw (.protocol (Text.joinWith " " arguments) "no such command")
where
  selected (album tag value : String) : List Song :=
    match Tag.all.find? fun named => named.mpcName = tag with
    | some tag => selection library album tag value
    | none => []

theorem selects_shelf (library : List Song) : Selects (shelf library) library id where
  find album tag value queue := by
    cases tag <;> exact ⟨rfl, _, List.Perm.refl _, rfl⟩
  findadd album tag value queue := by
    cases tag <;> exact ⟨_, List.Perm.refl _, rfl⟩

def tidyLibrary : List Song :=
  [{ uri := "a.flac", album := "Live", albumArtist := "Band", artist := "Guest" },
    { uri := "b.flac", album := "Live", albumArtist := "Band" },
    { uri := "c.flac", album := "Live", artist := "Other" }]

theorem tidyLibrary_appended
    : ∃ album, (AlbumIndex.ofSongs tidyLibrary).get? { album := "Live", albumArtist := "Band" } = some album
        ∧ ((player (shelf tidyLibrary)).addAlbum "Live" "Band").Ends ({}, ["x.flac"])
          (fun _ after => ∃ appended, after.2 = "x.flac" :: appended ∧ appended.Perm album.uris)
          (fun _ _ => False) := by
  have hagree : AgreeOn tidyLibrary { album := "Live", albumArtist := "Band" } :=
    agreeOn_iff.mpr (by decide)
  obtain ⟨album, halbum⟩ := Option.isSome_iff_exists.mp
    (AlbumIndex.isSome_get?_ofSongs.mpr ⟨_, List.mem_cons_self, by decide⟩
      : ((AlbumIndex.ofSongs tidyLibrary).get? { album := "Live", albumArtist := "Band" }).isSome = true)
  refine ⟨album, halbum, ?_⟩
  apply (addAlbum_appends_iff (selects_shelf tidyLibrary) (by decide) (by decide) halbum {} ["x.flac"]).mono
  . rintro _ after ⟨appended, hqueue, hperm⟩
    exact ⟨appended, hqueue, hperm.mpr hagree⟩
  . exact fun _ _ => id

def patchyLibrary : List Song :=
  [{ uri := "a.flac", album := "Live", albumArtist := "Band", artist := "Band" },
    { uri := "b.flac", album := "Live", artist := "Band" }]

theorem patchyLibrary_incomplete
    : Selects (shelf patchyLibrary) patchyLibrary id ∧ (patchyLibrary.map (·.uri)).Nodup
      ∧ (((AlbumIndex.ofSongs patchyLibrary).get? { album := "Live", albumArtist := "Band" }).map (·.uris)
        = some ["a.flac", "b.flac"])
      ∧ ((player (shelf patchyLibrary)).addAlbum "Live" "Band").Ends ({}, [])
          (fun _ after => after.2 = ["a.flac"]) (fun _ _ => False) := by
  refine ⟨selects_shelf patchyLibrary, by decide, ?_, ?_⟩
  . rw [AlbumIndex.get?_ofSongs]
    decide
  . decide

end Mpc

end AutoDJ
