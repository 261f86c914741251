import AutoDJ.Album
import Mathlib.Algebra.Order.BigOperators.Group.List
import Mathlib.Algebra.Order.Ring.Nat
import Mathlib.Algebra.BigOperators.Group.Finset.Basic
import Mathlib.Data.List.Induction

namespace AutoDJ

def Song.isLoose (song : Song) : Bool :=
  song.album.isNone && song.albumArtist.isNone && song.artist.isNone

/--
A song belongs to the album with a key. The artist stands in for a missing album artist and the empty text
for what is missing, but something has to be there.
-/
structure Song.OnAlbum (song : Song) (key : AlbumKey) : Prop where
  tagged : song.isLoose = false
  album : key.album = song.album.getD ""
  albumArtist : key.albumArtist = song.albumArtist.getD (song.artist.getD "")

namespace AlbumKey

theorem ofSong?_eq (song : Song)
    : ofSong? song
        = if song.isLoose then none
          else some
            { album := song.album.getD ""
              albumArtist := song.albumArtist.getD (song.artist.getD "") } := by
  unfold ofSong? Song.isLoose
  cases song.album <;> cases song.albumArtist <;> cases song.artist <;> rfl

theorem ofSong?_eq_some_iff {song : Song} {key : AlbumKey}
    : ofSong? song = some key ↔ song.OnAlbum key := by
  rw [ofSong?_eq]
  constructor
  . intro h
    split at h
    . contradiction
    . next htagged =>
      obtain rfl := Option.some.inj h
      exact ⟨Bool.eq_false_iff.mpr htagged, rfl, rfl⟩
  . rintro ⟨htagged, halbum, halbumArtist⟩
    rw [htagged, ← halbum, ← halbumArtist]
    rfl

instance {song : Song} {key : AlbumKey} : Decidable (song.OnAlbum key) :=
  decidable_of_iff _ ofSong?_eq_some_iff

def tracks (key : AlbumKey) (songs : List Song) : List Song :=
  songs.filter fun song => song.OnAlbum key

theorem tracks_append (key : AlbumKey) (songs : List Song) (song : Song)
    : key.tracks (songs ++ [song])
        = if song.OnAlbum key then key.tracks songs ++ [song] else key.tracks songs := by
  unfold tracks
  rw [List.filter_append, List.filter_singleton]
  split <;> simp_all

theorem mem_tracks {key : AlbumKey} {songs : List Song} {song : Song}
    : song ∈ key.tracks songs ↔ song ∈ songs ∧ song.OnAlbum key := by
  rw [tracks, List.mem_filter, decide_eq_true_iff]

def Precedes (key other : AlbumKey) : Prop :=
  key.album < other.album ∨ key.album = other.album ∧ key.albumArtist < other.albumArtist

theorem order_eq_lt_iff {key other : AlbumKey} : order key other = .lt ↔ key.Precedes other := by
  have hlt {a b : String} : compare a b = .lt ↔ a < b := compareOfLessAndEq_eq_lt
  have heq {a b : String} : compare a b = .eq ↔ a = b := Std.compare_eq_iff_eq
  unfold order Precedes
  rw [compareLex, Ordering.then_eq_lt, compareOn, compareOn, hlt, heq, hlt]

end AlbumKey

namespace Album

/--
The record of an album with the given songs: it has their URIs and takes as long as they do together, and all
else is that of the first song. The seconds are counted in a 64-bit word, which is enough for 2³² songs.
-/
structure Records (album : Album) (tracks : List Song) : Prop where
  first : ∃ song, tracks.head? = some song
    ∧ album.firstUri = song.uri ∧ album.date = song.date ∧ album.genre = song.genre
  uris : album.uris = tracks.map (·.uri)
  duration : album.duration = UInt64.ofNat (tracks.map (·.duration.toNat)).sum
  seconds : tracks.length ≤ UInt32.size → album.duration.toNat = (tracks.map (·.duration.toNat)).sum

def ofTracks? : List Song → Option Album
  | [] => none
  | first :: rest => some (rest.foldl addSong (ofSong first))

theorem ofTracks?_append (tracks : List Song) (song : Song)
    : ofTracks? (tracks ++ [song])
        = some (match ofTracks? tracks with
          | none => ofSong song
          | some album => album.addSong song) := by
  cases tracks with
  | nil => rfl
  | cons first rest =>
    rw [List.cons_append, ofTracks?, List.foldl_append]
    rfl

theorem isSome_ofTracks? {tracks : List Song} : (ofTracks? tracks).isSome = true ↔ tracks ≠ [] := by
  cases tracks <;> simp [ofTracks?]

theorem sum_duration_lt {tracks : List Song} (h : tracks.length ≤ UInt32.size)
    : (tracks.map (·.duration.toNat)).sum < UInt64.size := by
  have hduration : ∀ seconds ∈ tracks.map (·.duration.toNat), seconds ≤ UInt32.size - 1 := by
    intro seconds hseconds
    obtain ⟨song, -, rfl⟩ := List.mem_map.mp hseconds
    exact Nat.le_sub_one_of_lt song.duration.toNat_lt_size
  calc (tracks.map (·.duration.toNat)).sum
    _ ≤ tracks.length * (UInt32.size - 1) := by
      simpa using List.sum_le_card_nsmul _ _ hduration
    _ ≤ UInt32.size * (UInt32.size - 1) := Nat.mul_le_mul_right _ h
    _ < UInt64.size := by decide

theorem foldl_addSong (album : Album) (songs : List Song)
    : songs.foldl addSong album
        = { album with
            uris := album.uris ++ songs.map (·.uri)
            duration := album.duration + UInt64.ofNat (songs.map (·.duration.toNat)).sum } := by
  induction songs generalizing album with
  | nil => simp
  | cons song songs ih =>
    have hword : song.duration.toUInt64 = UInt64.ofNat song.duration.toNat := by simp
    rw [List.foldl_cons, ih, addSong, hword]
    simp [UInt64.ofNat_add, UInt64.add_assoc]

theorem records_of_ofTracks? {tracks : List Song} {album : Album} (h : ofTracks? tracks = some album)
    : album.Records tracks := by
  cases tracks with
  | nil => contradiction
  | cons first rest =>
    have hword : first.duration.toUInt64 = UInt64.ofNat first.duration.toNat := by simp
    obtain rfl := Option.some.inj h
    have hduration : (rest.foldl addSong (ofSong first)).duration
        = UInt64.ofNat ((first :: rest).map (·.duration.toNat)).sum := by
      rw [foldl_addSong, ofSong, hword, List.map_cons, List.sum_cons, UInt64.ofNat_add]
    refine ⟨⟨first, rfl, ?_⟩, ?_, hduration, fun hfew => ?_⟩
    . rw [foldl_addSong]
      exact ⟨rfl, rfl, rfl⟩
    . rw [foldl_addSong]
      rfl
    . rw [hduration, UInt64.toNat_ofNat_of_lt' (sum_duration_lt hfew)]

end Album

namespace AlbumIndex

theorem get?_insert (index : AlbumIndex) (song : Song) (key : AlbumKey)
    : (index.insert song).get? key
        = if song.OnAlbum key then
            some (match index.get? key with
              | none => Album.ofSong song
              | some album => album.addSong song)
          else
            index.get? key := by
  by_cases h : song.OnAlbum key
  . rw [if_pos h, insert, AlbumKey.ofSong?_eq_some_iff.mpr h]
    dsimp only [get?]
    rw [Std.ExtTreeMap.getElem?_alter_self]
    cases index.albums[key]? <;> rfl
  . rw [if_neg h, insert]
    cases hkey : AlbumKey.ofSong? song with
    | none => rfl
    | some other =>
      have hother : AlbumKey.order other key ≠ .eq := by
        rw [ne_eq, Std.LawfulEqCmp.compare_eq_iff_eq]
        rintro rfl
        exact h (AlbumKey.ofSong?_eq_some_iff.mp hkey)
      dsimp only [get?]
      rw [Std.ExtTreeMap.getElem?_alter, if_neg hother]

theorem skipped_insert (index : AlbumIndex) (song : Song)
    : (index.insert song).skipped = index.skipped + song.isLoose.toNat := by
  rw [insert, AlbumKey.ofSong?_eq]
  cases song.isLoose <;> rfl

theorem ofSongs_append (songs : List Song) (song : Song)
    : ofSongs (songs ++ [song]) = (ofSongs songs).insert song :=
  List.foldl_append

theorem get?_ofSongs (songs : List Song) (key : AlbumKey)
    : (ofSongs songs).get? key = Album.ofTracks? (key.tracks songs) := by
  induction songs using List.reverseRecOn with
  | nil => exact Std.ExtTreeMap.getElem?_empty
  | append_singleton songs song ih =>
    rw [ofSongs_append, get?_insert, AlbumKey.tracks_append, ih]
    split
    . rw [Album.ofTracks?_append]
    . rfl

theorem skipped_ofSongs (songs : List Song) : (ofSongs songs).skipped = songs.countP Song.isLoose := by
  induction songs using List.reverseRecOn with
  | nil => rfl
  | append_singleton songs song ih =>
    rw [ofSongs_append, skipped_insert, ih, List.countP_append, List.countP_singleton]
    cases song.isLoose <;> rfl

theorem ext {index other : AlbumIndex} (halbums : ∀ key, index.get? key = other.get? key)
    (hskipped : index.skipped = other.skipped) : index = other := by
  obtain ⟨albums, skipped⟩ := index
  obtain ⟨albums', skipped'⟩ := other
  obtain rfl : albums = albums' := Std.ExtTreeMap.ext_getElem? halbums
  obtain rfl : skipped = skipped' := hskipped
  rfl

theorem mem_toList_iff {index : AlbumIndex} {key : AlbumKey} {album : Album}
    : (key, album) ∈ index.toList ↔ index.get? key = some album :=
  Std.ExtTreeMap.mem_toList_iff_getElem?_eq_some

theorem toList_pairwise (index : AlbumIndex)
    : index.toList.Pairwise fun entry entry' => entry.1.Precedes entry'.1 :=
  index.albums.ordered_keys_toList.imp AlbumKey.order_eq_lt_iff.mp

theorem trackCount_of_mem_toList {songs : List Song} {entry : AlbumKey × Album}
    (h : entry ∈ (ofSongs songs).toList)
    : entry.2.trackCount = (songs.filterMap AlbumKey.ofSong?).count entry.1 := by
  have hget := mem_toList_iff.mp h
  rw [get?_ofSongs] at hget
  rw [Album.trackCount, (Album.records_of_ofTracks? hget).uris, List.length_map, AlbumKey.tracks,
    ← List.countP_eq_length_filter, List.count_filterMap]
  apply List.countP_congr
  intro song _
  rw [decide_eq_true_iff, ← AlbumKey.ofSong?_eq_some_iff, beq_iff_eq]

theorem isSome_get?_ofSongs {songs : List Song} {key : AlbumKey}
    : ((ofSongs songs).get? key).isSome = true ↔ ∃ song ∈ songs, song.OnAlbum key := by
  rw [get?_ofSongs, Album.isSome_ofTracks?, ne_eq, List.eq_nil_iff_forall_not_mem, not_forall_not]
  simp only [AlbumKey.mem_tracks]

theorem nodup_keys (index : AlbumIndex) : (index.toList.map Prod.fst).Nodup := by
  rw [toList, Std.ExtTreeMap.map_fst_toList_eq_keys]
  exact Std.ExtTreeMap.nodup_keys

theorem keys_perm (songs : List Song)
    : ((ofSongs songs).toList.map Prod.fst).Perm (songs.filterMap AlbumKey.ofSong?).dedup := by
  apply (List.perm_ext_iff_of_nodup (nodup_keys _) (List.nodup_dedup _)).mpr
  intro key
  have hlisted : key ∈ (ofSongs songs).toList.map Prod.fst
      ↔ ((ofSongs songs).get? key).isSome = true := by
    rw [List.mem_map, Option.isSome_iff_exists]
    constructor
    . rintro ⟨⟨_, album⟩, hentry, rfl⟩
      exact ⟨album, mem_toList_iff.mp hentry⟩
    . rintro ⟨album, hget⟩
      exact ⟨(key, album), mem_toList_iff.mpr hget, rfl⟩
  rw [hlisted, isSome_get?_ofSongs, List.mem_dedup, List.mem_filterMap]
  simp only [AlbumKey.ofSong?_eq_some_iff]

theorem skipped_add_trackCounts (songs : List Song)
    : (ofSongs songs).skipped + ((ofSongs songs).toList.map (·.2.trackCount)).sum = songs.length := by
  have hcounts : (ofSongs songs).toList.map (·.2.trackCount)
      = ((ofSongs songs).toList.map Prod.fst).map fun key =>
        (songs.filterMap AlbumKey.ofSong?).count key := by
    rw [List.map_map]
    exact List.map_congr_left fun entry hentry => trackCount_of_mem_toList hentry
  have hloose (song : Song) : song.isLoose = decide ¬(AlbumKey.ofSong? song).isSome = true := by
    rw [AlbumKey.ofSong?_eq]
    cases song.isLoose <;> rfl
  rw [hcounts, ((keys_perm songs).map _).sum_eq, List.sum_map_count_dedup_eq_length, skipped_ofSongs,
    List.length_filterMap_eq_countP, funext hloose, Nat.add_comm]
  exact (List.length_eq_countP_add_countP fun song => (AlbumKey.ofSong? song).isSome).symm

/--
An index of songs that are inserted one after another has a record for each key that some song has, and
this is the record of the songs with that key. It counts the songs without a key, so that each song is
counted once, and lists its records by ascending keys. It is the same for every order of the songs that
leaves the songs of each album in theirs.
-/
theorem ofSongs_content (songs : List Song)
    : (∀ key, ((ofSongs songs).get? key).isSome = true ↔ ∃ song ∈ songs, song.OnAlbum key)
      ∧ (∀ key, ∀ album ∈ (ofSongs songs).get? key, album.Records (key.tracks songs))
      ∧ (ofSongs songs).skipped = songs.countP Song.isLoose
      ∧ (ofSongs songs).skipped + ((ofSongs songs).toList.map (·.2.trackCount)).sum = songs.length
      ∧ (∀ key album, (key, album) ∈ (ofSongs songs).toList ↔ (ofSongs songs).get? key = some album)
      ∧ ((ofSongs songs).toList.Pairwise fun entry entry' => entry.1.Precedes entry'.1)
      ∧ ∀ reordered : List Song, reordered.Perm songs
        → (∀ key : AlbumKey, key.tracks reordered = key.tracks songs)
        → ofSongs reordered = ofSongs songs := by
  refine ⟨fun _ => isSome_get?_ofSongs, fun key album halbum => ?_, skipped_ofSongs songs,
    skipped_add_trackCounts songs, fun _ _ => mem_toList_iff, toList_pairwise _,
    fun reordered hperm htracks => ?_⟩
  . rw [get?_ofSongs] at halbum
    exact Album.records_of_ofTracks? halbum
  . apply ext
    . intro key
      rw [get?_ofSongs, get?_ofSongs, htracks]
    . rw [skipped_ofSongs, skipped_ofSongs, hperm.countP_eq]

def medley : List Song :=
  [{ uri := "a.flac", album := "Live", albumArtist := "Band", artist := "Guest", duration := 100 },
    { uri := "b.flac", artist := "Band", duration := 90 },
    { uri := "c.flac", album := "Live", artist := "Band", duration := 80 },
    { uri := "d.flac", album := "", albumArtist := "Band", duration := 70 },
    { uri := "e.flac" }]

def shuffledMedley : List Song :=
  [1, 4, 0, 3, 2].filterMap (medley[·]?)

theorem medley_content
    : ((ofSongs medley).get? { album := "Live", albumArtist := "Band" }).isSome = true
      ∧ (ofSongs medley).skipped = 1
      ∧ ofSongs shuffledMedley = ofSongs medley := by
  obtain ⟨hkeys, -, hskipped, -, -, -, hreordered⟩ := ofSongs_content medley
  have hperm : shuffledMedley.Perm medley := by
    decide
  refine ⟨(hkeys _).mpr ⟨_, List.mem_cons_self, by decide⟩, hskipped, hreordered _ hperm fun key => ?_⟩
  have htwo : ∀ song ∈ medley, AlbumKey.ofSong? song
      ∈ [none, some { album := "Live", albumArtist := "Band" }, some { album := "", albumArtist := "Band" }] := by
    decide
  by_cases hkey : ∃ song ∈ medley, song.OnAlbum key
  . obtain ⟨song, hsong, hon⟩ := hkey
    have hmem := htwo song hsong
    rw [AlbumKey.ofSong?_eq_some_iff.mpr hon] at hmem
    obtain rfl | rfl : key = { album := "Live", albumArtist := "Band" }
        ∨ key = { album := "", albumArtist := "Band" } := by simpa using hmem
    . decide
    . decide
  . have hnone (songs : List Song) (hsubset : songs ⊆ medley) : key.tracks songs = [] := by
      apply List.filter_eq_nil_iff.mpr
      intro song hsong hon
      exact hkey ⟨song, hsubset hsong, of_decide_eq_true hon⟩
    rw [hnone _ hperm.subset, hnone _ (List.Subset.refl _)]

end AlbumIndex

end AutoDJ
