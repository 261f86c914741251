import AutoDJ.Proofs.Jukebox.Apart
import AutoDJ.Proofs.Jukebox.Slots
import AutoDJ.Proofs.Player.PageSize

/-!
This module contains what is drawn from a listing, whatever the rules are: acceptable tracks that keep apart
from each other, and as many of them as there are in the selection of a listener who notes each acceptable
song that keeps apart from those noted before.
-/

namespace AutoDJ

namespace Exclusions

def Spares (rules : Exclusions) (uri : String) : Prop :=
  rules.ignoreHated = true
    → ∀ index ∈ rules.stickers, ∀ sticker ∈ index.get? uri, sticker.like ≠ .hate

/--
What the rules ask of a song, whatever else has been drawn: it is not hated and, while uniqueness is
enforced, neither pending nor recently played, and it has a tag value that no pending track has, or none.
-/
structure Accepts (rules : Exclusions) (song : Song) : Prop where
  spared : rules.Spares song.uri
  uri : rules.enforce = true → song.uri ∉ rules.pending.filterMap Candidate.uri?
  unheard : rules.enforce = true → song.uri ∉ rules.recent.uris
  unplayed : rules.enforce = true → ∀ index ∈ rules.recent.stickers, ∀ sticker ∈ index.get? song.uri,
    0 < sticker.lastPlayed → sticker.lastPlayed < rules.recent.since
  value : rules.enforce = true → ∀ value ∈ rules.tagValue? song,
    value ∉ rules.pending.filterMap Candidate.tagValue?

def Separate (rules : Exclusions) (song other : Song) : Prop :=
  song.uri ≠ other.uri ∧ ∀ value ∈ rules.tagValue? song, rules.tagValue? other ≠ some value

variable {rules : Exclusions}

theorem isHated_eq_false_iff {uri : String} : rules.isHated uri = false ↔ rules.Spares uri := by
  unfold isHated Spares
  cases rules.stickers with
  | none => simp
  | some index => cases hsticker : index.get? uri <;> simp [hsticker]

theorem contains_eq_false_iff {recent : RecentlyPlayed} {uri : String}
    : recent.contains uri = false
        ↔ uri ∉ recent.uris ∧ ∀ index ∈ recent.stickers, ∀ sticker ∈ index.get? uri,
          0 < sticker.lastPlayed → sticker.lastPlayed < recent.since := by
  unfold RecentlyPlayed.contains
  rw [Bool.or_eq_false_iff, ← Bool.not_eq_true, Std.ExtTreeSet.contains_iff_mem]
  cases recent.stickers with
  | none => simp
  | some index => cases hsticker : index.get? uri <;> simp [hsticker]

theorem hasUri_eq_false_iff {cs : List Candidate} {uri : String}
    : Candidate.hasUri cs uri = false ↔ uri ∉ cs.filterMap Candidate.uri? := by
  rw [← Candidate.any_key, Bool.not_eq_true]
  rfl

theorem hasTag_eq_false_iff {cs : List Candidate} {value : String}
    : Candidate.hasTag cs value = false ↔ value ∉ cs.filterMap Candidate.tagValue? := by
  rw [← Candidate.any_key, Bool.not_eq_true]
  rfl

theorem not_rejectsTrack_iff {uri : String} {tagValue : Option String} {drawn : List Candidate}
    : rules.rejectsTrack uri tagValue drawn = false
        ↔ rules.Spares uri ∧ (rules.enforce = true
          → ((uri ∉ drawn.filterMap Candidate.uri? ∧ uri ∉ rules.pending.filterMap Candidate.uri?)
              ∧ rules.recent.contains uri = false)
            ∧ ∀ value ∈ tagValue, value ∉ rules.pending.filterMap Candidate.tagValue?
              ∧ value ∉ drawn.filterMap Candidate.tagValue?) := by
  unfold rejectsTrack
  rw [Bool.or_eq_false_iff, isHated_eq_false_iff, Bool.and_eq_false_imp, Bool.or_eq_false_iff,
    Bool.or_eq_false_iff, Bool.or_eq_false_iff, hasUri_eq_false_iff, hasUri_eq_false_iff]
  cases tagValue with
  | none => simp
  | some value =>
    dsimp only
    rw [Bool.or_eq_false_iff, hasTag_eq_false_iff, hasTag_eq_false_iff]
    simp only [Option.mem_some_iff, forall_eq']

theorem rejectsTrack_eq_false_iff {song : Song} {drawn : List Candidate}
    : rules.rejectsTrack song.uri (rules.tagValue? song) drawn = false
        ↔ rules.Accepts song ∧ (rules.enforce = true → song.uri ∉ drawn.filterMap Candidate.uri?
          ∧ ∀ value ∈ rules.tagValue? song, value ∉ drawn.filterMap Candidate.tagValue?) := by
  rw [not_rejectsTrack_iff, contains_eq_false_iff]
  constructor
  . rintro ⟨hspared, henforced⟩
    refine ⟨⟨hspared, ?_, ?_, ?_, ?_⟩, ?_⟩ <;> intro henforce
    . exact (henforced henforce).1.1.2
    . exact (henforced henforce).1.2.1
    . exact (henforced henforce).1.2.2
    . exact fun value hvalue => ((henforced henforce).2 value hvalue).1
    . exact ⟨(henforced henforce).1.1.1, fun value hvalue => ((henforced henforce).2 value hvalue).2⟩
  . rintro ⟨⟨hspared, huri, hunheard, hunplayed, hpending⟩, hdrawn⟩
    refine ⟨hspared, fun henforce => ?_⟩
    obtain ⟨hnew, hother⟩ := hdrawn henforce
    exact ⟨⟨⟨hnew, huri henforce⟩, hunheard henforce, hunplayed henforce⟩,
      fun value hvalue => ⟨hpending henforce value hvalue, hother value hvalue⟩⟩

instance {uri : String} : Decidable (rules.Spares uri) :=
  decidable_of_iff _ isHated_eq_false_iff

instance {song : Song} : Decidable (rules.Accepts song) :=
  decidable_of_iff (rules.rejectsTrack song.uri (rules.tagValue? song) [] = false) (by
    rw [rejectsTrack_eq_false_iff]
    simp)

instance {song other : Song} : Decidable (rules.Separate song other) :=
  inferInstanceAs (Decidable (_ ∧ _))

def select (rules : Exclusions) (songs : List Song) : List Song :=
  songs.foldl
    (fun noted song =>
      if rules.Accepts song ∧ ∀ other ∈ noted, rules.Separate song other then noted ++ [song] else noted)
    []

def supply (rules : Exclusions) (songs : List Song) : Nat :=
  if rules.enforce then (rules.select songs).length else songs.countP fun song => rules.Spares song.uri

def pick (rules : Exclusions) (song : Song) : Pick :=
  .track song.uri (rules.tagValue? song)

/--
Tracks have been drawn from a listing by the rules: they are among the acceptable songs and come with
their tag values, each has a place of its own and, while uniqueness is enforced, they keep apart.
-/
structure Samples (rules : Exclusions) (songs : List Song) (drawn : List Candidate) : Prop where
  accepted : ∀ c ∈ drawn, ∃ song ∈ songs, rules.Accepts song ∧ c.pick = rules.pick song
  places : (drawn.map Candidate.drawnAt).Nodup
  uris : rules.enforce = true → (drawn.filterMap Candidate.uri?).Nodup
  values : rules.enforce = true → (drawn.filterMap Candidate.tagValue?).Nodup

namespace Samples

variable {songs : List Song} {drawn drawn' : List Candidate}

theorem nil : rules.Samples [] [] := by
  constructor <;> simp

theorem mono (h : rules.Samples songs drawn) (song : Song) : rules.Samples (songs ++ [song]) drawn := by
  refine ⟨fun c hc => ?_, h.places, h.uris, h.values⟩
  obtain ⟨other, hother, haccepted⟩ := h.accepted c hc
  exact ⟨other, List.mem_append_left _ hother, haccepted⟩

theorem perm (h : rules.Samples songs drawn) (hperm : drawn.Perm drawn') : rules.Samples songs drawn' := by
  refine ⟨fun c hc => h.accepted c (hperm.mem_iff.mpr hc), ?_, fun henforce => ?_, fun henforce => ?_⟩
  . exact (hperm.map _).nodup_iff.mp h.places
  . exact (hperm.filterMap _).nodup_iff.mp (h.uris henforce)
  . exact (hperm.filterMap _).nodup_iff.mp (h.values henforce)

end Samples

theorem select_append (songs : List Song) (song : Song)
    : rules.select (songs ++ [song])
        = if rules.Accepts song ∧ ∀ other ∈ rules.select songs, rules.Separate song other then
            rules.select songs ++ [song]
          else
            rules.select songs := by
  unfold select
  rw [List.foldl_append]
  rfl

theorem length_select_le (songs : List Song) (song : Song)
    : (rules.select songs).length ≤ (rules.select (songs ++ [song])).length := by
  rw [select_append]
  split
  . rw [List.length_append]
    exact Nat.le_add_right _ _
  . exact Nat.le_refl _

theorem accepts_iff_spares (hoff : rules.enforce = false) {song : Song}
    : rules.Accepts song ↔ rules.Spares song.uri := by
  have hvacuous {P : Prop} : rules.enforce = true → P := by
    rw [hoff]
    exact fun h => Bool.noConfusion h
  exact ⟨Accepts.spared, fun hspared => ⟨hspared, hvacuous, hvacuous, hvacuous, hvacuous⟩⟩

theorem forall_separate_iff {drawn : List Candidate} {noted : List Song}
    (h : drawn.map Candidate.pick = noted.map rules.pick) (song : Song)
    : (∀ other ∈ noted, rules.Separate song other)
        ↔ song.uri ∉ drawn.filterMap Candidate.uri?
          ∧ ∀ value ∈ rules.tagValue? song, value ∉ drawn.filterMap Candidate.tagValue? := by
  have huris : drawn.filterMap Candidate.uri? = noted.map (·.uri) := by
    have hpicks := congrArg (List.filterMap fun pick => Candidate.uri? { pick, drawnAt := 0 }) h
    rw [List.filterMap_map, List.filterMap_map] at hpicks
    exact hpicks.trans (congrFun List.filterMap_eq_map noted)
  have hvalues : drawn.filterMap Candidate.tagValue? = noted.filterMap rules.tagValue? := by
    have hpicks := congrArg (List.filterMap fun pick => Candidate.tagValue? { pick, drawnAt := 0 }) h
    rw [List.filterMap_map, List.filterMap_map] at hpicks
    exact hpicks
  rw [huris, hvalues]
  simp only [Separate, List.mem_map, List.mem_filterMap, not_exists, not_and]
  constructor
  . intro hseparate
    exact ⟨fun other hother => (hseparate other hother).1.symm,
      fun value hvalue other hother => (hseparate other hother).2 value hvalue⟩
  . rintro ⟨huri, hvalue⟩ other hother
    exact ⟨fun h => huri other hother h.symm, fun value hmem => hvalue value hmem other hother⟩

end Exclusions

namespace Sampler

variable {rules : Exclusions} {k : Nat} {seen : List Song} {sampler : Sampler} {song : Song}

theorem reservoir_offer (sampler : Sampler) (pick : Pick)
    : (sampler.offer pick).reservoir
        = sampler.reservoir.offerAt { pick, drawnAt := sampler.reservoir.seen + 1 }
          (sampler.random.below64 (sampler.reservoir.seen + 1)).1 :=
  Reservoir.offer_eq ..

structure Placed (sampler : Sampler) : Prop where
  distinct : (sampler.reservoir.items.toList.map Candidate.drawnAt).Nodup
  offered : ∀ c ∈ sampler.reservoir.items.toList, c.drawnAt ≤ sampler.reservoir.seen

theorem placed_empty (k : Nat) (random : WordStream) : Placed { reservoir := .empty k, random } := by
  constructor <;> simp [Reservoir.empty]

theorem Placed.offer (h : sampler.Placed) (pick : Pick) : (sampler.offer pick).Placed := by
  let c : Candidate := { pick, drawnAt := sampler.reservoir.seen + 1 }
  have hkept : (sampler.offer pick).reservoir.items.toList.Subperm
      (sampler.reservoir.items.toList ++ [c]) :=
    sampler.reservoir.offer_subperm c sampler.random
  constructor
  . -- the place of the new candidate is later than those before it
    have hplaces : ((sampler.reservoir.items.toList ++ [c]).map Candidate.drawnAt).Nodup := by
      rw [List.map_append]
      apply List.nodup_append'.mpr ⟨h.distinct, List.nodup_singleton _, _⟩
      intro place hplace hnext
      obtain ⟨d, hd, rfl⟩ := List.mem_map.mp hplace
      obtain heq : d.drawnAt = sampler.reservoir.seen + 1 := List.mem_singleton.mp hnext
      have hbefore := h.offered d hd
      omega
    obtain ⟨kept, hperm, hsublist⟩ := hkept
    exact (hperm.map _).nodup_iff.mp (hplaces.sublist (hsublist.map _))
  . intro d hd
    rw [reservoir_offer, Reservoir.seen_offerAt]
    obtain hd | hd := List.mem_append.mp (hkept.subset hd)
    . exact Nat.le_succ_of_le (h.offered d hd)
    . obtain rfl := List.mem_singleton.mp hd
      exact Nat.le_refl _

theorem visitSong_filled (h : sampler.reservoir.Filled k) (song : Song)
    : (sampler.visitSong rules song).reservoir.Filled k := by
  unfold visitSong
  dsimp only
  split
  . exact h
  . rw [reservoir_offer]
    exact h.offerAt _ _

structure Follows (rules : Exclusions) (k : Nat) (seen : List Song) (sampler : Sampler) : Prop where
  filled : sampler.reservoir.Filled k
  samples : rules.Samples seen sampler.reservoir.items.toList
  placed : ∀ c ∈ sampler.reservoir.items.toList, c.drawnAt ≤ sampler.reservoir.seen
  relaxed : rules.enforce = false
    → sampler.reservoir.seen = seen.countP fun song => rules.Spares song.uri
  selected : rules.enforce = true → sampler.reservoir.seen < k
    → sampler.reservoir.items.toList.map Candidate.pick = (rules.select seen).map rules.pick
  plenty : rules.enforce = true → k ≤ sampler.reservoir.seen → k ≤ (rules.select seen).length

theorem offer_samples (h : sampler.Follows rules k seen)
    (hadmitted : rules.rejectsTrack song.uri (rules.tagValue? song) sampler.reservoir.items.toList = false)
    : rules.Samples (seen ++ [song]) (sampler.offer (rules.pick song)).reservoir.items.toList
      ∧ ∀ c ∈ (sampler.offer (rules.pick song)).reservoir.items.toList,
        c.drawnAt ≤ sampler.reservoir.seen + 1 := by
  obtain ⟨haccepts, hnew⟩ := Exclusions.rejectsTrack_eq_false_iff.mp hadmitted
  obtain ⟨hdistinct, hoffered⟩ := Placed.offer ⟨h.samples.places, h.placed⟩ (rules.pick song)
  rw [reservoir_offer, Reservoir.seen_offerAt, ← reservoir_offer] at hoffered
  refine ⟨⟨?_, hdistinct, fun henforce => ?_, fun henforce => ?_⟩, hoffered⟩
  . apply offer_forall
      (P := fun pick => ∃ other ∈ seen ++ [song], rules.Accepts other ∧ pick = rules.pick other)
    . exact (h.samples.mono song).accepted
    . exact ⟨song, by simp, haccepts, rfl⟩
  . show (([] ++ (sampler.offer (rules.pick song)).reservoir.items.toList).filterMap Candidate.uri?).Nodup
    apply offer_apart (h.samples.uris henforce)
    rintro _ uri ⟨⟩
    exact (hnew henforce).1
  . show (([] ++ (sampler.offer (rules.pick song)).reservoir.items.toList).filterMap
      Candidate.tagValue?).Nodup
    apply offer_apart (h.samples.values henforce)
    exact fun _ value hvalue => (hnew henforce).2 value hvalue

theorem Follows.reject (h : sampler.Follows rules k seen)
    (hrejected : rules.rejectsTrack song.uri (rules.tagValue? song) sampler.reservoir.items.toList = true)
    : sampler.Follows rules k (seen ++ [song]) := by
  have hturned := Bool.eq_false_iff.not.mpr (not_not.mpr hrejected)
  rw [Exclusions.rejectsTrack_eq_false_iff] at hturned
  refine ⟨h.filled, h.samples.mono song, h.placed, fun hoff => ?_, fun henforce hroom => ?_,
    fun henforce hfull => ?_⟩
  . have hhated : ¬rules.Spares song.uri := fun hspared =>
      hturned ⟨(Exclusions.accepts_iff_spares hoff).mpr hspared, fun henforce => by simp [hoff] at henforce⟩
    rw [List.countP_append, h.relaxed hoff, List.countP_singleton, if_neg (by simpa using hhated)]
    rfl
  . have hpicks := h.selected henforce hroom
    rw [Exclusions.select_append, if_neg, hpicks]
    rintro ⟨haccepts, hseparate⟩
    exact hturned ⟨haccepts, fun _ => (Exclusions.forall_separate_iff hpicks song).mp hseparate⟩
  . exact Nat.le_trans (h.plenty henforce hfull) (Exclusions.length_select_le seen song)

theorem Follows.offer (h : sampler.Follows rules k seen)
    (hadmitted : rules.rejectsTrack song.uri (rules.tagValue? song) sampler.reservoir.items.toList = false)
    : (sampler.offer (rules.pick song)).Follows rules k (seen ++ [song]) := by
  obtain ⟨hsamples, hplaced⟩ := offer_samples h hadmitted
  obtain ⟨haccepts, hnew⟩ := Exclusions.rejectsTrack_eq_false_iff.mp hadmitted
  have hseen : (sampler.offer (rules.pick song)).reservoir.seen = sampler.reservoir.seen + 1 := by
    rw [reservoir_offer, Reservoir.seen_offerAt]
  have hselect (henforce : rules.enforce = true) (hroom : sampler.reservoir.seen < k)
      : rules.select (seen ++ [song]) = rules.select seen ++ [song] := by
    have hseparate := (Exclusions.forall_separate_iff (h.selected henforce hroom) song).mpr (hnew henforce)
    rw [Exclusions.select_append, if_pos ⟨haccepts, hseparate⟩]
  refine ⟨?_, hsamples, ?_, fun hoff => ?_, fun henforce hroom => ?_, fun henforce hfull => ?_⟩
  . rw [reservoir_offer]
    exact h.filled.offerAt _ _
  . rw [hseen]
    exact hplaced
  . rw [hseen, List.countP_append, h.relaxed hoff, List.countP_singleton,
      if_pos (by simpa using haccepts.spared)]
  . rw [hseen] at hroom
    have hopen : ¬sampler.reservoir.isFull = true := by
      rw [h.filled.isFull_iff]
      omega
    rw [reservoir_offer, Reservoir.toList_offerAt, if_neg hopen, List.map_append,
      h.selected henforce (by omega), hselect henforce (by omega), List.map_append]
    rfl
  . rw [hseen] at hfull
    by_cases hroom : sampler.reservoir.seen < k
    . -- the song takes the last place
      have hpicks := congrArg List.length (h.selected henforce hroom)
      rw [List.length_map, List.length_map, Array.length_toList, h.filled.size] at hpicks
      rw [hselect henforce hroom, List.length_append, List.length_singleton]
      omega
    . exact Nat.le_trans (h.plenty henforce (by omega)) (Exclusions.length_select_le seen song)

theorem visitSong_follows (song : Song) (h : sampler.Follows rules k seen)
    : (sampler.visitSong rules song).Follows rules k (seen ++ [song]) := by
  unfold visitSong
  dsimp only
  split
  . next hrejected => exact h.reject hrejected
  . next hadmitted => exact h.offer (Bool.eq_false_iff.mpr hadmitted)

theorem foldl_visitSong_follows (rules : Exclusions) (k : Nat) (random : WordStream) (songs : List Song)
    : Follows rules k songs
        (songs.foldl (fun sampler song => visitSong rules song sampler)
          { reservoir := .empty k, random }) := by
  induction songs using List.reverseRecOn with
  | nil =>
    refine ⟨.empty, .nil, ?_, fun _ => rfl, fun _ _ => rfl, fun _ hfull => hfull⟩
    intro c hc
    simp [Reservoir.empty] at hc
  | append_singleton songs song ih =>
    rw [List.foldl_append]
    exact visitSong_follows song ih

theorem Follows.length_items (h : sampler.Follows rules k seen)
    : sampler.reservoir.items.toList.length = min k (rules.supply seen) := by
  rw [Array.length_toList, h.filled.size]
  unfold Exclusions.supply
  split
  . next henforce =>
    by_cases hroom : sampler.reservoir.seen < k
    . have hpicks := congrArg List.length (h.selected henforce hroom)
      rw [List.length_map, List.length_map, Array.length_toList, h.filled.size] at hpicks
      omega
    . have hplenty := h.plenty henforce (by omega)
      omega
  . next hoff => rw [h.relaxed (Bool.eq_false_iff.mpr hoff)]

end Sampler

theorem drawFrom_samples (songs : List Song) (rules : Exclusions) (k : Nat) (random : WordStream)
    : rules.Samples songs (drawFrom songs rules k random).1
      ∧ (drawFrom songs rules k random).1.length = min k (rules.supply songs) := by
  have hfollows := Sampler.foldl_visitSong_follows rules k random songs
  have hperm : (drawFrom songs rules k random).1.Perm _ := Reservoir.shuffled_perm ..
  exact ⟨hfollows.samples.perm hperm.symm, hperm.length_eq.trans hfollows.length_items⟩

theorem sampleTracks_length_le {s : Type} (player : Player s) (source : Source) (pageSize : Nat)
    (rules : Exclusions) (k : Nat) (state : s) (random : WordStream)
    : (sampleTracks player source pageSize rules k).Ends (state, random)
        (fun drawn _ => drawn.length ≤ k) (fun _ _ => True) := by
  rw [ends_sampleTracks]
  apply (scanPages_ends pageSize _ _ (fun walk : s × Sampler => walk.2.reservoir.Filled k) ?_ ?_ _ .empty).mono
  . intro _ walk hfilled
    have hperm := walk.2.reservoir.shuffled_perm walk.2.random
    unfold Sampler.finish
    rw [hperm.length_eq, Array.length_toList, hfilled.size]
    exact Nat.min_le_left ..
  . exact fun _ _ _ => trivial
  . intro offset limit walk hfilled
    rw [Play.ends_onFst]
    exact Play.ends_of_forall (fun _ _ => hfilled) (fun _ _ => hfilled)
  . exact fun song walk hfilled => Sampler.visitSong_filled hfilled song

theorem sampleTracks_samples {s : Type} {player : Player s} {source : Source} {pageSize : Nat}
    {songs : List Song} {state after : s}
    (hpages : Shows (player.sourcePage source) (max pageSize 1) 0 state songs after)
    (hlength : songs.length < listingLimit) (rules : Exclusions) (k : Nat) (random : WordStream)
    : (sampleTracks player source pageSize rules k).Ends (state, random)
        (fun drawn walk => rules.Samples songs drawn ∧ drawn.length = min k (rules.supply songs)
          ∧ walk.1 = after)
        (fun _ _ => False) := by
  obtain ⟨hsamples, hcount⟩ := drawFrom_samples songs rules k random
  rw [ends_sampleTracks]
  unfold Play.Ends
  rw [hpages.scan_eq hlength (Sampler.visitSong rules)]
  exact ⟨hsamples, hcount, rfl⟩

def jumble : Rehearsal.ScriptedPlayer :=
  let songs := [("a.flac", "Jazz"), ("b.flac", "Rock"), ("a.flac", "Folk"), ("c.flac", "Jazz"),
    ("d.flac", "Soul"), ("e.flac", "Ska"), ("f.flac", "Soul")]
  { library := songs.map fun (uri, genre) => { uri, genre := some genre } }

def choosy : Exclusions where
  uniqueTag := some .genre
  ignoreHated := true
  stickers := some (StickerIndex.empty.set "d.flac" { like := .hate })
  pending := [{ pick := .track "g.flac" (some "Ska"), drawnAt := 1 }]
  recent := { uris := .ofList ["b.flac"] }

theorem jumble_samples
    : (sampleTracks Rehearsal.ScriptedPlayer.player .database 3 choosy 4).Ends
        (jumble, { word := fun _ => 0 })
        (fun drawn _ => choosy.Samples jumble.library drawn ∧ drawn.length = 2) (fun _ _ => False) := by
  have hserves : Serves (Rehearsal.ScriptedPlayer.player.sourcePage .database) jumble.library _ :=
    Rehearsal.ScriptedPlayer.serves_library jumble.library
  have hsize : 0 < max 3 1 := by decide
  have hstart : jumble.library = jumble.library ∧ jumble.pageCap = none ∧ jumble.failures = [] :=
    ⟨rfl, rfl, rfl⟩
  obtain ⟨after, hpages⟩ := hserves.shows hsize hstart
  apply (sampleTracks_samples hpages (by decide) choosy 4 { word := fun _ => 0 }).mono
  . rintro drawn _ ⟨hsamples, hcount, -⟩
    exact ⟨hsamples, hcount.trans (by decide +kernel)⟩
  . exact fun _ _ => id

end AutoDJ
