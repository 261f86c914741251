import AutoDJ.Proofs.Cache.Albums
import AutoDJ.Proofs.Jukebox.Selection

namespace AutoDJ

namespace Exclusions

structure AcceptsAlbum (rules : Exclusions) (key : AlbumKey) (album : Album) : Prop where
  key : rules.enforce = true → key ∉ rules.pending.filterMap Candidate.albumKey?
  unplayed : rules.enforce = true → ∀ uri ∈ album.uris, rules.recent.contains uri = false

variable {rules : Exclusions}

theorem hasAlbum_eq_false_iff {cs : List Candidate} {key : AlbumKey}
    : Candidate.hasAlbum cs key = false ↔ key ∉ cs.filterMap Candidate.albumKey? := by
  rw [← Candidate.any_key, Bool.not_eq_true]
  rfl

theorem rejectsAlbum_eq_false_iff {key : AlbumKey} {album : Album} {drawn : List Candidate}
    : rules.rejectsAlbum key album drawn = false
        ↔ rules.AcceptsAlbum key album
          ∧ (rules.enforce = true → key ∉ drawn.filterMap Candidate.albumKey?) := by
  unfold rejectsAlbum
  rw [Bool.and_eq_false_imp, Bool.or_eq_false_iff, Bool.or_eq_false_iff, hasAlbum_eq_false_iff,
    hasAlbum_eq_false_iff, List.any_eq_false]
  constructor
  . intro h
    refine ⟨⟨fun henforce => (h henforce).1.2, fun henforce uri huri => ?_⟩,
      fun henforce => (h henforce).1.1⟩
    simpa using (h henforce).2 uri huri
  . rintro ⟨⟨hpending, hunplayed⟩, hdrawn⟩ henforce
    refine ⟨⟨hdrawn henforce, hpending henforce⟩, fun uri huri => ?_⟩
    simp [hunplayed henforce uri huri]

instance {key : AlbumKey} {album : Album} : Decidable (rules.AcceptsAlbum key album) :=
  decidable_of_iff (rules.rejectsAlbum key album [] = false) (by
    rw [rejectsAlbum_eq_false_iff]
    simp)

/--
An album neither waits nor has been heard lately: it is not pending, and none of its tracks is in the playback
queue or the play history or has a sticker that says that it was played inside the window.
-/
structure FreshAlbum (rules : Exclusions) (key : AlbumKey) (album : Album) : Prop where
  waiting : ∀ c ∈ rules.pending, c.pick ≠ .album key
  unheard : ∀ uri ∈ album.uris, uri ∉ rules.recent.uris
  unplayed : ∀ uri ∈ album.uris, ∀ index ∈ rules.recent.stickers, ∀ sticker ∈ index.get? uri,
    ¬(0 < sticker.lastPlayed ∧ rules.recent.since ≤ sticker.lastPlayed)

theorem acceptsAlbum_iff {key : AlbumKey} {album : Album}
    : rules.AcceptsAlbum key album ↔ (rules.enforce = true → rules.FreshAlbum key album) := by
  have hpending : key ∉ rules.pending.filterMap Candidate.albumKey?
      ↔ ∀ c ∈ rules.pending, c.pick ≠ .album key := by
    have hkey (c : Candidate) : c.albumKey? = some key ↔ c.pick = .album key := by
      unfold Candidate.albumKey?
      cases c.pick <;> simp
    simp only [List.mem_filterMap, hkey, not_exists, not_and, ne_eq]
  have hplayed (uri : String) : rules.recent.contains uri = false
      ↔ uri ∉ rules.recent.uris ∧ ∀ index ∈ rules.recent.stickers, ∀ sticker ∈ index.get? uri,
        ¬(0 < sticker.lastPlayed ∧ rules.recent.since ≤ sticker.lastPlayed) := by
    simp only [contains_eq_false_iff, not_and, Int64.not_le]
  constructor
  . intro h henforce
    exact ⟨hpending.mp (h.key henforce), fun uri huri => ((hplayed uri).mp (h.unplayed henforce uri huri)).1,
      fun uri huri => ((hplayed uri).mp (h.unplayed henforce uri huri)).2⟩
  . intro h
    exact ⟨fun henforce => hpending.mpr (h henforce).waiting, fun henforce uri huri =>
      (hplayed uri).mpr ⟨(h henforce).unheard uri huri, (h henforce).unplayed uri huri⟩⟩

instance {key : AlbumKey} {album : Album} : Decidable (rules.FreshAlbum key album) :=
  decidable_of_iff (AcceptsAlbum { rules with enforce := true } key album) (by
    rw [acceptsAlbum_iff]
    exact ⟨fun h => ⟨(h rfl).waiting, (h rfl).unheard, (h rfl).unplayed⟩,
      fun h _ => ⟨h.waiting, h.unheard, h.unplayed⟩⟩)

def albumSupply (rules : Exclusions) (albums : List (AlbumKey × Album)) : Nat :=
  albums.countP fun (key, album) => rules.AcceptsAlbum key album

theorem albumSupply_eq (rules : Exclusions) (albums : List (AlbumKey × Album))
    : rules.albumSupply albums
        = if rules.enforce then albums.countP fun (key, album) => rules.FreshAlbum key album
          else albums.length := by
  unfold albumSupply
  split
  . next henforce =>
    apply List.countP_congr
    intro (key, album) _
    simp [acceptsAlbum_iff, henforce]
  . next hoff =>
    rw [List.countP_eq_length]
    intro (key, album) _
    simp [acceptsAlbum_iff, hoff]

end Exclusions

namespace Sampler

variable {rules : Exclusions} {k : Nat} {seen : List (AlbumKey × Album)} {sampler : Sampler}
  {entry : AlbumKey × Album}

structure FollowsAlbums (rules : Exclusions) (k : Nat) (seen : List (AlbumKey × Album))
    (sampler : Sampler) : Prop where
  filled : sampler.reservoir.Filled k
  offered : sampler.reservoir.seen = rules.albumSupply seen
  placed : sampler.Placed
  keys : (sampler.reservoir.items.toList.filterMap Candidate.albumKey?).Nodup
  accepted : ∀ c ∈ sampler.reservoir.items.toList, ∃ entry ∈ seen,
    rules.AcceptsAlbum entry.1 entry.2 ∧ c.pick = .album entry.1

theorem visitAlbum_follows (hnew : ∀ other ∈ seen, other.1 ≠ entry.1)
    (h : sampler.FollowsAlbums rules k seen)
    : (sampler.visitAlbum rules entry).FollowsAlbums rules k (seen ++ [entry]) := by
  obtain ⟨key, album⟩ := entry
  have hdrawn : key ∉ sampler.reservoir.items.toList.filterMap Candidate.albumKey? := by
    intro hmem
    obtain ⟨c, hc, hkey⟩ := List.mem_filterMap.mp hmem
    obtain ⟨other, hother, -, hpick⟩ := h.accepted c hc
    have hsame : some other.1 = some key := by
      rw [← hkey, Candidate.albumKey?, hpick]
    exact hnew other hother (Option.some.inj hsame)
  have hrejects : rules.rejectsAlbum key album sampler.reservoir.items.toList = true
      ↔ ¬rules.AcceptsAlbum key album := by
    rw [← Bool.not_eq_false, Exclusions.rejectsAlbum_eq_false_iff]
    simp [hdrawn]
  have hmono (c : Candidate) (hc : c ∈ sampler.reservoir.items.toList)
      : ∃ entry ∈ seen ++ [(key, album)],
          rules.AcceptsAlbum entry.1 entry.2 ∧ c.pick = .album entry.1 := by
    obtain ⟨other, hother, haccepted⟩ := h.accepted c hc
    exact ⟨other, List.mem_append_left _ hother, haccepted⟩
  unfold visitAlbum
  dsimp only
  split
  . next hrejected =>
    refine ⟨h.filled, ?_, h.placed, h.keys, hmono⟩
    rw [Exclusions.albumSupply, List.countP_append, List.countP_singleton,
      if_neg (by simpa using hrejects.mp hrejected)]
    exact h.offered
  . next hadmitted =>
    have haccepts : rules.AcceptsAlbum key album := not_not.mp (mt hrejects.mpr hadmitted)
    refine ⟨?_, ?_, h.placed.offer _, ?_, ?_⟩
    . rw [reservoir_offer]
      exact h.filled.offerAt _ _
    . rw [reservoir_offer, Reservoir.seen_offerAt, h.offered, Exclusions.albumSupply, Exclusions.albumSupply,
        List.countP_append, List.countP_singleton, if_pos (by simpa using haccepts)]
    . show (([] ++ (sampler.offer (.album key)).reservoir.items.toList).filterMap Candidate.albumKey?).Nodup
      apply offer_apart h.keys
      rintro _ _ ⟨⟩
      exact hdrawn
    . apply offer_forall
        (P := fun pick => ∃ entry ∈ seen ++ [(key, album)], rules.AcceptsAlbum entry.1 entry.2
          ∧ pick = .album entry.1)
      . exact hmono
      . exact ⟨(key, album), by simp, haccepts, rfl⟩

theorem foldl_visitAlbum_follows (rules : Exclusions) (k : Nat) (random : WordStream)
    {albums : List (AlbumKey × Album)} (hkeys : (albums.map Prod.fst).Nodup)
    : FollowsAlbums rules k albums
        (albums.foldl (Sampler.visitAlbum rules) { reservoir := .empty k, random }) := by
  induction albums using List.reverseRecOn with
  | nil =>
    refine ⟨.empty, rfl, placed_empty k random, List.nodup_nil, fun c hc => ?_⟩
    simp [Reservoir.empty] at hc
  | append_singleton albums entry ih =>
    rw [List.map_append, List.nodup_append'] at hkeys
    rw [List.foldl_append]
    apply visitAlbum_follows _ (ih hkeys.1)
    intro other hother heq
    exact hkeys.2.2 (List.mem_map_of_mem hother) (by simp [heq])

end Sampler

section Index

variable (index : AlbumIndex) (rules : Exclusions) (k : Nat) (random : WordStream)

theorem sampleAlbums_perm
    : (sampleAlbums index rules k random).1.Perm
        (index.toList.foldl (Sampler.visitAlbum rules)
          { reservoir := .empty k, random }).reservoir.items.toList :=
  Reservoir.shuffled_perm ..

theorem sampleAlbums_samples
    : (∀ c ∈ (sampleAlbums index rules k random).1, ∃ entry ∈ index.toList,
        rules.AcceptsAlbum entry.1 entry.2 ∧ c.pick = .album entry.1)
      ∧ (sampleAlbums index rules k random).1.length = min k (rules.albumSupply index.toList) := by
  have hfollows := Sampler.foldl_visitAlbum_follows rules k random index.nodup_keys
  have hperm := sampleAlbums_perm index rules k random
  refine ⟨fun c hc => hfollows.accepted c (hperm.mem_iff.mp hc), ?_⟩
  rw [hperm.length_eq, Array.length_toList, hfollows.filled.size, hfollows.offered]

theorem sampleAlbums_draws
    : (sampleAlbums index rules k random).1.length
        = min k (if rules.enforce then index.toList.countP fun (key, album) => rules.FreshAlbum key album
          else index.size)
      ∧ (∀ c ∈ (sampleAlbums index rules k random).1, ∃ key album, c.pick = .album key
        ∧ index.get? key = some album ∧ (rules.enforce = true → rules.FreshAlbum key album))
      ∧ ((sampleAlbums index rules k random).1.map Candidate.albumKey?).Nodup
      ∧ ((sampleAlbums index rules k random).1.map Candidate.drawnAt).Nodup := by
  have hfollows := Sampler.foldl_visitAlbum_follows rules k random index.nodup_keys
  have hperm := sampleAlbums_perm index rules k random
  obtain ⟨hlisted, hlength⟩ := sampleAlbums_samples index rules k random
  have hsize : index.toList.length = index.size := Std.ExtTreeMap.length_toList
  refine ⟨?_, fun c hc => ?_, ?_, ?_⟩
  . rw [hlength, Exclusions.albumSupply_eq, hsize]
  . obtain ⟨⟨key, album⟩, hentry, haccepted, hpick⟩ := hlisted c hc
    exact ⟨key, album, hpick, AlbumIndex.mem_toList_iff.mp hentry,
      Exclusions.acceptsAlbum_iff.mp haccepted⟩
  . -- all that is drawn are albums, so that there is a key for each of them
    have hkeys : ((sampleAlbums index rules k random).1.filterMap Candidate.albumKey?).map some
        = (sampleAlbums index rules k random).1.map Candidate.albumKey? := by
      rw [List.map_filterMap, List.filterMap_eq_map_iff_forall_eq_some]
      intro c hc
      obtain ⟨entry, -, -, hpick⟩ := hlisted c hc
      rw [Candidate.albumKey?, hpick]
      rfl
    rw [← hkeys, List.nodup_map_iff (Option.some_injective _)]
    exact (hperm.filterMap _).nodup_iff.mpr hfollows.keys
  . exact (hperm.map _).nodup_iff.mpr hfollows.placed.distinct

end Index

end AutoDJ
