import AutoDJ.Proofs.Jukebox.Sampling
import AutoDJ.Proofs.Jukebox.Slots
import Mathlib.Data.Finset.Card
import Mathlib.Data.Finset.Dedup

namespace AutoDJ

namespace Exclusions

variable {rules : Exclusions}

def eligible (rules : Exclusions) (songs : List Song) : Finset String :=
  (songs.map (·.uri)).toFinset.filter fun uri => rules.rejectsTrack uri none [] = false

theorem eligible_append (seen : List Song) (song : Song)
    : rules.eligible (seen ++ [song])
        = if rules.rejectsTrack song.uri none [] = false then
            insert song.uri (rules.eligible seen)
          else
            rules.eligible seen := by
  have hsingle : [song.uri].toFinset = {song.uri} := rfl
  unfold eligible
  rw [List.map_append, List.toFinset_append, Finset.filter_union, List.map_singleton, hsingle,
    Finset.filter_singleton]
  split
  . rw [Finset.union_comm]
    rfl
  . rw [Finset.union_empty]

theorem rejectsTrack_eq (h : rules.enforce = true) (uri : String) (drawn : List Candidate)
    : rules.rejectsTrack uri none drawn
        = (rules.rejectsTrack uri none [] || Candidate.hasUri drawn uri) := by
  have hnil : Candidate.hasUri [] uri = false := rfl
  unfold rejectsTrack
  rw [h, hnil]
  cases rules.isHated uri <;> cases Candidate.hasUri drawn uri <;> simp

end Exclusions

structure Harvest (eligible : Finset String) (k : Nat) (drawn : List Candidate) : Prop where
  tracks : ∀ c ∈ drawn, ∃ uri ∈ eligible, c.uri? = some uri
  distinct : (drawn.map Candidate.uri?).Nodup
  length : drawn.length = min k eligible.card

namespace Harvest

variable {eligible : Finset String} {k : Nat} {drawn : List Candidate}

theorem nil : Harvest ∅ k [] := by
  constructor <;> simp

theorem perm {drawn' : List Candidate} (h : Harvest eligible k drawn) (hperm : drawn.Perm drawn')
    : Harvest eligible k drawn' := by
  constructor
  . intro c hc
    exact h.tracks c (hperm.mem_iff.mpr hc)
  . exact (hperm.map _).nodup_iff.mp h.distinct
  . rw [← hperm.length_eq, h.length]

theorem covers (h : Harvest eligible k drawn) (hk : eligible.card ≤ k) {uri : String}
    (huri : uri ∈ eligible) : some uri ∈ drawn.map Candidate.uri? := by
  have hsubset : (drawn.map Candidate.uri?).toFinset ⊆ eligible.image some := by
    intro found hfound
    obtain ⟨c, hc, rfl⟩ := List.mem_map.mp (List.mem_toFinset.mp hfound)
    obtain ⟨uri, huri, heq⟩ := h.tracks c hc
    rw [heq]
    exact Finset.mem_image_of_mem some huri
  have hcard : (eligible.image some).card ≤ (drawn.map Candidate.uri?).toFinset.card := by
    rw [Finset.card_image_of_injective _ (Option.some_injective String),
      List.toFinset_card_of_nodup h.distinct, List.length_map, h.length]
    omega
  rw [← List.mem_toFinset, Finset.eq_of_subset_of_card_le hsubset hcard]
  exact Finset.mem_image_of_mem some huri

end Harvest

namespace Sampler

variable {rules : Exclusions} {eligible : Finset String} {k : Nat} {sampler : Sampler}

theorem capacity_offer (sampler : Sampler) (pick : Pick)
    : (sampler.offer pick).reservoir.capacity = sampler.reservoir.capacity := by
  unfold offer
  dsimp only
  rw [Reservoir.offer_eq]
  unfold Reservoir.offerAt
  split <;> rfl

theorem offer_harvests {uri : String} (h : Harvest eligible k sampler.reservoir.items.toList)
    (hcapacity : sampler.reservoir.capacity = k)
    (huri : some uri ∉ sampler.reservoir.items.toList.map Candidate.uri?)
    : Harvest (insert uri eligible) k
        (sampler.offer (.track uri none)).reservoir.items.toList := by
  generalize hc : ({ pick := .track uri none, drawnAt := sampler.reservoir.seen + 1 } : Candidate) = c
  have hcuri : c.uri? = some uri := by
    rw [← hc]
    rfl
  have hold : ∀ d ∈ sampler.reservoir.items.toList, ∃ other ∈ insert uri eligible,
      d.uri? = some other := by
    intro d hd
    obtain ⟨other, hmem, heq⟩ := h.tracks d hd
    exact ⟨other, Finset.mem_insert_of_mem hmem, heq⟩
  have hnew : ∃ other ∈ insert uri eligible, c.uri? = some other :=
    ⟨uri, Finset.mem_insert_self _ _, hcuri⟩
  have hlength := h.length
  unfold offer
  dsimp only
  rw [hc, Reservoir.offer_eq, Reservoir.toList_offerAt]
  split
  . next hfull =>
    rw [Reservoir.isFull, hcapacity, decide_eq_true_iff, ← Array.length_toList] at hfull
    constructor
    . intro d hd
      obtain hd | rfl := List.mem_or_eq_of_mem_set hd
      . exact hold d hd
      . exact hnew
    . rw [List.map_set, hcuri]
      exact h.distinct.set huri
    . have hcard := Finset.card_le_card (Finset.subset_insert uri eligible)
      rw [List.length_set]
      omega
  . next hroom =>
    rw [Reservoir.isFull, hcapacity, decide_eq_true_iff, ← Array.length_toList] at hroom
    constructor
    . intro d hd
      obtain hd | hd := List.mem_append.mp hd
      . exact hold d hd
      . obtain rfl := List.mem_singleton.mp hd
        exact hnew
    . rw [List.map_append, List.nodup_append']
      refine ⟨h.distinct, by simp, ?_⟩
      simpa [hcuri] using huri
    . -- there is room, so that all eligible tracks so far have been drawn
      have hfresh : uri ∉ eligible := fun hmem => huri (h.covers (by omega) hmem)
      rw [List.length_append, List.length_singleton, Finset.card_insert_of_notMem hfresh]
      omega

theorem visitSong_harvests {seen : List Song} (henforce : rules.enforce = true)
    (htag : rules.uniqueTag = none) (song : Song)
    (h : Harvest (rules.eligible seen) k sampler.reservoir.items.toList)
    (hcapacity : sampler.reservoir.capacity = k)
    : Harvest (rules.eligible (seen ++ [song])) k
          (sampler.visitSong rules song).reservoir.items.toList
        ∧ (sampler.visitSong rules song).reservoir.capacity = k := by
  have hvalue : rules.tagValue? song = none := by
    rw [Exclusions.tagValue?, htag]
    rfl
  unfold visitSong
  dsimp only
  rw [hvalue, Exclusions.rejectsTrack_eq henforce, Exclusions.eligible_append]
  cases hrules : rules.rejectsTrack song.uri none [] with
  | true => exact ⟨h, hcapacity⟩
  | false =>
    rw [Bool.false_or, if_pos rfl]
    split
    . next hdrawn =>
      -- an earlier occurrence of the song has been drawn
      obtain ⟨c, hc, huri⟩ := List.mem_map.mp (Candidate.hasUri_iff.mp hdrawn)
      obtain ⟨uri, hmem, heq⟩ := h.tracks c hc
      obtain rfl := Option.some.inj (huri.symm.trans heq)
      rw [Finset.insert_eq_of_mem hmem]
      exact ⟨h, hcapacity⟩
    . next hdrawn =>
      rw [Candidate.hasUri_iff] at hdrawn
      exact ⟨offer_harvests h hcapacity hdrawn, by rw [capacity_offer, hcapacity]⟩

end Sampler

theorem sampleTracks_harvests {s : Type} {player : Player s} {source : Source} {rules : Exclusions}
    {I : s → Prop} {songs : List Song} (henforce : rules.enforce = true) (htag : rules.uniqueTag = none)
    (hpages : ∀ offset limit state, I state
      → (player.sourcePage source offset limit).Ends state
          (fun page after => page = (songs.drop offset).take limit ∧ I after) (fun _ _ => False))
    (hlength : songs.length < listingLimit) (pageSize k : Nat) {state : s} (random : WordStream)
    (h : I state)
    : (sampleTracks player source pageSize rules k).Ends (state, random)
        (fun drawn after => Harvest (rules.eligible songs) k drawn ∧ I after.1) (fun _ _ => False) := by
  have hwalk
      : (scanPages pageSize (fun offset limit => (player.sourcePage source offset limit).onFst)
            fun song (walk : s × Sampler) => (walk.1, walk.2.visitSong rules song)).Ends
          (state, { reservoir := .empty k, random })
          (fun _ walk => I walk.1 ∧ Harvest (rules.eligible songs) k walk.2.reservoir.items.toList
            ∧ walk.2.reservoir.capacity = k)
          (fun _ _ => False) := by
    refine scanPages_covers (J := fun seen (walk : s × Sampler) => I walk.1
      ∧ Harvest (rules.eligible seen) k walk.2.reservoir.items.toList ∧ walk.2.reservoir.capacity = k)
      ?_ ?_ hlength _ ⟨h, .nil, rfl⟩
    . rintro seen rest limit walk hsongs ⟨hstate, hharvest⟩
      rw [Play.ends_onFst]
      apply (hpages seen.length limit walk.1 hstate).mono
      . rintro page after ⟨rfl, hafter⟩
        refine ⟨?_, hafter, hharvest⟩
        rw [hsongs, List.drop_left]
      . exact fun _ _ => id
    . rintro seen song walk ⟨hstate, hharvest, hcapacity⟩
      exact ⟨hstate, Sampler.visitSong_harvests henforce htag song hharvest hcapacity⟩
  rw [ends_sampleTracks]
  apply hwalk.mono
  . rintro _ walk ⟨hkept, hdrawn, -⟩
    exact ⟨hdrawn.perm (Reservoir.shuffled_perm _ _).symm, hkept⟩
  . exact fun _ _ => id

end AutoDJ
