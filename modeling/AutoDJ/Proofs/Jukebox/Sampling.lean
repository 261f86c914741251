import AutoDJ.Jukebox.Sampling
import AutoDJ.Proofs.Player.Listing
import Mathlib.Data.List.Nodup

namespace AutoDJ

theorem WordStream.shuffle_go_perm {α : Type} (n : Nat) (items : Array α) (r : WordStream)
    : (WordStream.shuffle.go n items r).1.Perm items := by
  induction n generalizing items r with
  | zero => exact .refl _
  | succ n ih =>
    unfold WordStream.shuffle.go
    dsimp only
    apply (ih _ _).trans
    unfold Array.swapIfInBounds
    split
    . split
      . exact Array.swap_perm _ _
      . exact .refl _
    . exact .refl _

theorem Reservoir.shuffled_perm {α : Type} (res : Reservoir α) (r : WordStream)
    : (res.shuffled r).1.Perm res.items.toList := by
  apply Array.perm_iff_toList_perm.mp
  apply WordStream.shuffle_go_perm

theorem Reservoir.offer_items {α : Type} (res : Reservoir α) (item : α) (r : WordStream)
    : (res.offer item r).2.1.items.toList = res.items.toList ++ [item]
      ∨ ∃ slot, (res.offer item r).2.1.items.toList = res.items.toList.set slot item := by
  unfold Reservoir.offer
  split
  . right
    exact ⟨_, Array.toList_setIfInBounds⟩
  . left
    exact Array.toList_push

theorem Candidate.hasUri_iff {cs : List Candidate} {uri : String}
    : hasUri cs uri = true ↔ some uri ∈ cs.map Candidate.uri? := by
  simp [hasUri]

namespace Exclusions

/--
Candidates that have been drawn as tracks. While uniqueness is enforced, no two of them are the same
track, and none is pending or recent.
-/
structure Admits (rules : Exclusions) (drawn : List Candidate) : Prop where
  tracks : ∀ c ∈ drawn, ∃ uri, c.uri? = some uri
  distinct : rules.enforce = true → (drawn.map Candidate.uri?).Nodup
  fresh : rules.enforce = true → ∀ c ∈ drawn, ∀ uri, c.uri? = some uri
    → Candidate.hasUri rules.pending uri = false ∧ rules.recent.contains uri = false

namespace Admits

variable {rules : Exclusions} {drawn drawn' : List Candidate}

theorem nil : rules.Admits [] := by
  constructor <;> simp

theorem perm (h : rules.Admits drawn) (hperm : drawn.Perm drawn') : rules.Admits drawn' := by
  constructor
  . intro c hc
    exact h.tracks c (hperm.mem_iff.mpr hc)
  . intro henforce
    exact (hperm.map _).nodup_iff.mp (h.distinct henforce)
  . intro henforce c hc
    exact h.fresh henforce c (hperm.mem_iff.mpr hc)

end Admits

theorem not_hasUri {drawn : List Candidate} {uri : String} (h : Candidate.hasUri drawn uri = false)
    : some uri ∉ drawn.map Candidate.uri? := by
  rw [← Candidate.hasUri_iff, h]
  decide

theorem Admits.nodup_append {rules : Exclusions} {drawn : List Candidate} {queue : List String}
    (h : rules.Admits drawn) (henforce : rules.enforce = true)
    (hrecent : ∀ uri ∈ queue, rules.recent.contains uri = true)
    (hnodup : (rules.pending.map Candidate.uri? ++ queue.map some).Nodup)
    : ((rules.pending ++ drawn).map Candidate.uri? ++ queue.map some).Nodup := by
  have hperm {xs ys zs : List (Option String)} : (ys ++ (xs ++ zs)).Perm (xs ++ ys ++ zs) := by
    rw [← List.append_assoc]
    exact List.perm_append_comm.append_right zs
  rw [List.map_append]
  apply hperm.nodup_iff.mp
  apply List.nodup_append'.mpr
  refine ⟨h.distinct henforce, hnodup, ?_⟩
  intro uri? hdrawn hold
  obtain ⟨c, hc, rfl⟩ := List.mem_map.mp hdrawn
  obtain ⟨uri, huri⟩ := h.tracks c hc
  obtain ⟨hwaits, hplayed⟩ := h.fresh henforce c hc uri huri
  rw [huri] at hold
  obtain hold | hold := List.mem_append.mp hold
  . exact not_hasUri hwaits hold
  . obtain ⟨other, hother, heq⟩ := List.mem_map.mp hold
    cases heq
    rw [hrecent uri hother] at hplayed
    contradiction

theorem not_rejectsTrack {rules : Exclusions} {uri : String} {tagValue : Option String}
    {drawn : List Candidate} (h : rules.rejectsTrack uri tagValue drawn = false)
    (henforce : rules.enforce = true)
    : Candidate.hasUri drawn uri = false ∧ Candidate.hasUri rules.pending uri = false
      ∧ rules.recent.contains uri = false := by
  unfold rejectsTrack at h
  rw [henforce] at h
  simp only [Bool.or_eq_false_iff, Bool.true_and] at h
  exact ⟨h.2.1.1.1, h.2.1.1.2, h.2.1.2⟩

end Exclusions

namespace Sampler

variable {rules : Exclusions}

theorem offer_admits {sampler : Sampler} {uri : String} {tagValue : Option String}
    (hadmits : rules.Admits sampler.reservoir.items.toList)
    (h : rules.rejectsTrack uri tagValue sampler.reservoir.items.toList = false)
    : rules.Admits (sampler.offer (.track uri tagValue)).reservoir.items.toList := by
  unfold offer
  dsimp only
  generalize hc : ({ pick := .track uri tagValue, drawnAt := sampler.reservoir.seen + 1 } : Candidate) = c
  have huri : c.uri? = some uri := by
    rw [← hc]
    rfl
  have hnew (henforce : rules.enforce = true) := Exclusions.not_rejectsTrack h henforce
  -- the new item differs from all those kept so far, so that it may also replace any of them
  obtain happend | ⟨slot, hset⟩ := sampler.reservoir.offer_items c sampler.random
  . rw [happend]
    constructor
    . intro d hd
      obtain hd | hd := List.mem_append.mp hd
      . exact hadmits.tracks d hd
      . obtain rfl := List.mem_singleton.mp hd
        exact ⟨uri, huri⟩
    . intro henforce
      rw [List.map_append, List.nodup_append']
      refine ⟨hadmits.distinct henforce, by simp, ?_⟩
      have := Exclusions.not_hasUri (hnew henforce).1
      simpa [huri] using this
    . intro henforce d hd other hother
      obtain hd | hd := List.mem_append.mp hd
      . exact hadmits.fresh henforce d hd other hother
      . obtain rfl := List.mem_singleton.mp hd
        rw [huri] at hother
        cases hother
        exact (hnew henforce).2
  . rw [hset]
    constructor
    . intro d hd
      obtain hd | rfl := List.mem_or_eq_of_mem_set hd
      . exact hadmits.tracks d hd
      . exact ⟨uri, huri⟩
    . intro henforce
      rw [List.map_set, huri]
      exact (hadmits.distinct henforce).set (Exclusions.not_hasUri (hnew henforce).1)
    . intro henforce d hd other hother
      obtain hd | rfl := List.mem_or_eq_of_mem_set hd
      . exact hadmits.fresh henforce d hd other hother
      . rw [huri] at hother
        cases hother
        exact (hnew henforce).2

theorem visitSong_admits {sampler : Sampler} (song : Song)
    (h : rules.Admits sampler.reservoir.items.toList)
    : rules.Admits (sampler.visitSong rules song).reservoir.items.toList := by
  unfold visitSong
  dsimp only
  split
  . exact h
  . next hrejects => exact offer_admits h (by simpa using hrejects)

end Sampler

section Tracks

variable {s : Type} {player : Player s} {source : Source} {rules : Exclusions} {pageSize k : Nat}
  {state : s} {random : WordStream}

theorem ends_sampleTracks {Q : List Candidate → s × WordStream → Prop}
    {E : Error → s × WordStream → Prop}
    : (sampleTracks player source pageSize rules k).Ends (state, random) Q E
        ↔ (scanPages pageSize (fun offset limit => (player.sourcePage source offset limit).onFst)
              fun song (walk : s × Sampler) => (walk.1, walk.2.visitSong rules song)).Ends
            (state, { reservoir := .empty k, random })
            (fun _ walk => Q walk.2.finish.1 (walk.1, walk.2.finish.2))
            (fun e walk => E e (walk.1, walk.2.random)) := by
  unfold Play.Ends sampleTracks
  dsimp only
  cases scanPages pageSize (fun offset limit => (player.sourcePage source offset limit).onFst)
    (fun song (walk : s × Sampler) => (walk.1, walk.2.visitSong rules song))
    (state, { reservoir := .empty k, random }) <;> rfl

theorem sampleTracks_keeps {I : s → Prop} {D : List Candidate → Prop}
    (hpages : ∀ offset limit state, I state
      → (player.sourcePage source offset limit).Ends state (fun _ => I) (fun _ => I))
    (hnil : D [])
    (hvisit : ∀ song (sampler : Sampler), D sampler.reservoir.items.toList
      → D (sampler.visitSong rules song).reservoir.items.toList)
    (hperm : ∀ drawn drawn', D drawn → drawn.Perm drawn' → D drawn') (h : I state)
    : (sampleTracks player source pageSize rules k).Ends (state, random)
        (fun drawn after => D drawn ∧ I after.1) (fun _ after => I after.1) := by
  have hwalk
      : (scanPages pageSize (fun offset limit => (player.sourcePage source offset limit).onFst)
            fun song (walk : s × Sampler) => (walk.1, walk.2.visitSong rules song)).Ends
          (state, { reservoir := .empty k, random })
          (fun _ walk => I walk.1 ∧ D walk.2.reservoir.items.toList)
          (fun _ walk => I walk.1 ∧ D walk.2.reservoir.items.toList) := by
    apply scanPages_ends
    . intro offset limit walk hwalk
      rw [Play.ends_onFst]
      apply (hpages offset limit walk.1 hwalk.1).imp
      intro _ hkept
      exact ⟨hkept, hwalk.2⟩
    . intro song walk hwalk
      exact ⟨hwalk.1, hvisit song walk.2 hwalk.2⟩
    . exact ⟨h, hnil⟩
  rw [ends_sampleTracks]
  apply hwalk.mono
  . rintro _ walk ⟨hkept, hdrawn⟩
    exact ⟨hperm _ _ hdrawn (Reservoir.shuffled_perm _ _).symm, hkept⟩
  . rintro _ walk ⟨hkept, -⟩
    exact hkept

theorem sampleTracks_ends {I : s → Prop}
    (hpages : ∀ offset limit state, I state
      → (player.sourcePage source offset limit).Ends state (fun _ => I) (fun _ => I))
    (pageSize : Nat) (rules : Exclusions) (k : Nat) (state : s) (random : WordStream) (h : I state)
    : (sampleTracks player source pageSize rules k).Ends (state, random)
        (fun drawn after => rules.Admits drawn ∧ I after.1) (fun _ after => I after.1) :=
  sampleTracks_keeps hpages .nil (fun song _ h => Sampler.visitSong_admits song h)
    (fun _ _ h hperm => h.perm hperm) h

end Tracks

end AutoDJ
