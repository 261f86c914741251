import AutoDJ.Proofs.Jukebox.Fill
import AutoDJ.Proofs.Jukebox.Replenish

namespace AutoDJ

/--
A candidate agrees with the snapshots: an album is among those of the index, and a track has no sticker
that says it is hated, if that matters.
-/
structure Caches.Vouches (caches : Caches) (ignoreHated : Bool) (c : Candidate) : Prop where
  album : ∀ key, c.pick = .album key
    → ∃ index, caches.albums = some index ∧ (index.get? key).isSome = true
  track : ignoreHated = true → ∀ uri tagValue, c.pick = .track uri tagValue
    → ∀ index sticker, caches.stickers = some index → index.get? uri = some sticker
      → sticker.like ≠ .hate

def Jukebox.UpToDate (caches : Caches) (jukebox : Jukebox) : Prop :=
  ∀ lane, ∀ c ∈ jukebox.lane lane, caches.Vouches jukebox.settings.ignoreHated c

namespace Jukebox.UpToDate

variable {caches : Caches} {jukebox : Jukebox}

theorem of_empty (hwaiting : jukebox.waiting = []) (hscratch : jukebox.scratch = [])
    : jukebox.UpToDate caches := by
  intro lane c hc
  cases lane with
  | waiting => simp [lane, hwaiting] at hc
  | scratch => simp [lane, hscratch] at hc

theorem setLane (h : jukebox.UpToDate caches) {cs : List Candidate}
    (hcs : ∀ c ∈ cs, caches.Vouches jukebox.settings.ignoreHated c) (lane : Lane)
    : (jukebox.setLane cs lane).UpToDate caches := by
  intro other c hc
  cases lane <;> cases other
  . exact hcs c hc
  . exact h .scratch c hc
  . exact h .waiting c hc
  . exact hcs c hc

end Jukebox.UpToDate

namespace Sampler

variable {rules : Exclusions} {P : Pick → Prop}

theorem offer_forall {sampler : Sampler} {pick : Pick}
    (h : ∀ c ∈ sampler.reservoir.items.toList, P c.pick) (hpick : P pick)
    : ∀ c ∈ (sampler.offer pick).reservoir.items.toList, P c.pick := by
  intro c hc
  unfold offer at hc
  dsimp only at hc
  obtain happend | ⟨slot, hset⟩ := sampler.reservoir.offer_items
    { pick, drawnAt := sampler.reservoir.seen + 1 } sampler.random
  . rw [happend] at hc
    obtain hc | hc := List.mem_append.mp hc
    . exact h c hc
    . obtain rfl := List.mem_singleton.mp hc
      exact hpick
  . rw [hset] at hc
    obtain hc | rfl := List.mem_or_eq_of_mem_set hc
    . exact h c hc
    . exact hpick

theorem visitSong_forall (hsong : ∀ uri tagValue, rules.isHated uri = false → P (.track uri tagValue))
    (song : Song) (sampler : Sampler) (h : ∀ c ∈ sampler.reservoir.items.toList, P c.pick)
    : ∀ c ∈ (sampler.visitSong rules song).reservoir.items.toList, P c.pick := by
  unfold visitSong
  dsimp only
  split
  . exact h
  . next hrejects =>
    apply offer_forall h
    apply hsong
    unfold Exclusions.rejectsTrack at hrejects
    rw [Bool.not_eq_true, Bool.or_eq_false_iff] at hrejects
    exact hrejects.1

theorem visitAlbums_forall {albums : List (AlbumKey × Album)}
    (halbums : ∀ key album, (key, album) ∈ albums → P (.album key)) (sampler : Sampler)
    (h : ∀ c ∈ sampler.reservoir.items.toList, P c.pick)
    : ∀ c ∈ (albums.foldl (visitAlbum rules) sampler).reservoir.items.toList, P c.pick := by
  induction albums generalizing sampler with
  | nil => exact h
  | cons head albums ih =>
    obtain ⟨key, album⟩ := head
    apply ih
    . intro key album hmem
      exact halbums key album (List.mem_cons_of_mem _ hmem)
    . unfold visitAlbum
      dsimp only
      split
      . exact h
      . exact offer_forall h (halbums key album List.mem_cons_self)

end Sampler

theorem sampleTracks_forall {s : Type} {player : Player s} {source : Source} {rules : Exclusions}
    {P : Pick → Prop} (hsong : ∀ uri tagValue, rules.isHated uri = false → P (.track uri tagValue))
    {pageSize k : Nat} {state : s} {random : WordStream}
    : (sampleTracks player source pageSize rules k).Ends (state, random)
        (fun drawn _ => ∀ c ∈ drawn, P c.pick) (fun _ _ => True) := by
  apply Play.Ends.mono
  . apply sampleTracks_keeps (I := fun _ => True) (D := fun drawn => ∀ c ∈ drawn, P c.pick)
    . intros
      exact Play.ends_of_forall (fun _ _ => trivial) (fun _ _ => trivial)
    . simp
    . exact Sampler.visitSong_forall hsong
    . intro _ _ h hperm c hc
      exact h c (hperm.mem_iff.mpr hc)
    . trivial
  . exact fun _ _ h => h.1
  . exact fun _ _ => id

theorem sampleAlbums_forall {rules : Exclusions} {P : Pick → Prop} {index : AlbumIndex}
    (halbums : ∀ key, (index.get? key).isSome = true → P (.album key)) (k : Nat) (random : WordStream)
    : ∀ c ∈ (sampleAlbums index rules k random).1, P c.pick := by
  intro c hc
  have hmem := (Reservoir.shuffled_perm _ _).mem_iff.mp hc
  refine Sampler.visitAlbums_forall ?_ _ ?_ c hmem
  . intro key album hlisted
    apply halbums
    have hget : index.get? key = some album := Std.ExtTreeMap.mem_toList_iff_getElem?_eq_some.mp hlisted
    simp [hget]
  . intro c hc
    contradiction

theorem Caches.vouches_album {caches : Caches} {ignoreHated : Bool} {c : Candidate} {key : AlbumKey}
    {index : AlbumIndex} (hc : c.pick = .album key) (halbums : caches.albums = some index)
    (hkey : (index.get? key).isSome = true) : caches.Vouches ignoreHated c := by
  constructor
  . intro other hother
    obtain rfl := Pick.album.inj (hc.symm.trans hother)
    exact ⟨index, halbums, hkey⟩
  . intro _ uri tagValue htrack
    rw [hc] at htrack
    contradiction

theorem Caches.vouches_track {caches : Caches} {rules : Exclusions} {c : Candidate} {uri : String}
    {tagValue : Option String} (hc : c.pick = .track uri tagValue)
    (hrules : rules.stickers = caches.stickers) (hhated : rules.isHated uri = false)
    : caches.Vouches rules.ignoreHated c := by
  constructor
  . intro key halbum
    rw [hc] at halbum
    contradiction
  . intro hignore other otherValue htrack index sticker hindex hsticker hhate
    obtain ⟨rfl, -⟩ := Pick.track.inj (hc.symm.trans htrack)
    rw [← hrules] at hindex
    unfold Exclusions.isHated at hhated
    simp [hignore, hindex, hsticker, hhate] at hhated

namespace Booth

variable {s : Type} {booth : Booth s}

theorem draw_vouches (albums : Bool) {rules : Exclusions} (hrules : rules.stickers = booth.caches.stickers)
    (k : Nat) (deck : Deck s)
    : (booth.draw albums rules k).Ends deck
        (fun drawn deck' => (∀ c ∈ drawn, booth.caches.Vouches rules.ignoreHated c)
          ∧ ∃ device random, deck' = { deck with device, jukebox := { deck.jukebox with random } })
        (fun _ deck' => ∃ device random,
          deck' = { deck with device, jukebox := { deck.jukebox with random } }) := by
  cases albums with
  | true =>
    unfold draw Play.Ends
    cases halbums : booth.caches.albums with
    | none => exact ⟨_, _, rfl⟩
    | some index =>
      refine ⟨?_, _, _, rfl⟩
      intro c hc
      have hkey := sampleAlbums_forall
        (P := fun pick => ∃ key, pick = .album key ∧ (index.get? key).isSome = true)
        (fun key hkey => ⟨key, rfl, hkey⟩) k deck.jukebox.random c hc
      obtain ⟨key, hpick, hkey⟩ := hkey
      exact Caches.vouches_album hpick halbums hkey
  | false =>
    rw [ends_draw_tracks]
    apply (sampleTracks_forall
      (P := fun pick => ∃ uri tagValue, pick = .track uri tagValue ∧ rules.isHated uri = false)
      fun uri tagValue huri => ⟨uri, tagValue, rfl, huri⟩).mono
    . intro drawn after hdrawn
      refine ⟨?_, _, _, rfl⟩
      intro c hc
      obtain ⟨uri, tagValue, hpick, huri⟩ := hdrawn c hc
      exact Caches.vouches_track hpick hrules huri
    . intros
      exact ⟨_, _, rfl⟩

section UpToDate

variable {deck : Deck s}

theorem relax_keeps_upToDate (lane : Lane) (caches : Caches)
    : (relax lane : Play (Deck s) Unit).Keeps (·.jukebox.UpToDate caches) := by
  intro deck h
  apply (relax_ends lane deck).mono
  . rintro _ _ ⟨enforcing, events, rfl, -, -⟩
    exact h
  . intro _ _ hfalse
    exact hfalse.elim

theorem replenish_keeps_upToDate (plan : FillPlan) (needed target : Nat)
    : (booth.replenish plan needed target).Keeps (·.jukebox.UpToDate booth.caches) := by
  intro deck h
  rw [ends_replenish]
  apply Play.ends_of_forall
  . intro recent device
    have hrules : (booth.exclusions plan deck.jukebox recent).stickers = booth.caches.stickers := rfl
    apply (draw_vouches plan.albums hrules ..).mono
    . rintro drawn _ ⟨hdrawn, device, random, rfl⟩
      have hall : ∀ c ∈ deck.jukebox.lane plan.lane ++ drawn,
          booth.caches.Vouches deck.jukebox.settings.ignoreHated c := by
        intro c hc
        obtain hc | hc := List.mem_append.mp hc
        . exact h plan.lane c hc
        . exact hdrawn c hc
      have hrandom : Jukebox.UpToDate booth.caches { deck.jukebox with random } := h
      have hset := hrandom.setLane hall plan.lane
      refine ⟨fun _ => hset, fun _ => ⟨fun _ => ?_, fun _ => hset⟩⟩
      exact relax_keeps_upToDate plan.lane booth.caches _ hset
    . rintro _ _ ⟨device, random, rfl⟩
      exact h
  . intros
    exact h

def Handing (caches : Caches) (cs : List Candidate) (deck : Deck s) : Prop :=
  deck.jukebox.UpToDate caches ∧ ∀ c ∈ cs, caches.Vouches deck.jukebox.settings.ignoreHated c

theorem hand_keeps_upToDate {caches : Caches} {c : Candidate} {rest : List Candidate} {lane : Lane}
    (tally : Tally) (h : Handing caches (c :: rest) deck)
    : (booth.hand c tally).Ends { deck with jukebox := deck.jukebox.setLane rest lane }
        (fun _ => Handing caches rest) (fun _ _ => False) := by
  have hrest := (List.forall_mem_cons.mp h.2).2
  have hset (device : s)
      : Handing caches rest { deck with device, jukebox := deck.jukebox.setLane rest lane } := by
    refine ⟨h.1.setLane hrest lane, ?_⟩
    cases lane <;> exact hrest
  rw [hand_ends]
  apply Play.ends_of_forall
  . intro _ device
    exact hset device
  . intro _ device
    exact hset device

theorem handOver_keeps_upToDate {caches : Caches} (lane : Lane) (count : Nat)
    (h : deck.jukebox.UpToDate caches)
    : (booth.handOver lane count (deck.jukebox.lane lane) {}).Ends deck
        (fun _ deck' => deck'.jukebox.UpToDate caches) (fun _ _ => False) := by
  apply (handOver_ends (J := fun cs _ => Handing caches cs) count
    (fun _ _ tally _ _ h => hand_keeps_upToDate tally h) _ {} deck ⟨h, h lane⟩).mono
  . rintro _ _ ⟨_, ⟨hdeck', -⟩, -⟩
    exact hdeck'
  . exact fun _ _ => id

theorem handOverWaiting_keeps_upToDate (plan : FillPlan) (count : Nat)
    (h : deck.jukebox.UpToDate booth.caches)
    : (booth.handOverWaiting plan count deck.jukebox.waiting {}).Ends deck
        (fun _ deck' => deck'.jukebox.UpToDate booth.caches) (fun _ _ => False) := by
  apply (handOverWaiting_ends (J := fun cs _ => Handing booth.caches cs) booth plan count
    (fun _ _ tally _ _ h => hand_keeps_upToDate tally h) _ _ {} deck ⟨h, h .waiting⟩).mono
  . rintro _ _ ⟨_, ⟨hdeck', -⟩, -⟩
    exact hdeck'
  . exact fun _ _ => id
  . intro _ _ deck target h
    apply (replenish_keeps_upToDate plan _ target deck h.1).imp
    intro deck' hdeck'
    exact ⟨hdeck', hdeck' .waiting⟩

theorem deliver_keeps_upToDate (plan : FillPlan) (count : Nat)
    : (booth.deliver plan count).Keeps (·.jukebox.UpToDate booth.caches) := by
  intro deck h
  have hsettled (tally : Tally) (deck : Deck s) (h : deck.jukebox.UpToDate booth.caches)
      : booth.Settles (fun _ deck' => deck'.jukebox.UpToDate booth.caches)
          (fun _ deck' => deck'.jukebox.UpToDate booth.caches) tally deck :=
    .of_play h (Play.ends_of_forall (fun _ _ _ => h) (fun _ _ => h))
  rw [deliver_ends]
  cases plan.lane with
  | waiting =>
    apply (handOverWaiting_keeps_upToDate plan count h).mono
    . exact hsettled
    . exact fun _ _ => False.elim
  | scratch =>
    apply (handOver_keeps_upToDate .scratch count h).mono
    . exact hsettled
    . exact fun _ _ => False.elim

theorem fillOnce_keeps_upToDate : booth.fillOnce.Keeps (·.jukebox.UpToDate booth.caches) := by
  intro deck h
  rw [fillOnce_ends]
  apply Play.ends_of_forall
  . intro status device
    refine ⟨fun _ => h, fun _ => h,
      fun needed _ => ⟨fun _ => ?_, fun _ => deliver_keeps_upToDate _ needed _ h⟩⟩
    apply (replenish_keeps_upToDate _ needed _ { deck with device } h).mono
    . exact fun _ => deliver_keeps_upToDate _ needed
    . exact fun _ _ => id
  . intros
    exact h

theorem keepFilled_keeps_upToDate : booth.keepFilled.Keeps (·.jukebox.UpToDate booth.caches) := by
  intro deck h
  rw [keepFilled_ends]
  refine ⟨fun _ => h, fun _ => ?_⟩
  apply (fillOnce_keeps_upToDate deck h).mono
  . exact fun _ _ => id
  . exact fun _ => fillOnce_keeps_upToDate

theorem addNow_keeps_upToDate (count : Nat) (albums : Bool)
    : (booth.addNow count albums).Keeps (·.jukebox.UpToDate booth.caches) := by
  intro deck h
  have hclear {deck : Deck s} (h : deck.jukebox.UpToDate booth.caches)
      : (deck.jukebox.setLane [] .scratch).UpToDate booth.caches :=
    h.setLane (fun _ hc => absurd hc List.not_mem_nil) .scratch
  rw [addNow_ends]
  refine ⟨fun _ => h, fun _ => ?_⟩
  apply (replenish_keeps_upToDate _ _ _ { deck with jukebox := deck.jukebox.setLane [] .scratch }
    (hclear h)).mono
  . intro _ deck' hdeck'
    apply (deliver_keeps_upToDate _ _ deck' hdeck').mono
    . exact fun _ _ => hclear
    . exact fun _ _ => hclear
  . exact fun _ _ => id

end UpToDate

end Booth

end AutoDJ
