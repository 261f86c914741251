import AutoDJ.Proofs.Jukebox.Counting
import AutoDJ.Proofs.Jukebox.Distinct
import Mathlib.Data.List.Perm.Basic
import Mathlib.Data.List.Perm.Subperm

namespace AutoDJ

variable {s κ : Type} {key : Candidate → Option κ}

theorem Reservoir.offer_subperm {α : Type} (res : Reservoir α) (item : α) (r : WordStream)
    : (res.offer item r).2.1.items.toList.Subperm (res.items.toList ++ [item]) := by
  obtain happend | ⟨slot, hset⟩ := res.offer_items item r
  . rw [happend]
  . rw [hset]
    by_cases hslot : slot < res.items.toList.length
    . apply (List.set_perm_cons_eraseIdx hslot item).subperm.trans
      apply ((List.eraseIdx_sublist _ _).cons_cons item).subperm.trans
      exact (List.perm_append_singleton _ _).symm.subperm
    . rw [List.set_eq_of_length_le (Nat.not_lt.mp hslot)]
      exact (List.sublist_append_left _ _).subperm

theorem nodup_filterMap_of_subperm {α β : Type} {f : α → Option β} {xs ys : List α}
    (h : xs.Subperm ys) (hys : (ys.filterMap f).Nodup) : (xs.filterMap f).Nodup := by
  obtain ⟨zs, hperm, hsub⟩ := h
  exact (hperm.filterMap f).nodup_iff.mp (hys.sublist (hsub.filterMap f))

theorem Candidate.any_key [DecidableEq κ] {cs : List Candidate} {k : κ}
    : (cs.any fun c => key c == some k) = true ↔ k ∈ cs.filterMap key := by
  simp

namespace Exclusions

/--
What is not turned down has no key, or one that neither a pending candidate has nor one drawn so far.
-/
structure Separates (rules : Exclusions) (key : Candidate → Option κ) : Prop where
  track : ∀ uri tagValue drawnAt drawn, rules.rejectsTrack uri tagValue drawn = false
    → ∀ k, key { pick := .track uri tagValue, drawnAt } = some k
      → k ∉ (rules.pending ++ drawn).filterMap key
  album : ∀ albumKey album drawnAt drawn, rules.rejectsAlbum albumKey album drawn = false
    → ∀ k, key { pick := .album albumKey, drawnAt } = some k
      → k ∉ (rules.pending ++ drawn).filterMap key

variable {rules : Exclusions}

theorem separates_uri (henforce : rules.enforce = true) : rules.Separates Candidate.uri? := by
  constructor
  . rintro uri tagValue drawnAt drawn hadmitted _ ⟨⟩
    obtain ⟨hdrawn, hpending, -⟩ := not_rejectsTrack hadmitted henforce
    rw [← Candidate.any_key, List.any_append]
    exact Bool.eq_false_iff.mp (Bool.or_eq_false_iff.mpr ⟨hpending, hdrawn⟩)
  . intros
    contradiction

theorem separates_tagValue (henforce : rules.enforce = true) : rules.Separates Candidate.tagValue? := by
  constructor
  . rintro uri tagValue drawnAt drawn hadmitted value (rfl : tagValue = some value)
    rw [rejectsTrack, henforce] at hadmitted
    simp only [Bool.or_eq_false_iff, Bool.true_and] at hadmitted
    rw [← Candidate.any_key, List.any_append]
    exact Bool.eq_false_iff.mp (Bool.or_eq_false_iff.mpr hadmitted.2.2)
  . intros
    contradiction

theorem separates_albumKey (henforce : rules.enforce = true) : rules.Separates Candidate.albumKey? := by
  constructor
  . intros
    contradiction
  . rintro albumKey album drawnAt drawn hadmitted _ ⟨⟩
    rw [rejectsAlbum, henforce] at hadmitted
    simp only [Bool.or_eq_false_iff, Bool.true_and] at hadmitted
    rw [← Candidate.any_key, List.any_append]
    exact Bool.eq_false_iff.mp (Bool.or_eq_false_iff.mpr hadmitted.1.symm)

end Exclusions

namespace Sampler

variable {rules : Exclusions}

theorem offer_apart {pending : List Candidate} {sampler : Sampler} {pick : Pick}
    (h : ((pending ++ sampler.reservoir.items.toList).filterMap key).Nodup)
    (hpick : ∀ drawnAt k, key { pick, drawnAt } = some k
      → k ∉ (pending ++ sampler.reservoir.items.toList).filterMap key)
    : ((pending ++ (sampler.offer pick).reservoir.items.toList).filterMap key).Nodup := by
  let c : Candidate := { pick, drawnAt := sampler.reservoir.seen + 1 }
  have hkept := (List.subperm_append_left pending).mpr
    (sampler.reservoir.offer_subperm c sampler.random)
  -- an item that is replaced only makes room, so that it may as well stay
  apply nodup_filterMap_of_subperm hkept
  rw [← List.append_assoc, List.filterMap_append]
  cases hkey : key c with
  | none => simpa [hkey] using h
  | some k =>
    have hnew := hpick _ k hkey
    rw [List.filterMap_cons_some hkey, List.filterMap_nil]
    exact (List.perm_append_singleton _ _).nodup_iff.mpr (List.nodup_cons.mpr ⟨hnew, h⟩)

theorem visitSong_apart (hrules : rules.Separates key) (song : Song) (sampler : Sampler)
    (h : ((rules.pending ++ sampler.reservoir.items.toList).filterMap key).Nodup)
    : ((rules.pending ++ (sampler.visitSong rules song).reservoir.items.toList).filterMap key).Nodup := by
  unfold visitSong
  dsimp only
  split
  . exact h
  . next hadmitted =>
    exact offer_apart h fun _ => hrules.track _ _ _ _ (Bool.eq_false_iff.mpr hadmitted)

theorem visitAlbum_apart (hrules : rules.Separates key) (entry : AlbumKey × Album) (sampler : Sampler)
    (h : ((rules.pending ++ sampler.reservoir.items.toList).filterMap key).Nodup)
    : ((rules.pending ++ (sampler.visitAlbum rules entry).reservoir.items.toList).filterMap key).Nodup := by
  unfold visitAlbum
  dsimp only
  split
  . exact h
  . next hadmitted =>
    exact offer_apart h fun _ => hrules.album _ _ _ _ (Bool.eq_false_iff.mpr hadmitted)

end Sampler

theorem sampleAlbums_keeps {index : AlbumIndex} {rules : Exclusions} {D : List Candidate → Prop}
    (hnil : D [])
    (hvisit : ∀ entry (sampler : Sampler), D sampler.reservoir.items.toList
      → D (sampler.visitAlbum rules entry).reservoir.items.toList)
    (hperm : ∀ drawn drawn', D drawn → drawn.Perm drawn' → D drawn') (k : Nat) (random : WordStream)
    : D (sampleAlbums index rules k random).1 := by
  have hwalk (entries : List (AlbumKey × Album)) (sampler : Sampler)
      (h : D sampler.reservoir.items.toList)
      : D (entries.foldl (Sampler.visitAlbum rules) sampler).reservoir.items.toList := by
    induction entries generalizing sampler with
    | nil => exact h
    | cons entry entries ih => exact ih _ (hvisit entry sampler h)
  exact hperm _ _ (hwalk _ _ hnil) (Reservoir.shuffled_perm _ _).symm

def Jukebox.Apart (key : Candidate → Option κ) (jukebox : Jukebox) : Prop :=
  jukebox.enforcing = true → (jukebox.waiting.filterMap key).Nodup

structure FillPlan.Fits (plan : FillPlan) (jukebox : Jukebox) : Prop where
  lane : plan.lane = .waiting
  enforce : jukebox.enforcing = true → plan.enforce = true

namespace Booth

variable {booth : Booth s} {plan : FillPlan} {deck : Deck s}

theorem draw_apart {rules : Exclusions} (hrules : rules.Separates key)
    (h : (rules.pending.filterMap key).Nodup) (albums : Bool) (k : Nat) (deck : Deck s)
    : (booth.draw albums rules k).Ends deck
        (fun drawn _ => ((rules.pending ++ drawn).filterMap key).Nodup) (fun _ _ => True) := by
  have hnil : ((rules.pending ++ []).filterMap key).Nodup := by
    rwa [List.append_nil]
  have hperm (drawn drawn' : List Candidate)
      (hdrawn : ((rules.pending ++ drawn).filterMap key).Nodup) (heq : drawn.Perm drawn')
      : ((rules.pending ++ drawn').filterMap key).Nodup :=
    ((heq.append_left rules.pending).filterMap key).nodup_iff.mp hdrawn
  cases albums with
  | true =>
    unfold draw Play.Ends
    cases booth.caches.albums with
    | none => trivial
    | some index => exact sampleAlbums_keeps hnil (Sampler.visitAlbum_apart hrules) hperm k _
  | false =>
    rw [ends_draw_tracks]
    apply (sampleTracks_keeps (I := fun _ => True)
      (fun _ _ _ _ => Play.ends_of_forall (fun _ _ => trivial) (fun _ _ => trivial)) hnil
      (Sampler.visitSong_apart hrules) hperm trivial).mono
    . exact fun _ _ h => h.1
    . exact fun _ _ => id

def KeepsApart (plan : FillPlan) (key : Candidate → Option κ) (deck : Deck s) : Prop :=
  plan.Fits deck.jukebox ∧ deck.jukebox.Apart key

variable (hkey : ∀ rules : Exclusions, rules.enforce = true → rules.Separates key)

include hkey

theorem replenish_apart (needed target : Nat)
    : (booth.replenish plan needed target).Keeps (KeepsApart plan key) := by
  rintro deck ⟨⟨hlane, henforce⟩, hapart⟩
  rw [ends_replenish, hlane]
  apply Play.ends_of_forall
  . intro recent device
    have hdraw
        : (booth.draw plan.albums (booth.exclusions plan deck.jukebox recent)
              (target - (deck.jukebox.lane .waiting).length)).Ends { deck with device }
            (fun drawn _ => deck.jukebox.enforcing = true
              → ((deck.jukebox.waiting ++ drawn).filterMap key).Nodup)
            (fun _ _ => True) := by
      by_cases hon : deck.jukebox.enforcing = true
      . have hpending
            : (booth.exclusions plan deck.jukebox recent).pending = deck.jukebox.waiting := by
          rw [exclusions, hlane]
          rfl
        apply (draw_apart (hkey (booth.exclusions plan deck.jukebox recent) (henforce hon))
          (hpending ▸ hapart hon) plan.albums _ _).mono
        . intro drawn _ hdrawn _
          rwa [hpending] at hdrawn
        . exact fun _ _ => id
      . exact Play.ends_of_forall (fun _ _ h => absurd h hon) (fun _ _ => trivial)
    apply (hdraw.and (draw_changes booth plan.albums _ _ _)).mono
    . rintro drawn _ ⟨hdrawn, device, random, rfl⟩
      have hstocked
          : KeepsApart plan key
              { deck with
                device
                jukebox := { deck.jukebox with random }.setLane
                  (deck.jukebox.waiting ++ drawn) .waiting } :=
        ⟨⟨hlane, henforce⟩, hdrawn⟩
      refine ⟨fun _ => hstocked, fun _ => ⟨fun _ => ?_, fun _ => hstocked⟩⟩
      rw [ends_relax_waiting]
      -- once uniqueness has been given up, nothing more is asked for
      refine ⟨fun _ => ⟨⟨hlane, fun hon => ?_⟩, fun hon => ?_⟩, fun _ => hstocked⟩ <;> contradiction
    . rintro _ _ ⟨-, device, random, rfl⟩
      exact ⟨⟨hlane, henforce⟩, hapart⟩
  . exact fun _ _ => ⟨⟨hlane, henforce⟩, hapart⟩

theorem deliver_apart (count : Nat) : (booth.deliver plan count).Keeps (KeepsApart plan key) := by
  rintro deck hdeck
  have hhanded :=
    handOverWaiting_ends booth plan count
      (J := fun cs _ deck => KeepsApart plan key deck ∧ deck.jukebox.waiting = cs)
      (by
        rintro c rest tally deck - ⟨⟨hfits, hapart⟩, hwaiting⟩
        have hrest (device : s)
            : KeepsApart plan key
                { deck with device, jukebox := deck.jukebox.setLane rest .waiting } := by
          refine ⟨⟨hfits.lane, hfits.enforce⟩, fun hon => ?_⟩
          have hall := hapart hon
          rw [hwaiting] at hall
          exact hall.sublist ((List.sublist_cons_self c rest).filterMap key)
        rw [hand_ends]
        exact Play.ends_of_forall (fun _ _ => ⟨hrest _, rfl⟩) (fun _ _ => ⟨hrest _, rfl⟩))
      (by
        rintro rest tally deck target ⟨hdeck, -⟩
        exact (replenish_apart hkey _ target deck hdeck).imp fun _ hdeck' => ⟨hdeck', rfl⟩)
      deck.jukebox.waiting {} deck ⟨hdeck, rfl⟩
  rw [deliver_ends, hdeck.1.lane]
  apply hhanded.mono
  . rintro tally deck' ⟨left, ⟨hdeck', -⟩, -⟩
    exact .of_play hdeck' (Play.ends_of_forall (fun _ _ _ => hdeck') (fun _ _ => hdeck'))
  . exact fun _ _ => False.elim

theorem fillOnce_apart : booth.fillOnce.Keeps (·.jukebox.Apart key) := by
  intro deck hdeck
  rw [fillOnce_ends]
  apply Play.ends_of_forall
  . intro status device
    have hstart : KeepsApart deck.jukebox.plan key { deck with device } := ⟨⟨rfl, id⟩, hdeck⟩
    have hdeliver (needed : Nat) (deck' : Deck s) (h : KeepsApart deck.jukebox.plan key deck')
        : (booth.deliver deck.jukebox.plan needed).Ends deck' (fun _ deck => deck.jukebox.Apart key)
            (fun _ deck => deck.jukebox.Apart key) :=
      (deliver_apart hkey needed deck' h).imp fun _ => And.right
    refine ⟨fun _ => hdeck, fun _ => hdeck,
      fun needed _ => ⟨fun _ => ?_, fun _ => hdeliver needed _ hstart⟩⟩
    apply (replenish_apart hkey needed _ _ hstart).mono
    . exact fun _ => hdeliver needed
    . exact fun _ _ => And.right
  . exact fun _ _ => hdeck

theorem keepFilled_apart : booth.keepFilled.Keeps (·.jukebox.Apart key) := by
  intro deck hdeck
  rw [keepFilled_ends]
  refine ⟨fun _ => hdeck, fun _ => ?_⟩
  apply (fillOnce_apart hkey deck hdeck).mono
  . exact fun _ _ => id
  . exact fun _ => fillOnce_apart hkey

end Booth

namespace Jukebox

theorem Call.perform_apart (hkey : ∀ rules : Exclusions, rules.enforce = true → rules.Separates key)
    (call : Call s) (deck : Deck s) (h : deck.jukebox.Apart key)
    : (call.perform deck).jukebox.Apart key := by
  cases call with
  | keepFilled booth => exact (Booth.keepFilled_apart hkey).after h
  | addNow booth count albums =>
    obtain ⟨scratch, random, hjukebox⟩ := booth.addNow_jukebox count albums deck
    rw [perform, hjukebox]
    exact h
  | invalidate => exact fun _ => List.nodup_nil
  | configure settings => exact fun _ => List.nodup_nil

theorem Reached.apart (hkey : ∀ rules : Exclusions, rules.enforce = true → rules.Separates key)
    {jukebox : Jukebox} (h : jukebox.Reached s) : jukebox.Apart key :=
  h.induction (fun _ _ _ _ => List.nodup_nil) (Call.perform_apart hkey)

theorem waiting_apart {jukebox : Jukebox} (h : jukebox.Reached s)
    : (jukebox.settings.mode = .addTracks
        → ∀ c ∈ jukebox.waiting, ∃ uri tagValue, c.pick = .track uri tagValue)
      ∧ (jukebox.settings.mode = .addAlbums → ∀ c ∈ jukebox.waiting, ∃ key, c.pick = .album key)
      ∧ (jukebox.enforcing = true
        → (jukebox.waiting.filterMap Candidate.uri?).Nodup
          ∧ (jukebox.waiting.filterMap Candidate.albumKey?).Nodup
          ∧ (jukebox.waiting.filterMap Candidate.tagValue?).Nodup) := by
  refine ⟨fun hmode c hc => ?_, fun hmode c hc => ?_, fun hon => ⟨?_, ?_, ?_⟩⟩
  . have hsuited := h.suited c hc
    cases hpick : c.pick with
    | track uri tagValue => exact ⟨uri, tagValue, rfl⟩
    | album key => simp [hpick, addsAlbums, hmode, Pick.isAlbum] at hsuited
  . have hsuited := h.suited c hc
    cases hpick : c.pick with
    | track uri tagValue => simp [hpick, addsAlbums, hmode, Pick.isAlbum] at hsuited
    | album key => exact ⟨key, rfl⟩
  . exact h.apart (fun _ => Exclusions.separates_uri) hon
  . exact h.apart (fun _ => Exclusions.separates_albumKey) hon
  . exact h.apart (fun _ => Exclusions.separates_tagValue) hon

def fussy : Deck Rehearsal.ScriptedPlayer :=
  let songs := [("a.flac", "Jazz"), ("b.flac", "Jazz"), ("c.flac", "Rock"), ("a.flac", "Folk"),
    ("d.flac", "Soul"), ("c.flac", "Funk"), ("e.flac", "Ska")]
  { device :=
      { library := songs.map fun (uri, genre) => { uri, genre := some genre }
        reject := ["a.flac"] }
    jukebox :=
      .create "default" { mode := .addTracks, uniqueTag := some .genre } { word := fun _ => 0 } }

def fussyVisits : List (Visit Rehearsal.ScriptedPlayer) :=
  [{ call := .keepFilled rehearsalBooth, device := fussy.device }]

theorem fussy_waiting_apart
    : (fussy.visitAll fussyVisits).jukebox.enforcing = true
      ∧ (fussy.visitAll fussyVisits).jukebox.waiting.length = 2
      ∧ ((fussy.visitAll fussyVisits).jukebox.waiting.filterMap Candidate.uri?).Nodup
      ∧ ((fussy.visitAll fussyVisits).jukebox.waiting.filterMap Candidate.tagValue?).Nodup := by
  have hreached : (fussy.visitAll fussyVisits).jukebox.Reached Rehearsal.ScriptedPlayer :=
    ⟨"default", _, _, fussy.device, fussyVisits, rfl⟩
  have hon : (fussy.visitAll fussyVisits).jukebox.enforcing = true := by
    decide +kernel
  obtain ⟨huris, -, hvalues⟩ := (waiting_apart hreached).2.2 hon
  exact ⟨hon, by decide +kernel, huris, hvalues⟩

end Jukebox

end AutoDJ
