import AutoDJ.Proofs.Jukebox.Distinct
import AutoDJ.Proofs.Jukebox.Frame

/-!
This module contains what a request for tracks has to do with the tracks that wait: it pays no attention to
them, and they stay distinct from the playback queue if and only if it adds none of them.
-/

namespace AutoDJ

open Play (Mirrors)

variable {s : Type}

def Deck.setWaiting (cs : List Candidate) (deck : Deck s) : Deck s :=
  { deck with jukebox := deck.jukebox.setLane cs .waiting }

namespace Booth

section Waiting

variable {booth : Booth s} {plan : FillPlan} (cs : List Candidate)

theorem onDevice_setWaiting (x : Play s α)
    : Mirrors (Deck.setWaiting cs) Eq (Deck.onDevice x) (Deck.onDevice x) := by
  intro deck
  unfold Deck.onDevice Deck.setWaiting
  dsimp only
  cases x deck.device <;> exact ⟨rfl, rfl⟩

theorem setScratch_setWaiting (candidates : List Candidate)
    : Mirrors (Deck.setWaiting cs : Deck s → Deck s) Eq
        (Deck.modifyJukebox fun jukebox => jukebox.setLane candidates .scratch)
        (Deck.modifyJukebox fun jukebox => jukebox.setLane candidates .scratch) := by
  apply Mirrors.modify
  intro deck
  rfl

theorem emit_setWaiting (kind : EventKind) (message : Option String)
    : Mirrors (Deck.setWaiting cs : Deck s → Deck s) Eq (Deck.emit kind message)
        (Deck.emit kind message) := by
  apply Mirrors.modify
  intro deck
  rfl

theorem draw_setWaiting (albums : Bool) (rules : Exclusions) (k : Nat)
    : Mirrors (Deck.setWaiting cs) Eq (booth.draw albums rules k) (booth.draw albums rules k) := by
  intro deck
  unfold draw
  cases albums with
  | true => cases booth.caches.albums <;> exact ⟨rfl, rfl⟩
  | false =>
    simp only [Bool.false_eq_true, if_false, Deck.setWaiting, Jukebox.setLane]
    cases sampleTracks booth.player deck.jukebox.settings.source booth.pageSize rules k
      (deck.device, deck.jukebox.random) <;> exact ⟨rfl, rfl⟩

theorem replenish_setWaiting (hlane : plan.lane = .scratch) (needed target : Nat)
    : Mirrors (Deck.setWaiting cs) Eq (booth.replenish plan needed target)
        (booth.replenish plan needed target) := by
  unfold replenish
  rw [hlane]
  apply Mirrors.bind Mirrors.get
  rintro _ deck rfl
  apply Mirrors.bind (onDevice_setWaiting cs (booth.recentlyPlayed deck.jukebox.settings))
  rintro recent _ rfl
  have hrules
      : booth.exclusions plan (deck.setWaiting cs).jukebox recent
        = booth.exclusions plan deck.jukebox recent := by
    unfold exclusions
    rw [hlane]
    rfl
  dsimp only
  rw [hrules]
  apply Mirrors.bind (draw_setWaiting cs _ _ _)
  rintro drawn _ rfl
  apply Mirrors.bind (setScratch_setWaiting cs _)
  rintro _ _ rfl
  apply Mirrors.ite
  . intro _
    apply Mirrors.bind (R := Eq) (.throw _)
    rintro _ _ rfl
    exact .ite (fun _ => emit_setWaiting cs _ _) (fun _ => .pure rfl)
  . intro _
    exact .ite (fun _ => emit_setWaiting cs _ _) (fun _ => .pure rfl)

theorem handOver_setWaiting (count : Nat) (candidates : List Candidate) (tally : Tally)
    : Mirrors (Deck.setWaiting cs) Eq (booth.handOver .scratch count candidates tally)
        (booth.handOver .scratch count candidates tally) := by
  induction candidates generalizing tally with
  | nil => exact .pure rfl
  | cons c rest ih =>
    unfold handOver
    apply Mirrors.ite
    . intro _
      exact .pure rfl
    . intro _
      apply Mirrors.bind (setScratch_setWaiting cs rest)
      rintro _ _ rfl
      apply Mirrors.bind (R := Eq)
      . apply Mirrors.bind (onDevice_setWaiting cs _).outcome
        rintro result _ rfl
        cases result <;> exact .pure rfl
      . rintro tally _ rfl
        exact ih tally

theorem deliver_setWaiting (hlane : plan.lane = .scratch) (count : Nat)
    : Mirrors (Deck.setWaiting cs) Eq (booth.deliver plan count) (booth.deliver plan count) := by
  unfold deliver
  rw [hlane]
  apply Mirrors.bind Mirrors.get
  rintro _ deck rfl
  apply Mirrors.bind (handOver_setWaiting cs count _ _)
  rintro tally _ rfl
  apply Mirrors.ite
  . intro _
    cases tally.lastError with
    | some e => exact .throw e
    | none => exact .pure rfl
  . intro _
    apply Mirrors.bind (onDevice_setWaiting cs _)
    rintro _ _ rfl
    apply Mirrors.bind (emit_setWaiting cs _ _)
    rintro _ _ rfl
    exact .pure rfl

theorem addNow_setWaiting (booth : Booth s) (count : Nat) (albums : Bool)
    : Mirrors (Deck.setWaiting cs) Eq (booth.addNow count albums) (booth.addNow count albums) := by
  unfold addNow
  apply Mirrors.ite
  . intro _
    exact .pure rfl
  . intro _
    apply Mirrors.bind Mirrors.get
    rintro _ deck rfl
    apply Mirrors.bind (setScratch_setWaiting cs [])
    rintro _ _ rfl
    apply Mirrors.bind (replenish_setWaiting cs rfl _ _)
    rintro _ _ rfl
    apply Mirrors.bind (deliver_setWaiting cs rfl _).outcome
    rintro result _ rfl
    apply Mirrors.bind (setScratch_setWaiting cs [])
    rintro _ _ rfl
    cases result with
    | ok added => exact .pure rfl
    | error e => exact .throw e

end Waiting

end Booth

def Receipt.acceptedTrack? (receipt : Receipt s) : Option String :=
  match receipt.order with
  | .addTrack uri => if receipt.accepted then some uri else none
  | .addAlbum .. | .play => none

def acceptedTracks (receipts : List (Receipt s)) : List String :=
  receipts.filterMap Receipt.acceptedTrack?

variable {playback : s → List String}

structure Adding (playback : s → List String) (start : List String) (cs : List Candidate)
    (state : s × List (Receipt s)) : Prop where
  tracks : ∀ c ∈ cs, ∃ uri, c.uri? = some uri
  nodup : (cs.map Candidate.uri? ++ (playback state.1).map some).Nodup
  known : ∀ uri ∈ playback state.1, uri ∈ start ∨ uri ∈ acceptedTracks state.2
  fresh : ∀ receipt ∈ state.2, receipt.Fresh playback

namespace Adding

variable {start : List String} {cs : List Candidate} {state : s × List (Receipt s)}

theorem lose (h : Adding playback start cs state) {device : s}
    (hdevice : (playback device).Sublist (playback state.1))
    : Adding playback start cs (device, state.2) := by
  refine ⟨h.tracks, ?_, fun uri huri => h.known uri (hdevice.subset huri), h.fresh⟩
  exact h.nodup.sublist ((List.Sublist.refl _).append (hdevice.map some))

theorem leave (h : Adding playback start cs state) : Adding playback start [] state :=
  ⟨nofun, h.nodup.of_append_right, h.known, h.fresh⟩

theorem file (h : Adding playback start cs state) (receipt : Receipt s)
    (hreceipt : receipt.acceptedTrack? = none)
    : Adding playback start cs (state.1, state.2 ++ [receipt]) := by
  refine ⟨h.tracks, h.nodup, fun uri huri => ?_, ?_⟩
  . rw [acceptedTracks, List.filterMap_append]
    exact (h.known uri huri).imp_right (List.mem_append_left _)
  . apply List.forall_mem_append.mpr ⟨h.fresh, List.forall_mem_singleton.mpr _⟩
    intro uri horder haccepted
    simp [Receipt.acceptedTrack?, horder, haccepted] at hreceipt

theorem accept {c : Candidate} {uri : String} (huri : c.uri? = some uri)
    (h : Adding playback start (c :: cs) state) {device : s}
    (hdevice : playback device = playback state.1 ++ [uri])
    : Adding playback start cs
        (device, state.2 ++ [{ order := .addTrack uri, before := state.1, accepted := true }]) := by
  obtain ⟨hmoved, hnew⟩ := Booth.nodup_move huri h.nodup
  refine ⟨fun d hd => h.tracks d (List.mem_cons_of_mem c hd), ?_, fun other hother => ?_, ?_⟩
  . rw [hdevice]
    exact hmoved
  . rw [acceptedTracks, List.filterMap_append]
    rw [hdevice] at hother
    obtain hother | hother := List.mem_append.mp hother
    . exact (h.known other hother).imp_right (List.mem_append_left _)
    . exact .inr (List.mem_append_right _ hother)
  . apply List.forall_mem_append.mpr ⟨h.fresh, List.forall_mem_singleton.mpr _⟩
    intro other horder _
    cases horder
    exact hnew

end Adding

namespace Booth

variable {booth : Booth s} {plan : FillPlan} {start : List String}
  {deck : Deck (s × List (Receipt s))}

theorem hand_adding (h : booth.Follows playback) (c : Candidate) (rest : List Candidate) (tally : Tally)
    (hdeck : Adding playback start (c :: rest) deck.device)
    : (booth.recorded.hand c tally).Ends { deck with jukebox := deck.jukebox.setLane rest .scratch }
        (fun _ deck' => Adding playback start rest deck'.device) (fun _ _ => False) := by
  obtain ⟨uri, huri⟩ := hdeck.tracks c List.mem_cons_self
  rw [hand_ends]
  cases hpick : c.pick with
  | album key => simp [Candidate.uri?, hpick] at huri
  | track uri' tagValue =>
    obtain rfl : uri' = uri := by simpa [Candidate.uri?, hpick] using huri
    apply ends_filed.mpr
    apply (h.addTrack uri' _).mono
    . exact fun _ after hafter => hdeck.accept huri hafter
    . intro _ after hafter
      have hrest : Adding playback start rest deck.device :=
        ⟨fun d hd => hdeck.tracks d (List.mem_cons_of_mem c hd), hdeck.nodup.of_cons, hdeck.known,
          hdeck.fresh⟩
      have hfiled :=
        hrest.file { order := .addTrack uri', before := deck.device.1, accepted := false } rfl
      exact hfiled.lose (hafter ▸ List.Sublist.refl _)

theorem replenish_adding (h : booth.Follows playback) (hlane : plan.lane = .scratch)
    (halbums : plan.albums = false) (henforce : plan.enforce = true) (needed target : Nat)
    (hreceipts : deck.device.2 = []) (hscratch : deck.jukebox.scratch = [])
    (hplayback : (playback deck.device.1).Nodup)
    : (booth.recorded.replenish plan needed target).Ends deck
        (fun _ deck' => Adding playback (playback deck.device.1) deck'.jukebox.scratch deck'.device)
        (fun _ deck' => Adding playback (playback deck.device.1) [] deck'.device) := by
  have hdraws := h.draws [] (playback deck.device.1)
  have hnone {state : s × List (Receipt s)}
      (hstate : state.2 = [] ∧ (playback state.1).Sublist (playback deck.device.1))
      : Adding playback (playback deck.device.1) [] state := by
    obtain ⟨hreceipts, hqueue⟩ := hstate
    refine ⟨nofun, ?_, fun uri huri => .inl (hqueue.subset huri), by simp [hreceipts]⟩
    exact (hplayback.sublist hqueue).map fun _ _ => Option.some.inj
  rw [ends_replenish, hlane]
  apply (recentlyPlayed_ends hdraws _ deck.device ⟨hreceipts, List.Sublist.refl _⟩).mono
  . rintro recent device ⟨uris, hdevice, hrecent⟩
    apply (draw_ends (hdraws.sourcePage uris) plan.albums _ _ _ hdevice).mono
    . rintro drawn _ ⟨hadmits, device, random, ⟨hdevice, huris⟩, rfl⟩
      have hpending
          : (booth.recorded.exclusions plan deck.jukebox recent).pending = [] := by
        rw [exclusions, hlane]
        exact hscratch
      have hdrawn
          : Adding playback (playback deck.device.1) (deck.jukebox.lane .scratch ++ drawn) device := by
        have hdistinct := (hadmits halbums).nodup_append henforce
          (fun uri huri => hrecent uri (huris huri)) (by
            rw [hpending]
            exact (hnone hdevice).nodup)
        rw [hpending] at hdistinct
        rw [Jukebox.lane, hscratch]
        exact ⟨(hadmits halbums).tracks, hdistinct, (hnone hdevice).known, (hnone hdevice).fresh⟩
      exact ⟨fun _ => hdrawn.leave, fun _ => ⟨fun _ => hdrawn, fun _ => hdrawn⟩⟩
    . rintro _ _ ⟨device, random, ⟨hdevice, -⟩, rfl⟩
      exact hnone hdevice
  . exact fun _ _ => hnone

theorem deliver_adding (h : booth.Follows playback) (hlane : plan.lane = .scratch) (count : Nat)
    (hdeck : Adding playback start deck.jukebox.scratch deck.device)
    : (booth.recorded.deliver plan count).Ends deck (fun _ deck' => Adding playback start [] deck'.device)
        (fun _ deck' => Adding playback start [] deck'.device) := by
  have hhanded := handOver_ends (J := fun cs _ deck => Adding playback start cs deck.device) count
    (fun c rest tally deck _ => hand_adding h c rest tally) deck.jukebox.scratch {} deck hdeck
  rw [deliver_ends, hlane]
  apply hhanded.mono
  . rintro tally deck' ⟨left, hleft, -⟩
    have hend := hleft.leave
    apply Settles.of_play hend
    apply ends_filed.mpr
    apply (h.play deck'.device.1).mono
    . intro _ after hafter _
      exact (hend.file { order := .play, before := deck'.device.1, accepted := true } rfl).lose hafter
    . intro _ after hafter
      exact (hend.file { order := .play, before := deck'.device.1, accepted := false } rfl).lose hafter
  . exact fun _ _ => False.elim

theorem addNow_adding (h : booth.Follows playback) (count : Nat) (deck : Deck s)
    (henforcing : deck.jukebox.enforcing = true) (hplayback : (playback deck.device).Nodup)
    : Adding playback (playback deck.device) []
        ((booth.recorded.addNow count false).after deck.recorded).device := by
  apply Play.after_of_ends
    (fun deck' : Deck (s × List (Receipt s)) => Adding playback (playback deck.device) [] deck'.device)
  rw [addNow_ends]
  refine ⟨fun _ => ?_, fun _ => ?_⟩
  . exact ⟨nofun, hplayback.map fun _ _ => Option.some.inj, fun _ => .inl, nofun⟩
  . apply (replenish_adding h rfl rfl henforcing _ _ rfl rfl hplayback).mono
    . exact fun _ _ => deliver_adding h rfl _
    . exact fun _ _ => id

/--
No track that is accepted because of a request is waiting.
-/
def SparesWaiting (booth : Booth s) (count : Nat) (deck : Deck s) : Prop :=
  ∀ uri ∈ acceptedTracks (booth.requestLedger count false deck),
    Candidate.hasUri deck.jukebox.waiting uri = false

theorem requestLedger_setWaiting (booth : Booth s) (count : Nat) (albums : Bool) (deck : Deck s)
    (cs : List Candidate)
    : booth.requestLedger count albums (deck.setWaiting cs) = booth.requestLedger count albums deck := by
  have hafter := (booth.recorded.addNow_setWaiting cs count albums).after_eq deck.recorded
  unfold requestLedger
  exact congrArg (fun deck' => deck'.device.2) hafter

end Booth

namespace Jukebox

theorem addNow_distinct {booth : Booth s} (h : booth.Follows playback) {deck : Deck s}
    (hdeck : deck.recorded.Distinct playback) (henforcing : deck.jukebox.enforcing = true) (count : Nat)
    : ((booth.addNow count false).after deck).recorded.Distinct playback
        ↔ ∀ uri ∈ acceptedTracks (booth.requestLedger count false deck),
          uri ∈ playback ((booth.addNow count false).after deck).device
            → Candidate.hasUri deck.jukebox.waiting uri = false := by
  obtain ⟨scratch, random, hjukebox⟩ := booth.addNow_jukebox count false deck
  obtain ⟨hwaiting, hplayback, hapart⟩ := List.nodup_append'.mp (hdeck.nodup henforcing)
  have hadding := Booth.addNow_adding h count deck henforcing (List.Nodup.of_map some hplayback)
  have hdevice
      : ((booth.recorded.addNow count false).after deck.recorded).device.1
        = ((booth.addNow count false).after deck).device :=
    congrArg (·.device) ((booth.addNow_mirrors count false).after_eq deck.recorded).symm
  obtain ⟨-, hnodup, hknown, -⟩ := hadding
  rw [hdevice] at hnodup hknown
  constructor
  . intro hafter uri _ huri
    have hafter := hafter.nodup (by simp [Deck.recorded, hjukebox, henforcing])
    simp only [Deck.recorded, hjukebox] at hafter
    rw [← Bool.not_eq_true, Candidate.hasUri_iff]
    intro hwaits
    exact (List.nodup_append'.mp hafter).2.2 hwaits (List.mem_map_of_mem huri)
  . intro hspared
    refine ⟨?_, ?_, fun _ => ?_, by simp [Deck.recorded]⟩
    . simp only [Deck.recorded, hjukebox]
      exact hdeck.mode
    . simp only [Deck.recorded, hjukebox]
      exact hdeck.tracks
    . simp only [Deck.recorded, hjukebox]
      refine List.nodup_append'.mpr ⟨hwaiting, hnodup, fun uri? hwaits hplays => ?_⟩
      obtain ⟨uri, huri, rfl⟩ := List.mem_map.mp hplays
      -- a waiting track that is played now was there before, or it is one of those added
      obtain hold | hadded := hknown uri huri
      . exact hapart hwaits (List.mem_map_of_mem hold)
      . have hfree := hspared uri hadded huri
        rw [Candidate.hasUri_iff.mpr hwaits] at hfree
        contradiction

/--
While uniqueness is enforced, the waiting tracks and the playback queue are still distinct after a request
if and only if no track that has been added, and is still there, is waiting. If none is, no later fill
that ends with uniqueness enforced adds a track that is in the playback queue by then. But what a request
adds does not depend on what is waiting.
-/
theorem addNow_distinct_iff {booth : Booth s} (h : booth.Follows playback) {deck : Deck s}
    (hdeck : deck.recorded.Distinct playback) (henforcing : deck.jukebox.enforcing = true) (count : Nat)
    : (((booth.addNow count false).after deck).recorded.Distinct playback
        ↔ ∀ uri ∈ acceptedTracks (booth.requestLedger count false deck),
          uri ∈ playback ((booth.addNow count false).after deck).device
            → Candidate.hasUri deck.jukebox.waiting uri = false)
      ∧ (booth.SparesWaiting count deck
        → ∀ later, Course playback ((booth.addNow count false).after deck) later
          → ∀ other : Booth s, other.Follows playback
            → (other.keepFilled.after later).jukebox.enforcing = true
            → ∀ receipt ∈ other.ledger later, receipt.Fresh playback)
      ∧ ∀ cs, booth.requestLedger count false (deck.setWaiting cs)
          = booth.requestLedger count false deck := by
  have hdistinct := addNow_distinct h hdeck henforcing count
  refine ⟨hdistinct, fun hspares later hlater other hother => ?_,
    booth.requestLedger_setWaiting count false deck⟩
  have hafter := hdistinct.mpr fun uri huri _ => hspares uri huri
  exact (fill_distinct hother (course_distinct hlater hafter)).2

def resupplied : Deck Rehearsal.ScriptedPlayer :=
  { rehearsalBooth.keepFilled.after wellStocked with device.library := [{ uri := "d.flac" }] }

theorem resupplied_distinct
    : resupplied.recorded.Distinct Rehearsal.ScriptedPlayer.queue
      ∧ resupplied.jukebox.enforcing = true
      ∧ ((rehearsalBooth.addNow 1 false).after resupplied).recorded.Distinct
          Rehearsal.ScriptedPlayer.queue := by
  have hstart : wellStocked.recorded.Distinct Rehearsal.ScriptedPlayer.queue := by
    constructor <;> simp [Deck.recorded, wellStocked, create]
  have hoffer {deck : Deck Rehearsal.ScriptedPlayer} (library : List Song)
      (hdeck : Course Rehearsal.ScriptedPlayer.queue wellStocked deck)
      : Course Rehearsal.ScriptedPlayer.queue wellStocked { deck with device.library := library } :=
    hdeck.between (List.Sublist.refl _)
  have hcourse : Course Rehearsal.ScriptedPlayer.queue wellStocked resupplied :=
    hoffer [{ uri := "d.flac" }] (.fill .start rehearsalBooth_follows)
  have hdistinct := course_distinct hcourse hstart
  have henforcing : resupplied.jukebox.enforcing = true := by decide +kernel
  refine ⟨hdistinct, henforcing,
    (addNow_distinct_iff rehearsalBooth_follows hdistinct henforcing 1).1.mpr ?_⟩
  decide +kernel

theorem wellStocked_repeats
    : let filled := rehearsalBooth.keepFilled.after wellStocked
      let requested := (rehearsalBooth.addNow 1 false).after filled
      let played := { requested with device.queue := ["a.flac"] }
      let refilled := rehearsalBooth.keepFilled.after played
      filled.jukebox.enforcing = true
        ∧ acceptedTracks (rehearsalBooth.requestLedger 1 false filled) = ["a.flac"]
        ∧ Candidate.hasUri filled.jukebox.waiting "a.flac" = true
        ∧ played.device.queue.Sublist requested.device.queue
        ∧ refilled.device.queue = ["a.flac", "a.flac"]
        ∧ refilled.jukebox.enforcing = true := by
  -- the request takes the song that waits, and the next fill takes it once more
  decide +kernel

end Jukebox

end AutoDJ
