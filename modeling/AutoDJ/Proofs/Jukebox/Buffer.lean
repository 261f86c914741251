import AutoDJ.Proofs.Jukebox.AlbumSelection
import AutoDJ.Proofs.Jukebox.Fill

/-!
This module contains the proof that a fill leaves enough candidates waiting for the next one, if the player
accepts what it is given and the source has enough to offer whenever candidates are drawn.

A fill that has too few candidates draws before it hands any over; it may draw once more when they run low. What
it draws then is reckoned from what is missing at that time.
-/

namespace AutoDJ

variable {s : Type}

namespace Booth

/--
In the states that are ready, every call of the player succeeds, so that whatever is added is accepted, and the
history can be read.
-/
structure Willing (booth : Booth s) (settings : JukeboxSettings) (ready : s → Prop) : Prop where
  status : booth.player.status.SucceedsIn ready
  queuedUris : booth.player.queuedUris.SucceedsIn ready
  playedSince : (booth.playedSince (booth.since settings)).SucceedsIn ready
  sourcePage : ∀ offset limit, (booth.player.sourcePage settings.source offset limit).SucceedsIn ready
  place : ∀ pick, (booth.place pick).SucceedsIn ready
  play : booth.player.play.SucceedsIn ready

def Stocks (booth : Booth s) (albums : Bool) (source : Source) (rules : Exclusions) (k : Nat)
    (state : s) : Prop :=
  if albums then
    ∃ index ∈ booth.caches.albums, k ≤ rules.albumSupply index.toList
  else
    ∃ songs after, Shows (booth.player.sourcePage source) (max booth.pageSize 1) 0 state songs after
      ∧ songs.length < listingLimit ∧ k ≤ rules.supply songs

def Supplies (booth : Booth s) (plan : FillPlan) (target : Nat) (deck : Deck s) : Prop :=
  (booth.recentlyPlayed deck.jukebox.settings).Ends deck.device
    (fun recent device =>
      booth.Stocks plan.albums deck.jukebox.settings.source (booth.exclusions plan deck.jukebox recent)
        (target - (deck.jukebox.lane plan.lane).length) device)
    (fun _ _ => True)

/--
While waiting candidates are handed over, they run low: in the last state, when `needed` items are missing.
-/
inductive RunsLow (booth : Booth s) (plan : FillPlan) (count : Nat) :
    List Candidate → Tally → Deck s → (needed : Nat) → Deck s → Prop where
  | now (hmissing : tally.added < count)
    (hhand : booth.hand c tally { deck with jukebox := deck.jukebox.setLane rest .waiting } = .ok tally' deck')
    (hlow : rest.length < lowWater plan.albums)
    : RunsLow booth plan count (c :: rest) tally deck (count - tally'.added) deck'
  | later (hmissing : tally.added < count)
    (hhand : booth.hand c tally { deck with jukebox := deck.jukebox.setLane rest .waiting } = .ok tally' deck')
    (hhigh : lowWater plan.albums ≤ rest.length)
    (hrest : RunsLow booth plan count rest tally' deck' needed deck'')
    : RunsLow booth plan count (c :: rest) tally deck needed deck''

inductive Refills (booth : Booth s) (deck : Deck s) : (needed : Nat) → Deck s → Prop where
  | first (hstatus : booth.player.status deck.device = .ok status device)
    (hneeded : deck.jukebox.settings.needed? status = .ok (some count))
    (hfew : deck.jukebox.waiting.length < count)
    : Refills booth deck count { deck with device }
  | second (hstatus : booth.player.status deck.device = .ok status device)
    (hneeded : deck.jukebox.settings.needed? status = .ok (some count))
    (hfew : deck.jukebox.waiting.length < count)
    (hrefilled : booth.replenish deck.jukebox.plan count (count + bufferSize deck.jukebox.addsAlbums)
      { deck with device } = .ok () deck')
    (hlow : RunsLow booth deck.jukebox.plan count deck'.jukebox.waiting {} deck' needed deck'')
    : Refills booth deck needed deck''
  | only (hstatus : booth.player.status deck.device = .ok status device)
    (hneeded : deck.jukebox.settings.needed? status = .ok (some count))
    (henough : count ≤ deck.jukebox.waiting.length)
    (hlow : RunsLow booth deck.jukebox.plan count deck.jukebox.waiting {} { deck with device } needed deck')
    : Refills booth deck needed deck'

variable {booth : Booth s} {plan : FillPlan} {settings : JukeboxSettings} {ready : s → Prop} {deck : Deck s}

theorem lowWater_pos (albums : Bool) : 0 < lowWater albums := by
  cases albums <;> decide

theorem lowWater_le_bufferSize (albums : Bool) : lowWater albums ≤ bufferSize albums := by
  cases albums <;> decide

section Refill

theorem recentlyPlayed_succeeds (h : booth.Willing settings ready)
    : (booth.recentlyPlayed settings).SucceedsIn ready := by
  unfold recentlyPlayed
  apply h.queuedUris.bind
  intro queued
  apply Play.SucceedsIn.ite
  . exact fun _ => .pure _
  . exact fun _ => h.playedSince.bind fun _ => .pure _

theorem draw_stocked (deck : Deck s) (h : booth.Willing deck.jukebox.settings ready) {albums : Bool}
    {rules : Exclusions} {k : Nat}
    (hstocks : booth.Stocks albums deck.jukebox.settings.source rules k deck.device)
    (hready : ready deck.device)
    : (booth.draw albums rules k).Ends deck
        (fun drawn deck' => drawn.length = k ∧ ∃ device random, ready device
          ∧ deck' = { deck with device, jukebox := { deck.jukebox with random } })
        (fun _ _ => False) := by
  cases albums with
  | true =>
    obtain ⟨index, hindex, hk⟩ := hstocks
    have hlength := (sampleAlbums_samples index rules k deck.jukebox.random).2
    unfold draw Play.Ends
    rw [Option.mem_def.mp hindex]
    exact ⟨hlength.trans (Nat.min_eq_left hk), _, _, hready, rfl⟩
  | false =>
    obtain ⟨songs, after, hpages, hlimit, hk⟩ := hstocks
    rw [ends_draw_tracks]
    apply (sampleTracks_samples hpages hlimit rules k deck.jukebox.random).mono
    . rintro drawn walk ⟨-, hlength, hafter⟩
      refine ⟨hlength.trans (Nat.min_eq_left hk), _, _, ?_, rfl⟩
      rw [hafter]
      exact hpages.keeps (fun offset limit state hstate =>
        (h.sourcePage offset limit state hstate).mono (fun _ _ => id) (fun _ _ => False.elim)) hready
    . exact fun _ _ => id

theorem replenish_fills (deck : Deck s) (h : booth.Willing settings ready)
    (hsettings : deck.jukebox.settings = settings) (hlane : plan.lane = .waiting) {needed target : Nat}
    (hneeded : needed ≤ target) (htarget : 0 < target) (hsupply : booth.Supplies plan target deck)
    (hready : ready deck.device)
    : (booth.replenish plan needed target).Ends deck
        (fun _ deck' => ready deck'.device ∧ deck'.jukebox.settings = settings
          ∧ target ≤ deck'.jukebox.waiting.length)
        (fun _ _ => False) := by
  subst hsettings
  unfold Supplies at hsupply
  rw [hlane] at hsupply
  rw [ends_replenish, hlane]
  apply ((recentlyPlayed_succeeds h deck.device hready).and hsupply).mono
  . rintro recent device ⟨hdevice, hstocks⟩
    apply (draw_stocked { deck with device } h hstocks hdevice).mono
    . rintro drawn _ ⟨hdrawn, device', random, hdevice', rfl⟩
      have hlength : target ≤ (deck.jukebox.lane .waiting ++ drawn).length := by
        rw [List.length_append, hdrawn]
        omega
      -- Neither are there no candidates, nor fewer than are needed.
      refine ⟨fun hempty => ?_, fun _ => ⟨fun ⟨hfew, _⟩ => ?_, fun _ => ⟨hdevice', rfl, hlength⟩⟩⟩
      . have hnone := congrArg List.length hempty
        rw [List.length_nil] at hnone
        omega
      . exact absurd hfew (by omega)
    . exact fun _ _ => False.elim
  . exact fun _ _ h => h.1

end Refill

section HandOver

variable {count : Nat}

structure Accepting (settings : JukeboxSettings) (ready : s → Prop) (count : Nat) (cs : List Candidate)
    (tally : Tally) (deck : Deck s) : Prop where
  ready : ready deck.device
  settings : deck.jukebox.settings = settings
  waiting : deck.jukebox.waiting = cs
  added : tally.added ≤ count

theorem hand_accepted (h : booth.Willing settings ready) {c : Candidate} {rest : List Candidate}
    {tally : Tally} (hmissing : tally.added < count)
    (hdeck : Accepting settings ready count (c :: rest) tally deck)
    : (booth.hand c tally).Ends { deck with jukebox := deck.jukebox.setLane rest .waiting }
        (fun tally' deck' => tally'.added = tally.added + 1
          ∧ Accepting settings ready count rest tally' deck')
        (fun _ _ => False) := by
  rw [hand_ends]
  apply (h.place c.pick deck.device hdeck.ready).mono
  . intro _ device hdevice
    exact ⟨rfl, hdevice, hdeck.settings, rfl, hmissing⟩
  . exact fun _ _ => False.elim

theorem handOver_restores (h : booth.Willing settings ready) (albums : Bool) {cs : List Candidate}
    {tally : Tally} (hdeck : Accepting settings ready count cs tally deck)
    (hcs : count + lowWater albums ≤ tally.added + cs.length)
    : (booth.handOver .waiting count cs tally).Ends deck
        (fun tally' deck' => tally'.added = count ∧ lowWater albums ≤ deck'.jukebox.waiting.length
          ∧ ready deck'.device)
        (fun _ _ => False) := by
  have hpos := lowWater_pos albums
  apply (handOver_ends count
    (J := fun cs tally deck => Accepting settings ready count cs tally deck
      ∧ count + lowWater albums ≤ tally.added + cs.length)
    ?_ cs tally deck ⟨hdeck, hcs⟩).mono
  . rintro tally' deck' ⟨left, ⟨hdeck', hleft⟩, hend⟩
    have hadded := hdeck'.added
    rw [hdeck'.waiting]
    obtain rfl | henough := hend
    . rw [List.length_nil] at hleft
      omega
    . exact ⟨by omega, by omega, hdeck'.ready⟩
  . exact fun _ _ => id
  . rintro c rest tally deck hmissing ⟨hdeck, hcs⟩
    apply (hand_accepted h hmissing hdeck).mono
    . rintro tally' deck' ⟨hadded, hdeck'⟩
      rw [List.length_cons] at hcs
      exact ⟨hdeck', by omega⟩
    . exact fun _ _ => id

theorem handOverWaiting_restores (h : booth.Willing settings ready) (hlane : plan.lane = .waiting)
    {cs : List Candidate} {tally : Tally} (hdeck : Accepting settings ready count cs tally deck)
    (hcs : count ≤ tally.added + cs.length)
    (hhigh : tally.added = count → lowWater plan.albums ≤ cs.length)
    (hsupply : ∀ needed deck', booth.RunsLow plan count cs tally deck needed deck'
      → booth.Supplies plan (needed + bufferSize plan.albums) deck')
    : (booth.handOverWaiting plan count cs tally).Ends deck
        (fun tally' deck' => tally'.added = count ∧ lowWater plan.albums ≤ deck'.jukebox.waiting.length
          ∧ ready deck'.device)
        (fun _ _ => False) := by
  have hbuffer := lowWater_le_bufferSize plan.albums
  have hpos := lowWater_pos plan.albums
  -- as long as they have not been low, the candidates cover what is missing, and they are not low either when
  -- nothing is missing any more
  induction cs generalizing tally deck with
  | nil =>
    have hadded := hdeck.added
    have henough : tally.added = count := by simpa using Nat.le_antisymm hadded hcs
    refine ⟨henough, ?_, hdeck.ready⟩
    rw [hdeck.waiting]
    exact hhigh henough
  | cons c rest ih =>
    unfold handOverWaiting
    rw [Play.ends_ite]
    refine ⟨fun henough => ?_, fun hmissing => ?_⟩
    . have hall : tally.added = count := Nat.le_antisymm hdeck.added henough
      refine ⟨hall, ?_, hdeck.ready⟩
      rw [hdeck.waiting]
      exact hhigh hall
    . rw [Nat.not_le] at hmissing
      rw [List.length_cons] at hcs
      rw [Play.ends_bind, Deck.ends_modifyJukebox, Play.ends_bind]
      apply ((Play.ends_self _ _).and (hand_accepted h hmissing hdeck)).mono
      . rintro tally' deck' ⟨hhand, hadded, hdeck'⟩
        rw [Play.ends_ite]
        refine ⟨fun hlow => ?_, fun hnotLow => ?_⟩
        . rw [Play.ends_bind, Play.ends_outcome]
          have hsupplies := hsupply _ _ (.now hmissing hhand hlow)
          apply (replenish_fills deck' h hdeck'.settings hlane (Nat.le_add_right _ _) (by omega) hsupplies
            hdeck'.ready).mono
          . rintro _ deck'' ⟨hready, hsettings, hlength⟩
            exact handOver_restores h plan.albums ⟨hready, hsettings, rfl, hdeck'.added⟩ (by omega)
          . exact fun _ _ => False.elim
        . have hrest := Nat.not_lt.mp hnotLow
          exact ih hdeck' (by omega) (fun _ => hrest)
            fun needed deck'' hruns => hsupply needed deck'' (.later hmissing hhand hrest hruns)
      . exact fun _ _ hfalse => hfalse.2

theorem deliver_restores (h : booth.Willing settings ready) (hlane : plan.lane = .waiting) (hcount : 0 < count)
    (hready : ready deck.device) (hsettings : deck.jukebox.settings = settings)
    (hwaiting : count ≤ deck.jukebox.waiting.length)
    (hsupply : ∀ needed deck', booth.RunsLow plan count deck.jukebox.waiting {} deck needed deck'
      → booth.Supplies plan (needed + bufferSize plan.albums) deck')
    : (booth.deliver plan count).Ends deck
        (fun added deck' => added = count ∧ lowWater plan.albums ≤ deck'.jukebox.waiting.length)
        (fun _ _ => False) := by
  rw [deliver_ends, hlane]
  have hnone : ({} : Tally).added = 0 := rfl
  apply (handOverWaiting_restores h hlane ⟨hready, hsettings, rfl, Nat.zero_le _⟩ (by omega) (by omega)
    hsupply).mono
  . rintro tally deck' ⟨hadded, hleft, hready'⟩
    unfold Settles
    rw [if_neg (by omega)]
    apply (h.play deck'.device hready').mono
    . exact fun _ _ _ => ⟨hadded, hleft⟩
    . exact fun _ _ => False.elim
  . exact fun _ _ => id

theorem fillOnce_restores (h : booth.Willing deck.jukebox.settings ready) (hready : ready deck.device)
    (hmissing : booth.player.status.Ends deck.device
      (fun status _ => deck.jukebox.settings.needed? status = .ok (some count)) (fun _ _ => False))
    (hsupply : ∀ needed deck', booth.Refills deck needed deck'
      → booth.Supplies deck.jukebox.plan (needed + bufferSize deck.jukebox.addsAlbums) deck')
    : booth.fillOnce.Ends deck
        (fun added deck' => added = count
          ∧ lowWater deck.jukebox.addsAlbums ≤ deck'.jukebox.waiting.length)
        (fun _ _ => False) := by
  rw [fillOnce_ends]
  apply ((Play.ends_self _ _).and (hmissing.and (h.status deck.device hready))).mono
  . rintro status device ⟨hstatus, hneeded, hdevice⟩
    have hpos := JukeboxSettings.needed_pos hneeded
    rw [hneeded]
    refine ⟨nofun, nofun, ?_⟩
    rintro _ ⟨⟩
    refine ⟨fun hfew => ?_, fun hmany => ?_⟩
    . have hsupplies := hsupply count _ (.first hstatus hneeded hfew)
      apply ((Play.ends_self _ _).and
        (replenish_fills { deck with device } h rfl rfl (Nat.le_add_right _ _) (by omega) hsupplies
          hdevice)).mono
      . rintro _ deck' ⟨hrefilled, hready', hsettings, hlength⟩
        exact deliver_restores h rfl hpos hready' hsettings (by omega)
          fun needed deck'' hlow => hsupply needed deck'' (.second hstatus hneeded hfew hrefilled hlow)
      . exact fun _ _ hfalse => hfalse.2
    . have henough := Nat.not_lt.mp hmany
      exact deliver_restores h rfl hpos hdevice rfl henough
        fun needed deck' hlow => hsupply needed deck' (.only hstatus hneeded henough hlow)
  . exact fun _ _ hfalse => hfalse.2.1

end HandOver

/--
If something is missing, the player accepts what it is given and every refill finds enough to draw, a fill adds
just what is missing, and at least five albums or 25 tracks are left waiting.
-/
theorem keepFilled_restores (deck : Deck s) {missing : Nat}
    (h : booth.Willing deck.jukebox.settings ready) (hready : ready deck.device)
    (hmode : deck.jukebox.settings.mode ≠ .off)
    (hmissing : booth.player.status.Ends deck.device
      (fun status _ => deck.jukebox.settings.needed? status = .ok (some missing)) (fun _ _ => False))
    (hsupply : ∀ needed deck', booth.Refills deck needed deck'
      → booth.Supplies deck.jukebox.plan (needed + bufferSize deck.jukebox.addsAlbums) deck')
    : booth.keepFilled.Ends deck
        (fun added deck' => added = missing
          ∧ (if deck.jukebox.addsAlbums then 5 else 25) ≤ deck'.jukebox.waiting.length)
        (fun _ _ => False) := by
  rw [keepFilled_ends]
  refine ⟨fun hoff => absurd hoff hmode, fun _ => ?_⟩
  apply (fillOnce_restores h hready hmissing hsupply).mono
  . exact fun _ _ => id
  . exact fun _ _ => False.elim

end Booth

namespace Jukebox

open AutoDJ.Rehearsal (ScriptedPlayer)

theorem rehearsalBooth_willing {settings : JukeboxSettings} (hsource : settings.source = .database)
    : rehearsalBooth.Willing settings fun p : ScriptedPlayer => p.failures = [] ∧ p.reject = [] := by
  have henter (call : Rehearsal.Call)
      : (ScriptedPlayer.enter call).SucceedsIn fun p => p.failures = [] ∧ p.reject = [] := by
    rintro p ⟨hfailures, hreject⟩
    simp [ScriptedPlayer.enter, hfailures, hreject]
  constructor
  . exact (henter .status).bind fun _ => fun _ h => h
  . exact (henter .queuedUris).bind fun _ => fun _ h => h
  . exact fun _ h => h
  . intro offset limit
    rw [hsource]
    exact (henter (.libraryPage offset limit)).bind fun _ => fun _ h => h
  . rintro (⟨uri, tagValue⟩ | key)
    . apply (henter (.addTrack uri)).bind
      rintro _ p ⟨hfailures, hreject⟩
      simp [ScriptedPlayer.append, hfailures, hreject]
    . apply (henter (.addAlbum key.album key.albumArtist)).bind
      rintro _ p ⟨hfailures, hreject⟩
      simp [ScriptedPlayer.append, hfailures, hreject]
  . exact henter .play

def LibrarySuffices (plan : FillPlan) (target : Nat) (deck : Deck ScriptedPlayer) : Prop :=
  deck.jukebox.settings.source = .database
    ∧ (rehearsalBooth.recentlyPlayed deck.jukebox.settings).Ends deck.device
      (fun recent p => (p.pageCap = none ∧ p.failures = []) ∧ p.library.length < listingLimit
        ∧ target - (deck.jukebox.lane plan.lane).length
          ≤ (rehearsalBooth.exclusions plan deck.jukebox recent).supply p.library)
      (fun _ _ => False)

instance {plan : FillPlan} {target : Nat} {deck : Deck ScriptedPlayer}
    : Decidable (LibrarySuffices plan target deck) :=
  inferInstanceAs (Decidable (_ ∧ _))

theorem LibrarySuffices.supplies {plan : FillPlan} {target : Nat} {deck : Deck ScriptedPlayer}
    (h : LibrarySuffices plan target deck) (halbums : plan.albums = false)
    : rehearsalBooth.Supplies plan target deck := by
  obtain ⟨hsource, hends⟩ := h
  unfold Booth.Supplies
  rw [halbums, hsource]
  apply hends.mono
  . rintro recent p ⟨hready, hlength, hk⟩
    obtain ⟨after, hpages⟩ : ∃ after, Shows (rehearsalBooth.player.sourcePage .database) (max 1000 1) 0 p
        p.library after :=
      (ScriptedPlayer.serves_library p.library).shows (by decide) ⟨rfl, hready⟩
    exact ⟨p.library, after, hpages, hlength, hk⟩
  . exact fun _ _ _ => trivial

-- irreducible, so that to speak of the end of a fill does not mean to run it
@[irreducible]
def prudent : Deck ScriptedPlayer :=
  { device := { library := (List.range 50).map fun n => { uri := toString n } }
    jukebox :=
      { Jukebox.create "default" { mode := .addTracks } { word := fun _ => 0 } with
        waiting :=
          [{ pick := .track "a.flac" none, drawnAt := 1 }, { pick := .track "b.flac" none, drawnAt := 2 }] } }

theorem prudent_missing
    : rehearsalBooth.player.status.Ends prudent.device
        (fun status _ => prudent.jukebox.settings.needed? status = .ok (some 2)) (fun _ _ => False) := by
  decide +kernel

theorem prudent_supplied {needed : Nat} {deck : Deck ScriptedPlayer}
    (h : rehearsalBooth.Refills prudent needed deck)
    : rehearsalBooth.Supplies prudent.jukebox.plan (needed + bufferSize prudent.jukebox.addsAlbums) deck := by
  have hwaiting : prudent.jukebox.waiting
      = [{ pick := .track "a.flac" none, drawnAt := 1 }, { pick := .track "b.flac" none, drawnAt := 2 }] := by
    decide +kernel
  have halbums : prudent.jukebox.addsAlbums = false := by
    decide +kernel
  cases h with
  | first hstatus hneeded hfew =>
    cases hneeded.symm.trans (prudent_missing.of_ok hstatus)
    simp [hwaiting] at hfew
  | second hstatus hneeded hfew =>
    cases hneeded.symm.trans (prudent_missing.of_ok hstatus)
    simp [hwaiting] at hfew
  | only hstatus hneeded henough hlow =>
    cases hneeded.symm.trans (prudent_missing.of_ok hstatus)
    obtain rfl := Play.after_eq_of_ok hstatus
    rw [hwaiting] at hlow
    cases hlow with
    | later hmissing hhand hhigh => simp [Jukebox.plan, halbums, lowWater] at hhigh
    | now hmissing hhand hlow =>
      have hsuffices : (rehearsalBooth.hand { pick := .track "a.flac" none, drawnAt := 1 } {}).Ends
          { prudent with
            device := rehearsalBooth.player.status.after prudent.device
            jukebox :=
              prudent.jukebox.setLane [{ pick := .track "b.flac" none, drawnAt := 2 }] .waiting }
          (fun tally deck => LibrarySuffices prudent.jukebox.plan
            (2 - tally.added + bufferSize prudent.jukebox.addsAlbums) deck)
          (fun _ _ => False) := by
        decide +kernel
      exact (hsuffices.of_ok hhand).supplies halbums

theorem prudent_restored
    : rehearsalBooth.keepFilled.Ends prudent
        (fun added deck' => added = 2 ∧ 25 ≤ deck'.jukebox.waiting.length) (fun _ _ => False) := by
  have hsource : prudent.jukebox.settings.source = .database := by
    decide +kernel
  have hready : prudent.device.failures = [] ∧ prudent.device.reject = [] := by
    unfold prudent
    exact ⟨rfl, rfl⟩
  have hlow : (if prudent.jukebox.addsAlbums then 5 else 25) = 25 := by
    decide +kernel
  rw [← hlow]
  exact Booth.keepFilled_restores prudent (rehearsalBooth_willing hsource) hready (by decide +kernel)
    prudent_missing fun _ _ => prudent_supplied

end Jukebox

end AutoDJ
