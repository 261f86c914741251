import AutoDJ.Proofs.Jukebox.Distinct
import AutoDJ.Proofs.Jukebox.Harvest

namespace AutoDJ

/--
The surroundings of a fill: the settings of the jukebox, the songs of its source, those that the history
says have been played lately, and the playback queue in each state. In the states that are `ready` the
player refuses nothing.
-/
structure Venue (s : Type) where
  booth : Booth s
  settings : JukeboxSettings
  songs : List Song
  played : List String
  playback : s → List String
  ready : s → Prop

namespace Venue

variable {s : Type} {venue : Venue s}

/--
Every call succeeds, the source and the history stay the same, and what is added is appended to the
playback queue.
-/
structure Obliging (venue : Venue s) : Prop where
  queuedUris : ∀ state, venue.ready state
    → venue.booth.player.queuedUris.Ends state
        (fun uris after => uris = venue.playback state
          ∧ venue.ready after ∧ venue.playback after = venue.playback state)
        (fun _ _ => False)
  playedSince : ∀ state, venue.ready state
    → (venue.booth.playedSince (venue.booth.since venue.settings)).Ends state
        (fun uris after => uris = venue.played
          ∧ venue.ready after ∧ venue.playback after = venue.playback state)
        (fun _ _ => False)
  sourcePage : ∀ offset limit state, venue.ready state
    → (venue.booth.player.sourcePage venue.settings.source offset limit).Ends state
        (fun page after => page = (venue.songs.drop offset).take limit
          ∧ venue.ready after ∧ venue.playback after = venue.playback state)
        (fun _ _ => False)
  addTrack : ∀ uri state, venue.ready state
    → (venue.booth.player.addTrack uri).Ends state
        (fun _ after => venue.ready after ∧ venue.playback after = venue.playback state ++ [uri])
        (fun _ _ => False)
  play : ∀ state, venue.ready state
    → venue.booth.player.play.Ends state (fun _ _ => True) (fun _ _ => False)
  songs : venue.songs.length < listingLimit

def hates (venue : Venue s) (uri : String) : Bool :=
  venue.settings.ignoreHated
    && (venue.booth.caches.stickers.bind (·.get? uri)).any (·.like == .hate)

def playedLately (venue : Venue s) (uri : String) : Bool :=
  venue.settings.lastPlayedHours != 0 &&
    (venue.played.contains uri ||
      (venue.booth.caches.stickers.bind (·.get? uri)).any fun sticker =>
        0 < sticker.lastPlayed && venue.booth.since venue.settings ≤ sticker.lastPlayed)

def addable (venue : Venue s) (waiting : List Candidate) (queued : List String) : Finset String :=
  (venue.songs.map (·.uri)).toFinset.filter fun uri =>
    venue.hates uri = false ∧ some uri ∉ waiting.map Candidate.uri? ∧ uri ∉ queued
      ∧ venue.playedLately uri = false

theorem addable_handed {c : Candidate} {uri : String} (hc : c.uri? = some uri) (rest : List Candidate)
    (queued : List String)
    : venue.addable rest (queued ++ [uri]) = venue.addable (c :: rest) queued := by
  unfold addable
  apply Finset.filter_congr
  intro other _
  simp only [List.map_cons, List.mem_cons, List.mem_append, hc, Option.some.injEq, not_or]
  tauto

theorem addable_drawn {waiting drawn : List Candidate} {queued : List String} {k : Nat}
    (h : Harvest (venue.addable waiting queued) k drawn)
    (hk : (venue.addable waiting queued).card ≤ k) : venue.addable (waiting ++ drawn) queued = ∅ := by
  apply Finset.eq_empty_of_forall_notMem
  intro uri huri
  obtain ⟨hsong, hhates, hnew, hrest⟩ := Finset.mem_filter.mp huri
  rw [List.map_append, List.mem_append, not_or] at hnew
  exact hnew.2 (h.covers hk (Finset.mem_filter.mpr ⟨hsong, hhates, hnew.1, hrest⟩))

theorem recentlyPlayed_ends (h : venue.Obliging) (state : s) (hstate : venue.ready state)
    : (venue.booth.recentlyPlayed venue.settings).Ends state
        (fun recent after =>
          (∀ uri, recent.contains uri = true
            ↔ uri ∈ venue.playback state ∨ venue.playedLately uri = true)
          ∧ venue.ready after ∧ venue.playback after = venue.playback state)
        (fun _ _ => False) := by
  unfold Booth.recentlyPlayed
  rw [Play.ends_bind]
  apply (h.queuedUris state hstate).mono
  . rintro queued after ⟨rfl, hafter, hplayback⟩
    rw [Play.ends_ite]
    refine ⟨fun hoff => ?_, fun hon => ?_⟩
    . refine ⟨?_, hafter, hplayback⟩
      intro uri
      simp [RecentlyPlayed.contains, playedLately, hoff]
    . rw [Play.ends_bind]
      apply (h.playedSince after hafter).mono
      . rintro played after' ⟨rfl, hafter', hplayback'⟩
        refine ⟨?_, hafter', hplayback'.trans hplayback⟩
        intro uri
        have hset : (Std.ExtTreeSet.ofList (venue.playback state ++ venue.played) compare).contains uri
            ↔ uri ∈ venue.playback state ∨ uri ∈ venue.played := by
          simp
        simp only [RecentlyPlayed.contains, playedLately, bne_iff_ne, Bool.and_eq_true,
          Bool.or_eq_true, hset, List.contains_iff_mem, ne_eq, hon, not_false_eq_true, true_and,
          or_assoc]
        cases venue.booth.caches.stickers.bind (·.get? uri) <;> rfl
      . exact fun _ _ => id
  . exact fun _ _ => id

section Refill

variable {plan : FillPlan} {deck : Deck s}

theorem pending_exclusions (hlane : plan.lane = .waiting) (jukebox : Jukebox) (recent : RecentlyPlayed)
    : (venue.booth.exclusions plan jukebox recent).pending = jukebox.waiting := by
  rw [Booth.exclusions, hlane]
  rfl

theorem eligible_exclusions {jukebox : Jukebox} {recent : RecentlyPlayed} {queued : List String}
    (hlane : plan.lane = .waiting) (henforce : plan.enforce = true)
    (hsettings : jukebox.settings = venue.settings)
    (hrecent : ∀ uri, recent.contains uri = true ↔ uri ∈ queued ∨ venue.playedLately uri = true)
    : (venue.booth.exclusions plan jukebox recent).eligible venue.songs
        = venue.addable jukebox.waiting queued := by
  unfold Exclusions.eligible addable
  apply Finset.filter_congr
  intro uri _
  have hrejects : (venue.booth.exclusions plan jukebox recent).rejectsTrack uri none []
      = (venue.hates uri || (Candidate.hasUri jukebox.waiting uri || recent.contains uri)) := by
    have hhated : (venue.booth.exclusions plan jukebox recent).isHated uri = venue.hates uri := by
      unfold Exclusions.isHated hates Booth.exclusions
      rw [hsettings]
      dsimp only
      cases venue.booth.caches.stickers.bind (·.get? uri) <;> rfl
    have henforced : (venue.booth.exclusions plan jukebox recent).enforce = true := henforce
    unfold Exclusions.rejectsTrack
    rw [hhated, pending_exclusions hlane, henforced]
    simp [Booth.exclusions, Candidate.hasUri]
  rw [hrejects, Bool.or_eq_false_iff, Bool.or_eq_false_iff]
  simp only [← Bool.not_eq_true, Candidate.hasUri_iff, hrecent, not_or]

theorem draw_harvests (h : venue.Obliging) {rules : Exclusions} (henforce : rules.enforce = true)
    (hunique : rules.uniqueTag = none) (k : Nat) (deck : Deck s) (hsettings : deck.jukebox.settings = venue.settings)
    (hready : venue.ready deck.device)
    : (venue.booth.draw false rules k).Ends deck
        (fun drawn deck' => Harvest (rules.eligible venue.songs) k drawn
          ∧ ∃ device random, venue.ready device ∧ venue.playback device = venue.playback deck.device
            ∧ deck' = { deck with device, jukebox := { deck.jukebox with random } })
        (fun _ _ => False) := by
  have hpages (offset limit : Nat) (state : s)
      (hstate : venue.ready state ∧ venue.playback state = venue.playback deck.device)
      : (venue.booth.player.sourcePage venue.settings.source offset limit).Ends state
          (fun page after => page = (venue.songs.drop offset).take limit
            ∧ venue.ready after ∧ venue.playback after = venue.playback deck.device)
          (fun _ _ => False) := by
    apply (h.sourcePage offset limit state hstate.1).mono
    . rintro page after ⟨hpage, hafter, hsame⟩
      exact ⟨hpage, hafter, hsame.trans hstate.2⟩
    . exact fun _ _ => id
  rw [Booth.ends_draw_tracks, hsettings]
  apply (sampleTracks_harvests henforce hunique hpages h.songs venue.booth.pageSize k
    deck.jukebox.random ⟨hready, rfl⟩).mono
  . rintro drawn after ⟨hdrawn, hafter, hplayback⟩
    exact ⟨hdrawn, _, _, hafter, hplayback, rfl⟩
  . exact fun _ _ => id

def warning (partition : String) : Event :=
  { kind := .jukeboxWarning, partition, message := some relaxWarning }

structure Refilled (venue : Venue s) (needed target : Nat) (deck deck' : Deck s) : Prop where
  ready : venue.ready deck'.device
  playback : venue.playback deck'.device = venue.playback deck.device
  settings : deck'.jukebox.settings = deck.jukebox.settings
  partition : deck'.jukebox.partition = deck.jukebox.partition
  waiting : ∃ drawn,
    Harvest (venue.addable deck.jukebox.waiting (venue.playback deck.device))
        (target - deck.jukebox.waiting.length) drawn
      ∧ deck'.jukebox.waiting = deck.jukebox.waiting ++ drawn
  quiet : deck.jukebox.enforcing = false ∨ needed ≤ deck'.jukebox.waiting.length
    → deck'.jukebox.enforcing = deck.jukebox.enforcing ∧ deck'.events = deck.events
  relaxed : deck.jukebox.enforcing = true → deck'.jukebox.waiting.length < needed
    → deck'.jukebox.waiting ≠ []
    → deck'.jukebox.enforcing = false
      ∧ deck'.events = deck.events ++ [warning deck.jukebox.partition]

theorem replenish_refills (h : venue.Obliging) (htag : venue.settings.uniqueTag = none)
    (hlane : plan.lane = .waiting) (halbums : plan.albums = false) (henforce : plan.enforce = true)
    (needed target : Nat) (deck : Deck s) (hsettings : deck.jukebox.settings = venue.settings)
    (hready : venue.ready deck.device)
    : (venue.booth.replenish plan needed target).Ends deck
        (fun _ deck' => venue.Refilled needed target deck deck' ∧ deck'.jukebox.waiting ≠ [])
        (fun _ deck' => venue.Refilled needed target deck deck' ∧ deck'.jukebox.waiting = []) := by
  rw [Booth.ends_replenish, hsettings, hlane]
  apply (recentlyPlayed_ends h deck.device hready).mono
  . rintro recent device ⟨hrecent, hdevice, hplayback⟩
    have hunique : (venue.booth.exclusions plan deck.jukebox recent).uniqueTag = none := by
      rw [Booth.exclusions, hsettings]
      exact htag
    have hdraw := draw_harvests h henforce hunique (target - deck.jukebox.waiting.length)
      { deck with device } hsettings hdevice
    rw [eligible_exclusions hlane henforce hsettings hrecent] at hdraw
    rw [halbums]
    apply hdraw.mono
    . rintro drawn _ ⟨hdrawn, device', random, hdevice', hplayback', rfl⟩
      have hrefilled (enforcing : Bool) (events : List Event)
          (hquiet : deck.jukebox.enforcing = false
              ∨ needed ≤ (deck.jukebox.waiting ++ drawn).length
            → enforcing = deck.jukebox.enforcing ∧ events = deck.events)
          (hrelaxed : deck.jukebox.enforcing = true
            → (deck.jukebox.waiting ++ drawn).length < needed → deck.jukebox.waiting ++ drawn ≠ []
            → enforcing = false ∧ events = deck.events ++ [warning deck.jukebox.partition])
          : venue.Refilled needed target deck
              { deck with
                device := device'
                jukebox :=
                  { deck.jukebox with random, waiting := deck.jukebox.waiting ++ drawn, enforcing }
                events } :=
        ⟨hdevice', hplayback'.trans hplayback, rfl, rfl, ⟨drawn, hdrawn, rfl⟩, hquiet, hrelaxed⟩
      refine ⟨fun hempty => ⟨?_, hempty⟩, fun hsome => ⟨?_, fun hmany => ⟨?_, hsome⟩⟩⟩
      . exact hrefilled _ _ (fun _ => ⟨rfl, rfl⟩) fun _ _ hne => absurd hempty hne
      . rintro ⟨hfew, -⟩
        rw [Booth.ends_relax_waiting]
        refine ⟨fun (henforcing : deck.jukebox.enforcing = true) => ⟨?_, hsome⟩,
          fun hslack => ⟨?_, hsome⟩⟩
        . apply hrefilled _ _ _ fun _ _ _ => ⟨rfl, rfl⟩
          rintro (hslack | hmany)
          . simp [henforcing] at hslack
          . exact absurd hfew (Nat.not_lt.mpr hmany)
        . exact hrefilled _ _ (fun _ => ⟨rfl, rfl⟩) fun henforcing => absurd henforcing hslack
      . exact hrefilled _ _ (fun _ => ⟨rfl, rfl⟩) fun _ hfew _ => absurd ⟨hfew, henforce⟩ hmany
    . exact fun _ _ => False.elim
  . exact fun _ _ => False.elim

end Refill

section Supply

structure Supplied (venue : Venue s) (missing total : Nat) (start : Deck s) (cs : List Candidate)
    (tally : Booth.Tally) (deck : Deck s) : Prop where
  ready : venue.ready deck.device
  settings : deck.jukebox.settings = venue.settings
  partition : deck.jukebox.partition = start.jukebox.partition
  waiting : deck.jukebox.waiting = cs
  tracks : ∀ c ∈ cs, ∃ uri, c.uri? = some uri
  added : tally.added ≤ missing
  enforcing : deck.jukebox.enforcing = decide (missing ≤ total)
  events : deck.events
    = start.events ++ if missing ≤ total then [] else [warning start.jukebox.partition]
  -- what is left is enough if all was enough; otherwise everything that could be drawn is waiting
  ample : missing ≤ total → missing ≤ tally.added + cs.length
  scarce : total < missing → tally.added + cs.length = total
    ∧ venue.addable cs (venue.playback deck.device) = ∅

variable {plan : FillPlan} {missing total : Nat} {start : Deck s}

theorem hand_supplied (h : venue.Obliging) {c : Candidate} {rest : List Candidate} {tally : Booth.Tally}
    {deck : Deck s} (hmissing : tally.added < missing)
    (hdeck : venue.Supplied missing total start (c :: rest) tally deck)
    : (venue.booth.hand c tally).Ends { deck with jukebox := deck.jukebox.setLane rest .waiting }
        (venue.Supplied missing total start rest) (fun _ _ => False) := by
  obtain ⟨uri, huri⟩ := hdeck.tracks c List.mem_cons_self
  rw [Booth.hand_ends]
  cases hpick : c.pick with
  | album key => simp [Candidate.uri?, hpick] at huri
  | track other tagValue =>
    obtain rfl : other = uri := by simpa [Candidate.uri?, hpick] using huri
    apply (h.addTrack other deck.device hdeck.ready).mono
    . rintro _ device ⟨hready, hplayback⟩
      have hlength : (c :: rest).length = rest.length + 1 := List.length_cons
      constructor
      . exact hready
      . exact hdeck.settings
      . exact hdeck.partition
      . rfl
      . exact (List.forall_mem_cons.mp hdeck.tracks).2
      . exact hmissing
      . exact hdeck.enforcing
      . exact hdeck.events
      . intro henough
        have := hdeck.ample henough
        dsimp only
        omega
      . intro hfew
        obtain ⟨htotal, hnone⟩ := hdeck.scarce hfew
        rw [hplayback, addable_handed huri]
        exact ⟨by dsimp only; omega, hnone⟩
    . exact fun _ _ => False.elim

theorem Refilled.tracks {deck deck' : Deck s} {needed target : Nat}
    (h : venue.Refilled needed target deck deck')
    (htracks : ∀ c ∈ deck.jukebox.waiting, ∃ uri, c.uri? = some uri)
    : ∀ c ∈ deck'.jukebox.waiting, ∃ uri, c.uri? = some uri := by
  obtain ⟨drawn, hdrawn, hwaiting⟩ := h.waiting
  intro c hc
  rw [hwaiting] at hc
  obtain hc | hc := List.mem_append.mp hc
  . exact htracks c hc
  . obtain ⟨uri, -, huri⟩ := hdrawn.tracks c hc
    exact ⟨uri, huri⟩

theorem Supplied.refilled {rest : List Candidate} {tally : Booth.Tally} {deck deck' : Deck s} {target : Nat}
    (h : venue.Supplied missing total start rest tally deck)
    (hrefilled : venue.Refilled (missing - tally.added) target deck deck')
    : venue.Supplied missing total start deck'.jukebox.waiting tally deck' := by
  obtain ⟨drawn, hdrawn, hwaiting⟩ := hrefilled.waiting
  rw [h.waiting] at hdrawn hwaiting
  have hlength : deck'.jukebox.waiting.length = rest.length + drawn.length := by
    rw [hwaiting, List.length_append]
  have hnothing (hfew : total < missing) : deck'.jukebox.waiting = rest := by
    have hnone := hdrawn.length
    rw [(h.scarce hfew).2, Finset.card_empty, Nat.min_zero] at hnone
    rw [hwaiting, List.length_eq_zero_iff.mp hnone, List.append_nil]
  have hquiet : deck.jukebox.enforcing = false
      ∨ missing - tally.added ≤ deck'.jukebox.waiting.length := by
    rw [h.enforcing, decide_eq_false_iff_not]
    by_cases henough : missing ≤ total
    . have := h.ample henough
      exact .inr (by omega)
    . exact .inl henough
  obtain ⟨henforcing, hevents⟩ := hrefilled.quiet hquiet
  constructor
  . exact hrefilled.ready
  . rw [hrefilled.settings, h.settings]
  . rw [hrefilled.partition, h.partition]
  . rfl
  . apply hrefilled.tracks
    rw [h.waiting]
    exact h.tracks
  . exact h.added
  . rw [henforcing, h.enforcing]
  . rw [hevents, h.events]
  . intro henough
    have := h.ample henough
    omega
  . intro hfew
    rw [hnothing hfew, hrefilled.playback]
    exact h.scarce hfew

theorem replenish_supplied (h : venue.Obliging) (htag : venue.settings.uniqueTag = none)
    (hlane : plan.lane = .waiting) (halbums : plan.albums = false) (henforce : plan.enforce = true)
    {rest : List Candidate} {tally : Booth.Tally} {deck : Deck s} (target : Nat)
    (hdeck : venue.Supplied missing total start rest tally deck)
    : (venue.booth.replenish plan (missing - tally.added) target).Ends deck
        (fun _ deck' => venue.Supplied missing total start deck'.jukebox.waiting tally deck')
        (fun _ deck' => venue.Supplied missing total start deck'.jukebox.waiting tally deck') := by
  apply (replenish_refills h htag hlane halbums henforce _ target deck hdeck.settings hdeck.ready).mono
  . rintro _ deck' ⟨hrefilled, -⟩
    exact hdeck.refilled hrefilled
  . rintro _ deck' ⟨hrefilled, -⟩
    exact hdeck.refilled hrefilled

structure Delivered (missing total : Nat) (start : Deck s) (added : Nat) (deck : Deck s) : Prop where
  added : added = min missing total
  enforcing : deck.jukebox.enforcing = decide (missing ≤ total)
  events : deck.events
    = start.events ++ (if missing ≤ total then [] else [warning start.jukebox.partition])
      ++ [{ kind := .updateJukebox, partition := start.jukebox.partition, message := none }]

theorem deliver_supplied (h : venue.Obliging) (htag : venue.settings.uniqueTag = none)
    (hlane : plan.lane = .waiting) (halbums : plan.albums = false) (henforce : plan.enforce = true)
    (hmissing : 0 < missing) (htotal : 0 < total) {deck : Deck s}
    (hdeck : venue.Supplied missing total start deck.jukebox.waiting {} deck)
    : (venue.booth.deliver plan missing).Ends deck (Delivered missing total start) (fun _ _ => False) := by
  rw [Booth.deliver_ends, hlane]
  apply (Booth.handOverWaiting_ends (J := venue.Supplied missing total start) venue.booth plan missing
    (fun _ _ _ _ => hand_supplied h) (fun _ _ _ target => replenish_supplied h htag hlane halbums henforce target)
    _ {} deck hdeck).mono
  . rintro tally deck' ⟨left, hdeck', hleft⟩
    have hadded : tally.added = min missing total := by
      have hbound := hdeck'.added
      by_cases henough : missing ≤ total
      . have hample := hdeck'.ample henough
        obtain rfl | hleft := hleft
        . rw [List.length_nil] at hample
          omega
        . omega
      . have hscarce := (hdeck'.scarce (by omega)).1
        obtain rfl | hleft := hleft
        . rw [List.length_nil] at hscarce
          omega
        . omega
    unfold Booth.Settles
    rw [if_neg (by omega)]
    apply (h.play deck'.device hdeck'.ready).mono
    . intro _ device _
      refine ⟨hadded, hdeck'.enforcing, ?_⟩
      rw [← hdeck'.events, ← hdeck'.partition]
    . exact fun _ _ => id
  . exact fun _ _ => False.elim

def supply (venue : Venue s) (deck : Deck s) : Nat :=
  deck.jukebox.waiting.length
    + (venue.addable deck.jukebox.waiting (venue.playback deck.device)).card

theorem supply_congr {deck : Deck s} {device : s}
    (h : venue.playback device = venue.playback deck.device)
    : venue.supply { deck with device } = venue.supply deck := by
  unfold supply
  rw [h]

theorem Refilled.supplied {deck deck' : Deck s} {buffer : Nat}
    (h : venue.Refilled missing (missing + buffer) deck deck')
    (hsettings : deck.jukebox.settings = venue.settings) (henforcing : deck.jukebox.enforcing = true)
    (htracks : ∀ c ∈ deck.jukebox.waiting, ∃ uri, c.uri? = some uri)
    (hfew : deck.jukebox.waiting.length < missing) (hsome : deck'.jukebox.waiting ≠ [])
    : venue.Supplied missing (venue.supply deck) deck deck'.jukebox.waiting {} deck' := by
  obtain ⟨drawn, hdrawn, hwaiting⟩ := h.waiting
  have hlength := hdrawn.length
  have hcount : deck'.jukebox.waiting.length = deck.jukebox.waiting.length + drawn.length := by
    rw [hwaiting, List.length_append]
  have houtcome : deck'.jukebox.enforcing = decide (missing ≤ venue.supply deck)
      ∧ deck'.events = deck.events
        ++ if missing ≤ venue.supply deck then [] else [warning deck.jukebox.partition] := by
    unfold supply
    split
    . next henough =>
      obtain ⟨hkept, hevents⟩ := h.quiet (.inr (by omega))
      rw [hkept, hevents, henforcing, decide_eq_true henough, List.append_nil]
      exact ⟨rfl, rfl⟩
    . next hlack =>
      rw [decide_eq_false hlack]
      exact h.relaxed henforcing (by omega) hsome
  constructor
  . exact h.ready
  . rw [h.settings, hsettings]
  . exact h.partition
  . rfl
  . exact h.tracks htracks
  . exact Nat.zero_le _
  . exact houtcome.1
  . exact houtcome.2
  . unfold supply
    dsimp only
    omega
  . unfold supply
    intro hlack
    refine ⟨by dsimp only; omega, ?_⟩
    rw [hwaiting, h.playback]
    exact addable_drawn hdrawn (by omega)

theorem Refilled.waiting_ne_nil {deck deck' : Deck s} {buffer : Nat}
    (h : venue.Refilled missing (missing + buffer) deck deck') (hmissing : 0 < missing)
    (hsupply : 0 < venue.supply deck) : deck'.jukebox.waiting ≠ [] := by
  intro hnil
  obtain ⟨drawn, hdrawn, hwaiting⟩ := h.waiting
  obtain ⟨hwaited, rfl⟩ := List.append_eq_nil_iff.mp (hwaiting.symm.trans hnil)
  have hlength := hdrawn.length
  unfold supply at hsupply
  rw [hwaited, List.length_nil] at hlength hsupply
  omega

theorem supplied_of_le {deck : Deck s} {device : s} (hready : venue.ready device)
    (hsettings : deck.jukebox.settings = venue.settings) (henforcing : deck.jukebox.enforcing = true)
    (htracks : ∀ c ∈ deck.jukebox.waiting, ∃ uri, c.uri? = some uri)
    (hmany : missing ≤ deck.jukebox.waiting.length)
    : venue.Supplied missing (venue.supply deck) { deck with device } deck.jukebox.waiting {}
        { deck with device } := by
  have henough : missing ≤ venue.supply deck := by
    unfold supply
    omega
  refine ⟨hready, hsettings, rfl, rfl, htracks, Nat.zero_le _, ?_, ?_, ?_, ?_⟩
  . rw [decide_eq_true henough]
    exact henforcing
  . rw [if_pos henough, List.append_nil]
  . intro _
    dsimp only
    omega
  . omega

theorem fillOnce_delivers (h : venue.Obliging) (htag : venue.settings.uniqueTag = none)
    (hmode : venue.settings.mode = .addTracks) {deck : Deck s}
    (hsettings : deck.jukebox.settings = venue.settings) (henforcing : deck.jukebox.enforcing = true)
    (htracks : ∀ c ∈ deck.jukebox.waiting, ∃ uri, c.uri? = some uri)
    (hstatus : venue.booth.player.status.Ends deck.device
      (fun status device => venue.settings.needed? status = .ok (some missing)
        ∧ venue.ready device ∧ venue.playback device = venue.playback deck.device)
      (fun _ _ => False))
    (hsupply : 0 < venue.supply deck)
    : venue.booth.fillOnce.Ends deck (Delivered missing (venue.supply deck) deck)
        (fun _ _ => False) := by
  rw [Booth.fillOnce_ends, hsettings]
  apply hstatus.mono
  . rintro status device ⟨hneeded, hready, hplayback⟩
    have hmissing := JukeboxSettings.needed_pos hneeded
    have halbums : deck.jukebox.plan.albums = false := by
      rw [Jukebox.plan, Jukebox.addsAlbums, hsettings, hmode]
      rfl
    have hdelivered (deck' : Deck s)
        (hdeck' : venue.Supplied missing (venue.supply deck) { deck with device }
          deck'.jukebox.waiting {} deck')
        : (venue.booth.deliver deck.jukebox.plan missing).Ends deck'
            (Delivered missing (venue.supply deck) deck) (fun _ _ => False) := by
      apply (deliver_supplied h htag rfl halbums henforcing hmissing hsupply hdeck').mono
      . exact fun _ _ hend => ⟨hend.added, hend.enforcing, hend.events⟩
      . exact fun _ _ => id
    refine ⟨fun hexceeds => ?_, fun hnone => ?_, fun needed hsome => ?_⟩
    . cases hneeded.symm.trans hexceeds
    . cases hneeded.symm.trans hnone
    cases hneeded.symm.trans hsome
    refine ⟨fun hfew => ?_, fun hmany => hdelivered { deck with device } ?_⟩
    . apply (replenish_refills h htag rfl halbums henforcing missing _ { deck with device } hsettings
        hready).mono
      . rintro _ deck' ⟨hrefilled, hsome⟩
        have hsupplied := hrefilled.supplied hsettings henforcing htracks hfew hsome
        rw [supply_congr hplayback] at hsupplied
        exact hdelivered deck' hsupplied
      . rintro _ deck' ⟨hrefilled, hnone⟩
        rw [← supply_congr hplayback] at hsupply
        exact hrefilled.waiting_ne_nil hmissing hsupply hnone
    . exact supplied_of_le hready hsettings henforcing htracks (Nat.not_lt.mp hmany)
  . exact fun _ _ => False.elim

end Supply

/--
A fill of tracks that have to be unique, `missing` of which are asked for. What it adds, and whether it
gives up uniqueness and tells so, depends only on how many tracks wait and on how many songs of the source
could be added.
-/
theorem amount_added {missing : Nat} (h : venue.Obliging) (hmode : venue.settings.mode = .addTracks)
    (htag : venue.settings.uniqueTag = none) {deck : Deck s}
    (hsettings : deck.jukebox.settings = venue.settings) (henforcing : deck.jukebox.enforcing = true)
    (htracks : ∀ c ∈ deck.jukebox.waiting, ∃ uri tagValue, c.pick = .track uri tagValue)
    (hstatus : venue.booth.player.status.Ends deck.device
      (fun status device => venue.settings.needed? status = .ok (some missing)
        ∧ venue.ready device ∧ venue.playback device = venue.playback deck.device)
      (fun _ _ => False))
    (hsupply : 1 ≤ deck.jukebox.waiting.length
      + (venue.addable deck.jukebox.waiting (venue.playback deck.device)).card)
    : let total := deck.jukebox.waiting.length
        + (venue.addable deck.jukebox.waiting (venue.playback deck.device)).card
      let update : Event :=
        { kind := .updateJukebox, partition := deck.jukebox.partition, message := none }
      venue.booth.keepFilled.Ends deck
        (fun added deck' => added = min missing total
          ∧ (total < missing → deck'.jukebox.enforcing = false
            ∧ deck'.events = deck.events ++ [warning deck.jukebox.partition, update])
          ∧ (missing ≤ total → deck'.jukebox.enforcing = true
            ∧ deck'.events = deck.events ++ [update]))
        (fun _ _ => False) := by
  intro total update
  have htracks : ∀ c ∈ deck.jukebox.waiting, ∃ uri, c.uri? = some uri := by
    intro c hc
    obtain ⟨uri, tagValue, hpick⟩ := htracks c hc
    exact ⟨uri, by rw [Candidate.uri?, hpick]⟩
  rw [Booth.keepFilled_ends, hsettings, hmode]
  refine ⟨fun hoff => by contradiction, fun _ => ?_⟩
  apply (fillOnce_delivers h htag hmode hsettings henforcing htracks hstatus hsupply).mono
  . rintro added deck' ⟨hadded, henforcing', hevents⟩
    refine ⟨hadded, fun hlack => ?_, fun (henough : missing ≤ venue.supply deck) => ?_⟩
    . have hlack : ¬missing ≤ venue.supply deck := Nat.not_le.mpr hlack
      rw [henforcing', hevents, decide_eq_false hlack, if_neg hlack, List.append_assoc]
      exact ⟨rfl, rfl⟩
    . rw [henforcing', hevents, decide_eq_true henough, if_pos henough, List.append_nil]
      exact ⟨rfl, rfl⟩
  . exact fun _ _ => False.elim

section Rehearsal

open AutoDJ.Rehearsal (ScriptedPlayer)

def picky : Venue ScriptedPlayer :=
  { booth :=
      { Jukebox.rehearsalBooth with
        caches := { stickers := some (StickerIndex.empty.set "b.flac" { like := .hate }) } }
    settings := { mode := .addTracks, queueLength := 3, ignoreHated := true }
    songs := ["a.flac", "b.flac", "a.flac", "c.flac"].map fun uri => { uri }
    played := []
    playback := ScriptedPlayer.queue
    ready := fun p =>
      p.library = ["a.flac", "b.flac", "a.flac", "c.flac"].map (fun uri => { uri })
        ∧ p.failures = [] ∧ p.reject = [] ∧ p.pageCap = none }

theorem enter_succeeds (call : Rehearsal.Call) (p : ScriptedPlayer) (h : picky.ready p)
    : (ScriptedPlayer.enter call).Ends p (fun _ after => picky.ready after ∧ after.queue = p.queue)
        (fun _ _ => False) := by
  obtain ⟨hlibrary, hfailures, hreject, hcap⟩ := h
  simp [ScriptedPlayer.enter, picky, hlibrary, hfailures, hreject, hcap]

theorem picky_obliging : picky.Obliging := by
  have henter (call : Rehearsal.Call) {α : Type} {x : Play ScriptedPlayer α} {p : ScriptedPlayer}
      {Q : α → ScriptedPlayer → Prop} (hp : picky.ready p)
      (hx : ∀ after, picky.ready after → after.queue = p.queue → x.Ends after Q fun _ _ => False)
      : (ScriptedPlayer.enter call >>= fun _ => x).Ends p Q fun _ _ => False := by
    rw [Play.ends_bind]
    apply (enter_succeeds call p hp).mono
    . rintro _ after ⟨hafter, hqueue⟩
      exact hx after hafter hqueue
    . exact fun _ _ => id
  constructor
  . intro p hp
    apply henter .queuedUris hp
    intro after hafter hqueue
    exact ⟨hqueue, hafter, hqueue⟩
  . intro p hp
    exact ⟨rfl, hp, rfl⟩
  . intro offset limit p hp
    apply henter (.libraryPage offset limit) hp
    intro after hafter hqueue
    refine ⟨?_, hafter, hqueue⟩
    obtain ⟨hlibrary, -, -, hcap⟩ := hafter
    rw [ScriptedPlayer.cut, hlibrary, hcap]
    simp [picky]
  . intro uri p hp
    apply henter (.addTrack uri) hp
    intro after hafter hqueue
    rw [Play.ends_bind, Play.ends_get, hafter.2.2.1]
    exact ⟨hafter, by simp [picky, hqueue]⟩
  . intro p hp
    exact (enter_succeeds .play p hp).mono (fun _ _ _ => trivial) (fun _ _ => id)
  . decide +kernel

-- irreducible, so that to speak of the end of a fill does not mean to run it
@[irreducible]
def picky.deck : Deck ScriptedPlayer :=
  { device := { library := picky.songs, queue := ["c.flac"] }
    jukebox :=
      { Jukebox.create "default" picky.settings { word := fun _ => 0 } with
        waiting := [{ pick := .track "d.flac" none, drawnAt := 1 }] } }

theorem picky_amount_added
    : picky.Obliging
      ∧ picky.booth.keepFilled.Ends picky.deck
          (fun added deck' => added = 2 ∧ deck'.jukebox.enforcing = false
            ∧ deck'.events.map (·.kind) = [.jukeboxWarning, .updateJukebox])
          (fun _ _ => False) := by
  have htotal : picky.deck.jukebox.waiting.length
      + (picky.addable picky.deck.jukebox.waiting (picky.playback picky.deck.device)).card = 2 := by
    decide +kernel
  have hstatus : picky.booth.player.status.Ends picky.deck.device
      (fun status device => picky.settings.needed? status = .ok (some 3)
        ∧ picky.ready device ∧ picky.playback device = picky.playback picky.deck.device)
      (fun _ _ => False) := by
    unfold picky.deck
    exact ⟨rfl, ⟨rfl, rfl, rfl, rfl⟩, rfl⟩
  have htracks : ∀ c ∈ picky.deck.jukebox.waiting, ∃ uri tagValue, c.pick = .track uri tagValue := by
    unfold picky.deck
    intro c hc
    obtain rfl := List.mem_singleton.mp hc
    exact ⟨"d.flac", none, rfl⟩
  have hsettings : picky.deck.jukebox.settings = picky.settings := by
    unfold picky.deck
    rfl
  have henforcing : picky.deck.jukebox.enforcing = true := by
    decide +kernel
  refine ⟨picky_obliging, ?_⟩
  apply (amount_added picky_obliging rfl rfl hsettings henforcing htracks hstatus (by omega)).mono
  . rintro added deck' ⟨hadded, hlack, -⟩
    rw [htotal] at hadded hlack
    obtain ⟨hslack, hevents⟩ := hlack (by omega)
    refine ⟨hadded, hslack, ?_⟩
    rw [hevents]
    unfold picky.deck
    rfl
  . exact fun _ _ => id

end Rehearsal

end Venue

end AutoDJ
