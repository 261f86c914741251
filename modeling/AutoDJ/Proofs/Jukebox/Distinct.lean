import AutoDJ.Proofs.Jukebox.Fill
import AutoDJ.Proofs.Jukebox.Receipts
import AutoDJ.Proofs.Jukebox.Replenish
import AutoDJ.Rehearsal.Player

namespace AutoDJ

variable {s : Type} {playback : s → List String}

def Play.Loses (playback : s → List String) (x : Play s α) : Prop :=
  ∀ state, x.Ends state (fun _ after => (playback after).Sublist (playback state))
    (fun _ after => (playback after).Sublist (playback state))

/--
The player of a booth has a playback queue to which a track is appended when it is accepted, and which
no other call of a fill with tracks adds anything to.
-/
structure Booth.Follows (booth : Booth s) (playback : s → List String) : Prop where
  addTrack : ∀ uri state, (booth.player.addTrack uri).Ends state
    (fun _ after => playback after = playback state ++ [uri])
    (fun _ after => playback after = playback state)
  queuedUris : ∀ state, booth.player.queuedUris.Ends state
    (fun uris after => uris = playback state ∧ (playback after).Sublist (playback state))
    (fun _ after => (playback after).Sublist (playback state))
  sourcePage : ∀ source offset limit, (booth.player.sourcePage source offset limit).Loses playback
  playedSince : ∀ since, (booth.playedSince since).Loses playback
  status : booth.player.status.Loses playback
  play : booth.player.play.Loses playback

def Receipt.Fresh (playback : s → List String) (receipt : Receipt s) : Prop :=
  ∀ uri, receipt.order = .addTrack uri → receipt.accepted = true → uri ∉ playback receipt.before

structure Deck.Distinct (playback : s → List String) (deck : Deck (s × List (Receipt s))) : Prop where
  mode : deck.jukebox.settings.mode = .addTracks
  tracks : ∀ c ∈ deck.jukebox.waiting, ∃ uri, c.uri? = some uri
  nodup : deck.jukebox.enforcing = true
    → (deck.jukebox.waiting.map Candidate.uri? ++ (playback deck.device.1).map some).Nodup
  fresh : deck.jukebox.enforcing = true → ∀ receipt ∈ deck.device.2, receipt.Fresh playback

namespace Deck.Distinct

variable {deck : Deck (s × List (Receipt s))}

theorem lose (h : deck.Distinct playback) {state : s}
    (hstate : (playback state).Sublist (playback deck.device.1)) (events : List Event)
    : Deck.Distinct playback { deck with device := (state, deck.device.2), events } := by
  refine ⟨h.mode, h.tracks, ?_, h.fresh⟩
  intro henforcing
  apply List.Nodup.sublist _ (h.nodup henforcing)
  exact (List.Sublist.refl _).append (hstate.map some)

theorem file (h : deck.Distinct playback) (receipt : Receipt s) (hplay : receipt.order = .play)
    : Deck.Distinct playback { deck with device := (deck.device.1, deck.device.2 ++ [receipt]) } := by
  have hfresh : receipt.Fresh playback := by
    intro uri horder
    rw [hplay] at horder
    contradiction
  refine ⟨h.mode, h.tracks, h.nodup, fun henforcing => ?_⟩
  exact List.forall_mem_append.mpr ⟨h.fresh henforcing, List.forall_mem_singleton.mpr hfresh⟩

end Deck.Distinct

namespace Booth

variable {booth : Booth s} {plan : FillPlan}

theorem Follows.draws (h : booth.Follows playback) (receipts : List (Receipt s)) (queue : List String)
    : booth.recorded.Draws
        (fun state => state.2 = receipts ∧ (playback state.1).Sublist queue)
        (fun uris state => (state.2 = receipts ∧ (playback state.1).Sublist queue)
          ∧ playback state.1 ⊆ uris) := by
  have hloses {α : Type} {x : Play s α} (hx : x.Loses playback) (uris : List String)
      (state : s × List (Receipt s))
      (hstate : (state.2 = receipts ∧ (playback state.1).Sublist queue) ∧ playback state.1 ⊆ uris)
      : x.onFst.Ends state
          (fun _ state => (state.2 = receipts ∧ (playback state.1).Sublist queue)
            ∧ playback state.1 ⊆ uris)
          (fun _ state => (state.2 = receipts ∧ (playback state.1).Sublist queue)
            ∧ playback state.1 ⊆ uris) := by
    obtain ⟨⟨hreceipts, hqueue⟩, huris⟩ := hstate
    rw [Play.ends_onFst]
    apply (hx state.1).imp
    intro after hafter
    exact ⟨⟨hreceipts, hafter.trans hqueue⟩, fun _ h => huris (hafter.subset h)⟩
  constructor
  . rintro state ⟨hreceipts, hqueue⟩
    apply Play.ends_onFst.mpr
    apply (h.queuedUris state.1).mono
    . rintro _ after ⟨rfl, hafter⟩
      exact ⟨⟨hreceipts, hafter.trans hqueue⟩, hafter.subset⟩
    . intro _ after hafter
      exact ⟨hreceipts, hafter.trans hqueue⟩
  . intro uris since state hstate
    exact hloses (h.playedSince since) uris state hstate
  . intro uris source offset limit state hstate
    have hpage := hloses (h.sourcePage source offset limit) uris state hstate
    cases source with
    | database => exact hpage
    | playlist name => exact hpage
  . intro _ _ hstate
    exact hstate.1

theorem nodup_move {c : Candidate} {rest : List Candidate} {uri : String} {queue : List String}
    (huri : c.uri? = some uri) (h : ((c :: rest).map Candidate.uri? ++ queue.map some).Nodup)
    : (rest.map Candidate.uri? ++ (queue ++ [uri]).map some).Nodup ∧ uri ∉ queue := by
  rw [List.map_cons, huri, List.cons_append] at h
  constructor
  . rw [List.map_append, ← List.append_assoc]
    exact (List.perm_append_singleton ..).nodup_iff.mpr h
  . intro hmem
    exact (List.nodup_cons.mp h).1 (List.mem_append_right _ (List.mem_map_of_mem hmem))

theorem hand_distinct (h : booth.Follows playback) (c : Candidate) (rest : List Candidate)
    (tally : Tally) (deck : Deck (s × List (Receipt s))) (hdeck : deck.Distinct playback)
    (hwaiting : deck.jukebox.waiting = c :: rest)
    : (booth.recorded.hand c tally).Ends
        { deck with jukebox := deck.jukebox.setLane rest .waiting }
        (fun _ deck' => deck'.Distinct playback ∧ deck'.jukebox = deck.jukebox.setLane rest .waiting)
        (fun _ _ => False) := by
  obtain ⟨hmode, htracks, hnodup, hfresh⟩ := hdeck
  rw [hwaiting] at htracks hnodup
  obtain ⟨uri, huri⟩ := htracks c (List.mem_cons_self ..)
  rw [hand_ends]
  cases hpick : c.pick with
  | album key => simp [Candidate.uri?, hpick] at huri
  | track uri' tagValue =>
    obtain rfl : uri' = uri := by simpa [Candidate.uri?, hpick] using huri
    apply ends_filed.mpr
    apply (h.addTrack uri' _).mono
    . intro _ after hafter
      refine ⟨⟨hmode, fun d hd => htracks d (List.mem_cons_of_mem c hd), ?_, ?_⟩, rfl⟩
      . intro henforcing
        rw [hafter]
        exact (nodup_move huri (hnodup henforcing)).1
      . intro henforcing
        apply List.forall_mem_append.mpr ⟨hfresh henforcing, List.forall_mem_singleton.mpr _⟩
        intro uri horder _
        cases horder
        exact (nodup_move huri (hnodup henforcing)).2
    . intro _ after hafter
      refine ⟨⟨hmode, fun d hd => htracks d (List.mem_cons_of_mem c hd), ?_, ?_⟩, rfl⟩
      . intro henforcing
        have hkept := hnodup henforcing
        rw [List.map_cons, List.cons_append] at hkept
        rw [hafter]
        exact hkept.of_cons
      . intro henforcing
        apply List.forall_mem_append.mpr ⟨hfresh henforcing, List.forall_mem_singleton.mpr _⟩
        intro uri _ haccepted
        contradiction

theorem Restocked.distinct {deck deck' : Deck (s × List (Receipt s))} (hdeck : deck.Distinct playback)
    (hplan : deck.jukebox.enforcing = true → plan.enforce = true) (hlane : plan.lane = .waiting)
    (halbums : plan.albums = false)
    (h : booth.recorded.Restocked plan
      (fun state => state.2 = deck.device.2 ∧ (playback state.1).Sublist (playback deck.device.1))
      (fun uris state => (state.2 = deck.device.2
        ∧ (playback state.1).Sublist (playback deck.device.1)) ∧ playback state.1 ⊆ uris) deck deck')
    : deck'.Distinct playback := by
  obtain ⟨hmode, htracks, hnodup, hfresh⟩ := hdeck
  obtain ⟨hreceipts, hqueue⟩ := h.device
  have hkept (henforcing : deck'.jukebox.enforcing = true)
      : (deck.jukebox.waiting.map Candidate.uri? ++ (playback deck'.device.1).map some).Nodup := by
    apply List.Nodup.sublist _ (hnodup (h.enforcing henforcing))
    exact (List.Sublist.refl _).append (hqueue.map some)
  have hfresh' (henforcing : deck'.jukebox.enforcing = true) := hfresh (h.enforcing henforcing)
  rw [← hreceipts] at hfresh'
  -- either nothing has been drawn, or what has been drawn is appended
  obtain hwaiting | ⟨uris, recent, drawn, ⟨-, huris⟩, hrecent, hadmits, hwaiting⟩ := h.waiting
  . refine ⟨by rw [h.settings, hmode], ?_, ?_, hfresh'⟩
    . rw [hwaiting]
      exact htracks
    . rw [hwaiting]
      exact hkept
  . refine ⟨by rw [h.settings, hmode], ?_, ?_, hfresh'⟩
    . intro c hc
      rw [hwaiting] at hc
      obtain hc | hc := List.mem_append.mp hc
      . exact htracks c hc
      . exact (hadmits halbums).tracks c hc
    . -- what is drawn is neither waiting nor in the playback queue
      intro henforcing
      have henforce : (booth.recorded.exclusions plan deck.jukebox recent).enforce = true :=
        hplan (h.enforcing henforcing)
      have hpending : (booth.recorded.exclusions plan deck.jukebox recent).pending
          = deck.jukebox.waiting := by
        rw [exclusions, hlane]
        rfl
      have happended := (hadmits halbums).nodup_append henforce
        (fun uri huri => hrecent uri (huris huri)) (by
          rw [hpending]
          exact hkept henforcing)
      rw [hpending] at happended
      rw [hwaiting]
      exact happended

theorem replenish_distinct (h : booth.Follows playback) {deck : Deck (s × List (Receipt s))}
    (hdeck : deck.Distinct playback) (hplan : deck.jukebox.enforcing = true → plan.enforce = true)
    (hlane : plan.lane = .waiting) (halbums : plan.albums = false) (needed target : Nat)
    : (booth.recorded.replenish plan needed target).Ends deck
        (fun _ deck' => deck'.Distinct playback
          ∧ (deck'.jukebox.enforcing = true → plan.enforce = true))
        (fun _ deck' => deck'.Distinct playback
          ∧ (deck'.jukebox.enforcing = true → plan.enforce = true)) := by
  have hstocked := replenish_ends (h.draws deck.device.2 (playback deck.device.1)) hlane needed target
    deck ⟨rfl, List.Sublist.refl _⟩
  apply hstocked.imp
  intro deck' hstocked
  exact ⟨hstocked.distinct hdeck hplan hlane halbums, fun h => hplan (hstocked.enforcing h)⟩

theorem deliver_distinct (h : booth.Follows playback) {deck : Deck (s × List (Receipt s))}
    (hdeck : deck.Distinct playback) (hplan : deck.jukebox.enforcing = true → plan.enforce = true)
    (hlane : plan.lane = .waiting) (halbums : plan.albums = false) (count : Nat)
    : (booth.recorded.deliver plan count).Ends deck (fun _ deck' => deck'.Distinct playback)
        (fun _ deck' => deck'.Distinct playback) := by
  have hhanded :=
    handOverWaiting_ends booth.recorded plan count
      (J := fun cs _ deck => (deck.Distinct playback
        ∧ (deck.jukebox.enforcing = true → plan.enforce = true)) ∧ deck.jukebox.waiting = cs)
      (by
        rintro c rest tally deck - ⟨⟨hdeck, hplan⟩, hwaiting⟩
        apply (hand_distinct h c rest tally deck hdeck hwaiting).mono
        . rintro _ deck' ⟨hdeck', hjukebox⟩
          refine ⟨⟨hdeck', ?_⟩, by rw [hjukebox]; rfl⟩
          rw [hjukebox]
          exact hplan
        . intro _ _ hfalse
          exact hfalse)
      (by
        rintro rest tally deck target ⟨⟨hdeck, hplan⟩, -⟩
        apply (replenish_distinct h hdeck hplan hlane halbums _ target).imp
        intro deck' hdeck'
        exact ⟨hdeck', rfl⟩)
      deck.jukebox.waiting {} deck ⟨⟨hdeck, hplan⟩, rfl⟩
  rw [deliver_ends, hlane]
  apply hhanded.mono
  . rintro tally deck' ⟨left, ⟨⟨hdeck', -⟩, -⟩, -⟩
    apply Settles.of_play hdeck'
    apply ends_filed.mpr
    apply (h.play deck'.device.1).mono
    . intro _ after hafter
      exact (hdeck'.file { order := .play, before := deck'.device.1, accepted := true } rfl).lose hafter
    . intro _ after hafter
      exact (hdeck'.file { order := .play, before := deck'.device.1, accepted := false } rfl).lose hafter _
  . intro _ _ hfalse
    exact hfalse.elim

theorem fillOnce_distinct (h : booth.Follows playback) (deck : Deck (s × List (Receipt s)))
    (hdeck : deck.Distinct playback)
    : booth.recorded.fillOnce.Ends deck (fun _ deck' => deck'.Distinct playback)
        (fun _ deck' => deck'.Distinct playback) := by
  rw [fillOnce_ends]
  apply Play.ends_onFst.mpr
  apply (h.status deck.device.1).mono
  . intro status state hstate
    have hdeck' := hdeck.lose hstate deck.events
    have halbums : deck.jukebox.addsAlbums = false := by
      rw [Jukebox.addsAlbums, hdeck.mode]
      rfl
    refine ⟨fun _ => ⟨hdeck'.mode, hdeck'.tracks, hdeck'.nodup, hdeck'.fresh⟩, fun _ => hdeck',
      fun needed _ => ⟨fun _ => ?_, fun _ => deliver_distinct h hdeck' id rfl halbums needed⟩⟩
    apply (replenish_distinct h hdeck' _ rfl halbums _ _).mono
    . rintro _ deck'' ⟨hdeck'', hplan⟩
      exact deliver_distinct h hdeck'' hplan rfl halbums needed
    . rintro _ deck'' ⟨hdeck'', -⟩
      exact hdeck''
    . exact id
  . intro _ state hstate
    exact hdeck.lose hstate deck.events

theorem keepFilled_distinct (h : booth.Follows playback) (deck : Deck (s × List (Receipt s)))
    (hdeck : deck.Distinct playback)
    : booth.recorded.keepFilled.Ends deck (fun _ deck' => deck'.Distinct playback)
        (fun _ deck' => deck'.Distinct playback) := by
  rw [keepFilled_ends]
  refine ⟨fun _ => hdeck, fun _ => ?_⟩
  apply (fillOnce_distinct h deck hdeck).mono
  . exact fun _ _ => id
  . intro _ deck' hdeck'
    apply (fillOnce_distinct h deck' hdeck').mono
    . exact fun _ _ => id
    . intro e deck'' hdeck''
      exact ⟨hdeck''.mode, hdeck''.tracks, hdeck''.nodup, hdeck''.fresh⟩

end Booth

namespace Jukebox

/--
The states that a jukebox and its player come to by fills and invalidations, between which the playback
queue may lose songs.
-/
inductive Course (playback : s → List String) (start : Deck s) : Deck s → Prop where
  | start : Course playback start start
  | fill {booth : Booth s} (h : Course playback start deck) (hbooth : booth.Follows playback)
    : Course playback start (booth.keepFilled.after deck)
  | invalidate (h : Course playback start deck)
    : Course playback start { deck with jukebox := deck.jukebox.invalidate }
  | between {device : s} (h : Course playback start deck)
    (hdevice : (playback device).Sublist (playback deck.device))
    : Course playback start { deck with device, events }

theorem fill_distinct {booth : Booth s} (h : booth.Follows playback) {deck : Deck s}
    (hdeck : deck.recorded.Distinct playback)
    : (booth.keepFilled.after deck).recorded.Distinct playback
      ∧ ((booth.keepFilled.after deck).jukebox.enforcing = true
        → ∀ receipt ∈ booth.ledger deck, receipt.Fresh playback) := by
  have hafter := Play.after_of_ends (fun deck' : Deck (s × List (Receipt s)) => deck'.Distinct playback)
    (Booth.keepFilled_distinct h deck.recorded hdeck)
  have hforget := booth.keepFilled_mirrors.after_eq deck.recorded
  rw [Deck.forget_recorded] at hforget
  rw [hforget]
  -- the next fill starts without the receipts of this one
  refine ⟨⟨hafter.mode, hafter.tracks, hafter.nodup, ?_⟩, hafter.fresh⟩
  intro _ receipt hreceipt
  contradiction

theorem course_distinct {start deck : Deck s} (h : Course playback start deck)
    (hstart : start.recorded.Distinct playback) : deck.recorded.Distinct playback := by
  induction h with
  | start => exact hstart
  | fill _ hbooth ih => exact (fill_distinct hbooth ih).1
  | invalidate _ ih =>
    refine ⟨ih.mode, by simp [Deck.recorded, invalidate], ?_, ih.fresh⟩
    intro henforcing
    exact (ih.nodup henforcing).of_append_right
  | @between deck events device _ hdevice ih => exact ih.lose hdevice events

theorem nodup_filterMap_append {α β : Type} {f : α → Option β} {xs : List α} {ys : List β}
    (h : (xs.map f ++ ys.map some).Nodup) : (xs.filterMap f ++ ys).Nodup := by
  have heq : xs.filterMap f ++ ys = (xs.map f ++ ys.map some).filterMap id := by
    simp [List.filterMap_append, List.filterMap_map]
  rw [heq]
  apply h.filterMap
  intro a a' b ha ha'
  exact ha.trans ha'.symm

theorem distinct_while_enforcing {start deck : Deck s} (hmode : start.jukebox.settings.mode = .addTracks)
    (hwaiting : start.jukebox.waiting = []) (hplayback : (playback start.device).Nodup)
    (hcourse : Course playback start deck)
    : (deck.jukebox.enforcing = true
        → (∀ c ∈ deck.jukebox.waiting, ∃ uri, c.uri? = some uri)
          ∧ (deck.jukebox.waiting.filterMap Candidate.uri? ++ playback deck.device).Nodup)
      ∧ ∀ booth : Booth s, booth.Follows playback
        → (booth.keepFilled.after deck).jukebox.enforcing = true
        → ∀ receipt ∈ booth.ledger deck, receipt.Fresh playback := by
  have hstart : start.recorded.Distinct playback := by
    refine ⟨hmode, ?_, ?_, ?_⟩
    . simp [Deck.recorded, hwaiting]
    . intro _
      simp only [Deck.recorded, hwaiting, List.map_nil, List.nil_append]
      exact hplayback.map fun _ _ => Option.some.inj
    . intro _ receipt hreceipt
      contradiction
  have hdeck := course_distinct hcourse hstart
  refine ⟨fun henforcing => ⟨hdeck.tracks, ?_⟩, ?_⟩
  . exact nodup_filterMap_append (hdeck.nodup henforcing)
  . intro booth hbooth
    exact (fill_distinct hbooth hdeck).2

def rehearsalBooth : Booth Rehearsal.ScriptedPlayer :=
  { player := Rehearsal.ScriptedPlayer.player
    playedSince := fun _ => pure []
    caches := {}
    pageSize := 1000
    now := 0 }

theorem enter_ends (call : Rehearsal.Call) (p : Rehearsal.ScriptedPlayer)
    : (Rehearsal.ScriptedPlayer.enter call).Ends p (fun _ after => after.queue = p.queue)
        (fun _ after => after.queue = p.queue) := by
  simp [Rehearsal.ScriptedPlayer.enter]

theorem rehearsalBooth_follows : rehearsalBooth.Follows Rehearsal.ScriptedPlayer.queue := by
  have henter (call : Rehearsal.Call) {α : Type} (x : Play Rehearsal.ScriptedPlayer α)
      (hx : x.Loses Rehearsal.ScriptedPlayer.queue)
      : (Rehearsal.ScriptedPlayer.enter call >>= fun _ => x).Loses Rehearsal.ScriptedPlayer.queue := by
    intro p
    rw [Play.ends_bind]
    apply (enter_ends call p).mono
    . intro _ after hafter
      rw [← hafter]
      exact hx after
    . intro _ after hafter
      rw [hafter]
  constructor
  . intro uri p
    simp only [rehearsalBooth, Rehearsal.ScriptedPlayer.player]
    rw [Play.ends_bind]
    apply (enter_ends (.addTrack uri) p).mono
    . intro _ after hafter
      simp [Rehearsal.ScriptedPlayer.append, hafter]
    . intro _ after hafter
      exact hafter
  . intro p
    simp only [rehearsalBooth, Rehearsal.ScriptedPlayer.player]
    rw [Play.ends_bind]
    apply (enter_ends .queuedUris p).mono
    . intro _ after hafter
      simp [hafter]
    . intro _ after hafter
      simp [hafter]
  . intro source offset limit
    cases source with
    | database =>
      apply henter
      intro p
      simp
    | playlist name =>
      apply henter
      intro p
      rw [Play.ends_bind, Play.ends_get]
      split <;> simp
  . intro since p
    simp [rehearsalBooth]
  . apply henter
    intro p
    simp
  . intro p
    apply (enter_ends .play p).imp
    intro after hafter
    rw [hafter]

def wellStocked : Deck Rehearsal.ScriptedPlayer :=
  { device := { library := [{ uri := "a.flac" }, { uri := "b.flac" }, { uri := "c.flac" }] }
    jukebox := .create "default" { mode := .addTracks } { word := fun _ => 0 } }

theorem wellStocked_distinct
    : Course Rehearsal.ScriptedPlayer.queue wellStocked (rehearsalBooth.keepFilled.after wellStocked)
      ∧ ((rehearsalBooth.keepFilled.after wellStocked).jukebox.waiting.filterMap Candidate.uri?
          ++ (rehearsalBooth.keepFilled.after wellStocked).device.queue).Nodup := by
  have hcourse
      : Course Rehearsal.ScriptedPlayer.queue wellStocked
          (rehearsalBooth.keepFilled.after wellStocked) :=
    .fill .start rehearsalBooth_follows
  have henforcing : (rehearsalBooth.keepFilled.after wellStocked).jukebox.enforcing = true := by
    decide +kernel
  exact ⟨hcourse, ((distinct_while_enforcing rfl rfl List.nodup_nil hcourse).1 henforcing).2⟩

end Jukebox

end AutoDJ
