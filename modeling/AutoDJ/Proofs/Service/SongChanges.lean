import AutoDJ.Proofs.Service.Library
import AutoDJ.Proofs.Service.Notes
import AutoDJ.Proofs.Service.Steady
import Mathlib.Data.List.Basic
import Mathlib.Logic.Function.Basic

namespace AutoDJ

namespace Sighting

def lastSeen (initial : Nat → Option String) (sightings : List Sighting) (position : Nat) :
    Option String :=
  ((sightings.filter (·.position == position)).filterMap (·.current)).getLast?.getD (initial position)

def entry? (initial : Nat → Option String) (earlier : List Sighting) (sighting : Sighting) :
    Option HistoryEntry :=
  match sighting.current with
  | some (some uri) =>
    if some uri = lastSeen initial earlier sighting.position then
      none
    else
      some { timestamp := sighting.now, uri }
  | some none | none => none

def changes (initial : Nat → Option String) (sightings : List Sighting) : List HistoryEntry :=
  sightings.zipIdx.filterMap fun (sighting, number) => sighting.entry? initial (sightings.take number)

variable {initial : Nat → Option String} {sightings : List Sighting} {sighting : Sighting}

theorem lastSeen_append_unseen (h : sighting.current = none)
    : lastSeen initial (sightings ++ [sighting]) = lastSeen initial sightings := by
  funext position
  unfold lastSeen
  rw [List.filter_append, List.filterMap_append]
  by_cases hposition : sighting.position = position <;> simp [h, hposition]

theorem lastSeen_append_seen {current : Option String} (h : sighting.current = some current)
    : lastSeen initial (sightings ++ [sighting])
        = Function.update (lastSeen initial sightings) sighting.position current := by
  funext position
  unfold lastSeen
  rw [List.filter_append, List.filterMap_append]
  by_cases hposition : sighting.position = position
  . obtain rfl := hposition
    simp [h]
  . simp [hposition, Ne.symm hposition]

theorem changes_append
    : changes initial (sightings ++ [sighting])
        = changes initial sightings ++ (sighting.entry? initial sightings).toList := by
  unfold changes
  rw [List.zipIdx_append, List.filterMap_append]
  congr 1
  . apply List.filterMap_congr
    rintro ⟨earlier, number⟩ hmem
    have hnumber : number < sightings.length := by
      simpa using List.snd_lt_of_mem_zipIdx hmem
    dsimp only
    rw [List.take_append_of_le_length (Nat.le_of_lt hnumber)]
  . cases hentry : sighting.entry? initial sightings <;> simp [hentry]

/--
A partition that is not seen for a while still plays what it played before. Silence ends a song.
-/
example
    : changes (fun _ => none)
          [{ position := 0, now := 1, current := some (some "a.flac") },
            { position := 1, now := 1, current := some (some "a.flac") },
            { position := 0, now := 2, current := none },
            { position := 1, now := 2, current := some none },
            { position := 0, now := 3, current := some (some "a.flac") },
            { position := 1, now := 3, current := some (some "a.flac") }]
        = [{ timestamp := 1, uri := "a.flac" }, { timestamp := 1, uri := "a.flac" },
            { timestamp := 3, uri := "a.flac" }] := by
  rfl

end Sighting

theorem History.record_recent {s : Type} (tail : Tail s) (uri : String) (timestamp : Int64)
    (history : History) (state : s)
    : (record tail uri timestamp).Ends (history, state)
        (fun _ after =>
          after.1.recent = { timestamp, uri } :: history.recent
            ∨ after.1.recent = [] ∧ ∃ stored state,
                tail.replace (HistoryEntry.toText
                    (({ timestamp, uri } :: history.recent ++ stored).take history.maxEntries)) state
                  = .ok () after.2)
        (fun _ after => after.1 = { history with recent := { timestamp, uri } :: history.recent }) := by
  unfold record rotate entries
  simp only [Play.ends_bind, Play.ends_get, Play.ends_modify, Play.ends_ite, Play.ends_onSnd,
    Play.ends_pure]
  refine ⟨fun _ => ⟨fun _ => .inl trivial, fun _ => ?_⟩, fun _ => .inl trivial⟩
  apply Play.ends_of_forall
  . intro stored state
    unfold Play.Ends
    split
    . next hwritten => exact .inr ⟨trivial, stored, state, hwritten⟩
    . trivial
  . exact fun _ _ => trivial

theorem Room.record_moved {ω : Type} (room : Room ω) (tail : Tail ω) (uri : String) (now : Int64)
    : (room.record tail uri now).history.recent ++ room.moved tail uri now
        = { timestamp := now, uri } :: room.history.recent := by
  have hends := History.record_recent tail uri now room.history room.world
  unfold record moved
  cases heq : History.record tail uri now (room.history, room.world) with
  | ok _ after =>
    dsimp only
    obtain hkept | ⟨hempty, -⟩ := hends.of_ok heq
    . simp [hkept]
    . simp [hempty]
  | error e after =>
    dsimp only
    rw [hends.of_error heq, List.append_nil]

/--
The notes account for the song that each partition is remembered to play, for all entries, and for those
in memory.
-/
structure Notes.Account (initial : Nat → Option String) (start : List HistoryEntry)
    (songs : Nat → Option String) (history : History) (notes : Notes) : Prop where
  songs : Sighting.lastSeen initial notes.sightings = songs
  entered : notes.entered = Sighting.changes initial notes.sightings
  recent : history.recent ++ notes.moved = notes.entered.reverse ++ start

namespace Notes.Account

variable {initial songs : Nat → Option String} {start : List HistoryEntry} {history : History}
  {notes : Notes}

theorem unseen (h : notes.Account initial start songs history) (position : Nat) (now : Int64)
    : (notes.see { position, now, current := none }).Account initial start songs history := by
  constructor
  . exact (Sighting.lastSeen_append_unseen rfl).trans h.songs
  . unfold see
    rw [Sighting.changes_append, h.entered]
    simp [Sighting.entry?]
  . exact h.recent

theorem seen (h : notes.Account initial start songs history) {position : Nat} {now : Int64}
    {current : Option String} (hsame : current = none ∨ current = songs position)
    : (notes.see { position, now, current := some current }).Account initial start
        (Function.update songs position current) history := by
  constructor
  . rw [← h.songs]
    exact Sighting.lastSeen_append_seen rfl
  . unfold see
    rw [Sighting.changes_append, h.entered]
    obtain rfl | rfl := hsame
    . simp [Sighting.entry?]
    . cases hsong : songs position <;> simp [Sighting.entry?, h.songs, hsong]
  . exact h.recent

theorem changed (h : notes.Account initial start songs history) {position : Nat} {now : Int64}
    {uri : String} (hchanged : some uri ≠ songs position) {after : History} {moved : List HistoryEntry}
    (hafter : after.recent ++ moved = { timestamp := now, uri } :: history.recent)
    : ((notes.see { position, now, current := some (some uri) }).enter uri now moved).Account initial
        start (Function.update songs position (some uri)) after := by
  constructor
  . rw [← h.songs]
    exact Sighting.lastSeen_append_seen rfl
  . unfold enter see
    rw [Sighting.changes_append, h.entered]
    simp [Sighting.entry?, h.songs, hchanged]
  . unfold enter see
    rw [List.reverse_append, ← List.append_assoc, hafter]
    exact congrArg _ h.recent

end Notes.Account

namespace Partition

variable {σ ω : Type} {b : Backend σ ω} {initial songs : Nat → Option String}
  {start : List HistoryEntry} {room : Room ω} {notes : Notes} (caches : Caches) (pageSize : Nat)
  (now : Int64)

theorem noteSongNoted_account {p : Partition σ} {position : Nat}
    (h : notes.Account initial start songs room.history) (hp : p.lastSong = songs position)
    (current : Option String)
    : let noted := noteSongNoted b now current p room
        (notes.see { position, now, current := some current })
      noted.1.lastSong = current
        ∧ noted.2.2.Account initial start (Function.update songs position current) noted.2.1.history := by
  intro noted
  unfold noted noteSongNoted
  split
  . next hsame => exact ⟨hsame.symm, h.seen (.inr (hsame.trans hp))⟩
  . next hchanged =>
    cases current with
    | none => exact ⟨rfl, h.seen (.inl rfl)⟩
    | some uri =>
      rw [hp] at hchanged
      exact ⟨rfl, h.changed hchanged (room.record_moved b.tail uri now)⟩

theorem fill_lastSong (method : Booth (σ × ω) → Play (Deck (σ × ω)) Nat) (p : Partition σ)
    (room : Room ω)
    : (fill b caches pageSize now method).Ends (p, room)
        (fun _ after => after.1.lastSong = p.lastSong ∧ after.2.history = room.history)
        (fun _ after => after.1.lastSong = p.lastSong ∧ after.2.history = room.history) := by
  unfold fill Play.Ends
  dsimp only
  cases method _ _ <;> exact ⟨rfl, rfl⟩

theorem pollNoted_account {p : Partition σ} {position : Nat}
    (h : notes.Account initial start songs room.history) (hp : p.lastSong = songs position)
    : let polled := p.pollNoted b caches pageSize now position room notes
      polled.2.2.Account initial start (Function.update songs position polled.1.lastSong)
        polled.2.1.history := by
  intro polled
  unfold polled pollNoted
  cases b.player.status (p.handle, room.world) with
  | error e state =>
    dsimp only
    rw [hp, Function.update_eq_self]
    exact h.unseen position now
  | ok status state =>
    obtain ⟨handle, world⟩ := state
    dsimp only
    have hstart : notes.Account initial start songs { room with world }.history := h
    have hhandle : { p with handle }.lastSong = songs position := hp
    obtain ⟨hsong, haccount⟩ := noteSongNoted_account (b := b) now hstart hhandle status.currentUri
    generalize noteSongNoted b now status.currentUri { p with handle } { room with world }
      (notes.see { position, now, current := some status.currentUri }) = noted at *
    obtain ⟨p, room, notes⟩ := noted
    -- the jukebox comes last, and the notes are complete by then
    have hfilled := fill_lastSong (b := b) caches pageSize now Booth.keepFilled p room
    have hkept (after : Partition σ × Room ω)
        (hafter : after.1.lastSong = p.lastSong ∧ after.2.history = room.history)
        : notes.Account initial start (Function.update songs position after.1.lastSong)
            after.2.history := by
      rw [hafter.1, hafter.2, hsong]
      exact haccount
    cases heq : fill b caches pageSize now Booth.keepFilled (p, room) with
    | ok _ after => exact hkept after (hfilled.of_ok heq)
    | error _ after => exact hkept after (hfilled.of_error heq)

def songAt (ps : List (Partition σ)) (position : Nat) : Option String :=
  ps[position]?.bind (·.lastSong)

theorem songAt_congr {ps ps' : List (Partition σ)} (h : ps.map (·.lastSong) = ps'.map (·.lastSong))
    : songAt ps = songAt ps' := by
  have hjoin (ps : List (Partition σ)) (position : Nat)
      : songAt ps position = (ps.map (·.lastSong))[position]?.join := by
    rw [songAt, List.getElem?_map]
    cases ps[position]? <;> rfl
  funext position
  rw [hjoin, hjoin, h]

theorem songAt_replace (before after : List (Partition σ)) (p p' : Partition σ)
    : songAt (before ++ p' :: after)
        = Function.update (songAt (before ++ p :: after)) before.length p'.lastSong := by
  funext position
  unfold songAt
  by_cases hposition : position = before.length
  . simp [hposition]
  . rw [Function.update_of_ne hposition]
    obtain hless | hmore := Nat.lt_or_gt_of_ne hposition
    . rw [List.getElem?_append_left hless, List.getElem?_append_left hless]
    . rw [List.getElem?_append_right (Nat.le_of_lt hmore), List.getElem?_append_right (Nat.le_of_lt hmore)]
      obtain ⟨distance, hdistance⟩ := Nat.exists_eq_succ_of_ne_zero (Nat.sub_ne_zero_of_lt hmore)
      rw [hdistance]
      rfl

theorem pollAllNoted_account (before ps : List (Partition σ))
    (h : notes.Account initial start (songAt (before ++ ps)) room.history)
    : let polled := pollAllNoted b caches pageSize now before.length ps room notes
      polled.2.2.Account initial start (songAt (before ++ polled.1)) polled.2.1.history := by
  -- the partitions `before` have been polled already
  induction ps generalizing before room notes with
  | nil => exact h
  | cons p ps ih =>
    have hp : p.lastSong = songAt (before ++ p :: ps) before.length := by simp [songAt]
    have hpolled := pollNoted_account (b := b) caches pageSize now h hp
    unfold pollAllNoted
    dsimp only at *
    generalize p.pollNoted b caches pageSize now before.length room notes = polled at *
    obtain ⟨p', room', notes'⟩ := polled
    dsimp only at *
    rw [← songAt_replace] at hpolled
    have hrest := ih (before ++ [p']) (by simpa using hpolled)
    simpa using hrest

theorem pollNoted_sightings (position : Nat) (p : Partition σ) (room : Room ω) (notes : Notes)
    : (p.pollNoted b caches pageSize now position room notes).2.2.sightings.map Sighting.place
        = notes.sightings.map Sighting.place ++ [(now, position)] := by
  have hsee (current : Option (Option String))
      : (notes.see { position, now, current }).sightings.map Sighting.place
          = notes.sightings.map Sighting.place ++ [(now, position)] :=
    List.map_append
  have hnote (current : Option String) (p : Partition σ) (room : Room ω) (notes : Notes)
      : (noteSongNoted b now current p room notes).2.2.sightings = notes.sightings := by
    unfold noteSongNoted
    split
    . rfl
    . cases current <;> rfl
  unfold pollNoted
  cases b.player.status (p.handle, room.world) with
  | error e state => exact hsee none
  | ok status state =>
    obtain ⟨handle, world⟩ := state
    dsimp only
    have hnoted := hnote status.currentUri { p with handle } { room with world }
      (notes.see { position, now, current := some status.currentUri })
    rw [← hsee (some status.currentUri), ← hnoted]
    cases fill b caches pageSize now Booth.keepFilled _ <;> rfl

theorem pollAllNoted_sightings (position : Nat) (ps : List (Partition σ)) (room : Room ω) (notes : Notes)
    : (pollAllNoted b caches pageSize now position ps room notes).2.2.sightings.map Sighting.place
        = notes.sightings.map Sighting.place
            ++ (List.range' position ps.length).map fun position => (now, position) := by
  induction ps generalizing position room notes with
  | nil => exact (List.append_nil _).symm
  | cons p ps ih =>
    unfold pollAllNoted
    dsimp only
    rw [ih, pollNoted_sightings, List.append_assoc]
    rfl

theorem pollAllNoted_length (position : Nat) (ps : List (Partition σ)) (room : Room ω) (notes : Notes)
    : (pollAllNoted b caches pageSize now position ps room notes).1.length = ps.length := by
  induction ps generalizing position room notes with
  | nil => rfl
  | cons p ps ih =>
    unfold pollAllNoted
    dsimp only
    rw [List.length_cons, List.length_cons, ih]

end Partition

namespace Service

variable {σ ω : Type} {b : Backend σ ω} {sv : Service σ ω}

theorem songs_secluded (songs : List (Option String)) (history : History)
    : Secluded b fun sv : Service σ ω =>
        sv.partitions.map (·.lastSong) = songs ∧ sv.room.history = history := by
  constructor
  . exact fun _ _ _ _ _ h => h
  . intro sv delivery h
    unfold install
    dsimp only
    split
    . exact h
    . have hcleared
          : (sv.partitions.map fun p => { p with jukebox := p.jukebox.invalidate }).map (·.lastSong)
                = songs
              ∧ sv.room.history = history := by
        rw [List.map_map]
        exact h
      cases delivery with
      | albums index | stickers index =>
        cases index with
        | none => exact h
        | some index => exact hcleared
  . intro now name count albums sv h
    have hreplaces := fill_replaces (b := b) now name count albums fun p _ =>
      Partition.fill_lastSong sv.caches sv.options.pageSize now.unix
        (fun booth => booth.addNow count albums) p sv.room
    apply hreplaces.imp
    rintro sv' (rfl | ⟨before, p, after, p', room, hpartitions, ⟨hsong, hhistory⟩, rfl⟩)
    . exact h
    . dsimp only at hsong hhistory
      rw [hpartitions] at h
      simpa [hsong, hhistory] using h

theorem checkLibrary_songs
    : (checkLibrary b sv).partitions.map (·.lastSong) = sv.partitions.map (·.lastSong)
      ∧ (checkLibrary b sv).room.history = sv.room.history := by
  have hasked : (asked b sv).partitions.map (·.lastSong) = sv.partitions.map (·.lastSong)
      ∧ (asked b sv).room.history = sv.room.history := by
    unfold asked
    cases hpartitions : sv.partitions with
    | nil => simp [hpartitions]
    | cons first rest =>
      dsimp only
      split <;> exact ⟨rfl, rfl⟩
  cases htoken : token? b sv with
  | none =>
    rw [checkLibrary_of_unread htoken]
    exact hasked
  | some token =>
    rw [checkLibrary_of_read htoken]
    split
    . exact ((songs_secluded _ _).requestBuild .all).after hasked
    . exact hasked

structure Accounts (initial : Nat → Option String) (start : List HistoryEntry) (n : Nat)
    (polls : List Int64) (noted : Service σ ω × Notes) : Prop where
  account : noted.2.Account initial start (Partition.songAt noted.1.partitions) noted.1.room.history
  length : noted.1.partitions.length = n
  places : noted.2.sightings.map Sighting.place
    = polls.flatMap fun now => (List.range n).map fun position => (now, position)

variable {initial : Nat → Option String} {start : List HistoryEntry} {n : Nat} {polls : List Int64}

theorem Accounts.congr {notes : Notes} (h : Accounts initial start n polls (sv, notes))
    {sv' : Service σ ω}
    (hsame : sv'.partitions.map (·.lastSong) = sv.partitions.map (·.lastSong)
      ∧ sv'.room.history = sv.room.history)
    : Accounts initial start n polls (sv', notes) := by
  constructor
  . rw [Partition.songAt_congr hsame.1, hsame.2]
    exact h.account
  . have hlength := congrArg List.length hsame.1
    rw [List.length_map, List.length_map] at hlength
    exact hlength.trans h.length
  . exact h.places

theorem pollNoted_accounts {notes : Notes} (h : Accounts initial start n polls (sv, notes)) (now : Moment)
    : Accounts initial start n (polls ++ [now.unix]) (pollNoted b now sv notes) := by
  have hchecked : Accounts initial start n polls (checkLibrary b sv, notes) := h.congr checkLibrary_songs
  constructor
  . exact Partition.pollAllNoted_account _ _ _ [] _ hchecked.account
  . exact (Partition.pollAllNoted_length _ _ _ _ _ _ _).trans hchecked.length
  . rw [List.flatMap_append, ← hchecked.places, List.flatMap_singleton, ← hchecked.length,
      List.range_eq_range']
    exact Partition.pollAllNoted_sightings _ _ _ _ _ _ _

theorem runNoted_accounts {notes : Notes} (h : Accounts initial start n polls (sv, notes))
    (happening : Happening ω)
    : Accounts initial start n (polls ++ happening.pollTime?.toList) (happening.runNoted b (sv, notes)) := by
  have hsteady := songs_secluded (b := b) (sv.partitions.map (·.lastSong)) sv.room.history
  have hother (hpoll : ∀ now, happening ≠ .operation (.poll now))
      : Accounts initial start n (polls ++ []) (happening.run b sv, notes) := by
    rw [List.append_nil]
    exact h.congr (hsteady.run happening (fun now heq => absurd heq (hpoll now)) ⟨rfl, rfl⟩)
  cases happening with
  | operation operation =>
    cases operation with
    | poll now => exact pollNoted_accounts h now
    | requestBuild _ | rebuildNow _ _ | handle _ _ _ | serve _ | drain _ => exact hother nofun
  | intervention _ | outside _ => exact hother nofun

theorem foldl_runNoted_accounts (happenings : List (Happening ω)) {noted : Service σ ω × Notes}
    (h : Accounts initial start n polls noted)
    : Accounts initial start n (polls ++ happenings.filterMap Happening.pollTime?)
        (happenings.foldl (Happening.runNoted b) noted) := by
  induction happenings generalizing polls noted with
  | nil => simpa using h
  | cons happening happenings ih =>
    have hrest := ih (runNoted_accounts (b := b) h happening)
    cases htime : happening.pollTime? <;> simpa [htime] using hrest

/--
Whatever happens to a service and whatever fails meanwhile, the entries made in the play history are those
that the sightings of its polls give rise to. In every poll each partition is seen once, one after another,
and an entry is made whenever it is seen with a song and was last seen with another one or with none; what
was remembered of it in the beginning counts as its first sighting. Each entry is either in memory or has
been moved from there to the tail, in order, and a call of the history moves entries only by writing them to
the front of the tail. If that fails, the new entry is in memory with those before it.
-/
theorem song_changes_entered_once (b : Backend σ ω) (sv : Service σ ω) (happenings : List (Happening ω))
    : let noted := afterAllNoted b sv happenings
      noted.1 = afterAll b sv happenings
        ∧ noted.2.sightings.map Sighting.place
            = ((happenings.filterMap Happening.pollTime?).flatMap fun now =>
                (List.range sv.partitions.length).map fun position => (now, position))
        ∧ noted.2.entered
            = Sighting.changes (Partition.songAt sv.partitions) noted.2.sightings
        ∧ noted.1.room.history.recent ++ noted.2.moved
            = noted.2.entered.reverse ++ sv.room.history.recent
        ∧ ∀ uri now history world,
            (History.record b.tail uri now).Ends (history, world)
              (fun _ after =>
                after.1.recent = { timestamp := now, uri } :: history.recent
                  ∨ after.1.recent = [] ∧ ∃ stored world,
                      b.tail.replace (HistoryEntry.toText
                          (({ timestamp := now, uri } :: history.recent ++ stored).take
                            history.maxEntries)) world
                        = .ok () after.2)
              (fun _ after =>
                after.1 = { history with recent := { timestamp := now, uri } :: history.recent }) := by
  intro noted
  have hstart : Accounts (Partition.songAt sv.partitions) sv.room.history.recent sv.partitions.length []
      (sv, {}) :=
    ⟨⟨rfl, rfl, List.append_nil _⟩, rfl, rfl⟩
  have haccounts := foldl_runNoted_accounts (b := b) happenings hstart
  refine ⟨(afterAllNoted_eq b sv happenings).symm, haccounts.places, haccounts.account.entered,
    haccounts.account.recent, fun uri now history world => ?_⟩
  exact History.record_recent b.tail uri now history world

end Service

end AutoDJ
