import AutoDJ.Proofs.Service.Operation

/-!
This module contains the polls of a player service with notes that are taken of them: of all that the polls
find out, of all that is entered into the play history, and of what leaves its memory. Whoever does not read
the notes cannot tell that they are taken.
-/

namespace AutoDJ

/--
What a poll finds out about the partition at a position: its current song, if the player answers.
-/
structure Sighting where
  position : Nat
  now : Int64
  current : Option (Option String)

def Sighting.place (sighting : Sighting) : Int64 × Nat :=
  (sighting.now, sighting.position)

structure Notes where
  /-- All sightings, the oldest first. -/
  sightings : List Sighting := []
  /-- All entries made in the play history, the oldest first. -/
  entered : List HistoryEntry := []
  /-- The entries that have been moved to the tail, the newest first. -/
  moved : List HistoryEntry := []

namespace Notes

def see (notes : Notes) (sighting : Sighting) : Notes :=
  { notes with sightings := notes.sightings ++ [sighting] }

def enter (notes : Notes) (uri : String) (timestamp : Int64) (moved : List HistoryEntry) : Notes :=
  { notes with
    entered := notes.entered ++ [{ timestamp, uri }]
    moved := moved ++ notes.moved }

end Notes

def Room.moved (room : Room ω) (tail : Tail ω) (uri : String) (now : Int64) : List HistoryEntry :=
  match History.record tail uri now (room.history, room.world) with
  | .ok () (history, _) =>
    if history.recent.isEmpty then { timestamp := now, uri } :: room.history.recent else []
  | .error _ _ => []

variable {σ ω : Type} (b : Backend σ ω)

namespace Partition

variable (caches : Caches) (pageSize : Nat) (now : Int64)

def noteSongNoted (current : Option String) (p : Partition σ) (room : Room ω) (notes : Notes) :
    Partition σ × Room ω × Notes :=
  if current = p.lastSong then
    (p, room, notes)
  else
    let (room, notes) :=
      match current with
      | some uri => (room.record b.tail uri now, notes.enter uri now (room.moved b.tail uri now))
      | none => (room, notes)
    ({ p with lastSong := current }, room, notes)

theorem noteSongNoted_eq (current : Option String) (p : Partition σ) (room : Room ω) (notes : Notes)
    : noteSong b now current p room
        = ((noteSongNoted b now current p room notes).1,
            (noteSongNoted b now current p room notes).2.1) := by
  unfold noteSong noteSongNoted
  split
  . rfl
  . cases current <;> rfl

def pollNoted (position : Nat) (p : Partition σ) (room : Room ω) (notes : Notes) :
    Partition σ × Room ω × Notes :=
  match b.player.status (p.handle, room.world) with
  | .error _ (handle, world) =>
    ({ p with handle }, { room with world }, notes.see { position, now, current := none })
  | .ok status (handle, world) =>
    let notes := notes.see { position, now, current := some status.currentUri }
    let (p, room, notes) :=
      noteSongNoted b now status.currentUri { p with handle } { room with world } notes
    match fill b caches pageSize now Booth.keepFilled (p, room) with
    | .ok _ (p, room) | .error _ (p, room) => (p, room, notes)

theorem pollNoted_eq (position : Nat) (p : Partition σ) (room : Room ω) (notes : Notes)
    : p.poll b caches pageSize now room
        = ((p.pollNoted b caches pageSize now position room notes).1,
            (p.pollNoted b caches pageSize now position room notes).2.1) := by
  unfold poll pollNoted
  cases b.player.status (p.handle, room.world) with
  | error e state => rfl
  | ok status state =>
    obtain ⟨handle, world⟩ := state
    dsimp only
    rw [noteSongNoted_eq b now status.currentUri { p with handle } { room with world }
      (notes.see { position, now, current := some status.currentUri })]
    cases fill b caches pageSize now Booth.keepFilled _ <;> rfl

def pollAllNoted :
    (position : Nat) → List (Partition σ) → Room ω → Notes → List (Partition σ) × Room ω × Notes
  | _, [], room, notes => ([], room, notes)
  | position, p :: ps, room, notes =>
    let (p, room, notes) := p.pollNoted b caches pageSize now position room notes
    let (ps, room, notes) := pollAllNoted (position + 1) ps room notes
    (p :: ps, room, notes)

theorem pollAllNoted_eq (position : Nat) (ps : List (Partition σ)) (room : Room ω) (notes : Notes)
    : pollAll b caches pageSize now ps room
        = ((pollAllNoted b caches pageSize now position ps room notes).1,
            (pollAllNoted b caches pageSize now position ps room notes).2.1) := by
  induction ps generalizing position room notes with
  | nil => rfl
  | cons p ps ih =>
    unfold pollAll pollAllNoted
    rw [pollNoted_eq b caches pageSize now position p room notes]
    dsimp only
    rw [ih]

end Partition

namespace Service

def pollNoted (now : Moment) (sv : Service σ ω) (notes : Notes) : Service σ ω × Notes :=
  let sv := checkLibrary b sv
  let (partitions, room, notes) :=
    Partition.pollAllNoted b sv.caches sv.options.pageSize now.unix 0 sv.partitions sv.room notes
  ({ sv with partitions, room }, notes)

theorem pollNoted_eq (now : Moment) (sv : Service σ ω) (notes : Notes)
    : poll b now sv = (pollNoted b now sv notes).1 := by
  unfold poll pollNoted
  dsimp only
  rw [Partition.pollAllNoted_eq b _ _ _ 0 _ _ notes]

namespace Happening

def runNoted (state : Service σ ω × Notes) : Happening ω → Service σ ω × Notes
  | .operation (.poll now) => pollNoted b now state.1 state.2
  | happening => (happening.run b state.1, state.2)

theorem runNoted_eq (happening : Happening ω) (sv : Service σ ω) (notes : Notes)
    : happening.run b sv = (happening.runNoted b (sv, notes)).1 := by
  cases happening with
  | operation operation =>
    cases operation with
    | poll now => exact pollNoted_eq b now sv notes
    | requestBuild _ | rebuildNow _ _ | handle _ _ _ | serve _ | drain _ => rfl
  | intervention _ | outside _ => rfl

def pollTime? : Happening ω → Option Int64
  | .operation (.poll now) => some now.unix
  | _ => none

end Happening

def afterAllNoted (sv : Service σ ω) (happenings : List (Happening ω)) : Service σ ω × Notes :=
  happenings.foldl (Happening.runNoted b) (sv, {})

theorem afterAllNoted_eq (sv : Service σ ω) (happenings : List (Happening ω))
    : afterAll b sv happenings = (afterAllNoted b sv happenings).1 := by
  have hfoldl (sv : Service σ ω) (notes : Notes)
      : afterAll b sv happenings = (happenings.foldl (Happening.runNoted b) (sv, notes)).1 := by
    induction happenings generalizing sv notes with
    | nil => rfl
    | cons happening happenings ih =>
      rw [List.foldl_cons]
      exact (congrArg (fun sv => afterAll b sv happenings) (happening.runNoted_eq b sv notes)).trans
        (ih _ _)
  exact hfoldl sv {}

end Service

end AutoDJ
