import AutoDJ.Cache.Build
import AutoDJ.History.Basic
import AutoDJ.Jukebox.Fill
import AutoDJ.Service.Exchange

namespace AutoDJ

/--
What a service needs from the world outside, whose state is `ω`. Every client of the player has a
state `σ` of its own besides.
-/
structure Backend (σ ω : Type) where
  player : Player (σ × ω)
  /-- The state of a new client of the same player. -/
  clone : σ → σ
  tail : Tail ω
  openStickers : (path : String) → Play ω (StickerStore ω)

/--
A playback queue with its jukebox, and the song that was current when the player was last asked.
-/
structure Partition (σ : Type) where
  handle : σ
  jukebox : Jukebox
  lastSong : Option String := none

def Partition.name (p : Partition σ) : String :=
  p.jukebox.partition

/--
What the partitions of a service share: the world outside, the play history and the events emitted.
-/
structure Room (ω : Type) where
  world : ω
  history : History
  events : List Event := []
  /-- Whether a sum has not fitted into its word during a fill, as in `Deck.overflowed`. -/
  overflowed : Bool := false

/--
A background build. A successful one posts its snapshots one by one, any other gives up its claims
one by one.
-/
inductive BuildPhase where
  | scanning
  | posting (deliveries : List Delivery)
  | yielding (kinds : List CacheKind)

structure Build (σ : Type) where
  handle : σ
  kinds : CacheKinds
  phase : BuildPhase := .scanning

structure ServiceOptions where
  /-- How long a service waits for requests between two polls, in milliseconds. -/
  pollInterval : Nat := 1000
  pageSize : Nat := 1000
  /-- After how many seconds a reply is thrown away. -/
  responseMaxAge : Nat := 60
  stickerDatabase : Option String := none
  /-- The snapshots to build at the start. -/
  cacheKinds : CacheKinds := .all
deriving Repr, DecidableEq

structure Service (σ ω : Type) where
  exchange : Exchange := {}
  partitions : List (Partition σ)
  room : Room ω
  caches : Caches := {}
  options : ServiceOptions := {}
  /-- The token of the library when it was last looked at. -/
  libraryToken : Option String := none
  builds : List (Build σ) := []

structure Moment where
  unix : Int64
  uptime : Nat := 0
deriving Repr, DecidableEq

namespace Room

def emit (room : Room ω) (event : Event) : Room ω :=
  { room with events := room.events ++ [event] }

/--
Enter a song into the play history. An entry that cannot be moved to the tail stays in memory.
-/
def record (room : Room ω) (tail : Tail ω) (uri : String) (now : Int64) : Room ω :=
  match History.record tail uri now (room.history, room.world) with
  | .ok () (history, world) | .error _ (history, world) => { room with history, world }

def flush (tail : Tail ω) : Play (Room ω) Unit := fun room =>
  match History.flush tail (room.history, room.world) with
  | .ok () (history, world) => .ok () { room with history, world }
  | .error e (history, world) => .error e { room with history, world }

end Room

namespace Partition

def fill (b : Backend σ ω) (caches : Caches) (pageSize : Nat) (now : Int64)
    (method : Booth (σ × ω) → Play (Deck (σ × ω)) Nat) : Play (Partition σ × Room ω) Nat :=
  fun (p, room) =>
    let booth : Booth (σ × ω) :=
      { player := b.player
        playedSince := fun since => Play.onSnd (room.history.urisSince b.tail since)
        caches
        pageSize
        now }
    let deck : Deck (σ × ω) :=
      { device := (p.handle, room.world)
        jukebox := p.jukebox
        events := room.events
        overflowed := room.overflowed }
    let back (deck : Deck (σ × ω)) : Partition σ × Room ω :=
      ({ p with handle := deck.device.1, jukebox := deck.jukebox },
        { room with world := deck.device.2, events := deck.events, overflowed := deck.overflowed })
    match method booth deck with
    | .ok added deck => .ok added (back deck)
    | .error e deck => .error e (back deck)

def noteSong (b : Backend σ ω) (now : Int64) (current : Option String) (p : Partition σ)
    (room : Room ω) : Partition σ × Room ω :=
  if current = p.lastSong then
    (p, room)
  else
    let room :=
      match current with
      | some uri => room.record b.tail uri now
      | none => room
    ({ p with lastSong := current }, room)

/--
Ask the player of a partition what it is doing and let the jukebox do its work. If the player does not
answer, nothing happens; whether the jukebox succeeds does not matter.
-/
def poll (b : Backend σ ω) (caches : Caches) (pageSize : Nat) (now : Int64) (p : Partition σ)
    (room : Room ω) : Partition σ × Room ω :=
  match b.player.status (p.handle, room.world) with
  | .error _ (handle, world) => ({ p with handle }, { room with world })
  | .ok status (handle, world) =>
    let state := noteSong b now status.currentUri { p with handle } { room with world }
    match fill b caches pageSize now Booth.keepFilled state with
    | .ok _ state | .error _ state => state

def pollAll (b : Backend σ ω) (caches : Caches) (pageSize : Nat) (now : Int64) :
    List (Partition σ) → Room ω → List (Partition σ) × Room ω
  | [], room => ([], room)
  | p :: ps, room =>
    let (p, room) := p.poll b caches pageSize now room
    let (ps, room) := pollAll b caches pageSize now ps room
    (p :: ps, room)

end Partition

end AutoDJ
