import AutoDJ.Cache.Snapshot
import AutoDJ.Jukebox.Settings

/-!
This module contains the jukebox of a partition and the state in which it fills a playback queue.

A jukebox draws more candidates than it needs and keeps them waiting. Requests to add something right
away use a second, short-lived queue.
-/

namespace AutoDJ

structure Jukebox where
  partition : String
  settings : JukeboxSettings
  /-- Whether candidates have to be unique. -/
  enforcing : Bool
  /-- The candidates drawn for later fills. -/
  waiting : List Candidate := []
  /-- The candidates drawn for a request. -/
  scratch : List Candidate := []
  random : WordStream

inductive Lane where
  | waiting
  | scratch
deriving Repr, DecidableEq

namespace Jukebox

def create (partition : String) (settings : JukeboxSettings) (random : WordStream) : Jukebox :=
  { partition, settings, random, enforcing := settings.enforceUnique }

def invalidate (jukebox : Jukebox) : Jukebox :=
  { jukebox with waiting := [], scratch := [] }

/--
Change the settings. The candidates are dropped, and uniqueness is enforced as the settings say.
-/
def configure (jukebox : Jukebox) (settings : JukeboxSettings) : Jukebox :=
  { jukebox.invalidate with settings, enforcing := settings.enforceUnique }

def lane (jukebox : Jukebox) : Lane → List Candidate
  | .waiting => jukebox.waiting
  | .scratch => jukebox.scratch

def setLane (jukebox : Jukebox) (candidates : List Candidate) : Lane → Jukebox
  | .waiting => { jukebox with waiting := candidates }
  | .scratch => { jukebox with scratch := candidates }

def addsAlbums (jukebox : Jukebox) : Bool :=
  jukebox.settings.mode == .addAlbums

end Jukebox

structure Booth (s : Type) where
  player : Player s
  playedSince : Int64 → Play s (List String)
  caches : Caches
  pageSize : Nat
  now : Int64

/--
The state that a fill works on: that of the player and the history, the jukebox, and the events that
have been emitted.
-/
structure Deck (s : Type) where
  device : s
  jukebox : Jukebox
  events : List Event := []
  /--
  Whether a sum has not fitted into its word. If sums are checked the program ends there, so that what
  follows does not come about; if they are not, the sum has been taken for zero.
  -/
  overflowed : Bool := false

namespace Deck

def onDevice (x : Play s α) : Play (Deck s) α := fun deck =>
  match x deck.device with
  | .ok value device => .ok value { deck with device }
  | .error e device => .error e { deck with device }

def modifyJukebox (f : Jukebox → Jukebox) : Play (Deck s) Unit :=
  modify fun deck => { deck with jukebox := f deck.jukebox }

def emit (kind : EventKind) (message : Option String := none) : Play (Deck s) Unit :=
  modify fun deck =>
    { deck with
      events := deck.events ++ [{ kind, partition := deck.jukebox.partition, message }] }

def noteOverflow : Play (Deck s) Unit :=
  modify fun deck => { deck with overflowed := true }

end Deck

namespace Play

/--
Run an operation and look at its outcome instead of failing with it.
-/
def outcome (x : Play s α) : Play s (Except Error α) := fun state =>
  match x state with
  | .ok value state => .ok (.ok value) state
  | .error e state => .ok (.error e) state

/--
Run an operation and, as long as it fails, run it again up to `retries` times.
-/
def retry (x : Play s α) : (retries : Nat) → Play s α
  | 0 => x
  | retries + 1 => fun state =>
    match x state with
    | .ok value state => .ok value state
    | .error _ state => x.retry retries state

end Play

end AutoDJ
