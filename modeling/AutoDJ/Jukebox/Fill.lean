import AutoDJ.Jukebox.Basic

/-!
This module contains the filling of a playback queue by a jukebox.

A fill draws candidates if it has too few, hands as many to the player as are needed, and draws again
once if the queue of candidates runs low meanwhile. If there are too few candidates because they have
to be unique, later fills no longer insist on that.
-/

namespace AutoDJ

def bufferSize (albums : Bool) : Nat :=
  if albums then 10 else 50

/--
A queue of waiting candidates shorter than this is low.
-/
def lowWater (albums : Bool) : Nat :=
  if albums then 5 else 25

def fillAttempts : Nat := 2

def relaxWarning : String :=
  "Not enough unique songs or albums, relaxing uniqueness"

/--
What a fill asks for: albums or tracks, whether they have to be unique, and for which queue.
-/
structure FillPlan where
  lane : Lane
  albums : Bool
  enforce : Bool

namespace Booth

def since (booth : Booth s) (settings : JukeboxSettings) : Int64 :=
  booth.now - Int64.ofNat (settings.lastPlayedHours.toNat * 3600)

/--
The songs to stay away from: those in the playback queue and those played lately.
-/
def recentlyPlayed (booth : Booth s) (settings : JukeboxSettings) : Play s RecentlyPlayed := do
  let since := booth.since settings
  let queued ← booth.player.queuedUris
  if settings.lastPlayedHours = 0 then
    return { uris := .ofList queued, since }
  else
    let played ← booth.playedSince since
    return { uris := .ofList (queued ++ played), stickers := booth.caches.stickers, since }

def exclusions (booth : Booth s) (plan : FillPlan) (jukebox : Jukebox) (recent : RecentlyPlayed) :
    Exclusions :=
  { enforce := plan.enforce
    uniqueTag := jukebox.settings.uniqueTag
    ignoreHated := jukebox.settings.ignoreHated
    stickers := booth.caches.stickers
    pending := jukebox.lane plan.lane
    recent }

def draw (booth : Booth s) (albums : Bool) (rules : Exclusions) (k : Nat) :
    Play (Deck s) (List Candidate) := fun deck =>
  let jukebox := deck.jukebox
  if albums then
    match booth.caches.albums with
    | none => .error .albumCacheMissing deck
    | some index =>
      let (drawn, random) := sampleAlbums index rules k jukebox.random
      .ok drawn { deck with jukebox := { jukebox with random } }
  else
    match sampleTracks booth.player jukebox.settings.source booth.pageSize rules k
        (deck.device, jukebox.random) with
    | .ok drawn (device, random) => .ok drawn { deck with device, jukebox := { jukebox with random } }
    | .error e (device, random) => .error e { deck with device, jukebox := { jukebox with random } }

/--
Tell that there are too few unique candidates. After a fill of its own accord the jukebox stops
insisting on uniqueness, and tells so only once.
-/
def relax (lane : Lane) : Play (Deck s) Unit := do
  match lane with
  | .scratch => Deck.emit .jukeboxWarning relaxWarning
  | .waiting =>
    if (← get).jukebox.enforcing then
      Deck.modifyJukebox fun jukebox => { jukebox with enforcing := false }
      Deck.emit .jukeboxWarning relaxWarning

/--
Draw candidates until a queue holds `target` of them, or as many as there are. Fails if the queue is
empty in the end.
-/
def replenish (booth : Booth s) (plan : FillPlan) (needed target : Nat) : Play (Deck s) Unit := do
  let jukebox := (← get).jukebox
  let recent ← Deck.onDevice (booth.recentlyPlayed jukebox.settings)
  let rules := booth.exclusions plan jukebox recent
  let drawn ← booth.draw plan.albums rules (target - rules.pending.length)
  let candidates := rules.pending ++ drawn
  Deck.modifyJukebox fun jukebox => jukebox.setLane candidates plan.lane
  if candidates.isEmpty then
    throw .noCandidates
  if candidates.length < needed && plan.enforce then
    relax plan.lane

structure Tally where
  added : Nat := 0
  lastError : Option Error := none

def hand (booth : Booth s) (c : Candidate) (tally : Tally) : Play (Deck s) Tally := do
  let result ← Play.outcome <| Deck.onDevice <|
    match c.pick with
    | .track uri _ => booth.player.addTrack uri
    | .album key => booth.player.addAlbum key.album key.albumArtist
  match result with
  | .ok () => return { tally with added := tally.added + 1 }
  | .error e => return { tally with lastError := some e }

/--
Hand over candidates from the front of a queue, whose candidates are given, until `count` have been
added or none is left.
-/
def handOver (booth : Booth s) (lane : Lane) (count : Nat) :
    List Candidate → Tally → Play (Deck s) Tally
  | [], tally => return tally
  | c :: rest, tally => do
    if count ≤ tally.added then
      return tally
    Deck.modifyJukebox fun jukebox => jukebox.setLane rest lane
    let tally ← booth.hand c tally
    booth.handOver lane count rest tally

/--
Hand over waiting candidates in the same way, but draw new ones as soon as the queue runs low. That
this may fail does not matter.
-/
def handOverWaiting (booth : Booth s) (plan : FillPlan) (count : Nat) :
    List Candidate → Tally → Play (Deck s) Tally
  | [], tally => return tally
  | c :: rest, tally => do
    if count ≤ tally.added then
      return tally
    Deck.modifyJukebox fun jukebox => jukebox.setLane rest .waiting
    let tally ← booth.hand c tally
    if rest.length < lowWater plan.albums then
      let stillNeeded := count - tally.added
      let _ ← Play.outcome <|
        booth.replenish plan stillNeeded (stillNeeded + bufferSize plan.albums)
      booth.handOver .waiting count (← get).jukebox.waiting tally
    else
      booth.handOverWaiting plan count rest tally

/--
Hand over up to `count` candidates and start playing. Fails if the player refused all of them.
-/
def deliver (booth : Booth s) (plan : FillPlan) (count : Nat) : Play (Deck s) Nat := do
  let candidates := (← get).jukebox.lane plan.lane
  let tally ←
    match plan.lane with
    | .waiting => booth.handOverWaiting plan count candidates {}
    | .scratch => booth.handOver .scratch count candidates {}
  if tally.added = 0 then
    match tally.lastError with
    | some e => throw e
    | none => return 0
  else
    Deck.onDevice booth.player.play
    Deck.emit .updateJukebox
    return tally.added

def fillOnce (booth : Booth s) : Play (Deck s) Nat := do
  let status ← Deck.onDevice booth.player.status
  let jukebox := (← get).jukebox
  match jukebox.settings.needed? status with
  | .error .overflow => do
    Deck.noteOverflow
    return 0
  | .ok none => return 0
  | .ok (some needed) =>
    let plan : FillPlan :=
      { lane := .waiting, albums := jukebox.addsAlbums, enforce := jukebox.enforcing }
    if jukebox.waiting.length < needed then
      booth.replenish plan needed (needed + bufferSize plan.albums)
    booth.deliver plan needed

/--
Keep the playback queue at its length. The result is the number of items added by the last attempt.
-/
def keepFilled (booth : Booth s) : Play (Deck s) Nat := do
  if (← get).jukebox.settings.mode = .off then
    return 0
  match ← (booth.fillOnce.retry (fillAttempts - 1)).outcome with
  | .ok added => return added
  | .error last =>
    Deck.emit .jukeboxError last.message
    throw (.retriesExhausted (UInt32.ofNat fillAttempts) last)

/--
Add `count` items, or as many as there are, right now. Whatever is waiting stays as it is.
-/
def addNow (booth : Booth s) (count : Nat) (albums : Bool) : Play (Deck s) Nat := do
  let count := min count maxAdd
  if count = 0 then
    return 0
  let plan : FillPlan := { lane := .scratch, albums, enforce := (← get).jukebox.enforcing }
  Deck.modifyJukebox fun jukebox => jukebox.setLane [] .scratch
  booth.replenish plan count count
  let added ← (booth.deliver plan count).outcome
  Deck.modifyJukebox fun jukebox => jukebox.setLane [] .scratch
  match added with
  | .ok added => return added
  | .error e => throw e

end Booth

end AutoDJ
