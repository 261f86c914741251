import AutoDJ.Service.Builder

/-!
This module contains the work of a player service: it polls its partitions, notices changes of the
library, answers requests and puts finished snapshots to use.
-/

namespace AutoDJ.Service

variable (b : Backend σ ω)

def reply (sv : Service σ ω) (now : Moment) (id : UInt64) (reply : Reply) : Service σ ω :=
  if id = 0 then sv else { sv with exchange := sv.exchange.reply id reply now.uptime }

/--
Put a finished snapshot to use, unless the service is shutting down. In any case the next build of its
kind may start.
-/
def install (sv : Service σ ω) (delivery : Delivery) : Service σ ω :=
  let sv :=
    if sv.exchange.isShuttingDown then
      sv
    else
      let clear (p : Partition σ) : Partition σ := { p with jukebox := p.jukebox.invalidate }
      let result := sv.caches.install delivery clear sv.partitions
      { sv with
        caches := result.caches
        partitions := result.dependents
        room := sv.room.emit result.event }
  sv.release delivery.kind

def fill (now : Moment) (name : String) (count : Nat) (albums : Bool) : Play (Service σ ω) Nat :=
  fun sv =>
    match sv.partitions.span (·.name != name) with
    | (_, []) => .error (.unknownPartition name) sv
    | (before, p :: after) =>
      let method (booth : Booth (σ × ω)) : Play (Deck (σ × ω)) Nat := booth.addNow count albums
      let back (state : Partition σ × Room ω) : Service σ ω :=
        { sv with partitions := before ++ state.1 :: after, room := state.2 }
      match Partition.fill b sv.caches sv.options.pageSize now.unix method (p, sv.room) with
      | .ok added state => .ok added (back state)
      | .error e state => .error e (back state)

def partition? (sv : Service σ ω) (name : String) : Option (Partition σ) :=
  sv.partitions.find? (·.name == name)

def configure (sv : Service σ ω) (name : String) (settings : JukeboxSettings) : Service σ ω :=
  match sv.partitions.span (·.name != name) with
  | (_, []) => sv
  | (before, p :: after) =>
    { sv with
      partitions := before ++ { p with jukebox := p.jukebox.configure settings } :: after }

def handle (now : Moment) (message : Message Request) (sv : Service σ ω) : Service σ ω :=
  match message.payload with
  | .buildCaches kinds =>
    match requestBuild b kinds sv with
    | .ok () sv => sv.reply now message.id .accepted
    | .error (.busy kind) sv => sv.reply now message.id (.busy kind)
    | .error e sv => sv.reply now message.id (.failed e.message)
  | .deliver delivery => sv.install delivery
  | .fill partition count albums =>
    match fill b now partition count.toNat albums sv with
    | .ok added sv => sv.reply now message.id (.filled partition added)
    | .error e sv => sv.reply now message.id (.failed e.message)

def drain (now : Moment) (sv : Service σ ω) : Nat × Service σ ω :=
  go sv.exchange.inbox.size 0 sv
where
  /-- Handling a request sends none, so that there are as many as at the start. -/
  go : Nat → Nat → Service σ ω → Nat × Service σ ω
  | 0, handled, sv => (handled, sv)
  | waiting + 1, handled, sv =>
    match sv.exchange.takeRequest with
    | (none, _) => (handled, sv)
    | (some message, exchange) => go waiting (handled + 1) (handle b now message { sv with exchange })

def buildFailed (sv : Service σ ω) (kinds : CacheKinds) (e : Error) : Service σ ω :=
  kinds.toList.foldl release (sv.emitCacheError e)

/--
Build snapshots and put them to use before anything else happens.
-/
def rebuildNow (now : Moment) (kinds : CacheKinds) : Play (Service σ ω) Unit := do
  match (← get).partitions with
  | [] => return
  | first :: _ =>
    claim kinds
    let sv ← get
    match b.build sv.options (b.clone first.handle) kinds sv.room.world with
    | .ok built world =>
      let sv := { sv with room := { sv.room with world } }
      let sv := built.deliveries.foldl (fun sv delivery => sv.post now.uptime delivery) sv
      set (drain b now sv).2
    | .error e world =>
      set (buildFailed { sv with room := { sv.room with world } } kinds e)
      throw e

/--
Look whether the library has changed since the last time and, if so, have all snapshots built anew.
-/
def checkLibrary (sv : Service σ ω) : Service σ ω :=
  match sv.partitions with
  | [] => sv
  | first :: rest =>
    match b.player.stats (first.handle, sv.room.world) with
    | .error _ (handle, world) =>
      { sv with partitions := { first with handle } :: rest, room := { sv.room with world } }
    | .ok stats (handle, world) =>
      let changed := sv.libraryToken.any (· != stats.updated)
      let sv :=
        { sv with
          partitions := { first with handle } :: rest
          room := { sv.room with world }
          libraryToken := some stats.updated }
      if changed then
        match requestBuild b .all sv with
        | .ok () sv | .error _ sv => sv
      else
        sv

def poll (now : Moment) (sv : Service σ ω) : Service σ ω :=
  let sv := checkLibrary b sv
  let (partitions, room) :=
    Partition.pollAll b sv.caches sv.options.pageSize now.unix sv.partitions sv.room
  { sv with partitions, room }

def shutDown (sv : Service σ ω) : Service σ ω :=
  { sv with exchange := sv.exchange.shutDown }

/--
Throw away the messages left and move the play history to its tail. Background builds are left alone.
-/
def finish : Play (Service σ ω) Unit := fun sv =>
  let sv :=
    { sv with
      exchange :=
        { sv.exchange with
          inbox := (sv.exchange.inbox.expire 0 0).2
          responses := (sv.exchange.responses.expire 0 0).2 } }
  match Room.flush b.tail sv.room with
  | .ok () room => .ok () { sv with room }
  | .error e room => .error e { sv with room }

def round (now : Moment) (sv : Service σ ω) : Service σ ω :=
  let (_, sv) := drain b now (poll b now sv)
  { sv with
    exchange :=
      { sv.exchange with
        responses :=
          (sv.exchange.responses.expire (sv.options.responseMaxAge * 1000) now.uptime).2 } }

/--
Serve until the service is shut down, which happens during the last of the polls at the given times,
or before the first if there is none.
-/
def run (polls : List Moment) : Play (Service σ ω) Unit := do
  if !(← get).options.cacheKinds.isEmpty then
    let kinds := (← get).options.cacheKinds
    let _ ← Play.outcome (requestBuild b kinds)
  modify (go polls)
  finish b
where
  go : List Moment → Service σ ω → Service σ ω
  | [], sv => sv.shutDown
  | now :: polls, sv =>
    if sv.exchange.isShuttingDown then
      sv
    else if polls.isEmpty then
      round b now sv.shutDown
    else
      go polls (round b now sv)

end AutoDJ.Service
