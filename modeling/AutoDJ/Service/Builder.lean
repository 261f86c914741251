import AutoDJ.Service.Basic

namespace AutoDJ

namespace Backend

def asClient (handle : σ) (x : Play (σ × ω) α) : Play ω α := fun world =>
  match x (handle, world) with
  | .ok value (_, world) => .ok value world
  | .error e (_, world) => .error e world

/--
Build the given kinds of snapshot. The sticker database, if there is one, is opened first; it is left
alone if stickers are not asked for.
-/
def build (b : Backend σ ω) (options : ServiceOptions) (handle : σ) (kinds : CacheKinds) :
    Play ω Built := do
  let store : Option (StickerStore ω) ←
    match options.stickerDatabase with
    | some path => if kinds.stickers then pure (some (← b.openStickers path)) else pure none
    | none => pure none
  let store := store.map fun store uri => Play.onSnd (store uri)
  asClient handle (buildCaches b.player store options.pageSize kinds)

end Backend

def Built.deliveries (built : Built) : List Delivery :=
  (built.albums.map fun index => Delivery.albums (some index)).toList
    ++ (built.stickers.map fun index => Delivery.stickers (some index)).toList

namespace Service

variable (b : Backend σ ω)

def emitCacheError (sv : Service σ ω) (e : Error) : Service σ ω :=
  { sv with
    room := sv.room.emit
      { kind := .cacheError, partition := everyPartition, message := some e.message } }

def post (sv : Service σ ω) (uptime : Nat) (delivery : Delivery) : Service σ ω :=
  { sv with exchange := sv.exchange.request 0 (.deliver delivery) uptime }

def release (sv : Service σ ω) (kind : CacheKind) : Service σ ω :=
  { sv with exchange := sv.exchange.release kind }

def claim (kinds : CacheKinds) : Play (Service σ ω) Unit := fun sv =>
  match Exchange.claim kinds sv.exchange with
  | .ok () exchange => .ok () { sv with exchange }
  | .error e exchange => .error e { sv with exchange }

/--
Start a build in the background. Fails if one of the kinds is being built already.
-/
def requestBuild (kinds : CacheKinds) : Play (Service σ ω) Unit := do
  match (← get).partitions with
  | [] => return
  | first :: _ =>
    claim kinds
    modify fun sv => { sv with builds := sv.builds ++ [{ handle := b.clone first.handle, kinds }] }

def advance (uptime : Nat) (build : Build σ) (sv : Service σ ω) : Option (Build σ) × Service σ ω :=
  match build.phase with
  | .scanning =>
    match b.build sv.options build.handle build.kinds sv.room.world with
    | .ok built world =>
      let sv := { sv with room := { sv.room with world } }
      if sv.exchange.isShuttingDown then
        (some { build with phase := .yielding build.kinds.toList }, sv)
      else
        (some { build with phase := .posting built.deliveries }, sv)
    | .error e world =>
      let sv := { sv with room := { sv.room with world } }
      (some { build with phase := .yielding build.kinds.toList }, sv.emitCacheError e)
  | .posting [] | .yielding [] => (none, sv)
  | .posting (delivery :: rest) =>
    (some { build with phase := .posting rest }, sv.post uptime delivery)
  | .yielding (kind :: rest) => (some { build with phase := .yielding rest }, sv.release kind)

def stepBuild (uptime : Nat) (position : Nat) (sv : Service σ ω) : Service σ ω :=
  match sv.builds[position]? with
  | none => sv
  | some build =>
    let (left, sv) := advance b uptime build sv
    { sv with
      builds :=
        match left with
        | some build => sv.builds.set position build
        | none => sv.builds.eraseIdx position }

/--
The most steps that a build takes: the walk through the library, a message or claim for each kind, and
the last one.
-/
def buildSteps : Nat := 4

def finishBuild (uptime : Nat) (sv : Service σ ω) : Service σ ω :=
  go buildSteps sv.builds.length sv
where
  go : Nat → Nat → Service σ ω → Service σ ω
  | 0, _, sv => sv
  | steps + 1, running, sv =>
    let sv := stepBuild b uptime 0 sv
    if sv.builds.length < running then sv else go steps running sv

def finishBuilds (uptime : Nat) (sv : Service σ ω) : Service σ ω :=
  sv.builds.foldl (fun sv _ => finishBuild b uptime sv) sv

end Service

end AutoDJ
