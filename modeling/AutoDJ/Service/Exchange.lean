import AutoDJ.Cache.Flags
import AutoDJ.Cache.Snapshot
import AutoDJ.Mailbox

namespace AutoDJ

inductive Request where
  /-- Build snapshots in the background. -/
  | buildCaches (kinds : CacheKinds)
  /-- Take the outcome of a build. -/
  | deliver (delivery : Delivery)
  /-- Add songs or albums to a partition right now. -/
  | fill (partition : String) (count : UInt64) (albums : Bool)

def Request.name : Request → String
  | buildCaches _ => "build_cache"
  | deliver (.albums _) => "albums_built"
  | deliver (.stickers _) => "stickers_built"
  | fill .. => "fill_jukebox"

inductive Reply where
  | accepted
  | busy (kind : CacheKind)
  | filled (partition : String) (added : Nat)
  | failed (message : String)
deriving Repr, DecidableEq

structure Exchange where
  inbox : Mailbox Request := {}
  responses : Mailbox Reply := {}
  flags : BuildFlags := {}
  isShuttingDown : Bool := false

namespace Exchange

/--
Send a request. The number zero means that no reply is wanted.
-/
def request (exchange : Exchange) (id : UInt64) (request : Request) (uptime : Nat := 0) : Exchange :=
  { exchange with inbox := exchange.inbox.push { id, payload := request, createdAt := uptime } }

def reply (exchange : Exchange) (id : UInt64) (reply : Reply) (uptime : Nat := 0) : Exchange :=
  { exchange with responses := exchange.responses.push { id, payload := reply, createdAt := uptime } }

def takeReply (exchange : Exchange) (id : UInt64) : Option Reply × Exchange :=
  let (message, responses) := exchange.responses.pop id
  (message.map (·.payload), { exchange with responses })

def takeRequest (exchange : Exchange) (id : UInt64 := 0) : Option (Message Request) × Exchange :=
  let (message, inbox) := exchange.inbox.pop id
  (message, { exchange with inbox })

def claim (kinds : CacheKinds) : Play Exchange Unit := fun exchange =>
  match BuildFlags.claim kinds exchange.flags with
  | .ok () flags => .ok () { exchange with flags }
  | .error e flags => .error e { exchange with flags }

def release (exchange : Exchange) (kind : CacheKind) : Exchange :=
  { exchange with flags := exchange.flags.release kind }

def shutDown (exchange : Exchange) : Exchange :=
  { exchange with
    isShuttingDown := true
    inbox := exchange.inbox.shutDown
    responses := exchange.responses.shutDown }

end Exchange

end AutoDJ
