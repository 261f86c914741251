import AutoDJ.Proofs.Play.Ends
import AutoDJ.Service.Run

namespace AutoDJ.Service

variable {σ ω : Type}

inductive Operation where
  | requestBuild (kinds : CacheKinds)
  | rebuildNow (now : Moment) (kinds : CacheKinds)
  | poll (now : Moment)
  /-- Handle a request that has not gone through the inbox. -/
  | handle (now : Moment) (id : UInt64) (request : Request)
  /-- Handle the first request in the inbox, if there is one. -/
  | serve (now : Moment)
  | drain (now : Moment)

def serveNext (b : Backend σ ω) (now : Moment) (sv : Service σ ω) : Service σ ω :=
  match sv.exchange.takeRequest with
  | (none, _) => sv
  | (some message, exchange) => handle b now message { sv with exchange }

def Operation.run (b : Backend σ ω) (sv : Service σ ω) : Operation → Service σ ω
  | .requestBuild kinds => (Service.requestBuild b kinds).after sv
  | .rebuildNow now kinds => (Service.rebuildNow b now kinds).after sv
  | .poll now => Service.poll b now sv
  | .handle now id request => Service.handle b now { id, payload := request } sv
  | .serve now => serveNext b now sv
  | .drain now => (Service.drain b now sv).2

inductive Intervention where
  | request (id : UInt64) (request : Request) (uptime : Nat)
  | takeReply (id : UInt64)
  /-- The next step of the background build at a position. -/
  | build (uptime position : Nat)
  | shutDown

def Intervention.run (b : Backend σ ω) (sv : Service σ ω) : Intervention → Service σ ω
  | .request id r uptime => { sv with exchange := sv.exchange.request id r uptime }
  | .takeReply id => { sv with exchange := (sv.exchange.takeReply id).2 }
  | .build uptime position => stepBuild b uptime position sv
  | .shutDown => sv.shutDown

inductive Happening (ω : Type) where
  | operation (operation : Operation)
  | intervention (intervention : Intervention)
  | outside (change : ω → ω)

def Happening.run (b : Backend σ ω) (sv : Service σ ω) : Happening ω → Service σ ω
  | .operation op => op.run b sv
  | .intervention i => i.run b sv
  | .outside change => { sv with room := { sv.room with world := change sv.room.world } }

def afterAll (b : Backend σ ω) (sv : Service σ ω) (happenings : List (Happening ω)) : Service σ ω :=
  happenings.foldl (Happening.run b) sv

end AutoDJ.Service
