import AutoDJ.Event
import AutoDJ.Json.Printer

namespace AutoDJ.Event

def toJson (event : Event) : Json.Value :=
  .ofMembers <|
    [("kind", .ofText event.kind.name), ("partition", .ofText event.partition)]
      ++ (event.message.map fun message => ("message", .ofText message)).toList

def notification (event : Event) : Json.Value :=
  let message : Json.Value :=
    match event.message with
    | some message => .ofText message
    | none => .null
  .ofMembers
    [ ("jsonrpc", .ofText "2.0"),
      ("method", .ofText event.kind.name),
      ("params", .ofMembers [("message", message), ("partition", .ofText event.partition)]) ]

def toLine (event : Event) : String :=
  event.notification.compact ++ "\n"

def toLines (events : List Event) : String :=
  String.join (events.map toLine)

end AutoDJ.Event
