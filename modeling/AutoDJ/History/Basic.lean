import AutoDJ.History.Entry
import AutoDJ.Player.Basic

/-!
This module contains the play history. New entries are kept in memory, newest first, and moved to a
text of limited length, the tail, once there are too many of them.
-/

namespace AutoDJ

structure Tail (s : Type) where
  /-- The text of the tail, if there is one. -/
  read : Play s (Option String)
  replace : (text : String) → Play s Unit

namespace Tail

def entries (tail : Tail s) : Play s (List HistoryEntry) := do
  match ← tail.read with
  | none => return []
  | some text => return HistoryEntry.ofText text

end Tail

structure History where
  /-- The entries in memory, newest first. -/
  recent : List HistoryEntry := []
  /-- How many entries may stay in memory. -/
  rotateSize : Nat
  /-- How many entries the tail may have. -/
  maxEntries : Nat
deriving Repr

namespace History

def defaultRotateSize : Nat := 20

def defaultMaxEntries : Nat := 200

/--
An empty history. Its tail has room for at least one entry.
-/
def create (rotateSize : Nat := defaultRotateSize) (maxEntries : Nat := defaultMaxEntries) :
    History :=
  { rotateSize, maxEntries := max maxEntries 1 }

def entries (history : History) (tail : Tail s) : Play s (List HistoryEntry) := do
  return history.recent ++ (← tail.entries)

def urisSince (history : History) (tail : Tail s) (since : Int64) : Play s (List String) := do
  return ((← history.entries tail).filter fun entry => since ≤ entry.timestamp).map (·.uri)

/--
Move the entries in memory to the front of the tail and drop what exceeds its length. If that fails,
they stay in memory.
-/
def rotate (tail : Tail s) : Play (History × s) Unit := do
  let history := (← get).1
  if history.recent.isEmpty then
    return
  let entries ← Play.onSnd (history.entries tail)
  Play.onSnd (tail.replace (HistoryEntry.toText (entries.take history.maxEntries)))
  modify fun (history, state) => ({ history with recent := [] }, state)

def record (tail : Tail s) (uri : String) (timestamp : Int64) : Play (History × s) Unit := do
  modify fun (history, state) =>
    ({ history with recent := { timestamp, uri } :: history.recent }, state)
  let history := (← get).1
  if history.rotateSize < history.recent.length then
    rotate tail

def flush (tail : Tail s) : Play (History × s) Unit :=
  rotate tail

end History

end AutoDJ
