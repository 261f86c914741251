import AutoDJ.Text.Blank
import AutoDJ.Text.Lines
import AutoDJ.Text.Numeral

namespace AutoDJ

structure HistoryEntry where
  timestamp : Int64
  uri : String
deriving Repr, DecidableEq

namespace HistoryEntry

/--
The entry that a line holds. What follows the first `::` is the URI, whatever it is made of.
-/
def ofLine? (line : String) : Option HistoryEntry := do
  let (timestamp, uri) ← Text.breakOn "::" line
  let timestamp ← Text.readInt64? (Text.trim timestamp)
  if uri.isEmpty then none else some { timestamp, uri }

def toLine (entry : HistoryEntry) : String :=
  toString entry.timestamp ++ "::" ++ entry.uri

/--
The entries in a text; blank and malformed lines are passed over.
-/
def ofText (text : String) : List HistoryEntry :=
  ((Text.lines text).filter fun line => Text.trim line ≠ "").filterMap ofLine?

def toText (entries : List HistoryEntry) : String :=
  String.join (entries.map fun entry => entry.toLine ++ "\n")

end HistoryEntry

end AutoDJ
