import AutoDJ.Cache.Kind

/-!
This module contains the reasons for which an operation fails.

Some failures come from the outside: the player, a file, the sticker database, the settings. The
others are decisions of the program itself, such as refusing a second build of the same snapshot.
-/

namespace AutoDJ

inductive Error where
  /-- The player refused a command or answered with something unreadable. -/
  | protocol (command message : String)
  | io (reason : String)
  | sticker (reason : String)
  | config (reason : String)
  /-- A build of this kind of snapshot is under way. -/
  | busy (kind : CacheKind)
  /-- Albums were asked for before there was an album index. -/
  | albumCacheMissing
  | unknownPartition (name : String)
  /-- The source has nothing acceptable to offer. -/
  | noCandidates
  /-- Every attempt of a fill failed, the last one for the given reason. -/
  | retriesExhausted (attempts : UInt32) (last : Error)
deriving Repr, DecidableEq

namespace Error

def message : Error → String
  | protocol command message => "player command `" ++ command ++ "` failed: " ++ message
  | io reason => "IO error: " ++ reason
  | sticker reason => "sticker database error: " ++ reason
  | config reason => "configuration error: " ++ reason
  | busy kind => kind.noun ++ " cache build already in progress"
  | albumCacheMissing => "album cache is not available"
  | unknownPartition name => "unknown partition `" ++ name ++ "`"
  | noCandidates => "no songs or albums matched the jukebox constraints"
  | retriesExhausted attempts last =>
    "jukebox gave up after " ++ toString attempts ++ " attempts: " ++ last.message

/--
Whether an error is a decision of the program rather than a failure from the outside.
-/
def isPolicy : Error → Bool
  | busy _ | albumCacheMissing | noCandidates | unknownPartition _ => true
  | protocol .. | io _ | sticker _ | config _ | retriesExhausted .. => false

end Error

end AutoDJ
