namespace AutoDJ

inductive EventKind where
  | updateAlbumCache
  | updateStickerCache
  | updateJukebox
  | jukeboxWarning
  | jukeboxError
  | cacheError
deriving Repr, DecidableEq

namespace EventKind

def all : List EventKind :=
  [updateAlbumCache, updateStickerCache, updateJukebox, jukeboxWarning, jukeboxError, cacheError]

def name : EventKind → String
  | updateAlbumCache => "update_album_cache"
  | updateStickerCache => "update_sticker_cache"
  | updateJukebox => "update_jukebox"
  | jukeboxWarning => "jukebox_warning"
  | jukeboxError => "jukebox_error"
  | cacheError => "cache_error"

end EventKind

def everyPartition : String := "*"

structure Event where
  kind : EventKind
  partition : String
  message : Option String := none
deriving Repr, DecidableEq

inductive LogLevel where
  | info
  | warning
  | error
deriving Repr, DecidableEq

def LogLevel.name : LogLevel → String
  | info => "INFO"
  | warning => "WARN"
  | error => "ERROR"

namespace Event

def logLevel (event : Event) : LogLevel :=
  match event.kind with
  | .jukeboxWarning => .warning
  | .jukeboxError | .cacheError => .error
  | .updateAlbumCache | .updateStickerCache | .updateJukebox => .info

/--
An event as a line of the log. A colon sets off the message of a warning or an error.
-/
def logText (event : Event) : String :=
  let colon :=
    match event.logLevel with
    | .info => ""
    | .warning | .error => ":"
  "[" ++ event.partition ++ "] " ++ event.kind.name ++ colon ++ " " ++ event.message.getD ""

def count (events : List Event) (kind : EventKind) : Nat :=
  events.countP (·.kind == kind)

end Event

end AutoDJ
