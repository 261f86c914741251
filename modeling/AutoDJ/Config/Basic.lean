import AutoDJ.Files.Path
import AutoDJ.History.Basic
import AutoDJ.Service.Basic

namespace AutoDJ

/--
The configuration of a partition. Without a host or port the default of the player is meant.
-/
structure PartitionConfig where
  name : String := "default"
  host : Option String := none
  port : Option UInt16 := none
  jukebox : JukeboxSettings := {}
deriving Repr, DecidableEq

structure Config where
  /-- How long to wait between two polls, in milliseconds. -/
  pollInterval : UInt64 := 1000
  /-- How many songs to ask for at a time. -/
  cachePageSize : UInt64 := 1000
  /-- After how many seconds a reply is thrown away. -/
  responseMaxAge : UInt64 := 60
  /-- Whether to build the album index at the start. -/
  albumsCache : Bool := true
  /-- Whether to build the sticker index at the start. -/
  stickersCache : Bool := true
  /-- The path of the sticker database, unless the configuration of the player tells it. -/
  stickerDatabase : Option String := none
  /-- The path of the tail of the play history, unless it is in the directory for data. -/
  historyFile : Option String := none
  historyRotateSize : UInt64 := UInt64.ofNat History.defaultRotateSize
  historyMaxEntries : UInt64 := UInt64.ofNat History.defaultMaxEntries
  /-- Whether to print events as JSON texts instead of logging them. -/
  jsonEvents : Bool := false
  partitions : List PartitionConfig := [{}]
deriving Repr, DecidableEq

namespace Config

def cacheKinds (config : Config) : CacheKinds :=
  { albums := config.albumsCache, stickers := config.stickersCache }

/--
The options of a service. There are at least ten milliseconds between two polls, and at least one song
on a page.
-/
def serviceOptions (config : Config) (stickerDatabase : Option String) : ServiceOptions :=
  { pollInterval := max config.pollInterval.toNat 10
    pageSize := max config.cachePageSize.toNat 1
    responseMaxAge := config.responseMaxAge.toNat
    stickerDatabase
    cacheKinds := config.cacheKinds }

def historyPath (config : Config) (dataDirectory : String) : String :=
  config.historyFile.getD (Path.join dataDirectory "history")

end Config

end AutoDJ
