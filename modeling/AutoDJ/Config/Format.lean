import AutoDJ.Config.Basic
import AutoDJ.Json.Codec

namespace AutoDJ

open Json (Codec)

def Tag.codec : Codec Tag :=
  .choice Tag.all Tag.name

def JukeboxMode.codec : Codec JukeboxMode :=
  .choice JukeboxMode.all JukeboxMode.name

def Source.codec : Codec Source where
  write
    | .database => .ofText "database"
    | .playlist name => .ofMembers [("playlist", .ofText name)]
  read?
    | .object [(some "playlist", .string name)] => name.map .playlist
    | value => if Codec.caseName? value = some "database" then some .database else none

def JukeboxSettings.fields : List (Json.Field JukeboxSettings) :=
  [ .of "mode" JukeboxMode.codec (·.mode) fun mode s => { s with mode },
    .of "queue_length" .uint64 (·.queueLength) fun queueLength s => { s with queueLength },
    .of "last_played_hours" .uint32 (·.lastPlayedHours)
      fun lastPlayedHours s => { s with lastPlayedHours },
    .of "enforce_unique" .bool (·.enforceUnique) fun enforceUnique s => { s with enforceUnique },
    .of "unique_tag" (.optional Tag.codec) (·.uniqueTag) fun uniqueTag s => { s with uniqueTag },
    .of "source" Source.codec (·.source) fun source s => { s with source },
    .of "crossfade_secs" .uint32 (·.crossfadeSecs) fun crossfadeSecs s => { s with crossfadeSecs },
    .of "ignore_hated" .bool (·.ignoreHated) fun ignoreHated s => { s with ignoreHated } ]

def JukeboxSettings.codec : Codec JukeboxSettings :=
  .record JukeboxSettings.fields {}

def PartitionConfig.fields : List (Json.Field PartitionConfig) :=
  [ .of "name" .text (·.name) fun name p => { p with name },
    .of "host" (.optional .text) (·.host) fun host p => { p with host },
    .of "port" (.optional .uint16) (·.port) fun port p => { p with port },
    .of "jukebox" JukeboxSettings.codec (·.jukebox) fun jukebox p => { p with jukebox } ]

def PartitionConfig.codec : Codec PartitionConfig :=
  .record PartitionConfig.fields {}

namespace Config

def fields : List (Json.Field Config) :=
  [ .of "poll_interval_ms" .uint64 (·.pollInterval) fun pollInterval c => { c with pollInterval },
    .of "cache_page_size" .uint64 (·.cachePageSize) fun cachePageSize c => { c with cachePageSize },
    .of "response_max_age_secs" .uint64 (·.responseMaxAge)
      fun responseMaxAge c => { c with responseMaxAge },
    .of "albums_cache" .bool (·.albumsCache) fun albumsCache c => { c with albumsCache },
    .of "stickers_cache" .bool (·.stickersCache) fun stickersCache c => { c with stickersCache },
    .of "sticker_db" (.optional .text) (·.stickerDatabase)
      fun stickerDatabase c => { c with stickerDatabase },
    .of "history_file" (.optional .text) (·.historyFile) fun historyFile c => { c with historyFile },
    .of "history_rotate_size" .uint64 (·.historyRotateSize)
      fun historyRotateSize c => { c with historyRotateSize },
    .of "history_max_entries" .uint64 (·.historyMaxEntries)
      fun historyMaxEntries c => { c with historyMaxEntries },
    .of "json_events" .bool (·.jsonEvents) fun jsonEvents c => { c with jsonEvents },
    .of "partitions" (.list PartitionConfig.codec) (·.partitions)
      fun partitions c => { c with partitions } ]

def codec : Codec Config :=
  .record fields {}

end Config

end AutoDJ
