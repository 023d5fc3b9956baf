import PlayerWatch.Settings.Basic
import PlayerWatch.Json.Fields
import PlayerWatch.Json.Writer

/-!
# Settings in JSON

Settings are an object with one member for each section. Everything may be left out when settings
are read and has its default then.
-/

namespace PlayerWatch

open Json

namespace PlayerSettings

def toJson (s : PlayerSettings) : Json :=
  record [("host", text s.host), ("port", natural s.port.toNat)]

def fields : List Field := [field "host" readText, field "port" readUInt16]

def ofJson : Read PlayerSettings := fun j => do
  let e ← readEntries .streamed true fields j
  let d : PlayerSettings := {}
  return {
    host := ← e.getD "host" readText d.host
    port := ← e.getD "port" readUInt16 d.port }

end PlayerSettings

namespace WatchSettings

def toJson (s : WatchSettings) : Json :=
  record
    [("poll_interval_ms", natural s.pollInterval.toNat),
     ("retry_delay_ms", natural s.retryDelay.toNat),
     ("max_retry_delay_ms", natural s.maxRetryDelay.toNat),
     ("io_timeout_ms", optional (fun n => natural n.toNat) s.ioTimeout)]

def fields : List Field :=
  [field "poll_interval_ms" readUInt64, field "retry_delay_ms" readUInt64,
   field "max_retry_delay_ms" readUInt64, field "io_timeout_ms" (readOptional readUInt64)]

def ofJson : Read WatchSettings := fun j => do
  let e ← readEntries .streamed true fields j
  let d : WatchSettings := {}
  return {
    pollInterval := ← e.getD "poll_interval_ms" readUInt64 d.pollInterval
    retryDelay := ← e.getD "retry_delay_ms" readUInt64 d.retryDelay
    maxRetryDelay := ← e.getD "max_retry_delay_ms" readUInt64 d.maxRetryDelay
    ioTimeout := ← e.getD "io_timeout_ms" (readOptional readUInt64) d.ioTimeout }

end WatchSettings

namespace Settings

def toJson (s : Settings) : Json :=
  record [("mpd", s.player.toJson), ("watcher", s.watch.toJson)]

def fields : List Field :=
  [field "mpd" PlayerSettings.ofJson, field "watcher" WatchSettings.ofJson]

def ofJson : Read Settings := fun j => do
  let e ← readEntries .streamed true fields j
  return {
    player := ← e.getD "mpd" PlayerSettings.ofJson {}
    watch := ← e.getD "watcher" WatchSettings.ofJson {} }

end Settings

end PlayerWatch
