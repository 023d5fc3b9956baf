import PlayerWatch.Address
import PlayerWatch.Text.Blank

/-!
# Settings

Where the player is and how it is watched. `Settings.check?` says whether settings can be used; of
several defects it names the first.
-/

namespace PlayerWatch

structure PlayerSettings where
  host : String := "127.0.0.1"
  port : UInt16 := defaultPort
  deriving DecidableEq, Repr

/-- How the player is watched; all times are in milliseconds. -/
structure WatchSettings where
  /-- The time between two questions. -/
  pollInterval : UInt64 := 1000
  /-- The first wait after a failure. -/
  retryDelay : UInt64 := 1000
  /-- The longest wait after a failure. -/
  maxRetryDelay : UInt64 := 1000
  /-- The longest wait for the other end; none if there is no bound. -/
  ioTimeout : Option UInt64 := none
  deriving DecidableEq, Repr

structure Settings where
  player : PlayerSettings := {}
  watch : WatchSettings := {}
  deriving DecidableEq, Repr

namespace Settings

def address (s : Settings) : String := PlayerWatch.address s.player.host s.player.port

/-- The longest wait for the other end, as a number. -/
def limit (s : Settings) : Option Nat := s.watch.ioTimeout.map UInt64.toNat

/-- Why settings cannot be used. -/
inductive Defect where
  | blankHost
  | zeroPort
  | zeroPollInterval
  | zeroRetryDelay
  | retryDelayAboveMax (max delay : UInt64)
  | zeroIoTimeout
  deriving DecidableEq, Repr

def Defect.message : Defect → String
  | blankHost => "mpd.host must not be empty"
  | zeroPort => "mpd.port must not be 0"
  | zeroPollInterval => "watcher.poll_interval_ms must be greater than 0"
  | zeroRetryDelay => "watcher.retry_delay_ms must be greater than 0"
  | retryDelayAboveMax max delay =>
    "watcher.max_retry_delay_ms (" ++ Number.decimal max.toNat ++
      ") must be at least watcher.retry_delay_ms (" ++ Number.decimal delay.toNat ++ ")"
  | zeroIoTimeout => "watcher.io_timeout_ms must be greater than 0 when set"

/-- The first defect of settings, if they have one. -/
def defect? (s : Settings) : Option Defect :=
  if (Text.trim s.player.host.toList).isEmpty then some .blankHost
  else if s.player.port = 0 then some .zeroPort
  else if s.watch.pollInterval = 0 then some .zeroPollInterval
  else if s.watch.retryDelay = 0 then some .zeroRetryDelay
  else if s.watch.maxRetryDelay < s.watch.retryDelay then
    some (.retryDelayAboveMax s.watch.maxRetryDelay s.watch.retryDelay)
  else if s.watch.ioTimeout = some 0 then some .zeroIoTimeout
  else none

end Settings

end PlayerWatch
