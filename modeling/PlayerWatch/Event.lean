/-!
# Events

What a watcher announces: the stages it goes through, every status it publishes, and what it could
not read on the way.
-/

namespace PlayerWatch

inductive Stage where
  | disconnected
  | connecting
  | polling
  deriving DecidableEq, Repr

/-- Something a watcher or a client announces. -/
inductive Event where
  /-- A watcher has entered another stage. -/
  | stageChanged (addr : String) (stage : Stage)
  | connected (addr version : String)
  /-- A session with a player has ended. -/
  | disconnected (addr reason : String)
  /-- A status was published under a generation. -/
  | statusUpdated (addr : String) (generation : UInt64) (state : String)
  /-- A value in the reply to a request could not be read. -/
  | fieldUnreadable (request field value : String)
  /-- The metadata of the current song could not be had. -/
  | songUnavailable (addr reason : String)
  deriving DecidableEq, Repr

end PlayerWatch
