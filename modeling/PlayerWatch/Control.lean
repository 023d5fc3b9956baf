import PlayerWatch.Request

/-!
# Controls

A control changes what a player does and is answered without a payload.
-/

namespace PlayerWatch

/-- What a player can be told to do. -/
inductive Control where
  | next
  | previous
  /-- Start playback, at a position of the queue if one is given. -/
  | play (position : Option UInt32)
  /-- Start playback, of the song with a given number if one is given. -/
  | playId (id : Option UInt32)
  | pause (paused : Bool)
  | random (on : Bool)
  | repeatAll (on : Bool)
  | single (on : Bool)
  deriving DecidableEq, Repr

def Control.request : Control → Request
  | next => .next
  | previous => .previous
  | play position => .play position
  | playId id => .playId id
  | pause paused => .pause paused
  | random on => .random on
  | repeatAll on => .repeatAll on
  | single on => .single on

end PlayerWatch
