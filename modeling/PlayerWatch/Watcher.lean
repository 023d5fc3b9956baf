import PlayerWatch.Client
import PlayerWatch.Network
import PlayerWatch.Pace
import PlayerWatch.Slot
import PlayerWatch.Ticker

/-!
# The watcher

A watcher keeps a slot fresh. It dials, asks for the status once per tick, publishes what it gets and
announces it, and dials again after a wait when anything fails. It works in steps; `step?` takes the
next one, and `stop` may come between any two.
-/

namespace PlayerWatch

/-- An open connection, and how many statuses came over it. -/
structure Session where
  client : Client
  polls : Nat := 0

/-- What a watcher is about to do. -/
inductive Phase where
  | start
  /-- It waits before it dials again. -/
  | resting
  /-- It has dialled and waits for the greeting. -/
  | dialling (reception : Reception)
  | idle (session : Session) (ticker : Ticker)
  /-- It waits for the status. -/
  | asking (session : Session) (ticker : Ticker)
  /-- It has the status and waits for the current song. -/
  | completing (session : Session) (ticker : Ticker) (status : Status)
  /-- It has failed for good, because there is no ticker without a period. -/
  | broken

/-- A watcher of the player at an address. -/
structure Watcher where
  addr : String
  pace : Pace
  network : Network
  slot : Slot := {}
  /-- Milliseconds since it began. -/
  now : Nat := 0
  stage : Stage := .disconnected
  /-- The next wait before it dials again. -/
  delay : Nat := pace.backoff.initial
  phase : Phase := .start
  /-- What it has announced, and when. -/
  events : List (Nat × Event) := []

/-- The wording of the failure of a ticker without a period. -/
def noPeriod : String := "`period` must be non-zero."

namespace Watcher

/-! ### What a watcher tells -/

def announce (w : Watcher) (events : List Event) : Watcher :=
  { w with events := w.events ++ events.map fun e => (w.now, e) }

/-- Enters a stage and announces it, unless it is the same. -/
def enter (w : Watcher) (stage : Stage) : Watcher :=
  if w.stage = stage then w
  else { w.announce [.stageChanged w.addr stage] with stage }

/-- Lets time pass. -/
def elapse (w : Watcher) (ms : Nat) : Watcher := { w with now := w.now + ms }

/-! ### Steps -/

/-- Waits before dialling again. -/
def rest (w : Watcher) : Watcher := { w.enter .disconnected with phase := .resting }

def dial (w : Watcher) : Watcher :=
  let w := w.enter .connecting
  let (reception, network) := w.network.meet w.addr
  { w with phase := .dialling reception, network }

/-- Begins to ask over a new connection. -/
def welcome (w : Watcher) (connection : Connection) : Watcher :=
  let w := (w.announce [.connected w.addr connection.version]).enter .polling
  if w.pace.interval = 0 then { w with phase := .broken }
  else
    { w with phase := .idle ⟨⟨connection, true⟩, 0⟩ (.start w.now w.pace.interval) }

/-- Sends a request over the connection of a session. What can be written of it is noted when the writing
begins. -/
def send (w : Watcher) (session : Session) (request : Request) : Watcher :=
  { w with network := w.network.deliver (session.client.connection.accepted request.line) }

/-- Publishes a status and announces it. -/
def publish (w : Watcher) (session : Session) (ticker : Ticker) (status : Status) : Watcher :=
  let slot := w.slot.publish status
  let w := { w with slot, phase := .idle { session with polls := session.polls + 1 } ticker }
  w.announce [.statusUpdated w.addr slot.generation status.state]

/-- Ends a session that has failed. A session that brought a status makes the waits start anew. -/
def giveUp (w : Watcher) (session : Session) (error : RequestError) : Watcher :=
  let w := { w with delay := if session.polls = 0 then w.delay else w.pace.backoff.initial }
  (w.announce [.disconnected w.addr error.message]).rest

def takeStatus (w : Watcher) (session : Session) (ticker : Ticker) (a : Answered Status) :
    Watcher :=
  let w := w.announce a.events
  let session := { session with client := a.client }
  match a.result with
  | .error error => w.giveUp session error
  | .ok status =>
    if status.hasCurrentSong then
      { w.send session .currentSong with phase := .completing session ticker status }
    else w.publish session ticker status

/-- Goes on with the answer to `currentsong`. -/
def takeSong (w : Watcher) (session : Session) (ticker : Ticker) (status : Status)
    (a : Answered Song) : Watcher :=
  let b := Client.withSong status a
  let session := { session with client := a.client }
  (w.announce b.events).publish session ticker (b.result.toOption.getD status)

/-- Takes the next step; nothing if it waits for what never comes. -/
def step? (w : Watcher) : Option Watcher :=
  match w.phase with
  | .start => some w.dial
  | .resting => some { w.elapse w.delay with delay := w.pace.backoff.next w.delay }.dial
  | .dialling reception =>
    match reception.greet w.addr w.pace.limit with
    | .after t (.ok connection) => some ((w.elapse t).welcome connection)
    | .after t (.error _) => some (w.elapse t).rest
    | .forever => none
  | .idle session ticker =>
    let asked := { w with now := ticker.tickTime w.now, phase := .asking session (ticker.tick w.now) }
    some (asked.send session .status)
  | .asking session ticker =>
    match session.client.bareStatus with
    | .after t a => some ((w.elapse t).takeStatus session ticker a)
    | .forever => none
  | .completing session ticker status =>
    match session.client.currentSong with
    | .after t a => some ((w.elapse t).takeSong session ticker status a)
    | .forever => none
  | .broken => none

/-- Takes so many steps, or as many as there are. -/
def run (w : Watcher) : Nat → Watcher
  | 0 => w
  | n + 1 => match w.step? with
    | some w => w.run n
    | none => w

def stop (w : Watcher) : Watcher := w.enter .disconnected

/-! ### Running up to a point -/

/-- A point at which a watcher is stopped. -/
inductive Goal where
  /-- Before it begins. -/
  | start
  /-- When it has published so many statuses. -/
  | updates (count : Nat)
  /-- When it has been disconnected so often. -/
  | disconnects (count : Nat)
  /-- When nothing more comes. -/
  | silence
  deriving DecidableEq, Repr

/-- Whether an event says that a status was published. -/
def isUpdate : Event → Bool
  | .statusUpdated .. => true
  | _ => false

def isDisconnect : Event → Bool
  | .stageChanged _ .disconnected => true
  | _ => false

/-- Whether a watcher is at a point. -/
def isAt (w : Watcher) : Goal → Bool
  | .start => true
  | .updates count => count ≤ w.events.countP fun e => isUpdate e.2
  | .disconnects count => count ≤ w.events.countP fun e => isDisconnect e.2
  | .silence =>
    match w.phase with
    | .broken => false
    | _ => w.step?.isNone

/-- Takes steps up to a point; nothing if it is not reached in so many. -/
def follow (w : Watcher) (goal : Goal) : Nat → Option Watcher
  | 0 => none
  | steps + 1 =>
    if w.isAt goal then some w
    else
      match w.step? with
      | some w => w.follow goal steps
      | none => none

/-- How many steps what a dial meets is good for, at most: a status and a song for every line that
comes, and one of either when nothing is left. -/
def stepsFor : Reception → Nat
  | .accepted peer => 3 * peer.size + 9
  | _ => 3

/-- How many steps all turns and so many further dials are good for, at most. -/
def stepsForAll (n : Network) (further : Nat) : Nat :=
  n.turns.foldl (fun steps r => steps + stepsFor r) (further * stepsFor n.otherwise + 3)

/-- How many steps it can take to reach a point that is ever reached. -/
def patience (w : Watcher) : Goal → Nat
  | .disconnects count => stepsForAll w.network (count + 1)
  | .updates count => stepsForAll w.network (count + 1)
  | _ => stepsForAll w.network 1

/-- Takes steps up to a point; nothing if it is never reached. -/
def until? (w : Watcher) (goal : Goal) : Option Watcher := w.follow goal (w.patience goal)

end Watcher

end PlayerWatch
