import PlayerWatch.Client
import PlayerWatch.Network
import PlayerWatch.Slot

/-!
# The controller

A controller does what its users ask for over a connection of its own, which it dials when it is
first needed and again after it was lost. It never tries anything twice.
-/

namespace PlayerWatch

/-- A controller of the player at an address. -/
structure Controller where
  addr : String
  /-- The longest wait for the other end, in milliseconds. -/
  limit : Option Nat := none
  /-- Whether its clients announce what could not be read. -/
  announces : Bool := false
  /-- The client that was used last. -/
  client : Option Client := none

/-- What a call to a controller did. -/
structure Handled (α : Type) where
  result : Except ClientError α
  events : List Event
  controller : Controller
  network : Network

/-- A call seen as one with another answer. -/
def Handled.map {α β : Type} (f : α → β) (h : Handled α) : Handled β :=
  { h with result := h.result.map f }

namespace Controller

def openClient? (c : Controller) : Option Client := c.client.filter Client.isOpen

/-- A controller whose client has answered. -/
def handle {α : Type} (c : Controller) (n : Network) (a : Answered α) : Handled α where
  result :=
    match a.result with
    | .ok value => .ok value
    | .error error => .error (.request error)
  events := a.events
  controller := { c with client := some a.client }
  network := n.deliver a.sent

/-- Puts a question to an open client, dialling first if there is none. -/
def withClient {α : Type} (c : Controller) (n : Network) (ask : Client → Wait (Answered α)) :
    Wait (Handled α) :=
  match c.openClient? with
  | some client => (ask client).map (c.handle n)
  | none =>
    let (dialled, n) := n.dial c.addr c.limit
    dialled.bind fun
      | .error error => .after 0 ⟨.error (.dial error), [], c, n⟩
      | .ok connection => (ask ⟨connection, c.announces⟩).map (c.handle n)

def status (c : Controller) (n : Network) : Wait (Handled Status) := c.withClient n Client.status

/-- Asks for the values of a tag. -/
def list (c : Controller) (n : Network) (tag : String) (filters : List (String × String)) :
    Wait (Handled (List String)) :=
  c.withClient n fun client => client.list tag filters

def control (c : Controller) (n : Network) (control : Control) : Wait (Handled Unit) :=
  c.withClient n fun client => client.control control

/-- Pauses if the status in a slot says that the player plays, and resumes otherwise. The answer says
whether a pause was asked for. -/
def togglePause (c : Controller) (n : Network) (slot : Slot) : Wait (Handled Bool) :=
  let playing := slot.read.any Status.isPlaying
  (c.control n (.pause playing)).map (Handled.map fun _ => playing)

/-- Ends the connection, if there is one. -/
def close (c : Controller) : Controller := { c with client := none }

/-! ### Calls -/

/-- What a controller can be asked to do. -/
inductive Call where
  | status
  | list (tag : String) (filters : List (String × String))
  | control (control : Control)
  | togglePause
  | close

/-- What a controller gives back. -/
inductive Outcome where
  | done
  | status (status : Status)
  | texts (texts : List String)
  | paused (paused : Bool)

/-- Does what a controller was asked to do. -/
def perform (c : Controller) (n : Network) (slot : Slot) : Call → Wait (Handled Outcome)
  | .status => (c.status n).map (Handled.map .status)
  | .list tag filters => (c.list n tag filters).map (Handled.map .texts)
  | .control control => (c.control n control).map (Handled.map fun _ => .done)
  | .togglePause => (c.togglePause n slot).map (Handled.map .paused)
  | .close => .after 0 ⟨.ok .done, [], c.close, n⟩

end Controller

end PlayerWatch
