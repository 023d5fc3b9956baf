import PlayerWatch.Connection
import PlayerWatch.Control
import PlayerWatch.Event
import PlayerWatch.Player.Decode
import PlayerWatch.TagValues

/-!
# Clients

A client puts questions to a player over one connection and reads the answers. It may announce what
it could not read or get; whether it does changes nothing else. The status is asked for in two
steps: `status` itself, and the metadata of the current song if there is one. Failing to get the
metadata leaves it empty and does not fail the whole.
-/

namespace PlayerWatch

/-- A connection, and whether its user wants to hear of what could not be read. -/
structure Client where
  connection : Connection
  announces : Bool := false

/-- What a question to a client brought. -/
structure Answered (α : Type) where
  result : Except RequestError α
  /-- All that was written. -/
  sent : String
  events : List Event
  client : Client

/-- An answer that came after another one: all that was written and announced counts. -/
def Answered.following {α β : Type} (first : Answered β) (a : Answered α) : Answered α :=
  { a with sent := first.sent ++ a.sent, events := first.events ++ a.events }

/-- An answer seen as something else. -/
def Answered.map {α β : Type} (f : α → β) (a : Answered α) : Answered β :=
  { a with result := a.result.map f }

namespace Client

def isOpen (c : Client) : Bool := c.connection.isOpen

def close (c : Client) : Client := { c with connection := c.connection.close }

def announced (c : Client) (events : List Event) : List Event := if c.announces then events else []

/-- What is announced about values that could not be read. -/
def fieldEvents (request : Request) (fields : List Unreadable) : List Event :=
  fields.map fun f => .fieldUnreadable request.name f.key f.value

/-- Sends a request; `read` gives the answer in the lines of the reply and the fields of it that
could not be read. -/
def ask {α : Type} (c : Client) (request : Request) (read : List String → α × List Unreadable) :
    Wait (Answered α) :=
  (c.connection.execute request).map fun exchange =>
    { result := exchange.result.map fun lines => (read lines).1
      sent := exchange.sent
      events :=
        match exchange.result with
        | .ok lines => c.announced (fieldEvents request (read lines).2)
        | .error _ => []
      client := { c with connection := exchange.connection } }

/-- Sends a request and returns the lines of the reply. -/
def execute (c : Client) (request : Request) : Wait (Answered (List String)) :=
  c.ask request fun lines => (lines, [])

/-- Sends a control; the lines of the reply, if any, are dropped. -/
def control (c : Client) (control : Control) : Wait (Answered Unit) :=
  c.ask control.request fun _ => ((), [])

/-- Asks for the values of a tag, narrowed by pairs of a tag and the value that it must have. -/
def list (c : Client) (tag : String) (filters : List (String × String)) :
    Wait (Answered (List String)) :=
  c.ask (.list tag filters) fun lines => (tagValues tag lines, [])

def currentSong (c : Client) : Wait (Answered Song) :=
  c.ask .currentSong fun lines =>
    (Song.ofRecord (.ofLines lines), Song.unreadable (.ofLines lines))

/-- Asks for the status alone, without the metadata of the current song. -/
def bareStatus (c : Client) : Wait (Answered Status) :=
  c.ask .status fun lines =>
    (Status.ofRecord (.ofLines lines), Status.unreadable (.ofLines lines))

/-- A status with the answer about the current song put in. -/
def withSong (status : Status) (a : Answered Song) : Answered Status :=
  match a.result with
  | .ok song => { a with result := .ok (status.withSong song) }
  | .error error =>
    { a with
      result := .ok status
      events := a.client.announced [.songUnavailable a.client.connection.addr error.message] }

/-- Asks for the current song if the status that came has one. -/
def complete (first : Answered Status) : Wait (Answered Status) :=
  match first.result with
  | .ok status =>
    if status.hasCurrentSong then
      first.client.currentSong.map fun second => first.following (withSong status second)
    else .after 0 first
  | .error _ => .after 0 first

/-- Asks for the status with the metadata of the current song. -/
def status (c : Client) : Wait (Answered Status) := c.bareStatus.bind complete

/-! ### Calls -/

/-- What a client can be asked to do. -/
inductive Call where
  | status
  | currentSong
  | list (tag : String) (filters : List (String × String))
  | control (control : Control)
  | execute (request : Request)
  | close

/-- What a client gives back. -/
inductive Outcome where
  | done
  | status (status : Status)
  | song (song : Song)
  /-- The values of a tag, or the lines of a reply. -/
  | texts (texts : List String)

/-- Does what a client was asked to do. -/
def perform (c : Client) : Call → Wait (Answered Outcome)
  | .status => c.status.map (Answered.map .status)
  | .currentSong => c.currentSong.map (Answered.map .song)
  | .list tag filters => (c.list tag filters).map (Answered.map .texts)
  | .control control => (c.control control).map (Answered.map fun _ => .done)
  | .execute request => (c.execute request).map (Answered.map .texts)
  | .close => .after 0 ⟨.ok .done, "", [], c.close⟩

end Client

end PlayerWatch
