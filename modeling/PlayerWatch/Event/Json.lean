import PlayerWatch.Event
import PlayerWatch.Json.Fields
import PlayerWatch.Json.Writer

/-!
# Events in JSON

An event is an object with its `type` and its `payload`, in this order when written and in any order
when read. Main entry points: `Event.toJson` and `Event.ofJson`.
-/

namespace PlayerWatch

open Json

def Stage.names : List (String × Stage) :=
  [("disconnected", .disconnected), ("connecting", .connecting), ("polling", .polling)]

def Stage.name : Stage → String
  | disconnected => "disconnected"
  | connecting => "connecting"
  | polling => "polling"

def Stage.toJson (s : Stage) : Json := text s.name

def Stage.ofJson (mode : Mode) : Read Stage := readChoice mode Stage.names

namespace Event

inductive Tag where
  | stageChanged
  | connected
  | disconnected
  | statusUpdated
  | fieldUnreadable
  | songUnavailable
  deriving DecidableEq, Repr

def Tag.name : Tag → String
  | stageChanged => "StateChanged"
  | connected => "Connected"
  | disconnected => "Disconnected"
  | statusUpdated => "StatusUpdated"
  | fieldUnreadable => "FieldDecodeFailed"
  | songUnavailable => "MetadataFetchFailed"

def Tag.names : List (String × Tag) :=
  [.stageChanged, .connected, .disconnected, .statusUpdated, .fieldUnreadable,
   .songUnavailable].map fun (t : Tag) => (t.name, t)

def tag : Event → Tag
  | .stageChanged .. => .stageChanged
  | .connected .. => .connected
  | .disconnected .. => .disconnected
  | .statusUpdated .. => .statusUpdated
  | .fieldUnreadable .. => .fieldUnreadable
  | .songUnavailable .. => .songUnavailable

def payload : Event → List (String × Json)
  | .stageChanged addr stage => [("addr", text addr), ("state", stage.toJson)]
  | .connected addr version => [("addr", text addr), ("server_version", text version)]
  | .disconnected addr reason => [("addr", text addr), ("reason", text reason)]
  | .statusUpdated addr generation state =>
    [("addr", text addr), ("generation", natural generation.toNat), ("state", text state)]
  | .fieldUnreadable request field value =>
    [("command", text request), ("field", text field), ("value", text value)]
  | .songUnavailable addr reason => [("addr", text addr), ("reason", text reason)]

def toJson (e : Event) : Json := record [("type", text e.tag.name), ("payload", record e.payload)]

/-- The fields of the payload of a type of events. -/
def Tag.fields (mode : Mode) : Tag → List Field
  | stageChanged => [field "addr" readText, field "state" (Stage.ofJson mode)]
  | connected => [field "addr" readText, field "server_version" readText]
  | disconnected => [field "addr" readText, field "reason" readText]
  | statusUpdated =>
    [field "addr" readText, field "generation" readUInt64, field "state" readText]
  | fieldUnreadable => [field "command" readText, field "field" readText, field "value" readText]
  | songUnavailable => [field "addr" readText, field "reason" readText]

/-- The event of a type with given fields. -/
def ofEntries (mode : Mode) (e : Entries) : Tag → Except Fault Event
  | .stageChanged => do
    return .stageChanged (← e.get "addr" readText) (← e.get "state" (Stage.ofJson mode))
  | .connected => do return .connected (← e.get "addr" readText) (← e.get "server_version" readText)
  | .disconnected => do return .disconnected (← e.get "addr" readText) (← e.get "reason" readText)
  | .statusUpdated => do
    return .statusUpdated (← e.get "addr" readText) (← e.get "generation" readUInt64)
      (← e.get "state" readText)
  | .fieldUnreadable => do
    return .fieldUnreadable (← e.get "command" readText) (← e.get "field" readText)
      (← e.get "value" readText)
  | .songUnavailable => do
    return .songUnavailable (← e.get "addr" readText) (← e.get "reason" readText)

/-- Reads the payload of an event of a known type. -/
def ofPayload (mode : Mode) (t : Tag) : Read Event := fun j => do
  ofEntries mode (← readEntries mode false (t.fields mode) j) t

def readTag : Read Tag := readChoice .streamed Tag.names

def keys : List String := ["type", "payload"]

/-- An event, if neither key comes again. -/
def sealed (fault : Option Fault) (rest : List (Json × Json)) (e : Event) : Except Fault Event := do
  match ← nextMember keys fault rest with
  | none => pure e
  | some _ => throw .unfit

/-- Reads an event. A payload in front of the type is settled before it is read. -/
def ofJson : Read Event
  | .object members fault => do
    match ← nextMember keys fault members with
    | none => throw .unfit
    | some (first, a, rest) =>
      if first = "type" then
        let t ← readTag a
        match ← nextMember keys fault rest with
        | some ("payload", p, rest) => sealed fault rest (← ofPayload .streamed t p)
        | _ => throw .unfit
      else
        a.settle (greatestDepth - 1)
        match ← nextMember keys fault rest with
        | some ("type", b, rest) => sealed fault rest (← ofPayload .settled (← readTag b) a)
        | _ => throw .unfit
  | .array (a :: rest) fault => do
    let t ← readTag a
    match rest with
    | [] => ending fault; throw .unfit
    | p :: rest =>
      let e ← ofPayload .streamed t p
      match rest with
      | [] => ending fault; pure e
      | _ :: _ => throw .malformed
  | .array [] fault => do ending fault; throw .unfit
  | j => .error j.mismatch

end Event

end PlayerWatch
