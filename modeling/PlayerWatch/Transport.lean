import PlayerWatch.Live
import Std.Async.DNS
import Std.Async.Signal
import Std.Async.TCP
import Std.Async.Timer

/-!
# The transport

The outer layer between peers and sockets: dialling, sending, and waiting for whatever comes first
of octets, a point of time and a signal to stop.
-/

namespace PlayerWatch.Transport

open Std.Async Std.Net

/-- A socket with the read that is under way. -/
structure Link where
  socket : TCP.Socket.Client
  reading : Task Action

/-- What ended a wait. -/
inductive Wake where
  | came (action : Action)
  | timeUp
  /-- The operator wants an end, for the reason given. -/
  | stopped (reason : String)

/-- What ended a dial. -/
inductive Dialled where
  | met (reception : Reception) (link : Option Link)
  | stopped (reason : String)

/-! ### Failures -/

def number? : IO.Error → Option Nat
  | .alreadyExists _ n _ | .otherError n _ | .resourceBusy n _ | .resourceVanished n _
  | .unsupportedOperation n _ | .hardwareFault n _ | .unsatisfiedConstraints n _
  | .illegalOperation n _ | .protocolError n _ | .timeExpired n _ | .interrupted _ n _
  | .noFileOrDirectory _ n _ | .invalidArgument _ n _ | .permissionDenied _ n _
  | .resourceExhausted _ n _ | .inappropriateType _ n _ | .noSuchThing _ n _ => some (min n (-n)).toNat
  | .unexpectedEof | .userError _ => none

/-- The failures that a peer can cause, by their numbers. -/
def failures : List (Nat × IoError) :=
  [(32, ⟨.brokenPipe, "Broken pipe (os error 32)"⟩),
   (101, ⟨.networkUnreachable, "Network is unreachable (os error 101)"⟩),
   (104, ⟨.connectionReset, "Connection reset by peer (os error 104)"⟩),
   (110, ⟨.timedOut, "Connection timed out (os error 110)"⟩),
   (111, ⟨.connectionRefused, "Connection refused (os error 111)"⟩),
   (113, ⟨.hostUnreachable, "No route to host (os error 113)"⟩)]

/-- The failure that an error stands for. -/
def causeOf (e : IO.Error) : IoError :=
  ((number? e).bind fun n => failures.lookup n).getD ⟨.other, toString e⟩

/-! ### Reading and sending -/

def read (socket : TCP.Socket.Client) : IO Link := do
  let reading ← (socket.recv? 65536).asTask
  let action : Except IO.Error (Option ByteArray) → Action
    | .ok (some bytes) => .send bytes.toList
    | .ok none => .close
    | .error e => .fail (causeOf e)
  return ⟨socket, reading.run.map action⟩

/-- Sends lines one after the other; if that fails, so many were sent before. -/
def send (link : Link) (lines : List String) (sent : Nat) : IO (Option (Nat × IoError)) :=
  match lines with
  | [] => return none
  | line :: rest => do
    match ← ((link.socket.send (line ++ "\n").toUTF8).block : IO Unit).toBaseIO with
    | .ok () => send link rest (sent + 1)
    | .error e => return some (sent, causeOf e)

/-- Ends a connection. -/
def close (link : Link) : IO Unit := do
  discard (link.socket.shutdown.block : IO Unit).toBaseIO

/-- Reads on behind what came, unless it was the last. -/
def next (link : Link) : Action → IO (Option Link)
  | .send _ => return some (← read link.socket)
  | _ => return none

/-- Signals that ask for an end, with what is said about them. -/
def alarm (signal : Signal) (reason : String) : IO (Task String) := do
  let task ← (← Signal.Waiter.mk signal false).wait
  return task.run.map fun _ => reason

/-- A task that ends after some milliseconds. -/
def timer (ms : Nat) : IO (Task Wake) := do
  let task ← (sleep (.ofNat ms)).asTask
  return task.run.map fun _ => .timeUp

/-- Waits for the first of several things: a signal, octets, and the end of some milliseconds. There
has to be one of them. -/
def wait (alarms : List (Task String)) (reading : Option (Task Action)) (ms : Option Nat) :
    IO Wake := do
  let timers ← ms.toList.mapM timer
  let tasks := alarms.map (Task.map Wake.stopped) ++ (reading.map (Task.map Wake.came)).toList
  match tasks ++ timers with
  | [] => return .timeUp
  | task :: tasks => IO.waitAny (task :: tasks) (Nat.succ_pos _)

/-! ### Dialling -/

/-- The host and the port of an address. -/
def endpoint? (addr : String) : Option (String × UInt16) := do
  let text ← portText? addr
  let port ← Number.readUInt16? text
  let host := addr.toList.take (addr.length - text.length - 1)
  let inner := host.filter fun c => c ≠ '[' ∧ c ≠ ']'
  return (String.ofList inner, port)

def place (port : UInt16) : IPAddr → SocketAddress
  | .v4 addr => .v4 ⟨addr, port⟩
  | .v6 addr => .v6 ⟨addr, port⟩

/-- Dials one place after the other until one answers. -/
def connect (last : IoError) : List SocketAddress → Async (Except IoError TCP.Socket.Client)
  | [] => return .error last
  | addr :: rest => do
    let socket ← TCP.Socket.Client.mk
    try
      socket.connect addr
      return .ok socket
    catch e => connect (causeOf e) rest

/-- Dials a host by its name. -/
def connectHost (host : String) (port : UInt16) : Async (Except IoError TCP.Socket.Client) := do
  let none : IoError := ⟨.invalidInput, "could not resolve to any address"⟩
  try
    connect none ((← DNS.getAddrInfo host "").toList.map (place port))
  catch e => return .error ⟨.other, "failed to lookup address information: " ++ toString e⟩

def dial (alarms : List (Task String)) (addr : String) (limit : Option Nat) : IO Dialled := do
  match endpoint? addr with
  | none => return .met .unanswered none
  | some (host, port) =>
    let dialling ← (connectHost host port).asTask
    let ended := dialling.run.map fun _ => Action.hang
    match ← wait alarms (some ended) limit with
    | .stopped reason => return .stopped reason
    | .timeUp => return .met .unanswered none
    | .came _ =>
      match dialling.run.get with
      | .ok (.ok socket) => return .met (.accepted .silent) (some (← read socket))
      | .ok (.error error) => return .met (.failed error) none
      | .error e => return .met (.failed (causeOf e)) none

end PlayerWatch.Transport
