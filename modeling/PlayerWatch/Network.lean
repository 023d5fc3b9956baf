import PlayerWatch.Address
import PlayerWatch.Connection

/-!
# The network

A `Network` says what each dial meets, one after the other, and remembers the lines that arrived over
each connection that came about. An address that is none is refused before anything is dialled.
-/

namespace PlayerWatch

/-- What a dial meets. -/
inductive Reception where
  | failed (error : IoError)
  /-- The dial is never answered. -/
  | unanswered
  /-- A connection comes about; all that will come over it is given. -/
  | accepted (peer : Peer)

namespace Reception

/-- Nothing listens at the address. -/
def refused : Reception := .failed ⟨.connectionRefused, "Connection refused (os error 111)"⟩

/-- There is no way to the address. -/
def unreachable : Reception := .failed ⟨.networkUnreachable, "Network is unreachable (os error 101)"⟩

/-- A connection that ends before a greeting. -/
def dismissed : Reception := .accepted .absent

/-- What becomes of a dial, up to the greeting. -/
def greet (addr : String) (limit : Option Nat) : Reception → Wait (Except DialError Connection)
  | .failed error => .after 0 (.error (.transport addr error))
  | .unanswered =>
    ((Wait.forever : Wait Unit).within limit).map fun _ => .error (.timedOut addr)
  | .accepted peer => Connection.handshake addr limit peer

end Reception

/-- What dials meet, and what has been received. -/
structure Network where
  /-- What the next dials meet. -/
  turns : List Reception := []
  /-- What all later dials meet. -/
  otherwise : Reception := .dismissed
  /-- The lines that came over each connection, the latest last. -/
  received : List (List String) := []

/-- The complete lines of a text. -/
def linesOf (text : String) : List String :=
  (text.toList.splitOn '\n').dropLast.map String.ofList

/-- What is done to the last item of a list, if there is one. -/
def modifyLast {α : Type} (f : α → α) (l : List α) : List α := l.modify (l.length - 1) f

namespace Network

/-- What is wrong with an address, if it is none. -/
def addressFault? (addr : String) : Option IoError :=
  match portText? addr with
  | none => some ⟨.invalidInput, "invalid socket address"⟩
  | some text =>
    match Number.readUInt16? text with
    | none => some ⟨.invalidInput, "invalid port value"⟩
    | some _ => none

/-- What the next dial meets, and the network after it. -/
def meet (n : Network) (addr : String) : Reception × Network :=
  match addressFault? addr with
  | some error => (.failed error, n)
  | none =>
    let (reception, turns) :=
      match n.turns with
      | r :: rest => (r, rest)
      | [] => (n.otherwise, [])
    match reception with
    | .accepted _ => (reception, { n with turns, received := n.received ++ [[]] })
    | _ => (reception, { n with turns })

def dial (n : Network) (addr : String) (limit : Option Nat) :
    Wait (Except DialError Connection) × Network :=
  let (reception, n) := n.meet addr
  (reception.greet addr limit, n)

/-- Notes that a text of whole lines arrived over the latest connection. -/
def deliver (n : Network) (sent : String) : Network :=
  { n with received := modifyLast (· ++ linesOf sent) n.received }

end Network

end PlayerWatch
