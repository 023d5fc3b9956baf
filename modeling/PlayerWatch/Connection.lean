import PlayerWatch.Peer
import PlayerWatch.Reply
import PlayerWatch.Request

/-!
# Connections

A connection exists from a valid greeting on. Each request writes one line and reads one reply; a
refusal leaves the stream at the start of the next reply, and every other failure closes the
connection for good. All waiting is bounded by the same limit: each write and each line read has it
to itself.
-/

namespace PlayerWatch

/-- A connection to a player; it is open as long as it has a peer. -/
structure Connection where
  addr : String
  version : String
  /-- The longest wait for a write or a line, in milliseconds. -/
  limit : Option Nat := none
  peer : Option Peer := none

/-- What one request did. -/
structure Exchange where
  result : Except RequestError (List String)
  /-- What was written to its end; a player acts on nothing less than a line. -/
  sent : String
  connection : Connection

/-! ### Reading a reply -/

/-- A reply with one more data line in front. -/
def prepend (text : String) :
    Except RequestError (List String) × List Action →
      Except RequestError (List String) × List Action
  | (result, rest) => (result.map (text :: ·), rest)

/-- Reads lines up to the one that ends the reply, or to a failure; the second part is what is left
to read. -/
def readReply (limit : Option Nat) (inbound : List Action) :
    Wait (Except RequestError (List String) × List Action) :=
  match h : (readLine inbound).within limit with
  | .forever => .forever
  | .after t none => .after t (.error .timedOut, inbound)
  | .after t (some (.failed error, rest)) => .after t (.error (.transport error), rest)
  | .after t (some (.ended, rest)) => .after t (.error .closed, rest)
  | .after t (some (.line bytes, rest)) =>
    match ReplyLine.ofText (lineText bytes) with
    | .ok => .after t (.ok [], rest)
    | .refusal detail => .after t (.error (.rejected detail), rest)
    | .data text =>
      have := inboundSize_of_readLine (Wait.eq_after_of_within h)
      ((readReply limit rest).map (prepend text)).later t
termination_by inboundSize inbound

namespace Connection

/-- Whether a request can be written. -/
def isOpen (c : Connection) : Bool := c.peer.isSome

/-! ### The greeting -/

/-- What the first line of a peer makes of it. -/
def greet (addr : String) (limit : Option Nat) (answers : List Answer) :
    Option (LineRead × List Action) → Except DialError Connection
  | none => .error (.timedOut addr)
  | some (.failed error, _) => .error (.transport addr error)
  | some (.ended, _) => .error (.closed addr)
  | some (.line bytes, rest) =>
    match greetingVersion? (lineText bytes) with
    | some version => .ok { addr, version, limit, peer := some ⟨rest, answers⟩ }
    | none => .error (.badGreeting addr (lineText bytes))

/-- Waits for the greeting of a peer. -/
def handshake (addr : String) (limit : Option Nat) (peer : Peer) :
    Wait (Except DialError Connection) :=
  ((readLine peer.inbound).within limit).map (greet addr limit peer.answers)

/-- A connection comes about only by a line that is a greeting. -/
theorem greet_eq_ok {addr : String} {limit : Option Nat} {answers : List Answer}
    {read : Option (LineRead × List Action)} {c : Connection}
    (h : greet addr limit answers read = .ok c) :
    ∃ bytes rest version, read = some (.line bytes, rest) ∧
      greetingVersion? (lineText bytes) = some version ∧
      c = { addr, version, limit, peer := some ⟨rest, answers⟩ } := by
  unfold greet at h
  split at h
  · cases h
  · cases h
  · cases h
  · next bytes rest =>
    split at h
    · next version hversion =>
      obtain rfl := by simpa using h
      exact ⟨bytes, rest, version, rfl, hversion, rfl⟩
    · cases h

/-- A handshake brings an open connection, or none. -/
theorem isOpen_of_handshake {addr : String} {limit : Option Nat} {peer : Peer} {t : Nat}
    {c : Connection} (h : handshake addr limit peer = .after t (.ok c)) : c.isOpen = true := by
  obtain ⟨read, -, hgreet⟩ := Wait.map_eq_after_iff.1 h
  obtain ⟨bytes, rest, version, -, -, rfl⟩ := greet_eq_ok hgreet
  rfl

theorem limit_of_handshake {addr : String} {limit : Option Nat} {peer : Peer} {t : Nat}
    {c : Connection} (h : handshake addr limit peer = .after t (.ok c)) : c.limit = limit := by
  obtain ⟨read, -, hgreet⟩ := Wait.map_eq_after_iff.1 h
  obtain ⟨bytes, rest, version, -, -, rfl⟩ := greet_eq_ok hgreet
  rfl

/-! ### Requests -/

/-- What a reply makes of a connection whose line has been sent. -/
def conclude (c : Connection) (sent : String) (answers : List Answer) :
    Except RequestError (List String) × List Action → Exchange
  | (.ok lines, rest) => ⟨.ok lines, sent, { c with peer := some ⟨rest, answers⟩ }⟩
  | (.error error, rest) =>
    ⟨.error error, sent, { c with peer := if error.isLost then none else some ⟨rest, answers⟩ }⟩

/-- A request that could not be written. -/
def abandon (c : Connection) (error : RequestError) : Exchange :=
  ⟨.error error, "", { c with peer := none }⟩

/-- Reads the reply to a line that the peer has taken. -/
def awaitReply (c : Connection) (sent : String) (peer : Peer) : Wait Exchange :=
  (readReply c.limit peer.inbound).map (c.conclude sent peer.answers)

/-- Sends a line and reads its reply. -/
def executeLine (c : Connection) (line : String) : Wait Exchange :=
  match c.peer with
  | none => .after 0 ⟨.error .closed, "", c⟩
  | some peer =>
    let sent := line ++ "\n"
    ((peer.write sent).within c.limit).bind fun
      | none => .after 0 (c.abandon .timedOut)
      | some (.error error) => .after 0 (c.abandon (.transport error))
      | some (.ok peer) => c.awaitReply sent peer

/-- Sends a request and reads its reply. -/
def execute (c : Connection) (request : Request) : Wait Exchange := c.executeLine request.line

/-- The text that is written when a line is sent: the line with its end, if it can be written within the
limit. -/
def accepted (c : Connection) (line : String) : String :=
  if c.peer.any fun p => p.accepts c.limit then line ++ "\n" else ""

/-- The octets of a line that the peer has taken when the line has been sent or given up. -/
def octetsSent (c : Connection) (line : String) : List UInt8 :=
  match c.peer with
  | none => []
  | some p => p.octetsTaken c.limit (line ++ "\n")

/-- Ends the connection; what comes from the other end is lost. -/
def close (c : Connection) : Connection := { c with peer := none }

theorem isOpen_close (c : Connection) : c.close.isOpen = false := rfl

end Connection

end PlayerWatch
