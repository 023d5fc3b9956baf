import PlayerWatch.Wait
import PlayerWatch.Failure
import PlayerWatch.Text.Utf8
import PlayerWatch.Text.Blank

/-!
# The other end of a connection

A `Peer` is all that will come from the other end of a connection: what is on its way already, and
how each further line is accepted and what it is answered with. Octets arrive in pieces of any size
with any pauses between them; `readLine` puts a line together and never takes more than that line.
Writing may take its time too, and may stop within a line.
-/

namespace PlayerWatch

/-- Something that happens on the reading side of a connection. -/
inductive Action where
  /-- Octets arrive. -/
  | send (bytes : List UInt8)
  /-- Nothing arrives for some milliseconds. -/
  | pause (ms : Nat)
  /-- Nothing arrives any more. -/
  | hang
  /-- The stream ends. -/
  | close
  | fail (error : IoError)

/-- What a line is met with when it is written. Some of its octets are accepted at once and the others
together, later or never. -/
structure Answer where
  /-- How many octets are accepted at once; the last one never is. -/
  octets : Nat := 0
  /-- When the other octets have been accepted and what comes back then, or how writing them fails. -/
  outcome : Wait (Except IoError (List Action))

/-- What will come from the other end. When the answers are used up, the stream ends after the next
line. -/
structure Peer where
  inbound : List Action
  answers : List Answer

/-- The longest line that is accepted, without its end. -/
def maxLineLength : Nat := 65536

/-- The failure of reading a line that is too long. -/
def overlongLine : IoError :=
  ⟨.invalidData, "reply line exceeds " ++ toString maxLineLength ++ " bytes"⟩

/-- The failure of a write of which no further octet is accepted. -/
def nothingWritten : IoError := ⟨.writeZero, "write zero"⟩

/-- The octet that ends a line. -/
def lineEnd : UInt8 := 10

/-- Octets cut at the end of their first line. -/
inductive Cut where
  /-- A line with its end, and what follows. -/
  | complete (line rest : List UInt8)
  /-- So many octets came without the end of a line; what follows them. -/
  | full (rest : List UInt8)
  /-- There is no end of a line and still room for more. -/
  | partly
  deriving DecidableEq

/-- Cuts octets at the end of the first line, in so many octets at most. -/
def cutLine : (room : Nat) → List UInt8 → Cut
  | 0, bytes => .full bytes
  | _ + 1, [] => .partly
  | room + 1, b :: bytes =>
    if b = lineEnd then .complete [b] bytes
    else
      match cutLine room bytes with
      | .complete line rest => .complete (b :: line) rest
      | cut => cut

/-- What comes of reading one line. -/
inductive LineRead where
  /-- A line, with its end unless the stream ended first. -/
  | line (bytes : List UInt8)
  /-- The stream ended before the line began. -/
  | ended
  | failed (error : IoError)

/-- Reads on in a line of which some octets have come; the second part is what is left to read. -/
def readLineFrom (got : List UInt8) : List Action → Wait (LineRead × List Action)
  | [] => .forever
  | .send bytes :: rest =>
    match cutLine (maxLineLength + 1 - got.length) bytes with
    | .complete line after => .after 0 (.line (got ++ line), .send after :: rest)
    | .full after => .after 0 (.failed overlongLine, .send after :: rest)
    | .partly => readLineFrom (got ++ bytes) rest
  | .pause ms :: rest => (readLineFrom got rest).later ms
  | .hang :: _ => .forever
  | .close :: rest => .after 0 (if got.isEmpty then .ended else .line got, .close :: rest)
  | .fail error :: rest => .after 0 (.failed error, rest)

def readLine (inbound : List Action) : Wait (LineRead × List Action) := readLineFrom [] inbound

/-- The text of a line: decoded, without the blanks on either side. -/
def lineText (bytes : List UInt8) : String :=
  String.ofList (Text.trim (Text.decodeLossy bytes))

/-! ### Reading makes progress -/

/-- A measure of what is left to read. -/
def inboundSize : List Action → Nat
  | [] => 0
  | .send bytes :: rest => bytes.length + 1 + inboundSize rest
  | _ :: rest => 1 + inboundSize rest

theorem length_of_cutLine_eq_complete {room : Nat} {bytes line rest : List UInt8}
    (h : cutLine room bytes = .complete line rest) : rest.length < bytes.length := by
  induction room generalizing bytes line with
  | zero => simp [cutLine] at h
  | succ room ih =>
    cases bytes with
    | nil => simp [cutLine] at h
    | cons b bytes =>
      rw [cutLine] at h
      split at h
      · obtain ⟨-, rfl⟩ := by simpa using h
        simp
      · split at h
        · next hcut =>
          obtain ⟨-, rfl⟩ := by simpa using h
          have := ih hcut
          simp only [List.length_cons]
          omega
        · next hne => exact absurd h (hne _ _)

/-- A line that was read leaves less to read, if octets of it were not there before. -/
theorem inboundSize_of_readLineFrom {got bytes : List UInt8} {actions rest : List Action} {t : Nat}
    (h : readLineFrom got actions = .after t (.line bytes, rest)) :
    inboundSize rest + (if got.isEmpty then 1 else 0) ≤ inboundSize actions := by
  induction actions generalizing got t with
  | nil => simp [readLineFrom] at h
  | cons a actions ih =>
    cases a with
    | send data =>
      rw [readLineFrom] at h
      split at h
      · next hcut =>
        have hlt := length_of_cutLine_eq_complete hcut
        simp only [Wait.after.injEq, Prod.mk.injEq] at h
        obtain ⟨-, -, rfl⟩ := h
        simp only [inboundSize]
        split <;> omega
      · simp at h
      · have := ih h
        simp only [inboundSize]
        split at this <;> split <;> omega
    | pause ms =>
      rw [readLineFrom] at h
      cases hr : readLineFrom got actions with
      | forever => simp [hr, Wait.later] at h
      | after t' v =>
        simp only [hr, Wait.later, Wait.after.injEq] at h
        obtain ⟨-, rfl⟩ := h
        have := ih hr
        simp only [inboundSize]
        omega
    | hang => simp [readLineFrom] at h
    | close =>
      simp only [readLineFrom, Wait.after.injEq, Prod.mk.injEq] at h
      obtain ⟨-, hl, rfl⟩ := h
      split at hl
      · simp at hl
      · next hgot => simp [hgot]
    | fail error => simp [readLineFrom] at h

theorem inboundSize_of_readLine {bytes : List UInt8} {actions rest : List Action} {t : Nat}
    (h : readLine actions = .after t (.line bytes, rest)) :
    inboundSize rest < inboundSize actions := by
  have hle := inboundSize_of_readLineFrom h
  simp only [List.isEmpty_nil, if_true] at hle
  omega

/-! ### Writing -/

namespace Answer

/-- The line is accepted at once, and this comes back. -/
def actions (list : List Action) : Answer := { outcome := .after 0 (.ok list) }

/-- Writing the line fails at once. -/
def refuse (error : IoError) : Answer := { outcome := .after 0 (.error error) }

/-- Not one octet of the line is accepted. -/
def refuseSilently : Answer := refuse nothingWritten

/-- The line is never accepted. -/
def block : Answer := { outcome := .forever }

/-- What comes back. -/
def reply (a : Answer) : List Action :=
  match a.outcome with
  | .after _ (.ok list) => list
  | _ => []

end Answer

namespace Peer

/-- A measure of all that can come from a peer. -/
def size (p : Peer) : Nat :=
  p.answers.foldl (fun n a => n + (inboundSize a.reply + 1)) (inboundSize p.inbound)

/-- A peer that ends the stream at once. -/
def absent : Peer := ⟨[.close], []⟩

/-- What the next line is met with. -/
def next (p : Peer) : Answer := p.answers.headD (.actions [.close])

/-- Takes one line, which the next answer is for. -/
def takeLine (p : Peer) : Peer := ⟨p.inbound ++ p.next.reply, p.answers.tail⟩

/-- Takes so many lines. -/
def takeLines (p : Peer) : Nat → Peer
  | 0 => p
  | n + 1 => p.takeLine.takeLines n

/-- Whether the next line can be written within the limit. -/
def accepts (p : Peer) (limit : Option Nat) : Bool :=
  match p.next.outcome.within limit with
  | .after _ (some (.ok _)) => true
  | _ => false

/-- Writes a text of whole lines in one go: each of its lines calls for an answer, and the first answer
says what becomes of the text. -/
def write (p : Peer) (text : String) : Wait (Except IoError Peer) :=
  p.next.outcome.map fun outcome =>
    outcome.map fun _ => p.takeLines (text.toList.count '\n')

/-- The octets of a text that the peer has accepted when writing it is over: when it has ended, or
the limit has. -/
def octetsTaken (p : Peer) (limit : Option Nat) (text : String) : List UInt8 :=
  if p.accepts limit then Text.encode text
  else (Text.encode text).dropLast.take p.next.octets

end Peer

end PlayerWatch
