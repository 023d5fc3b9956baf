import PlayerWatch.Text.Blank
import PlayerWatch.Text.Ascii

/-!
# Lines from a player

A player greets with one line and answers each request with data lines followed by one line that
ends the reply. `ReplyLine.ofText` tells them apart; it sees lines that have been trimmed.
-/

namespace PlayerWatch

open Text

inductive ReplyLine where
  /-- Belongs to the payload. -/
  | data (text : String)
  /-- Ends the reply to a request that was carried out. -/
  | ok
  /-- Ends the reply to a request that was refused; carries the player's text. -/
  | refusal (detail : String)
  deriving DecidableEq, Repr

/-- The line that ends a reply. -/
def okLine : List Char := ['O', 'K']

/-- How a line begins that ends the reply to a refused request. -/
def refusalMark : List Char := ['A', 'C', 'K']

/-- How a greeting begins. -/
def greetingMark : List Char := ['O', 'K', ' ', 'M', 'P', 'D']

/-- What a trimmed line is: `OK` alone ends a reply, `ACK` with anything after it refuses, and all
else is data. -/
def ReplyLine.ofText (line : String) : ReplyLine :=
  if line.toList = okLine then .ok
  else
    match dropLead? refusalMark line.toList with
    | some rest => .refusal (String.ofList (dropBlanks rest))
    | none => .data line

/-- The version that a greeting announces; nothing if the trimmed line is no greeting. -/
def greetingVersion? (line : String) : Option String :=
  (dropLead? greetingMark line.toList).map fun rest => String.ofList (trim rest)

end PlayerWatch
