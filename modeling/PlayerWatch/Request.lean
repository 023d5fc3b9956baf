import PlayerWatch.Text.Blank
import PlayerWatch.Number.Integer

/-!
# Requests

A request is a name with arguments and is sent as one line. An argument stands in double quotes if
it is always to be quoted or if it holds a blank; its text is never changed.
-/

namespace PlayerWatch

open Text

inductive Argument where
  /-- Written as it is unless it holds a blank. -/
  | bare (text : String)
  /-- Always written in double quotes. -/
  | quoted (text : String)
  deriving DecidableEq, Repr

namespace Argument

/-- The text of the argument itself. -/
def value : Argument → String
  | bare text | quoted text => text

/-- Whether the argument is written in double quotes. -/
def isQuoted : Argument → Bool
  | bare text => text.toList.any isBlank
  | quoted _ => true

/-- The argument as it stands in the line. -/
def written (a : Argument) : String :=
  if a.isQuoted then "\"" ++ a.value ++ "\"" else a.value

end Argument

/-- A name followed by arguments. -/
structure Request where
  name : String
  arguments : List Argument := []
  deriving DecidableEq, Repr

namespace Request

/-- The line of a request: its name and its arguments, each after one space. -/
def line (r : Request) : String :=
  r.arguments.foldl (fun text a => text ++ " " ++ a.written) r.name

def push (r : Request) (a : Argument) : Request := { r with arguments := r.arguments ++ [a] }

/-- A request with a number behind it if one is given. -/
def withNumber (r : Request) : Option UInt32 → Request
  | some n => r.push (.bare (Number.decimal n.toNat))
  | none => r

/-- A request with a switch behind it: `1` for on and `0` for off. -/
def withSwitch (r : Request) (on : Bool) : Request := r.push (.bare (if on then "1" else "0"))

@[simp] theorem name_withNumber (r : Request) (number : Option UInt32) :
    (r.withNumber number).name = r.name := by
  cases number <;> rfl

@[simp] theorem name_withSwitch (r : Request) (on : Bool) : (r.withSwitch on).name = r.name := rfl

def status : Request := { name := "status" }
def currentSong : Request := { name := "currentsong" }
def next : Request := { name := "next" }
def previous : Request := { name := "previous" }

/-- Starts playback, at a position of the queue if one is given. -/
def play (position : Option UInt32) : Request := Request.withNumber { name := "play" } position

/-- Starts playback, of the song with a given number if one is given. -/
def playId (id : Option UInt32) : Request := Request.withNumber { name := "playid" } id

def pause (paused : Bool) : Request := Request.withSwitch { name := "pause" } paused

def random (on : Bool) : Request := Request.withSwitch { name := "random" } on
def repeatAll (on : Bool) : Request := Request.withSwitch { name := "repeat" } on
def single (on : Bool) : Request := Request.withSwitch { name := "single" } on

/-- Asks for the values of a tag, narrowed by pairs of a tag and the value that it must have. -/
def list (tag : String) (filters : List (String × String)) : Request :=
  { name := "list"
    arguments := .bare tag :: filters.flatMap fun f => [.bare f.1, .quoted f.2] }

end Request

end PlayerWatch
