import PlayerWatch.CommandLine.Arguments
import PlayerWatch.CommandLine.StatusText
import PlayerWatch.Controller
import PlayerWatch.Player.Json
import PlayerWatch.Watcher

/-!
# Running a command

Every command but `watch` is carried out once, over a connection of its own, and prints its answer
only if all of it succeeded.
-/

namespace PlayerWatch.CommandLine

open Settings (LoadError Files Variables)

/-- The name and version of the program. -/
def programName : String := "mpd-watch"

def version : String := "0.0.0"

/-- What stands for the state of the sources that the program was built from. -/
def buildStamp : String := "unknown"

inductive Failure where
  | load (error : LoadError)
  /-- The words behind a tag are not pairs. -/
  | unpairedFilters
  | player (error : ClientError)

namespace Failure

/-- The wording of settings that could not be loaded. -/
def loadMessage : LoadError → String
  | .unreadableFile name => "cannot read " ++ name
  | .misfit m => m.message
  | .defect d => d.message

def message : Failure → String
  | load error => loadMessage error
  | unpairedFilters => "filters must be <tag> <value> pairs"
  | player error => error.message

/-- The wording of what is behind a failure, if anything is. -/
def cause? : Failure → Option String
  | player error => error.source?.map IoError.text
  | _ => none

def report (f : Failure) : String :=
  "Error: " ++ f.message ++
    match f.cause? with
    | some cause => "\n\nCaused by:\n    " ++ cause
    | none => ""

end Failure

structure Outcome where
  result : Except Failure String
  network : Network

/-- What a run prints on its standard output: its answer, if there is one. -/
def printed : Except Failure String → String
  | .ok text => text
  | .error _ => ""

/-! ### Commands -/

/-- The words behind a tag as pairs; nothing if one is left over. -/
def pairs? : List String → Option (List (String × String))
  | [] => some []
  | [_] => none
  | tag :: value :: rest => (pairs? rest).map ((tag, value) :: ·)

def outcomeOf {α : Type} (print : α → String) (h : Handled α) : Outcome where
  result :=
    match h.result with
    | .ok a => .ok (print a)
    | .error error => .error (.player error)
  network := h.network

def printStatus (json : Bool) (s : Status) : String :=
  if json then s.toJson.indented ++ "\n" else textOfLines (statusLines s)

def printToggle (paused : Bool) : String := if paused then "paused\n" else "resumed\n"

/-- Pauses or resumes after a look at the status. -/
def toggle (c : Controller) (n : Network) : Wait Outcome :=
  (c.status n).bind fun h =>
    match h.result with
    | .error error => .after 0 ⟨.error (.player error), h.network⟩
    | .ok status =>
      (h.controller.togglePause h.network (Slot.publish {} status)).map (outcomeOf printToggle)

/-- Carries out a command once; nothing if it is not of that kind. -/
def carryOut (c : Controller) (n : Network) : Command → Option (Wait Outcome)
  | .watch => none
  | .status json => some ((c.status n).map (outcomeOf (printStatus json)))
  | .control control => some ((c.control n control).map (outcomeOf fun _ => ""))
  | .toggle => some (toggle c n)
  | .list tag filters =>
    some <|
      match pairs? filters with
      | none => .after 0 ⟨.error .unpairedFilters, n⟩
      | some pairs => (c.list n tag pairs).map (outcomeOf textOfLines)

/-! ### The program -/

/-- What the program does with an argument list. -/
inductive Plan where
  /-- It says why it does nothing. -/
  | stop (reason : Stop)
  /-- It fails before it does anything. -/
  | fail (error : LoadError)
  | watch (settings : Settings)
  /-- It carries out one command. -/
  | once (settings : Settings) (command : Command)

/-- What the program does, and what it tells before. -/
def plan (files : Files) (env : Variables) (args : List String) : Plan × List Note :=
  match read args with
  | .error reason => (.stop reason, [])
  | .ok i =>
    let greeting : Note :=
      ⟨.debug, .program, programName ++ " v" ++ version ++ " (" ++ buildStamp ++ ")"⟩
    let notes :=
      (if i.verbose then [greeting] else []) ++ Settings.loadNotes env
    match Settings.load files env { host := i.host, port := i.port } with
    | .error error => (.fail error, notes)
    | .ok settings =>
      match i.command with
      | .watch =>
        (.watch settings, notes ++
          [⟨.info, .program, "Starting " ++ programName ++ " v" ++ version ++ " (" ++ buildStamp ++
            ") against " ++ settings.address⟩])
      | command => (.once settings command, notes)

def controllerFor (s : Settings) : Controller := { addr := s.address, limit := s.limit }

/-- A run that carries out one command, from its arguments on; nothing if the arguments ask for
something else. -/
def runOnce (files : Files) (env : Variables) (args : List String) (n : Network) :
    Option (Wait Outcome) :=
  match (plan files env args).1 with
  | .once settings command => carryOut (controllerFor settings) n command
  | .fail error => some (.after 0 ⟨.error (.load error), n⟩)
  | _ => none

def watcherFor (s : Settings) (n : Network) : Watcher :=
  { addr := s.address, pace := s.pace, network := n }

end PlayerWatch.CommandLine
