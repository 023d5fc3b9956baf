import PlayerWatch.CommandLine.Reporter
import PlayerWatch.CommandLine.Run
import PlayerWatch.Transport
import Std.Internal.UV.System

/-!
# The program

Reads the arguments, the environment and the file of settings, runs what the command line asks for
over real connections, and prints what comes of it.
-/

namespace PlayerWatch.Program

open CommandLine Transport

/-! ### What is read and printed -/

def tell (notes : List Note) : IO Unit := notes.forM fun note => IO.eprintln note.line

def readFiles (env : Settings.Variables) : IO Settings.Files := do
  let files : Settings.Files := { directory := (← IO.currentDir).toString, content := [] }
  let directory := Settings.directory env
  let contents ← ["config", "config.toml", "config.json"].mapM fun name => do
    match ← (IO.FS.readBinFile (Settings.below directory name)).toBaseIO with
    | .ok bytes => return [(files.locate directory ++ [name], bytes.toList)]
    | .error _ => return []
  return { files with content := contents.flatten }

/-- How the program is called. -/
def usage : String :=
  "Usage: " ++ programName ++ " [--host <HOST>] [--port <PORT>] [--verbose] [COMMAND]\n\nCommands:\n" ++
    textOfLines (names.map ("  " ++ ·))

/-! ### One command -/

/-- Carries out a command, as far as `progress` has come. -/
partial def carry (c : Controller) (run : Network → Wait (Except Failure String × Network))
    (progress : Progress) (link : Option Link) (sent : Nat) : IO (Except Failure String) := do
  match progress.need run with
  | .nothing result => return result
  | .dial =>
    match ← dial [] c.addr c.limit with
    | .met reception link => carry c run (progress.dialled reception c.limit) link 0
    | .stopped reason => throw (IO.userError reason)
  | .input until? =>
    let lines := (progress.sent run).drop sent
    match ← (link.mapM fun link => send link lines sent) with
    | some (some (taken, error)) =>
      carry c run (progress.mapPeer (Peer.rejecting taken error)) none taken
    | _ =>
      let sent := sent + lines.length
      let begun ← IO.monoMsNow
      match ← wait [] (link.map Link.reading) (until?.map (· - progress.waited)) with
      | .came action =>
        let ms := (← IO.monoMsNow) - begun
        carry c run (progress.hear ms [action]) ((← link.mapM (next · action)).join) sent
      | .timeUp =>
        carry c run (progress.hear ((until?.getD 0) - progress.waited) []) link sent
      | .stopped reason => throw (IO.userError reason)

/-- Carries out a command. -/
def once (settings : Settings) (command : Command) : IO (Except Failure String) :=
  let c := controllerFor settings
  let run (n : Network) : Wait (Except Failure String × Network) :=
    match carryOut c n command with
    | some w => w.map fun o => (o.result, o.network)
    | none => .after 0 (.ok "", n)
  carry c run {} none 0

/-! ### Watching -/

/-- Passes on what a watcher has announced. -/
def report (w : Watcher) (reporter : Reporter) : IO (Watcher × Reporter) := do
  let mut reporter := reporter
  for (_, event) in w.events do
    let (heard, notes) := reporter.hear event w.slot.read
    tell notes
    reporter := heard
  return (w.told, reporter)

/-- Watches until there is an alarm. `begun` is when the watcher began, and `heard` for how long the
present phase has been listening. -/
partial def keepWatching (alarms : List (Task String)) (begun heard : Nat) (w : Watcher)
    (reporter : Reporter) (link : Option Link) : IO String := do
  let clock := (← IO.monoMsNow) - begun
  let time? := w.nextTime?
  if time?.any (· ≤ clock) then
    if w.phase.dials then
      match ← dial alarms w.addr w.pace.limit with
      | .stopped reason => return reason
      | .met reception link =>
        let ms := (← IO.monoMsNow) - begun - clock
        let next := (w.expecting reception).step?.getD w
        let next := match reception with
          | .unanswered => next
          | _ => next.elapse ms
        let (w, reporter) ← report next reporter
        keepWatching alarms begun 0 w reporter link
    else
      let next := w.step?.getD w
      let next ←
        match ← (link.mapM fun link => send link next.lines 0) with
        | some (some (taken, error)) =>
          pure { next with phase := next.phase.mapPeer (Peer.rejecting taken error) }
        | _ => pure next
      let (w, reporter) ← report next reporter
      if w.phase.dials then
        link.forM close
        keepWatching alarms begun 0 w reporter none
      else keepWatching alarms begun 0 w reporter link
  else
    let reading := if w.phase.reads then link.map Link.reading else none
    match ← wait alarms reading (time?.map (· - clock)) with
    | .stopped reason => return reason
    | .timeUp =>
      if w.phase.reads then
        let time := time?.getD clock
        let w := w.hear (time - (w.now + heard)) []
        keepWatching alarms begun (time - w.now) w reporter link
      else keepWatching alarms begun heard w reporter link
    | .came action =>
      let clock := (← IO.monoMsNow) - begun
      let w := w.hear (clock - (w.now + heard)) [action]
      keepWatching alarms begun (clock - w.now) w reporter ((← link.mapM (next · action)).join)

/-- Watches until a signal comes. -/
def watch (settings : Settings) : IO Unit := do
  let alarms := [← alarm .sigint "Received Ctrl+C, shutting down...",
    ← alarm .sigterm "Received SIGTERM, shutting down..."]
  let w := watcherFor settings { otherwise := .unanswered }
  let reason ← keepWatching alarms (← IO.monoMsNow) 0 w {} none
  tell [⟨.info, .program, reason⟩, ⟨.info, .program, "Shutdown complete"⟩]

/-! ### The program -/

/-- Says why a run failed. -/
def fail (failure : Failure) : IO UInt32 := do
  IO.eprintln failure.report
  return 1

/-- Does what the arguments ask for; the result is the exit code. -/
def run (args : List String) : IO UInt32 := do
  let env := (← Std.Internal.UV.System.osEnviron).toList
  let (plan, notes) := plan (← readFiles env) env args
  tell notes
  match plan with
  | .stop .usage => do IO.eprint usage; return 2
  | .stop .help => do IO.print usage; return 0
  | .stop .version => do IO.println (programName ++ " " ++ version); return 0
  | .fail error => fail (.load error)
  | .watch settings => do watch settings; return 0
  | .once settings command =>
    let result ← once settings command
    IO.print (printed result)
    match result with
    | .ok _ => return 0
    | .error failure => fail failure

end PlayerWatch.Program

def main (args : List String) : IO UInt32 := PlayerWatch.Program.run args
