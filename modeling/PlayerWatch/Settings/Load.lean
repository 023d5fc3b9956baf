import PlayerWatch.Journal
import PlayerWatch.Settings.Sources
import PlayerWatch.Settings.Values

/-!
# Loading settings

Five layers lie over each other, the later ones on top: the defaults, the file, the variables
`MPDW_…`, the variables `MPD_HOST` and `MPD_PORT`, and what is given at the call. What comes out is
checked once, as a whole.
-/

namespace PlayerWatch.Settings

open Text Number

/-! ### Places of files -/

/-- A path below another one. -/
def below (base name : String) : String :=
  if base.isEmpty then name
  else if base.toList.getLast? = some '/' then base ++ name
  else base ++ "/" ++ name

def directory (env : Variables) : String :=
  match env.lookup "MPDW_CONFIG_DIR", env.lookup "XDG_CONFIG_HOME",
    env.lookup "HOME" with
  | some dir, _, _ => dir
  | none, some dir, _ => below dir "mpd-watch"
  | none, none, some home => below (below home ".config") "mpd-watch"
  | none, none, none => "."

/-- The names on the way to a file. -/
abbrev Names := List String

/-- The names in a path; a single dot stays where it is. -/
def names (path : String) : Names :=
  (path.splitOn "/").filter fun name => name ≠ "" ∧ name ≠ "."

/-- The names on the way from one place to another: up as far as needed, and down again. -/
def route : (base target : Names) → Names
  | b :: base, t :: target =>
    if b = t then route base target
    else List.replicate (base.length + 1) ".." ++ t :: target
  | base, target => List.replicate base.length ".." ++ target

/-- The files that can be read, by the names from the working directory to them. -/
structure Files where
  /-- The path of the working directory. -/
  directory : String
  content : List (Names × List UInt8)

/-- The names from the working directory to a path. -/
def Files.locate (f : Files) (path : String) : Names :=
  if path.toList.head? = some '/' then route (names f.directory) (names path) else names path

def Files.read? (f : Files) (place : Names) : Option (List UInt8) := f.content.lookup place

/-! ### The layers -/

/-- Why no settings could be loaded. -/
inductive LoadError where
  /-- The file cannot be understood. -/
  | unreadableFile (name : String)
  | misfit (m : Misfit)
  | defect (d : Defect)

/-- The settings that apply if nothing else is given. -/
def defaults : Source :=
  let s : Settings := {}
  let number (n : Nat) : Node := .scalar none (.integer n)
  [("mpd.host", .scalar none (.text s.player.host)),
   ("mpd.port", number s.player.port.toNat),
   ("watcher.poll_interval_ms", number s.watch.pollInterval.toNat),
   ("watcher.retry_delay_ms", number s.watch.retryDelay.toNat),
   ("watcher.max_retry_delay_ms", number s.watch.maxRetryDelay.toNat)]

/-- What a file of one format gives: nothing if it is no text. -/
def ofFile (place : Names) (read : String → String → Option Source) (bytes : List UInt8) :
    Except LoadError Source :=
  let name := "/".intercalate place
  match decode? bytes with
  | none => .ok []
  | some text =>
    match read name text with
    | some source => .ok source
    | none => .error (.unreadableFile name)

/-- What the file of settings gives, the first of three names that is there. A file without an
ending hides the others, and nothing is read from it. -/
def ofFiles (files : Files) (env : Variables) : Except LoadError Source :=
  let dir := files.locate (directory env)
  let place (name : String) : Names := dir ++ [name]
  match files.read? (place "config"), files.read? (place "config.toml"),
    files.read? (place "config.json") with
  | some _, _, _ => .ok []
  | none, some bytes, _ => ofFile (place "config.toml") Source.ofTomlText? bytes
  | none, none, some bytes => ofFile (place "config.json") Source.ofJsonText? bytes
  | none, none, none => .ok []

/-- A host given by a name or an address. -/
def givenHost (host : String) : Source := [("mpd.host", .scalar none (.text host))]

def givenPort (port : UInt16) : Source := [("mpd.port", .scalar none (.integer port.toNat))]

/-- Whether a host of the kind that clients are told by `MPD_HOST` is a socket or has a password. -/
def isUnsupportedHost (host : String) : Bool :=
  host.toList.head? = some '/' || host.toList.contains '@'

/-- What `MPD_HOST` gives, and a warning if it cannot be used. -/
def ofHostVariable (env : Variables) : Source × List Note :=
  match env.lookup "MPD_HOST" with
  | none => ([], [])
  | some host =>
    if isUnsupportedHost host then
      ([], [⟨.warn, .settings, "Ignoring unsupported MPD_HOST value " ++ quoted host⟩])
    else if host.isEmpty then ([], [])
    else (givenHost host, [])

/-- What `MPD_PORT` gives, and a warning if it cannot be used. -/
def ofPortVariable (env : Variables) : Source × List Note :=
  match env.lookup "MPD_PORT" with
  | none => ([], [])
  | some text =>
    match readUInt16? text with
    | some port => (givenPort port, [])
    | none => ([], [⟨.warn, .settings, "Ignoring invalid MPD_PORT value " ++ quoted text⟩])

/-- What is given at the call. -/
structure Overrides where
  host : Option String := none
  port : Option UInt16 := none

def Overrides.source (o : Overrides) : Source :=
  (o.host.map givenHost).getD [] ++ (o.port.map givenPort).getD []

/-- The layers, from the lowest to the topmost. -/
def layers (file : Source) (env : Variables) (overrides : Overrides) : List Source :=
  [defaults, file, Source.ofVariables env, (ofHostVariable env).1, (ofPortVariable env).1,
    overrides.source]

/-- All layers on top of each other. -/
def layered (file : Source) (env : Variables) (overrides : Overrides) : Node :=
  (layers file env overrides).foldl Node.overlay .empty

/-- Settings that can be used. -/
def checked (s : Settings) : Except LoadError Settings :=
  match s.defect? with
  | some d => .error (.defect d)
  | none => .ok s

def load (files : Files) (env : Variables) (overrides : Overrides) :
    Except LoadError Settings := do
  let file ← ofFiles files env
  match ofNode (layered file env overrides) with
  | .error m => .error (.misfit m)
  | .ok s => checked s

/-- What is said while settings are loaded. -/
def loadNotes (env : Variables) : List Note :=
  (ofHostVariable env).2 ++ (ofPortVariable env).2

end PlayerWatch.Settings
