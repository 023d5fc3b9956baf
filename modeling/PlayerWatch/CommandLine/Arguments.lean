import PlayerWatch.Control
import PlayerWatch.Number.Integer
import PlayerWatch.Settings.Load

/-!
# Arguments

An argument list has two levels: what stands in front of the name of a command, and what stands behind
it. The options `--host`, `--port` and `--verbose` may stand on either level, once on each, and the
inner one counts. Reading stops at the first argument that cannot be used, and at the first that asks
for help or the version.
-/

namespace PlayerWatch.CommandLine

open Number

/-- What the program is asked to do. -/
inductive Command where
  /-- Keep watching. -/
  | watch
  /-- Show the status, in JSON or for people. -/
  | status (json : Bool)
  | control (control : Control)
  /-- Pause if something plays, resume otherwise. -/
  | toggle
  /-- List the values of a tag; the words behind it are pairs of a tag and its value. -/
  | list (tag : String) (filters : List String)
  deriving DecidableEq, Repr

/-- What the program is asked to do, and with what. -/
structure Invocation where
  host : Option String := none
  port : Option UInt16 := none
  verbose : Bool := false
  command : Command := .watch
  deriving DecidableEq, Repr

/-- Why nothing is run. -/
inductive Stop where
  /-- The arguments make no sense. -/
  | usage
  | help
  | version
  deriving DecidableEq, Repr

/-- What a level has given so far. -/
structure Level where
  host : Option String := none
  port : Option UInt16 := none
  verbose : Bool := false
  json : Bool := false
  words : List String := []

def names : List String :=
  ["watch", "status", "play", "play-id", "pause", "resume", "toggle", "next", "previous", "random",
   "repeat", "single", "list"]

/-! ### Values -/

/-- Reads a number below a bound. -/
def readBelow? (bound : Nat) (s : String) : Option Nat :=
  match readSigned? 64 s with
  | some n => if 0 ≤ n ∧ n < bound then some n.toNat else none
  | none => none

def readSwitch? (s : String) : Option Bool := (readBelow? 2 s).map (· = 1)

/-- Reads a place in the queue or the number of a song. -/
def readWord? (s : String) : Option UInt32 := (readBelow? (twoTo 32) s).map UInt32.ofNat

def takesWord (name : Option String) (place : Nat) (word : String) : Bool :=
  match name with
  | some "play" | some "play-id" => place = 0 && (readWord? word).isSome
  | some "random" | some "repeat" | some "single" => place = 0 && (readSwitch? word).isSome
  | some "list" => true
  | _ => false

/-! ### Options -/

/-- Gives a level the host, unless it has one. -/
def Level.setHost (l : Level) (value : String) : Except Stop Level :=
  if l.host.isSome then .error .usage else .ok { l with host := some value }

/-- Gives a level the port, unless it has one. -/
def Level.setPort (l : Level) (value : String) : Except Stop Level :=
  match l.port, readBelow? (twoTo 16) value with
  | none, some n => .ok { l with port := some (UInt16.ofNat n) }
  | _, _ => .error .usage

def Level.setOption (l : Level) (option value : String) : Except Stop Level :=
  if option = "host" then l.setHost value else l.setPort value

/-- Sets the switch for more messages, unless it is set. -/
def Level.setVerbose (l : Level) : Except Stop Level :=
  if l.verbose then .error .usage else .ok { l with verbose := true }

/-- Sets the switch for JSON, unless it is set. -/
def Level.setJson (l : Level) : Except Stop Level :=
  if l.json then .error .usage else .ok { l with json := true }

/-- Takes an option by its long name, without a value. -/
def Level.takeLong (l : Level) (name : Option String) (option : String) : Except Stop Level :=
  match option with
  | "verbose" => l.setVerbose
  | "json" => if name = some "status" then l.setJson else .error .usage
  | "help" => .error .help
  | "version" => .error (if name.isNone then .version else .usage)
  | _ => .error .usage

/-- Takes options by their letters. -/
def Level.takeShort (l : Level) (name : Option String) : List Char → Except Stop Level
  | [] => .ok l
  | 'v' :: rest => do (← l.setVerbose).takeShort name rest
  | 'h' :: _ => .error .help
  | 'V' :: _ => .error (if name.isNone then .version else .usage)
  | _ :: _ => .error .usage

def Level.takeWord (l : Level) (name : Option String) (word : String) : Except Stop Level :=
  if takesWord name l.words.length word then .ok { l with words := l.words ++ [word] }
  else .error .usage

def Level.takeWords (l : Level) (name : Option String) : List String → Except Stop Level
  | [] => .ok l
  | word :: rest => do (← l.takeWord name word).takeWords name rest

/-- An option with the value that is written behind it with an equals sign, if there is one. -/
def splitOption (cs : List Char) : String × Option String :=
  let name := String.ofList (cs.takeWhile (· ≠ '='))
  match cs.dropWhile (· ≠ '=') with
  | _ :: value => (name, some (String.ofList value))
  | [] => (name, none)

def hasValue (option : String) : Bool := option = "host" || option = "port"

/-- Whether an argument cannot be the value of an option. -/
def isOption (arg : String) : Bool := arg.toList.head? = some '-' && arg ≠ "-"

/-- Whether `help` can be asked for so: as such, or for one command. -/
def isHelpTopic : List String → Bool
  | [] => true
  | [topic] => topic = "help" || names.contains topic
  | _ => false

/-- Reads a level, which is that of a command if its name is given. The outer level ends at the name
of a command; the second part is that name and what follows. -/
def Level.read (name : Option String) (l : Level) :
    List String → Except Stop (Level × Option (String × List String))
  | [] => .ok (l, none)
  | arg :: rest =>
    if name.isNone && names.contains arg then .ok (l, some (arg, rest))
    else if name.isNone && arg = "help" then .error (if isHelpTopic rest then .help else .usage)
    else if arg = "--" then do return (← l.takeWords name rest, none)
    else
      match arg.toList with
      | '-' :: '-' :: cs =>
        match splitOption cs with
        | (option, some value) =>
          if hasValue option then do (← l.setOption option value).read name rest
          else .error .usage
        | (option, none) =>
          if hasValue option then
            match rest with
            | [] => .error .usage
            | value :: rest =>
              if isOption value then .error .usage
              else do (← l.setOption option value).read name rest
          else do (← l.takeLong name option).read name rest
      | '-' :: c :: cs => do (← l.takeShort name (c :: cs)).read name rest
      | _ => do (← l.takeWord name arg).read name rest

/-! ### Commands -/

/-- The command with a name and the words behind it; nothing if a word is missing. -/
def command? (name : String) (l : Level) : Option Command :=
  match name, l.words with
  | "watch", _ => some .watch
  | "status", _ => some (.status l.json)
  | "play", words => some (.control (.play (words.head?.bind readWord?)))
  | "play-id", words => some (.control (.playId (words.head?.bind readWord?)))
  | "pause", _ => some (.control (.pause true))
  | "resume", _ => some (.control (.pause false))
  | "toggle", _ => some .toggle
  | "next", _ => some (.control .next)
  | "previous", _ => some (.control .previous)
  | "random", word :: _ => (readSwitch? word).map fun on => .control (.random on)
  | "repeat", word :: _ => (readSwitch? word).map fun on => .control (.repeatAll on)
  | "single", word :: _ => (readSwitch? word).map fun on => .control (.single on)
  | "list", tag :: filters => some (.list tag filters)
  | _, _ => none

/-- Reads an argument list. Without a command the program watches. -/
def read (args : List String) : Except Stop Invocation := do
  let (outer, rest) ← Level.read none {} args
  match rest with
  | none => return { host := outer.host, port := outer.port, verbose := outer.verbose }
  | some (name, args) =>
    let (inner, _) ← Level.read (some name) {} args
    match command? name inner with
    | none => throw .usage
    | some command =>
      return {
        host := inner.host <|> outer.host
        port := inner.port <|> outer.port
        verbose := inner.verbose || outer.verbose
        command }

end PlayerWatch.CommandLine
