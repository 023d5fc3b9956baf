import PlayerWatch.Number.Layout
import PlayerWatch.Number.Rounded
import PlayerWatch.Settings.Basic
import PlayerWatch.Settings.Tree
import PlayerWatch.Text.Quoted

/-!
# Settings from a tree of values

Each setting is read from the value under its key, generously: a whole number may be given as a real
number, a truth value or a text, and a text as a number or a truth value. A section may also be given
as a list of its settings in their order.
-/

namespace PlayerWatch.Settings

open Number Text

/-- What was found in place of a wanted value. -/
inductive Found where
  | nil
  | signed (n : Int)
  | unsigned (n : Nat)
  | text (s : String)
  | list
  | table
  deriving DecidableEq, Repr

def Found.message : Found → String
  | nil => "unit value"
  | signed n => "64-bit integer `" ++ signedDecimal n ++ "`"
  | unsigned n => "64-bit unsigned integer `" ++ decimal n ++ "`"
  | text s => "string " ++ quoted s
  | list => "sequence"
  | table => "map"

inductive Wanted where
  | text
  | integer
  | natural
  | port
  deriving DecidableEq, Repr

def Wanted.message : Wanted → String
  | text => "a string"
  | integer => "an integer"
  | natural => "an unsigned 64 bit or less integer"
  | port => "an unsigned 16 bit integer"

inductive Section where
  | player
  | watch
  deriving DecidableEq, Repr

def Section.key : Section → String
  | player => "mpd"
  | watch => "watcher"

/-- What a section is called in messages. -/
def Section.title : Section → String
  | player => "struct MpdSettings"
  | watch => "struct WatcherSettings"

/-- Why a tree gives no settings. -/
inductive Misfit where
  /-- A setting has a value of another kind. -/
  | setting (found : Found) (wanted : Wanted) (key : String) (origin : Option String)
  | wholeSection (found : Scalar) (part : Section)

/-- A real number that is told apart from a whole one by its point. -/
def pointed (x : Float) : String :=
  let s := plain.text x
  if s.toList.contains '.' then s else s ++ ".0"

/-- The wording of a single value in place of a section. -/
def Scalar.message : Scalar → String
  | nil => "unit value"
  | bool b => "boolean `" ++ (if b then "true" else "false") ++ "`"
  | integer n => "integer `" ++ signedDecimal n ++ "`"
  | real x => "floating point `" ++ pointed x ++ "`"
  | text s => "string " ++ quoted s

def Misfit.message : Misfit → String
  | setting found wanted key origin =>
    "invalid type: " ++ found.message ++ ", expected " ++ wanted.message ++ " for key `" ++ key ++
      "`" ++ match origin with
        | some origin => " in " ++ origin
        | none => ""
  | wholeSection found part => "invalid type: " ++ found.message ++ ", expected " ++ part.title

/-- A reader of the value of a setting with a given key. -/
abbrev ReadSetting (α : Type) := String → Node → Except Misfit α

/-- Reads a text; other single values are written out. -/
def readText : ReadSetting String := fun key node =>
  match node with
  | .scalar _ (.text s) => .ok s
  | .scalar _ (.bool b) => .ok (if b then "true" else "false")
  | .scalar _ (.integer n) => .ok (signedDecimal n)
  | .scalar _ (.real x) => .ok (plain.text x)
  | .scalar origin .nil => .error (.setting .nil .text key origin)
  | .list origin _ => .error (.setting .list .text key origin)
  | .table origin _ => .error (.setting .table .text key origin)

/-- The whole number that a text stands for. -/
def naturalOfText? (s : String) : Option Nat :=
  let word := lower s
  if word = "true" ∨ word = "on" ∨ word = "yes" then some 1
  else if word = "false" ∨ word = "off" ∨ word = "no" then some 0
  else readUnsigned? 64 s

/-- Reads a whole number. A real number is rounded, a half going away from zero, and goes to the
nearest end if it is out of range. -/
def readNatural : ReadSetting UInt64 := fun key node =>
  match node with
  | .scalar origin (.text s) =>
    match naturalOfText? s with
    | some n => .ok (UInt64.ofNat n)
    | none => .error (.setting (.text s) .integer key origin)
  | .scalar _ (.bool b) => .ok (if b then 1 else 0)
  | .scalar origin (.integer n) =>
    if 0 ≤ n then .ok (UInt64.ofNat n.toNat)
    else .error (.setting (.signed n) .natural key origin)
  | .scalar _ (.real x) => .ok (nearestWord x)
  | .scalar origin .nil => .error (.setting .nil .integer key origin)
  | .list origin _ => .error (.setting .list .integer key origin)
  | .table origin _ => .error (.setting .table .integer key origin)

def readPort : ReadSetting UInt16 := fun key node => do
  let n ← readNatural key node
  if n.toNat < twoTo 16 then .ok (UInt16.ofNat n.toNat)
  else .error (.setting (.unsigned n.toNat) .port key none)

/-- Reads a whole number that may be missing. -/
def readOptional : ReadSetting (Option UInt64) := fun key node =>
  match node with
  | .scalar _ .nil => .ok none
  | node => (readNatural key node).map some

/-- The value of a setting in a section, by its name in a table and by its place in a list. -/
def readIn {α : Type} (part : Section) (content : Node) (name : String) (place : Nat)
    (read : ReadSetting α) (default : α) : Except Misfit α :=
  match content with
  | .table _ entries =>
    match entries.lookup name with
    | some node => read (part.key ++ "." ++ name) node
    | none => .ok default
  | .list _ items =>
    match items[place]? with
    | some node => read (part.key ++ "[" ++ decimal place ++ "]") node
    | none => .ok default
  | .scalar _ value => .error (.wholeSection value part)

def PlayerSettings.ofNode (content : Node) : Except Misfit PlayerSettings := do
  let d : PlayerSettings := {}
  return {
    host := ← readIn .player content "host" 0 readText d.host
    port := ← readIn .player content "port" 1 readPort d.port }

def WatchSettings.ofNode (content : Node) : Except Misfit WatchSettings := do
  let d : WatchSettings := {}
  return {
    pollInterval := ← readIn .watch content "poll_interval_ms" 0 readNatural d.pollInterval
    retryDelay := ← readIn .watch content "retry_delay_ms" 1 readNatural d.retryDelay
    maxRetryDelay := ← readIn .watch content "max_retry_delay_ms" 2 readNatural d.maxRetryDelay
    ioTimeout := ← readIn .watch content "io_timeout_ms" 3 readOptional d.ioTimeout }

def ofNode (root : Node) : Except Misfit Settings := do
  return {
    player := ← PlayerSettings.ofNode ((root.child? Section.player.key).getD .empty)
    watch := ← WatchSettings.ofNode ((root.child? Section.watch.key).getD .empty) }

end PlayerWatch.Settings
