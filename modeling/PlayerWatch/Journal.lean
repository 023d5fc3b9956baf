/-!
# Journal

What the program tells its operator, line by line. A line belongs to a part of the program and has a
level; the outer layer decides which levels are shown and where.
-/

namespace PlayerWatch

/-- How much a line of the journal matters. -/
inductive Level where
  | debug
  | info
  | warn
  deriving DecidableEq, Repr

def Level.name : Level → String
  | debug => "DEBUG"
  | info => "INFO"
  | warn => "WARN"

/-- The parts of the program that keep a journal. -/
inductive Part where
  | settings
  | program
  deriving DecidableEq, Repr

def Part.name : Part → String
  | settings => "mpd_watch::config"
  | program => "mpd_watch"

/-- A line of the journal. -/
structure Note where
  level : Level
  part : Part
  text : String
  deriving DecidableEq, Repr

def Note.line (n : Note) : String := n.level.name ++ " " ++ n.part.name ++ ": " ++ n.text

end PlayerWatch
