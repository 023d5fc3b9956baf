import PlayerWatch.Number.Real

/-!
# TOML values

A value of a TOML text. Tables remember how they came to be, because that decides what later lines
may still add to them.
-/

namespace PlayerWatch

/-- How a table came to be. -/
inductive Toml.Origin where
  /-- Written between braces. -/
  | inline
  /-- Given by a header of its own. -/
  | header
  /-- Needed by the header of a table inside. -/
  | implied
  /-- Needed by a key with dots. -/
  | dotted
  deriving DecidableEq, Repr

/-- A value of a TOML text. -/
inductive Toml where
  | text (s : String)
  | integer (n : Int)
  | real (x : Float)
  | bool (b : Bool)
  /-- A date, a time or both, in its normal form. -/
  | moment (s : String)
  | array (items : List Toml)
  /-- The tables that headers in double brackets give, in order. -/
  | tables (items : List (List (String × Toml)))
  | table (origin : Toml.Origin) (entries : List (String × Toml))

namespace Toml

/-- How many parts a key may have, and how deep lists and inline tables may lie in each other. -/
def greatestDepth : Nat := 79

/-- A reader takes something off the front of a text. -/
abbrev Reader (α : Type) := List Char → Option (α × List Char)

/-- A blank inside a line. -/
def isSpace (c : Char) : Bool := c = ' ' || c = '\t'

/-- Drops the blanks in front. -/
def dropSpace (cs : List Char) : List Char := cs.dropWhile isSpace

/-- What is behind the end of a line. -/
def newline? : List Char → Option (List Char)
  | '\n' :: cs => some cs
  | '\r' :: '\n' :: cs => some cs
  | _ => none

/-- A character that may stand in a string or a comment. -/
def isPrintable (c : Char) : Bool := c = '\t' || (0x20 ≤ c.toNat && c.toNat ≠ 0x7F)

def dropComment : List Char → List Char
  | '#' :: cs => cs.dropWhile isPrintable
  | cs => cs

/-- Drops blanks, comments and ends of lines in front; every line takes one step. -/
def dropLines : Nat → List Char → List Char
  | 0, cs => cs
  | steps + 1, cs =>
    let cs := dropSpace cs
    match newline? (dropComment cs) with
    | some rest => dropLines steps rest
    | none => cs

/-- Drops all blanks, comments and ends of lines in front. -/
def dropBetween (cs : List Char) : List Char := dropLines (cs.length + 1) cs

end Toml

end PlayerWatch
