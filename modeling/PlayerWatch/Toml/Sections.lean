import PlayerWatch.Toml.Scalars
import PlayerWatch.Toml.Strings
import PlayerWatch.Toml.Tables

/-!
# TOML texts as sections

A text is a list of sections: what stands in front of the first header, and each header with what
stands behind it. `ofText?` reads a text and puts the sections together to one table.
-/

namespace PlayerWatch.Toml

mutual

/-- Reads a value, in which lists and inline tables may lie in each other so many levels deep. `fuel`
bounds the values, lists and lines inside and is never used up if it is greater than the length of
the text. -/
def readValue : (fuel levels : Nat) → Reader Toml
  | 0, _, _ => none
  | fuel + 1, levels, cs =>
    match cs with
    | [] => none
    | c :: rest =>
      if c = '"' ∨ c = '\'' then do
        let (s, rest) ← readString cs
        some (.text (String.ofList s), rest)
      else if c = '[' ∨ c = '\x7b' then
        match levels with
        | 0 => none
        | levels + 1 =>
          if c = '[' then do
            let (items, rest) ← readItems fuel levels rest
            some (.array items, rest)
          else do
            let (pairs, rest) ← readPairs fuel levels rest
            let entries ← inlineEntries? pairs
            some (.table .inline entries, rest)
      else readScalar cs

/-- Reads the items of an array behind its bracket or a comma. -/
def readItems : (fuel levels : Nat) → Reader (List Toml)
  | 0, _, _ => none
  | fuel + 1, levels, cs =>
    match dropBetween cs with
    | ']' :: rest => some ([], rest)
    | cs => do
      let (item, rest) ← readValue fuel levels cs
      match dropBetween rest with
      | ']' :: rest => some ([item], rest)
      | ',' :: rest =>
        let (items, rest) ← readItems fuel levels rest
        some (item :: items, rest)
      | _ => none

/-- Reads the keys and values of an inline table behind its brace. -/
def readPairs : (fuel levels : Nat) → Reader (List (List String × Toml))
  | 0, _, _ => none
  | fuel + 1, levels, cs =>
    match dropSpace cs with
    | '\x7d' :: rest => some ([], rest)
    | cs => readMorePairs fuel levels cs

/-- Reads at least one key and value of an inline table. -/
def readMorePairs : (fuel levels : Nat) → Reader (List (List String × Toml))
  | 0, _, _ => none
  | fuel + 1, levels, cs => do
    let (pair, rest) ← readPair fuel levels cs
    match dropSpace rest with
    | '\x7d' :: rest => some ([pair], rest)
    | ',' :: rest =>
      let (pairs, rest) ← readMorePairs fuel levels rest
      some (pair :: pairs, rest)
    | _ => none

/-- Reads a key and its value. -/
def readPair : (fuel levels : Nat) → Reader (List String × Toml)
  | 0, _, _ => none
  | fuel + 1, levels, cs => do
    let (key, rest) ← readKey cs
    match dropSpace rest with
    | '=' :: rest =>
      let (value, rest) ← readValue fuel levels (dropSpace rest)
      some ((key, value), rest)
    | _ => none

end

/-- Drops the rest of a line in which nothing more may come but a comment. -/
def endLine (cs : List Char) : Option (List Char) :=
  match dropComment (dropSpace cs) with
  | [] => some []
  | rest => newline? rest

/-- Reads a header behind its first bracket: whether it has two brackets, and its key. -/
def readHeader : Reader (Bool × List String)
  | '[' :: cs => do
    let (key, rest) ← readKey cs
    match rest with
    | ']' :: ']' :: rest => some ((true, key), rest)
    | _ => none
  | cs => do
    let (key, rest) ← readKey cs
    match rest with
    | ']' :: rest => some ((false, key), rest)
    | _ => none

/-- Reads the rest of a text into sections, in so many lines; the first part are the pairs in front
of the first header. -/
def readSections (fuel : Nat) :
    Nat → List Char → Option (List (List String × Toml) × List Section)
  | 0, _ => none
  | lines + 1, cs =>
    match dropSpace cs with
    | [] => some ([], [])
    | '[' :: rest => do
      let ((repeated, key), rest) ← readHeader rest
      let (pairs, sections) ← readSections fuel lines (← endLine rest)
      some ([], ⟨repeated, key, pairs⟩ :: sections)
    | c :: rest =>
      match endLine (c :: rest) with
      | some rest => readSections fuel lines rest
      | none => do
        let (pair, rest) ← readPair fuel greatestDepth (c :: rest)
        let (pairs, sections) ← readSections fuel lines (← endLine rest)
        some (pair :: pairs, sections)

/-- Drops the mark that some texts begin with. -/
def dropMark : List Char → List Char
  | c :: cs => if c.toNat = 0xFEFF then cs else c :: cs
  | [] => []

/-- The table of a text; nothing if the text is no TOML. -/
def ofText? (s : String) : Option (List (String × Toml)) := do
  let cs := dropMark s.toList
  let (pairs, sections) ← readSections (4 * cs.length + 4) (cs.length + 1) cs
  assemble? pairs sections

end PlayerWatch.Toml
