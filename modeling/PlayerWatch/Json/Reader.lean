import PlayerWatch.Json.Basic
import PlayerWatch.Text.Utf8

/-!
# Reading JSON

`read` takes a text apart from left to right and stops at the first fault. Each part of the reader
returns what is left of the text, or nothing if reading stopped inside that part.
-/

namespace PlayerWatch.Json

open Number Text

/-- A blank between tokens. -/
def isSpace (c : Char) : Bool := c = ' ' || c = '\t' || c = '\n' || c = '\r'

/-- Drops the blanks in front of a token. -/
def dropSpace (cs : List Char) : List Char := cs.dropWhile isSpace

/-- A part that could be read, with what is left of the text; nothing is left behind a fault. -/
abbrev Part (α : Type) := α × Option (List Char)

/-- A fault that ends the text. -/
def stop (isWord : Bool) (skipped wanted : Fault) : Part Json := (.broken isWord skipped wanted, none)

/-! ### Words -/

def readWord (value : Json) : List Char → List Char → Part Json
  | [], cs => (value, some cs)
  | _ :: _, [] => stop true .truncated .truncated
  | w :: ws, c :: cs =>
    if w = c then readWord value ws cs else stop true .malformed .malformed

/-! ### Numbers -/

/-- A number in which digits are missing at the place where the text goes on so. -/
def missingDigits : List Char → Part Json
  | [] => stop true .malformed .truncated
  | _ :: _ => stop true .malformed .malformed

def readExponent (n : Numeral) : List Char → Part Json
  | c :: cs =>
    if c = 'e' ∨ c = 'E' then
      let (negative, cs) :=
        match cs with
        | '-' :: cs => (true, cs)
        | '+' :: cs => (false, cs)
        | cs => (false, cs)
      let digits := cs.takeWhile isDigit
      if digits.isEmpty then missingDigits cs
      else
        let e := ofDigits 10 (digits.map digitValue)
        (.number { n with exponent := some (if negative then -(e : Int) else e) },
          some (cs.dropWhile isDigit))
    else (.number n, some (c :: cs))
  | [] => (.number n, some [])

/-- Reads what follows the whole part of a number. -/
def readFraction (n : Numeral) : List Char → Part Json
  | '.' :: cs =>
    let digits := cs.takeWhile isDigit
    if digits.isEmpty then missingDigits cs
    else readExponent { n with fraction := digits.map digitValue } (cs.dropWhile isDigit)
  | cs => readExponent n cs

/-- Reads a number behind its sign. No digit may follow a zero in front. -/
def readNumber (negative : Bool) (cs : List Char) : Part Json :=
  match cs.takeWhile isDigit with
  | [] => missingDigits cs
  | d :: ds =>
    if d = '0' ∧ ds ≠ [] then stop true .malformed .malformed
    else
      readFraction { negative, whole := (d :: ds).map digitValue } (cs.dropWhile isDigit)

/-! ### Strings -/

/-- A part of a string: a character, or a unit that an escape gives by its number. -/
inductive Piece where
  | char (c : Char)
  | unit (n : Nat)

/-- Reads four hexadecimal digits. -/
def readUnit : List Char → Except Fault (Nat × List Char)
  | a :: b :: c :: d :: rest =>
    match hexValue? a, hexValue? b, hexValue? c, hexValue? d with
    | some a, some b, some c, some d => .ok (ofDigits 16 [a, b, c, d], rest)
    | _, _, _, _ => .error .malformed
  | cs => if octets cs < 4 then .error .truncated else .error .malformed

/-- The character that an escape by a letter stands for. -/
def escape? (c : Char) : Option Char :=
  [('"', '"'), ('\\', '\\'), ('/', '/'), ('b', '\x08'), ('f', '\x0c'), ('n', '\n'), ('r', '\r'),
   ('t', '\t')].lookup c

/-- Cuts a string into pieces up to the closing quote, in so many steps; the second part is what is
left of the text, or the fault. -/
def readPieces : Nat → List Char → List Piece × Except Fault (List Char)
  | 0, _ => ([], .error .truncated)
  | _ + 1, [] => ([], .error .truncated)
  | steps + 1, c :: cs =>
    if c = '"' then ([], .ok cs)
    else if c = '\\' then
      match cs with
      | [] => ([], .error .truncated)
      | 'u' :: cs =>
        match readUnit cs with
        | .ok (n, rest) =>
          let (pieces, ending) := readPieces steps rest
          (.unit n :: pieces, ending)
        | .error fault => ([], .error fault)
      | e :: cs =>
        match escape? e with
        | some c =>
          let (pieces, ending) := readPieces steps cs
          (.char c :: pieces, ending)
        | none => ([], .error .malformed)
    else if c.toNat < 0x20 then ([], .error .malformed)
    else
      let (pieces, ending) := readPieces steps cs
      (.char c :: pieces, ending)

/-- A unit that begins a pair. -/
def isHigh (n : Nat) : Bool := 0xD800 ≤ n && n < 0xDC00

/-- A unit that ends a pair. -/
def isLow (n : Nat) : Bool := 0xDC00 ≤ n && n < 0xE000

/-- The character of a pair. -/
def pairChar (high low : Nat) : Char :=
  Char.ofNat ((high - 0xD800) * 0x400 + (low - 0xDC00) + 0x10000)

/-- The text of pieces. At the half of a pair it ends: `some true` says that the text behind it was
looked at and does not complete it, `some false` that there was none. -/
def textOfPieces : List Piece → List Char × Option Bool
  | [] => ([], none)
  | .char c :: rest => ((c :: (textOfPieces rest).1), (textOfPieces rest).2)
  | [.unit n] =>
    if isHigh n then ([], some false) else if isLow n then ([], some true) else ([Char.ofNat n], none)
  | .unit n :: .char c :: rest =>
    if isHigh n || isLow n then ([], some true)
    else (Char.ofNat n :: c :: (textOfPieces rest).1, (textOfPieces rest).2)
  | .unit n :: .unit m :: rest =>
    if isHigh n then
      if isLow m then (pairChar n m :: (textOfPieces rest).1, (textOfPieces rest).2)
      else ([], some true)
    else if isLow n then ([], some true)
    else (Char.ofNat n :: (textOfPieces (.unit m :: rest)).1, (textOfPieces (.unit m :: rest)).2)

/-- Reads a string behind its opening quote. -/
def readString (cs : List Char) : Part Json :=
  let (pieces, ending) := readPieces (cs.length + 1) cs
  match ending, textOfPieces pieces with
  | .ok rest, (text, none) => (.string (some (String.ofList text)), some rest)
  | .ok rest, (_, some _) => (.string none, some rest)
  | .error fault, (_, some true) => stop false fault .malformed
  | .error fault, (_, _) => stop false fault fault

/-! ### Values -/

mutual

/-- Reads a value; `fuel` bounds the number of values and lists inside and is never used up if it is
greater than the length of the text. -/
def readValue : Nat → List Char → Part Json
  | 0, _ => stop false .truncated .truncated
  | fuel + 1, cs =>
    match dropSpace cs with
    | [] => stop false .truncated .truncated
    | c :: cs =>
      if c = '"' then readString cs
      else if c = '[' then
        let (items, fault, rest) := readItems fuel true cs
        (.array items fault, rest)
      else if c = '\x7b' then
        let (members, fault, rest) := readMembers fuel true cs
        (.object members fault, rest)
      else if c = 'n' then readWord .null ['u', 'l', 'l'] cs
      else if c = 't' then readWord (.bool true) ['r', 'u', 'e'] cs
      else if c = 'f' then readWord (.bool false) ['a', 'l', 's', 'e'] cs
      else if c = '-' then readNumber true cs
      else if isDigit c then readNumber false (c :: cs)
      else stop false .malformed .malformed

/-- Reads the items of an array; `first` says that none came before. -/
def readItems : Nat → Bool → List Char → List Json × Option Fault × Option (List Char)
  | 0, _, _ => ([], some .truncated, none)
  | fuel + 1, first, cs =>
    match dropSpace cs with
    | [] => ([], some .truncated, none)
    | c :: rest =>
      if c = ']' then ([], none, some rest)
      else if first then readItem fuel (c :: rest)
      else if c = ',' then
        if (dropSpace rest).head? = some ']' then ([], some .malformed, none)
        else readItem fuel rest
      else ([], some .malformed, none)

/-- Reads an item of an array and those that follow. -/
def readItem : Nat → List Char → List Json × Option Fault × Option (List Char)
  | 0, _ => ([], some .truncated, none)
  | fuel + 1, cs =>
    match readValue fuel cs with
    | (item, none) => ([item], none, none)
    | (item, some rest) =>
      let (items, fault, rest) := readItems fuel false rest
      (item :: items, fault, rest)

/-- Reads the members of an object; `first` says that none came before. -/
def readMembers : Nat → Bool → List Char → List (Json × Json) × Option Fault × Option (List Char)
  | 0, _, _ => ([], some .truncated, none)
  | fuel + 1, first, cs =>
    match dropSpace cs with
    | [] => ([], some .truncated, none)
    | c :: rest =>
      if c = '\x7d' then ([], none, some rest)
      else if first then readMember fuel (c :: rest)
      else if c = ',' then readMember fuel rest
      else ([], some .malformed, none)

/-- Reads a member of an object and those that follow. -/
def readMember : Nat → List Char → List (Json × Json) × Option Fault × Option (List Char)
  | 0, _ => ([], some .truncated, none)
  | fuel + 1, cs =>
    match dropSpace cs with
    | [] => ([], some .truncated, none)
    | c :: cs =>
      if c = '"' then
        match readString cs with
        | (key, none) => ([(key, .null)], none, none)
        | (key, some rest) =>
          match readColon rest with
          | .error fault => ([(key, .broken false fault fault)], none, none)
          | .ok rest =>
            match readValue fuel rest with
            | (value, none) => ([(key, value)], none, none)
            | (value, some rest) =>
              let (members, fault, rest) := readMembers fuel false rest
              ((key, value) :: members, fault, rest)
      else ([], some .malformed, none)

/-- Reads what stands between a key and its value. -/
def readColon (cs : List Char) : Except Fault (List Char) :=
  match dropSpace cs with
  | [] => .error .truncated
  | c :: rest => if c = ':' then .ok rest else .error .malformed

end

/-- A text as a tree, and whether something else follows the value. -/
structure Document where
  value : Json
  trailing : Bool

def read (s : String) : Document :=
  let cs := s.toList
  match readValue (4 * cs.length + 4) cs with
  | (value, none) => ⟨value, false⟩
  | (value, some rest) => ⟨value, !(dropSpace rest).isEmpty⟩

end PlayerWatch.Json
