import PlayerWatch.Toml.Basic

/-!
# Strings and keys of TOML

Strings between double quotes have escapes and strings between single quotes have none; three quotes
in a row let a string go over several lines.
-/

namespace PlayerWatch.Toml

open Text

def charOfNumber? (n : Nat) : Option Char := if h : n.isValidChar then some (Char.ofNatAux n h) else none

/-- Reads so many hexadecimal digits. -/
def readHex (count : Nat) : Reader Char := fun cs => do
  if cs.length < count then none
  let digits ← (cs.take count).mapM hexValue?
  let c ← charOfNumber? (ofDigits 16 digits)
  some (c, cs.drop count)

/-- Reads an escape behind its backslash. -/
def readEscape : Reader Char
  | 'b' :: cs => some ('\x08', cs)
  | 't' :: cs => some ('\t', cs)
  | 'n' :: cs => some ('\n', cs)
  | 'f' :: cs => some ('\x0c', cs)
  | 'r' :: cs => some ('\r', cs)
  | '"' :: cs => some ('"', cs)
  | '\\' :: cs => some ('\\', cs)
  | 'u' :: cs => readHex 4 cs
  | 'U' :: cs => readHex 8 cs
  | _ => none

/-- Reads up to the closing double quote, in so many steps. -/
def readBasic : Nat → Reader (List Char)
  | 0, _ => none
  | _ + 1, [] => none
  | steps + 1, c :: cs =>
    if c = '"' then some ([], cs)
    else if c = '\\' then do
      let (e, rest) ← readEscape cs
      let (s, rest) ← readBasic steps rest
      some (e :: s, rest)
    else if isPrintable c then do
      let (s, rest) ← readBasic steps cs
      some (c :: s, rest)
    else none

/-- Reads up to the closing single quote. -/
def readLiteral : Reader (List Char)
  | [] => none
  | c :: cs =>
    if c = '\'' then some ([], cs)
    else if isPrintable c then do
      let (s, rest) ← readLiteral cs
      some (c :: s, rest)
    else none

/-- What a run of quotes means inside three of them: up to two are text, and three more end the
string. -/
def readQuotes (q : Char) (cs : List Char) : (List Char × List Char) ⊕ Option (List Char × List Char) :=
  let run := (cs.takeWhile (· = q)).length
  if run < 3 then .inl (List.replicate run q, cs.drop run)
  else if run ≤ 5 then .inr (some (List.replicate (run - 3) q, cs.drop run))
  else .inr none

/-- Drops blanks and ends of lines in front. -/
def dropEmptyLines : List Char → List Char
  | '\r' :: '\n' :: cs => dropEmptyLines cs
  | c :: cs => if isSpace c || c = '\n' then dropEmptyLines cs else c :: cs
  | [] => []

/-- Drops the rest of an empty line and what is empty below; nothing if the line goes on. -/
def dropFold (cs : List Char) : Option (List Char) :=
  (newline? (dropSpace cs)).map dropEmptyLines

/-- Reads up to three closing double quotes, in so many steps. -/
def readLongBasic : Nat → Reader (List Char)
  | 0, _ => none
  | _ + 1, [] => none
  | steps + 1, c :: cs =>
    if c = '"' then
      match readQuotes '"' (c :: cs) with
      | .inr ending => ending
      | .inl (quotes, rest) => do
        let (s, rest) ← readLongBasic steps rest
        some (quotes ++ s, rest)
    else if c = '\\' then
      match dropFold cs with
      | some rest => readLongBasic steps rest
      | none => do
        let (e, rest) ← readEscape cs
        let (s, rest) ← readLongBasic steps rest
        some (e :: s, rest)
    else
      match newline? (c :: cs) with
      | some rest => do
        let (s, rest) ← readLongBasic steps rest
        some ('\n' :: s, rest)
      | none =>
        if isPrintable c then do
          let (s, rest) ← readLongBasic steps cs
          some (c :: s, rest)
        else none

/-- Reads up to three closing single quotes, in so many steps. -/
def readLongLiteral : Nat → Reader (List Char)
  | 0, _ => none
  | _ + 1, [] => none
  | steps + 1, c :: cs =>
    if c = '\'' then
      match readQuotes '\'' (c :: cs) with
      | .inr ending => ending
      | .inl (quotes, rest) => do
        let (s, rest) ← readLongLiteral steps rest
        some (quotes ++ s, rest)
    else
      match newline? (c :: cs) with
      | some rest => do
        let (s, rest) ← readLongLiteral steps rest
        some ('\n' :: s, rest)
      | none =>
        if isPrintable c then do
          let (s, rest) ← readLongLiteral steps cs
          some (c :: s, rest)
        else none

/-- Drops the end of a line if it comes first. -/
def dropNewline (cs : List Char) : List Char := (newline? cs).getD cs

/-- Reads a string of any kind. -/
def readString : Reader (List Char)
  | '"' :: '"' :: '"' :: cs => readLongBasic (cs.length + 1) (dropNewline cs)
  | '\'' :: '\'' :: '\'' :: cs => readLongLiteral (cs.length + 1) (dropNewline cs)
  | '"' :: cs => readBasic (cs.length + 1) cs
  | '\'' :: cs => readLiteral cs
  | _ => none

/-- A character of a key without quotes. -/
def isKeyChar (c : Char) : Bool :=
  isDigit c || ('a' ≤ c && c ≤ 'z') || ('A' ≤ c && c ≤ 'Z') || c = '_' || c = '-'

def readSimpleKey : Reader String
  | '"' :: cs => do
    let (s, rest) ← readBasic (cs.length + 1) cs
    some (String.ofList s, rest)
  | '\'' :: cs => do
    let (s, rest) ← readLiteral cs
    some (String.ofList s, rest)
  | cs =>
    let key := cs.takeWhile isKeyChar
    if key.isEmpty then none else some (String.ofList key, cs.dropWhile isKeyChar)

/-- Reads a key of so many parts at most; blanks may stand around the dots between them. -/
def readKeyParts : Nat → Reader (List String)
  | 0, _ => none
  | parts + 1, cs => do
    let (key, rest) ← readSimpleKey (dropSpace cs)
    match dropSpace rest with
    | '.' :: rest =>
      let (keys, rest) ← readKeyParts parts rest
      some (key :: keys, rest)
    | rest => some ([key], rest)

def readKey : Reader (List String) := readKeyParts greatestDepth

end PlayerWatch.Toml
