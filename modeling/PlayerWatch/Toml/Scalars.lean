import PlayerWatch.Toml.Basic
import PlayerWatch.Number.Shortest

/-!
# Numbers, truth values, dates and times of TOML

Digits may be parted by single underscores. A whole number has 64 bits with a sign; a real number too
large for a double is refused. Dates and times are kept as text in their normal form.
-/

namespace PlayerWatch.Toml

open Text Number

/-- Reads digits of one kind, of which any two neighbours may have an underscore between them. -/
def readDigits (ok : Char → Bool) : Reader (List Char)
  | [] => none
  | c :: cs =>
    if !ok c then none
    else
      match cs with
      | '_' :: d :: rest =>
        match readDigits ok (d :: rest) with
        | some (ds, rest) => some (c :: ds, rest)
        | none => none
      | ['_'] => none
      | d :: rest =>
        if ok d then (readDigits ok (d :: rest)).map fun p => (c :: p.1, p.2)
        else some ([c], d :: rest)
      | [] => some ([c], [])

def readSign : List Char → Bool × List Char
  | '-' :: cs => (true, cs)
  | '+' :: cs => (false, cs)
  | cs => (false, cs)

/-- A whole number if it has 64 bits. -/
def word? (n : Int) : Option Toml :=
  if isSigned 64 n then some (.integer n) else none

/-- Reads a whole number in a base other than ten, behind its mark. -/
def readBased (base : Nat) : Reader Toml := fun cs => do
  let ok (c : Char) : Bool := (hexValue? c).any (· < base)
  let (digits, rest) ← readDigits ok cs
  let value ← word? (ofDigits base (digits.filterMap hexValue?))
  some (value, rest)

/-- Reads the digits in front of a point: no zero may come first unless it is alone. -/
def readWhole : Reader (List Char) := fun cs => do
  let (digits, rest) ← readDigits isDigit cs
  if digits.length > 1 ∧ digits.head? = some '0' then none else some (digits, rest)

/-- A real number, unless it is too large. -/
def real? (negative : Bool) (digits : List Char) (exponent : Int) : Option Toml :=
  let x := nearest (ofDigits 10 (digits.map digitValue)) exponent
  if negative || isFinite x then some (.real (withSign negative x)) else none

/-- Reads the exponent of a real number behind its mark. -/
def readExponent : Reader Int := fun cs => do
  let (negative, cs) := readSign cs
  let (digits, rest) ← readDigits isDigit cs
  let n : Int := ofDigits 10 (digits.map digitValue)
  some (if negative then -n else n, rest)

/-- Reads the rest of a number in base ten. -/
def readRest (negative : Bool) (whole : List Char) : Reader Toml
  | '.' :: cs => do
    let (fraction, rest) ← readDigits isDigit cs
    let digits := whole ++ fraction
    match rest with
    | c :: more =>
      if c = 'e' ∨ c = 'E' then
        let (e, rest) ← readExponent more
        some (← real? negative digits (e - fraction.length), rest)
      else some (← real? negative digits (-fraction.length), rest)
    | [] => some (← real? negative digits (-fraction.length), rest)
  | c :: cs =>
    if c = 'e' ∨ c = 'E' then do
      let (e, rest) ← readExponent cs
      some (← real? negative whole e, rest)
    else do
      let n : Int := ofDigits 10 (whole.map digitValue)
      some (← word? (if negative then -n else n), c :: cs)
  | [] => do
    let n : Int := ofDigits 10 (whole.map digitValue)
    some (← word? (if negative then -n else n), [])

def readNumber : Reader Toml
  | '0' :: 'x' :: cs => readBased 16 cs
  | '0' :: 'o' :: cs => readBased 8 cs
  | '0' :: 'b' :: cs => readBased 2 cs
  | cs =>
    match readSign cs with
    | (negative, 'i' :: 'n' :: 'f' :: rest) => some (.real (withSign negative infinity), rest)
    | (_, 'n' :: 'a' :: 'n' :: rest) => some (.real notANumber, rest)
    | (negative, cs) => do
      let (whole, rest) ← readWhole cs
      readRest negative whole rest

/-- Reads a truth value. -/
def readBool : Reader Toml
  | 't' :: 'r' :: 'u' :: 'e' :: cs => some (.bool true, cs)
  | 'f' :: 'a' :: 'l' :: 's' :: 'e' :: cs => some (.bool false, cs)
  | _ => none

/-! ### Dates and times -/

/-- Reads so many digits as a number in a range. -/
def readField (count low high : Nat) : Reader Nat := fun cs =>
  let digits := cs.take count
  if digits.length = count ∧ digits.all isDigit then
    let n := ofDigits 10 (digits.map digitValue)
    if low ≤ n ∧ n ≤ high then some (n, cs.drop count) else none
  else none

/-- Drops one given character. -/
def expect (c : Char) : List Char → Option (List Char)
  | d :: cs => if c = d then some cs else none
  | [] => none

def daysIn (year month : Nat) : Nat :=
  if month = 2 then
    if year % 4 = 0 ∧ (year % 100 ≠ 0 ∨ year % 400 = 0) then 29 else 28
  else if month = 4 ∨ month = 6 ∨ month = 9 ∨ month = 11 then 30
  else 31

/-- A number with at least so many digits. -/
def padded (width n : Nat) : List Char :=
  let digits := Nat.toDigits 10 n
  List.replicate (width - digits.length) '0' ++ digits

def readDate : Reader (List Char) := fun cs => do
  let (year, cs) ← readField 4 0 9999 cs
  let (month, cs) ← readField 2 1 12 (← expect '-' cs)
  let (day, cs) ← readField 2 1 (daysIn year month) (← expect '-' cs)
  some (padded 4 year ++ '-' :: padded 2 month ++ '-' :: padded 2 day, cs)

/-- The places of a second that are kept: nine at most, and no zeros at the end. -/
def secondPlaces (digits : List Char) : List Char :=
  let kept := ((digits.take 9).reverse.dropWhile (· = '0')).reverse
  if kept.isEmpty then [] else '.' :: kept

def readTime : Reader (List Char) := fun cs => do
  let (hour, cs) ← readField 2 0 23 cs
  let (minute, cs) ← readField 2 0 59 (← expect ':' cs)
  let (second, cs) ← readField 2 0 60 (← expect ':' cs)
  let time := padded 2 hour ++ ':' :: padded 2 minute ++ ':' :: padded 2 second
  match cs with
  | '.' :: more =>
    let digits := more.takeWhile isDigit
    if digits.isEmpty then none else some (time ++ secondPlaces digits, more.dropWhile isDigit)
  | cs => some (time, cs)

/-- Reads the distance from universal time, if it is given. -/
def readOffset (cs : List Char) : Option (List Char × List Char) :=
  match cs with
  | [] => some ([], [])
  | c :: rest =>
    if c = 'Z' ∨ c = 'z' then some (['Z'], rest)
    else if c = '+' ∨ c = '-' then do
      let (hour, rest) ← readField 2 0 23 rest
      let (minute, rest) ← readField 2 0 59 (← expect ':' rest)
      let sign := if hour = 0 ∧ minute = 0 then '+' else c
      some (sign :: padded 2 hour ++ ':' :: padded 2 minute, rest)
    else some ([], cs)

/-- Reads the time behind a date, if one is given. -/
def readTimeOfDate (cs : List Char) : Option (List Char × List Char) :=
  match cs with
  | c :: rest =>
    if c = 'T' ∨ c = 't' ∨ (c = ' ' ∧ (readTime rest).isSome) then do
      let (time, rest) ← readTime rest
      let (offset, rest) ← readOffset rest
      some ('T' :: time ++ offset, rest)
    else some ([], cs)
  | [] => some ([], [])

/-- Reads a date, a time or both. -/
def readMoment : Reader Toml := fun cs =>
  match readDate cs with
  | some (date, rest) => do
    let (time, rest) ← readTimeOfDate rest
    some (.moment (String.ofList (date ++ time)), rest)
  | none => (readTime cs).map fun p => (.moment (String.ofList p.1), p.2)

/-- Reads a value that is no string and has no parts. -/
def readScalar : Reader Toml := fun cs =>
  match readBool cs with
  | some p => some p
  | none =>
    match readMoment cs with
    | some p => some p
    | none => readNumber cs

end PlayerWatch.Toml
