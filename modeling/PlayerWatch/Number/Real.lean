import PlayerWatch.Number.Integer

/-!
# Real numbers in text

A real number is read from an optional sign followed by decimal digits with at most one point
among or beside them and an optional exponent, or by one of the words for the values that are no
numbers. The value is the double nearest to what is written.
-/

namespace PlayerWatch.Number

open Text

/-- The number `± mantissa · 10 ^ exponent`. -/
structure Scientific where
  negative : Bool
  mantissa : Nat
  exponent : Int
  deriving DecidableEq, Repr

def infinity : Float := Float.ofBits 0x7FF0000000000000

/-- The value that is no number. -/
def notANumber : Float := Float.ofBits 0x7FF8000000000000

/-- A float with the given sign and the magnitude of a float without one. -/
def withSign (negative : Bool) (x : Float) : Float := if negative then -x else x

/-- The double nearest to a non-negative decimal number. A number with more than 310 digits before
the point is beyond the largest double and one that begins after the 330th place is below half the
smallest, so neither is ever expanded. -/
def nearest (mantissa : Nat) (exponent : Int) : Float :=
  let digits : Int := (Nat.toDigits 10 mantissa).length
  if mantissa = 0 then 0
  else if digits + exponent > 310 then infinity
  else if digits + exponent < -330 then 0
  else Float.ofScientific mantissa (exponent < 0) exponent.natAbs

/-- The double nearest to a decimal number. -/
def Scientific.toFloat (n : Scientific) : Float := withSign n.negative (nearest n.mantissa n.exponent)

/-- Splits off an optional sign; `true` means negative. -/
def splitSign : List Char → Bool × List Char
  | '-' :: cs => (true, cs)
  | '+' :: cs => (false, cs)
  | cs => (false, cs)

/-- Reads an exponent: an optional sign and one or more digits. -/
def readExponent? (cs : List Char) : Option Int :=
  let (negative, digits) := splitSign cs
  (readDigits? digits).map fun n => if negative then -(n : Int) else n

/-- Reads digits, an optional point with digits, and an optional exponent, without a sign. There is
a digit before or after the point. -/
def readMagnitude? (cs : List Char) : Option (Nat × Int) :=
  let whole := cs.takeWhile isDigit
  let (fraction, rest) :=
    match cs.dropWhile isDigit with
    | '.' :: more => (more.takeWhile isDigit, more.dropWhile isDigit)
    | more => ([], more)
  if whole.isEmpty && fraction.isEmpty then none
  else
    let exponent? :=
      match rest with
      | [] => some 0
      | c :: more => if c = 'e' ∨ c = 'E' then readExponent? more else none
    exponent?.map fun e => (ofDigits 10 ((whole ++ fraction).map digitValue), e - fraction.length)

/-- Reads a real number; nothing may stand before or after it. -/
def readReal? (s : String) : Option Float :=
  let (negative, cs) := splitSign s.toList
  let word := String.ofList (cs.map lowerChar)
  if word = "inf" ∨ word = "infinity" then some (withSign negative infinity)
  else if word = "nan" then some notANumber
  else (readMagnitude? cs).map fun m => (Scientific.mk negative m.1 m.2).toFloat

/-- The whole part of a double as a 32-bit word: what lies outside its range goes to the nearest
end, and what is no number to zero. -/
def wholeSeconds (x : Float) : UInt32 := x.toUInt32

end PlayerWatch.Number
