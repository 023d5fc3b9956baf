import PlayerWatch.Number.Numeral
import PlayerWatch.Number.Shortest

/-!
# How a real number is laid out

The digits of a real number are found by `shortest`; a `Layout` says how they are set: where the
positional form ends and whether a whole number keeps a point.
-/

namespace PlayerWatch.Number

/-- How digits are set: the least and the greatest place of the point at which all digits are
written out (no bound means always), and whether a whole number ends in `.0`. -/
structure Layout where
  least : Option Int
  greatest : Option Int
  keepsPoint : Bool

/-- All digits are written out and a whole number has no point. -/
def plain : Layout := ⟨none, none, false⟩

namespace Layout

/-- Whether the positional form is used for a given place of the point. -/
def isPositional (l : Layout) (point : Int) : Bool :=
  l.least.all (· ≤ point) && l.greatest.all (point ≤ ·)

/-- The digits after the point, of which a whole number may keep one zero. -/
def fraction (l : Layout) (digits : List Nat) : List Nat :=
  if digits.isEmpty && l.keepsPoint then [0] else digits

/-- All digits written out, with zeros up to the point where needed. -/
def positional (l : Layout) (negative : Bool) (d : Digits) : Numeral :=
  if d.point ≤ 0 then
    { negative, whole := [0], fraction := List.replicate (-d.point).toNat 0 ++ d.digits }
  else
    let before := d.point.toNat
    { negative
      whole := d.digits.take before ++ List.replicate (before - d.digits.length) 0
      fraction := l.fraction (d.digits.drop before) }

/-- One digit before the point and the exponent with its sign. -/
def exponential (negative : Bool) (d : Digits) : Numeral :=
  { negative, whole := d.digits.take 1, fraction := d.digits.drop 1, exponent := some (d.point - 1) }

/-- The numeral of a finite double. -/
def numeral (l : Layout) (x : Float) : Numeral :=
  let d := shortest x
  if d.digits.isEmpty then { negative := signBit x, whole := [0], fraction := l.fraction [] }
  else if l.isPositional d.point then l.positional (signBit x) d
  else exponential (signBit x) d

/-- The text of any double. -/
def text (l : Layout) (x : Float) : String :=
  if isFinite x then (l.numeral x).text
  else if x.isNaN then "NaN"
  else if signBit x then "-inf" else "inf"

end Layout

/-- A fraction rounded to a whole number, a half going to the even neighbour. -/
def roundHalfEven (num den : Nat) : Nat :=
  let q := num / den
  let r := num % den
  if 2 * r < den then q
  else if den < 2 * r then q + 1
  else q + q % 2

/-- A double without decimal places, a half going to the even neighbour. -/
def wholeText (x : Float) : String :=
  if isFinite x then
    let d := magnitude x
    let v := dyadicFraction d.significand d.power
    let unsigned := decimal (roundHalfEven v.1 v.2)
    if signBit x then "-" ++ unsigned else unsigned
  else plain.text x

end PlayerWatch.Number
