import PlayerWatch.Number.Real

/-!
# The shortest digits that read back

A finite double stands for all the reals that round to it. `shortest` gives the fewest significant
digits that name a real of that interval, and of those the nearest to the double itself; on an
exact tie the last digit is even.
-/

namespace PlayerWatch.Number

/-- A finite double's magnitude as `significand · 2 ^ power`. -/
structure Dyadic where
  significand : Nat
  power : Int
  deriving DecidableEq, Repr

/-- The magnitude of a finite double. -/
def magnitude (x : Float) : Dyadic :=
  let bits : Nat := x.toBits.toNat
  let fraction : Nat := bits % twoTo 52
  let field : Nat := bits / twoTo 52 % twoTo 11
  if field = 0 then ⟨fraction, -1074⟩ else ⟨twoTo 52 + fraction, (field : Int) - 1075⟩

def signBit (x : Float) : Bool := x.toBits.toNat / twoTo 63 = 1

/-- Whether the double is neither infinite nor no number. -/
def isFinite (x : Float) : Bool := x.toBits.toNat / twoTo 52 % twoTo 11 ≠ twoTo 11 - 1

def dyadicFraction (value : Nat) (power : Int) : Nat × Nat :=
  if 0 ≤ power then (value * twoTo power.toNat, 1) else (value, twoTo (-power).toNat)

def decimalFraction (value : Nat) (power : Int) : Nat × Nat :=
  if 0 ≤ power then (value * tenTo power.toNat, 1) else (value, tenTo (-power).toNat)

/-- `a ≤ b` for fractions with positive denominators. -/
def fractionLe (a b : Nat × Nat) : Bool := a.1 * b.2 ≤ b.1 * a.2

/-- The distance between two fractions. -/
def fractionDist (a b : Nat × Nat) : Nat × Nat :=
  ((a.1 * b.2 - b.1 * a.2) + (b.1 * a.2 - a.1 * b.2), a.2 * b.2)

/-- The reals that round to a double, as the ends of an interval in quarters of its last place: the
gap below a power of two is half as wide. The ends belong to it iff the significand is even. -/
def Dyadic.rounds (d : Dyadic) (v : Nat × Nat) : Bool :=
  let below := if d.significand = twoTo 52 ∧ -1074 < d.power then 1 else 2
  let low := dyadicFraction (4 * d.significand - below) (d.power - 2)
  let high := dyadicFraction (4 * d.significand + 2) (d.power - 2)
  if d.significand % 2 = 0 then fractionLe low v && fractionLe v high
  else !fractionLe v low && !fractionLe high v

/-- A positive decimal number `0.d₁d₂… · 10 ^ point` by its digits, the first and last not zero. -/
structure Digits where
  digits : List Nat
  point : Int
  deriving DecidableEq, Repr

/-- How many places before the point the first significant digit stands; zero or less when it
stands after it. Every double is above `10 ^ -330`. -/
def leadingPlace (v : Nat × Nat) : Int :=
  ((Nat.toDigits 10 (v.1 * tenTo 330 / v.2)).length : Int) - 330

/-- The better of the two neighbours of a double on the grid of multiples of `10 ^ power`, if one
of them reads back. -/
def Dyadic.onGrid? (d : Dyadic) (power : Int) : Option Nat :=
  let v := dyadicFraction d.significand d.power
  let unit := decimalFraction 1 power
  let below := v.1 * unit.2 / (v.2 * unit.1)
  let down := decimalFraction below power
  let up := decimalFraction (below + 1) power
  match decide (below ≠ 0) && d.rounds down, d.rounds up with
  | true, true =>
    let lower := fractionDist v down
    let upper := fractionDist v up
    if fractionLe lower upper && (!fractionLe upper lower || below % 2 = 0) then some below
    else some (below + 1)
  | true, false => some below
  | false, true => some (below + 1)
  | false, false => none

/-- The digits of a number without the zeros at its end. -/
def significantDigits (n : Nat) : List Nat :=
  (((Nat.toDigits 10 n).map Text.digitValue).reverse.dropWhile (· = 0)).reverse

/-- The first grid, from one digit on, with a number that reads back. -/
def Dyadic.firstGrid (d : Dyadic) (place : Int) : (tries digits : Nat) → Digits
  | 0, _ => ⟨[], 0⟩
  | tries + 1, digits =>
    match d.onGrid? (place - digits) with
    | some n => ⟨significantDigits n, (Nat.toDigits 10 n).length + (place - digits)⟩
    | none => d.firstGrid place tries (digits + 1)

/-- The shortest digits of the magnitude of a finite double; none for zero. Seventeen digits always
suffice. -/
def shortest (x : Float) : Digits :=
  let d := magnitude x
  if d.significand = 0 then ⟨[], 0⟩
  else d.firstGrid (leadingPlace (dyadicFraction d.significand d.power)) 17 1

end PlayerWatch.Number
