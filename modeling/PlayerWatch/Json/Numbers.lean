import PlayerWatch.Json.Basic
import PlayerWatch.Number.Shortest

/-!
# The numbers of JSON

A number without a point or an exponent is a whole number if it fits 64 bits, and every other number
is a real one. A real number is put together from a 64-bit significand, to which digits are added as
long as they fit, and one power of ten; it is close to what is written but not always nearest.
-/

namespace PlayerWatch.Json

open Number

/-- What a numeral of JSON denotes. -/
inductive Figure where
  | natural (value : Nat)
  /-- Below zero. -/
  | negative (value : Int)
  | real (value : Float)

/-- Adds digits to a significand as long as it stays below 2⁶⁴; the second part counts the
digits that were left over. -/
def absorb (significand : Nat) : List Nat → Nat × Nat
  | [] => (significand, 0)
  | d :: rest =>
    if 10 * significand + d < twoTo 64 then absorb (10 * significand + d) rest
    else (significand, rest.length + 1)

/-- The powers of ten that are doubles. -/
def powerOfTen (n : Nat) : Float := Float.ofScientific 1 false n

/-- A double divided by a power of ten. -/
def scaleDown (x : Float) (exponent : Nat) : Float :=
  if exponent ≤ 308 then x / powerOfTen exponent
  else if x == 0 then x
  else scaleDown (x / powerOfTen 308) (exponent - 308)
termination_by exponent

/-- A significand times a power of ten, unless that is too large. -/
def scaled? (significand : Nat) (exponent : Int) : Option Float :=
  let x := (UInt64.ofNat significand).toFloat
  if exponent < 0 then some (scaleDown x exponent.natAbs)
  else if exponent ≤ 308 then
    let y := x * powerOfTen exponent.natAbs
    if isFinite y then some y else none
  else if x == 0 then some x
  else none

/-- The greatest exponent that is looked at closely. -/
def greatestExponent : Nat := twoTo 31 - 1

/-- The magnitude of a real number, unless it is too large. -/
def magnitude? (n : Numeral) : Option Float :=
  let (whole, dropped) := absorb 0 n.whole
  let (significand, unused) := absorb whole n.fraction
  let exponent : Int := dropped - (n.fraction.length - unused : Nat)
  let e := n.exponent.getD 0
  if e.natAbs ≤ greatestExponent then scaled? significand (exponent + e)
  else if significand ≠ 0 ∧ 0 < e then none
  else some 0

/-- A real number, unless it is too large. -/
def realFigure? (n : Numeral) : Option Figure :=
  (magnitude? n).map fun x => .real (withSign n.negative x)

/-- What a numeral denotes; nothing if it is too large. -/
def figure? (n : Numeral) : Option Figure :=
  if n.fraction.isEmpty && n.exponent.isNone then
    let value := Text.ofDigits 10 n.whole
    if !n.negative && value < twoTo 64 then some (.natural value)
    else if n.negative && 0 < value && value ≤ twoTo 63 then some (.negative (-value))
    else realFigure? n
  else realFigure? n

end PlayerWatch.Json
