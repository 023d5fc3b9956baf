import PlayerWatch.Number.Shortest

/-!
# The whole number nearest to a real one

A half goes away from zero. As a word, what lies outside the range of the word goes to its nearest
end, and what is no number to zero.
-/

namespace PlayerWatch.Number

/-- The whole number nearest to the magnitude of a double. -/
def Dyadic.rounded (d : Dyadic) : Nat :=
  let v := dyadicFraction d.significand d.power
  (2 * v.1 + v.2) / (2 * v.2)

/-- The 64-bit word nearest to a double. -/
def nearestWord (x : Float) : UInt64 :=
  if x.isNaN || signBit x then 0
  else if isFinite x then UInt64.ofNat (min (magnitude x).rounded (twoTo 64 - 1))
  else UInt64.ofNat (twoTo 64 - 1)

end PlayerWatch.Number
