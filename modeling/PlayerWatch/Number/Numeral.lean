import PlayerWatch.Number.Integer

/-!
# Numerals

A numeral is a number as it is written: a sign, the digits before and after the point, and an
exponent. Two numerals may denote the same number.
-/

namespace PlayerWatch.Number

/-- A number in decimal writing. -/
structure Numeral where
  negative : Bool := false
  whole : List Nat
  /-- The digits after the point; there is no point if there are none. -/
  fraction : List Nat := []
  exponent : Option Int := none
  deriving DecidableEq, Repr

namespace Numeral

def digitChars (digits : List Nat) : List Char := digits.map Nat.digitChar

/-- The characters of an exponent, which always has a sign. -/
def exponentChars (e : Int) : List Char :=
  (if e < 0 then '-' else '+') :: Nat.toDigits 10 e.natAbs

def chars (n : Numeral) : List Char :=
  (if n.negative then ['-'] else []) ++ digitChars n.whole ++
    (if n.fraction.isEmpty then [] else '.' :: digitChars n.fraction) ++
    match n.exponent with
    | none => []
    | some e => 'e' :: exponentChars e

def text (n : Numeral) : String := String.ofList n.chars

def digits (n : Nat) : List Nat := (Nat.toDigits 10 n).map Text.digitValue

def ofNat (n : Nat) : Numeral := { whole := digits n }

def ofInt (n : Int) : Numeral := { negative := n < 0, whole := digits n.natAbs }

end Numeral

end PlayerWatch.Number
