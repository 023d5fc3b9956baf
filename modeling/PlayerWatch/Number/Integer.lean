import PlayerWatch.Number.Power
import PlayerWatch.Text.Ascii

/-!
# Whole numbers in text

A whole number is written in decimal digits. When it is read, a plus sign may stand in front, a
minus sign only where the type has negative values, and nothing else: no blanks, no separators and
no value out of range.
-/

namespace PlayerWatch.Number

open Text

def decimal (n : Nat) : String := String.ofList (Nat.toDigits 10 n)

/-- The decimal digits of a number with a minus sign in front if it is negative. -/
def signedDecimal : Int → String
  | .ofNat n => decimal n
  | .negSucc n => "-" ++ decimal (n + 1)

/-- Reads one or more decimal digits and nothing else. -/
def readDigits? (cs : List Char) : Option Nat :=
  if cs ≠ [] ∧ cs.all isDigit then some (ofDigits 10 (cs.map digitValue)) else none

/-- Reads digits that may have a plus sign in front. -/
def readNat? : List Char → Option Nat
  | '+' :: cs => readDigits? cs
  | cs => readDigits? cs

/-- Reads digits that may have a sign in front. -/
def readInt? : List Char → Option Int
  | '-' :: cs => (readDigits? cs).map fun n => -(n : Int)
  | cs => (readNat? cs).map Int.ofNat

/-- Whether a number is in the range of a two's complement word of `bits` bits. -/
def isSigned (bits : Nat) (n : Int) : Bool := -(twoTo (bits - 1) : Int) ≤ n ∧ n < twoTo (bits - 1)

/-- Reads a number of at most `bits` bits. -/
def readUnsigned? (bits : Nat) (s : String) : Option Nat :=
  (readNat? s.toList).filter fun n => n < twoTo bits

/-- Reads a number in the range of a two's complement word of `bits` bits. -/
def readSigned? (bits : Nat) (s : String) : Option Int :=
  (readInt? s.toList).filter (isSigned bits)

/-- Reads a signed word of 32 bits. -/
def readInt32? (s : String) : Option Int32 := (readSigned? 32 s).map Int32.ofInt

/-- Reads an unsigned word of 32 bits. -/
def readUInt32? (s : String) : Option UInt32 := (readUnsigned? 32 s).map UInt32.ofNat

/-- Reads an unsigned word of 16 bits. -/
def readUInt16? (s : String) : Option UInt16 := (readUnsigned? 16 s).map UInt16.ofNat

end PlayerWatch.Number
