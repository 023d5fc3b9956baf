/-!
# Blank characters and trimming

The blanks are the characters with the Unicode property `White_Space`. Reply lines are trimmed of
them and a request argument that holds one is quoted, so both sides of the protocol read the same
table.
-/

namespace PlayerWatch.Text

/-- The code points with the property `White_Space`, as closed ranges in ascending order. -/
def blankRanges : List (Nat × Nat) :=
  [(0x09, 0x0D), (0x20, 0x20), (0x85, 0x85), (0xA0, 0xA0), (0x1680, 0x1680), (0x2000, 0x200A),
   (0x2028, 0x2029), (0x202F, 0x202F), (0x205F, 0x205F), (0x3000, 0x3000)]

/-- A character with the property `White_Space`. -/
def isBlank (c : Char) : Bool :=
  blankRanges.any fun r => r.1 ≤ c.toNat && c.toNat ≤ r.2

def dropBlanks (cs : List Char) : List Char := cs.dropWhile isBlank

/-- Drops the blanks on both sides. -/
def trim (cs : List Char) : List Char := (dropBlanks (dropBlanks cs).reverse).reverse

/-- A text without its leading blanks. -/
def trimmedStart (s : String) : String := String.ofList (dropBlanks s.toList)

/-- A text without the blanks on either side. -/
def trimmed (s : String) : String := String.ofList (trim s.toList)

@[simp] theorem toList_trimmed (s : String) : (trimmed s).toList = trim s.toList := by
  simp [trimmed]

@[simp] theorem toList_trimmedStart (s : String) :
    (trimmedStart s).toList = dropBlanks s.toList := by
  simp [trimmedStart]

end PlayerWatch.Text
