import PlayerWatch.Json.Basic
import PlayerWatch.Number.Layout

/-!
# Writing JSON

A tree is written without blanks, or with one member or item per line. Quotes, backslashes and
control characters are escaped and all else stands for itself.
-/

namespace PlayerWatch.Json

open Number

/-- Real numbers are written out from `0.00001` up to sixteen places before the point, and with an
exponent beyond. -/
def layout : Layout := ⟨some (-4), some 16, true⟩

/-- A real number; what is no finite number has no JSON form but `null`. -/
def real (x : Float) : Json := if isFinite x then .number (layout.numeral x) else .null

/-- A hexadecimal digit in lower case. -/
def hexDigit (n : Nat) : Char := Nat.digitChar n

/-- A character inside a string. -/
def escapedChar (c : Char) : List Char :=
  if c = '"' then ['\\', '"']
  else if c = '\\' then ['\\', '\\']
  else if c = '\x08' then ['\\', 'b']
  else if c = '\t' then ['\\', 't']
  else if c = '\n' then ['\\', 'n']
  else if c = '\x0c' then ['\\', 'f']
  else if c = '\r' then ['\\', 'r']
  else if c.toNat < 0x20 then
    ['\\', 'u', '0', '0', hexDigit (c.toNat / 16), hexDigit (c.toNat % 16)]
  else [c]

def quotedChars (s : String) : List Char := '"' :: s.toList.flatMap escapedChar ++ ['"']

mutual

/-- The characters of a tree, without blanks; a fault has none. -/
def chars : Json → List Char
  | .null => ['n', 'u', 'l', 'l']
  | .bool true => ['t', 'r', 'u', 'e']
  | .bool false => ['f', 'a', 'l', 's', 'e']
  | .number n => n.chars
  | .string s => quotedChars (s.getD "")
  | .array items _ => '[' :: itemChars items
  | .object members _ => '\x7b' :: memberChars members
  | .broken .. => []

/-- The items of an array up to the closing bracket. -/
def itemChars : List Json → List Char
  | [] => [']']
  | [j] => j.chars ++ [']']
  | j :: rest => j.chars ++ ',' :: itemChars rest

/-- The members of an object up to the closing brace. -/
def memberChars : List (Json × Json) → List Char
  | [] => ['\x7d']
  | [(k, v)] => k.chars ++ ':' :: v.chars ++ ['\x7d']
  | (k, v) :: rest => k.chars ++ ':' :: v.chars ++ ',' :: memberChars rest

end

/-- The text of a tree, without blanks. -/
def compact (j : Json) : String := String.ofList j.chars

def lineStart (depth : Nat) : List Char := '\n' :: List.replicate (2 * depth) ' '

mutual

/-- The characters of a tree with one member or item per line, two blanks deeper each time. -/
def indentedChars (depth : Nat) : Json → List Char
  | .array [] _ => ['[', ']']
  | .array items _ => '[' :: indentedItems depth true items
  | .object [] _ => ['\x7b', '\x7d']
  | .object members _ => '\x7b' :: indentedMembers depth true members
  | j => j.chars

/-- The items of an array up to the closing bracket. -/
def indentedItems (depth : Nat) (first : Bool) : List Json → List Char
  | [] => lineStart depth ++ [']']
  | j :: rest =>
    (if first then [] else [',']) ++ lineStart (depth + 1) ++ j.indentedChars (depth + 1) ++
      indentedItems depth false rest

/-- The members of an object up to the closing brace. -/
def indentedMembers (depth : Nat) (first : Bool) : List (Json × Json) → List Char
  | [] => lineStart depth ++ ['\x7d']
  | (k, v) :: rest =>
    (if first then [] else [',']) ++ lineStart (depth + 1) ++ k.chars ++ [':', ' '] ++
      v.indentedChars (depth + 1) ++ indentedMembers depth false rest

end

/-- The text of a tree with one member or item per line. -/
def indented (j : Json) : String := String.ofList (j.indentedChars 0)

end PlayerWatch.Json
