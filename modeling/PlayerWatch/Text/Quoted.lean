import PlayerWatch.Text.Unshown

/-!
# Quoted text

Messages show foreign text between double quotes, so that blanks at its ends, line ends and
characters that do not print can be seen.
-/

namespace PlayerWatch.Text

/-- A character inside quoted text: the quote and the backslash with a backslash in front, tab, line
ends and null by a letter, and what does not show by its number in hexadecimal. -/
def quotedChar (c : Char) : List Char :=
  if c = '"' then ['\\', '"']
  else if c = '\\' then ['\\', '\\']
  else if c = '\t' then ['\\', 't']
  else if c = '\r' then ['\\', 'r']
  else if c = '\n' then ['\\', 'n']
  else if c.toNat = 0 then ['\\', '0']
  else if isUnshown c then ['\\', 'u', '\x7b'] ++ Nat.toDigits 16 c.toNat ++ ['\x7d']
  else [c]

/-- A text between double quotes. -/
def quoted (s : String) : String :=
  String.ofList ('"' :: s.toList.flatMap quotedChar ++ ['"'])

end PlayerWatch.Text
