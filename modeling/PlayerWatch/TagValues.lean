import PlayerWatch.Record
import PlayerWatch.Text.Utf8

/-!
# The values of a tag

A reply to `list` has one line `tag: value` for each value. The tag is matched without regard to the
case of ASCII letters and measured in octets, so a line is cut only where the octets of the tag end
between two of its characters; the value is passed on unchanged.
-/

namespace PlayerWatch

open Text

/-- The parts of a text before and after a number of octets; nothing if the text is shorter or the
cut would fall inside a character. -/
def splitAtOctet : Nat → List Char → Option (List Char × List Char)
  | 0, cs => some ([], cs)
  | _ + 1, [] => none
  | n + 1, c :: cs =>
    if c.utf8Size ≤ n + 1 then
      (splitAtOctet (n + 1 - c.utf8Size) cs).map fun parts => (c :: parts.1, parts.2)
    else none

/-- The value in a line of a reply to `list`. -/
def tagValue? (tag line : String) : Option String :=
  let head := tag.toList ++ separator
  match splitAtOctet (octets head) line.toList with
  | some (before, value) => if sameLetters before head then some (String.ofList value) else none
  | none => none

def tagValues (tag : String) (lines : List String) : List String := lines.filterMap (tagValue? tag)

end PlayerWatch
