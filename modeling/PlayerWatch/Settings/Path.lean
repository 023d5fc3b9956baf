import PlayerWatch.Number.Integer
import PlayerWatch.Settings.Tree

/-!
# Paths to settings

The key of a value is a path: a name, and then names behind dots and places in brackets. A key that
is no such path stands for itself.
-/

namespace PlayerWatch.Settings.Path

open Text Number

def isNameChar (c : Char) : Bool :=
  isDigit c || ('a' ≤ c && c ≤ 'z') || ('A' ≤ c && c ≤ 'Z') || c = ' ' || c = '_' || c = '-'

/-- Drops the blanks on both sides of a place. -/
def trimPlace (cs : List Char) : List Char :=
  let drop := List.dropWhile fun c => c = ' ' || c = '\t'
  (drop (drop cs).reverse).reverse

/-- Reads a place: digits with an optional minus sign, in the range of a 64-bit word. -/
def readPlace? (cs : List Char) : Option Int :=
  match trimPlace cs with
  | '+' :: _ => none
  | cs => readSigned? 64 (String.ofList cs)

/-- Reads the steps behind the first name, in so many steps. -/
def readSteps : Nat → List Char → Option (List Node.Step)
  | _, [] => some []
  | 0, _ => none
  | steps + 1, '.' :: cs => do
    let name := cs.takeWhile isNameChar
    if name.isEmpty then none
    let rest ← readSteps steps (cs.dropWhile isNameChar)
    some (.child (String.ofList name) :: rest)
  | steps + 1, '[' :: cs => do
    let i ← readPlace? (cs.takeWhile (· ≠ ']'))
    match cs.dropWhile (· ≠ ']') with
    | _ :: rest =>
      let rest ← readSteps steps rest
      some (.item i :: rest)
    | [] => none
  | _ + 1, _ => none

/-- Reads a path; nothing if the key is none. -/
def read? (key : String) : Option (List Node.Step) := do
  let cs := key.toList
  let name := cs.takeWhile isNameChar
  if name.isEmpty then none
  let rest ← readSteps cs.length (cs.dropWhile isNameChar)
  some (.child (String.ofList name) :: rest)

def ofKey (key : String) : List Node.Step := (read? key).getD [.child key]

end PlayerWatch.Settings.Path
