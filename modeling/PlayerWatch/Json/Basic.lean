import PlayerWatch.Number.Numeral

/-!
# JSON texts as trees

A tree stands for a JSON text as far as it could be read. A text with a fault ends at the fault, so
a tree has at most one and it comes last; what stands before it is there to be looked at first.
Members of an object are kept in their order and with their duplicates.
-/

namespace PlayerWatch

/-- Why a JSON text gives no value. -/
inductive Json.Fault where
  /-- The text is no JSON. -/
  | malformed
  /-- The text ends too early. -/
  | truncated
  /-- The text is JSON, but not of the wanted form. -/
  | unfit
  deriving DecidableEq, Repr

/-- A JSON text as far as it could be read. -/
inductive Json where
  | null
  | bool (value : Bool)
  | number (numeral : Number.Numeral)
  /-- A string; no text if its escapes name half of a pair. -/
  | string (text : Option String)
  /-- The items in order; the fault met where the list should have gone on, if there is one. -/
  | array (items : List Json) (fault : Option Json.Fault)
  /-- Keys and values in order; the fault met where the list should have gone on, if there is one. -/
  | object (members : List (Json × Json)) (fault : Option Json.Fault)
  /-- A fault: one for a reader who passes over the value and one for a reader who wants it. They
  differ where only the latter looks closely. `isWord` says that a number or a word has begun. -/
  | broken (isWord : Bool) (skipped wanted : Json.Fault)

namespace Json

def text (s : String) : Json := .string (some s)

def natural (n : Nat) : Json := .number (.ofNat n)

/-- A whole number that may be negative. -/
def integer (n : Int) : Json := .number (.ofInt n)

def list (items : List Json) : Json := .array items none

/-- An object with given members in their order. -/
def record (members : List (String × Json)) : Json :=
  .object (members.map fun m => (text m.1, m.2)) none

/-- What is there, or `null`. -/
def optional {α : Type} (write : α → Json) : Option α → Json
  | some a => write a
  | none => .null

end Json

end PlayerWatch
