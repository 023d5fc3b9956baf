import PlayerWatch.Text.Ascii

/-!
# Records

A reply of `key: value` lines is read as a record. Each line is split at its first separator, lines
without one are dropped, and of several lines with one key the last counts.
-/

namespace PlayerWatch

open Text

/-- What stands between a key and its value. -/
def separator : List Char := [':', ' ']

/-- The key and the value of a line; nothing if it has no separator. -/
def field? (line : String) : Option (String × String) :=
  (splitAtFirst separator line.toList).map fun f => (String.ofList f.1, String.ofList f.2)

/-- Keys with one value each, in the order in which the keys first came. -/
structure Record where
  entries : List (String × String) := []
  deriving DecidableEq, Repr

namespace Record

def get? (r : Record) (key : String) : Option String := r.entries.lookup key

/-- The number of keys. -/
def size (r : Record) : Nat := r.entries.length

/-- Gives a key a value in place of the one it had. -/
def insertEntry (key value : String) : List (String × String) → List (String × String)
  | [] => [(key, value)]
  | (k, v) :: rest => if k = key then (key, value) :: rest else (k, v) :: insertEntry key value rest

/-- Gives a key a value in place of the one it had. -/
def insert (r : Record) (key value : String) : Record := ⟨insertEntry key value r.entries⟩

/-- The record of a list of keys and values, of which the last for each key counts. -/
def ofFields (fields : List (String × String)) : Record :=
  fields.foldl (fun r f => r.insert f.1 f.2) {}

def ofLines (lines : List String) : Record := ofFields (lines.filterMap field?)

theorem get?_insert (r : Record) (key value k : String) :
    (r.insert key value).get? k = if k = key then some value else r.get? k := by
  obtain ⟨entries⟩ := r
  simp only [get?, insert]
  induction entries with
  | nil => by_cases h : k = key <;> simp [insertEntry, List.lookup_cons, beq_eq_false_iff_ne.2, h]
  | cons e rest ih =>
    obtain ⟨a, b⟩ := e
    by_cases hk : k = key <;> by_cases ha : a = key <;>
      simp_all [insertEntry, List.lookup_cons] <;> grind

end Record

end PlayerWatch
