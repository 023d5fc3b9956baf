import PlayerWatch.Json.Numbers
import PlayerWatch.Json.Reader

/-!
# Values from JSON

A value is taken from a tree in the order of the text, so that of two faults the first is reported.
An object may stand for a record, by its members, and so may an array, by its items in the order of
the fields. Members that no field asks for are passed over.

A value that stands before what says how to read it is settled first: all of it is looked at closely
before its form is.
-/

namespace PlayerWatch.Json

open Number

/-- Whether a value is taken while the text is read or after all of it has been looked at. -/
inductive Mode where
  | streamed
  | settled
  deriving DecidableEq, Repr

/-! ### Faults inside a tree -/

/-- The fault that ends a list, if there is one. -/
def ending : Option Fault → Except Fault Unit
  | some fault => .error fault
  | none => .ok ()

mutual

/-- Passes over a value. -/
def skip : Json → Except Fault Unit
  | .broken _ skipped _ => .error skipped
  | .array items fault => do skipItems items; ending fault
  | .object members fault => do skipMembers members; ending fault
  | _ => .ok ()

def skipItems : List Json → Except Fault Unit
  | [] => .ok ()
  | j :: rest => do j.skip; skipItems rest

def skipMembers : List (Json × Json) → Except Fault Unit
  | [] => .ok ()
  | (k, v) :: rest => do k.skip; v.skip; skipMembers rest

end

/-- How deep values may lie in each other. -/
def greatestDepth : Nat := 127

mutual

/-- Looks closely at all of a value, in which lists may still lie so deep. -/
def settle (depth : Nat) : Json → Except Fault Unit
  | .broken _ _ wanted => .error wanted
  | .string none => .error .malformed
  | .number n => if (figure? n).isSome then .ok () else .error .malformed
  | .array items fault =>
    match depth with
    | 0 => .error .malformed
    | depth + 1 => do settleItems depth items; ending fault
  | .object members fault =>
    match depth with
    | 0 => .error .malformed
    | depth + 1 => do settleMembers depth members; ending fault
  | _ => .ok ()

def settleItems (depth : Nat) : List Json → Except Fault Unit
  | [] => .ok ()
  | j :: rest => do j.settle depth; settleItems depth rest

def settleMembers (depth : Nat) : List (Json × Json) → Except Fault Unit
  | [] => .ok ()
  | (k, v) :: rest => do k.settle depth; v.settle depth; settleMembers depth rest

end

/-- What is wrong with a value of another kind than the wanted one. -/
def mismatch : Json → Fault
  | .broken _ _ wanted => wanted
  | .string none => .malformed
  | .number n => if (figure? n).isSome then .unfit else .malformed
  | _ => .unfit

/-! ### Single values -/

abbrev Read (α : Type) := Json → Except Fault α

def readText : Read String
  | .string (some s) => .ok s
  | j => .error j.mismatch

def readFlag : Read Bool
  | .bool b => .ok b
  | j => .error j.mismatch

/-- Reads a whole number that satisfies a condition; a real number never does. -/
def readWhole (fits : Int → Bool) : Read Int
  | .number n =>
    match figure? n with
    | some (.natural value) => if fits value then .ok value else .error .unfit
    | some (.negative value) => if fits value then .ok value else .error .unfit
    | some (.real _) => .error .unfit
    | none => .error .malformed
  | j => .error j.mismatch

/-- Reads a number of so many bits. -/
def readUnsigned (bits : Nat) : Read Nat := fun j =>
  (readWhole (fun n => 0 ≤ n && n < twoTo bits) j).map Int.toNat

/-- Reads a signed word of 32 bits. -/
def readInt32 : Read Int32 := fun j =>
  (readWhole (isSigned 32) j).map Int32.ofInt

def readUInt32 : Read UInt32 := fun j => (readUnsigned 32 j).map UInt32.ofNat

def readUInt64 : Read UInt64 := fun j => (readUnsigned 64 j).map UInt64.ofNat

def readUInt16 : Read UInt16 := fun j => (readUnsigned 16 j).map UInt16.ofNat

def readReal : Read Float
  | .number n =>
    match figure? n with
    | some (.natural value) => .ok (UInt64.ofNat value).toFloat
    | some (.negative value) => .ok (-(UInt64.ofNat value.natAbs).toFloat)
    | some (.real value) => .ok value
    | none => .error .malformed
  | j => .error j.mismatch

/-- Reads a value that may be `null`. -/
def readOptional {α : Type} (read : Read α) : Read (Option α)
  | .null => .ok none
  | j => (read j).map some

def choose {α : Type} (choices : List (String × α)) (name : String) : Except Fault α :=
  match choices.lookup name with
  | some a => .ok a
  | none => .error .unfit

/-- Reads one of several choices by its name, given as a string or as the one key of an object with
the value `null`. -/
def readChoice {α : Type} (mode : Mode) (choices : List (String × α)) : Read α
  | .string s => do choose choices (← readText (.string s))
  | .object ((k, v) :: rest) fault => do
    let a ← choose choices (← readText k)
    match v with
    | .null => pure ()
    | v => throw v.mismatch
    match rest, fault, mode with
    | [], none, _ => pure a
    | [], some fault, _ => throw fault
    | _ :: _, _, .streamed => throw .malformed
    | _ :: _, _, .settled => throw .unfit
  | .object [] fault =>
    .error (fault.getD (match mode with | .streamed => .malformed | .settled => .unfit))
  | .broken false _ wanted => .error wanted
  | j => .error (match mode with | .streamed => .malformed | .settled => j.mismatch)

/-! ### Records -/

/-- A field of a record: its key, and what a value for it has to pass. -/
structure Field where
  key : String
  check : Json → Except Fault Unit

def field {α : Type} (key : String) (read : Read α) : Field :=
  ⟨key, fun j => (read j).map fun _ => ()⟩

/-- What a text gives for the fields of a record. -/
abbrev Entries := List (String × Json)

/-- The fields among members; none may come twice. -/
def ofMembers (fields : List Field) (seen : Entries) (fault : Option Fault) :
    List (Json × Json) → Except Fault Entries
  | [] => do ending fault; pure seen
  | (k, v) :: rest => do
    let key ← readText k
    match fields.find? fun f => f.key = key with
    | none => v.skip; ofMembers fields seen fault rest
    | some f =>
      if (seen.lookup key).isSome then throw .unfit
      f.check v
      ofMembers fields ((key, v) :: seen) fault rest

/-- The fields in the order of items; there may be fewer items, but not more. -/
def ofItems (mode : Mode) (fault : Option Fault) :
    List Field → List Json → Except Fault Entries
  | [], [] => do ending fault; pure []
  | [], _ :: _ => .error (match mode with | .streamed => .malformed | .settled => .unfit)
  | _ :: _, [] => do ending fault; pure []
  | f :: fields, j :: items => do
    f.check j
    let entries ← ofItems mode fault fields items
    pure ((f.key, j) :: entries)

/-- Reads the fields of a record. An array that is not `lenient` has an item for each of them. -/
def readEntries (mode : Mode) (lenient : Bool) (fields : List Field) : Read Entries
  | .object members fault => ofMembers fields [] fault members
  | .array items fault => do
    let entries ← ofItems mode fault fields items
    if !lenient && entries.length < fields.length then throw .unfit
    pure entries
  | j => .error j.mismatch

def Entries.get {α : Type} (e : Entries) (key : String) (read : Read α) : Except Fault α :=
  match e.lookup key with
  | some j => read j
  | none => .error .unfit

/-- The value of a field, or another if it is not there. -/
def Entries.getD {α : Type} (e : Entries) (key : String) (read : Read α) (default : α) :
    Except Fault α :=
  match e.lookup key with
  | some j => read j
  | none => .ok default

/-- The next member with one of some keys, and the members behind it; others are passed over. -/
def nextMember (keys : List String) (fault : Option Fault) :
    List (Json × Json) → Except Fault (Option (String × Json × List (Json × Json)))
  | [] => do ending fault; pure none
  | (k, v) :: rest => do
    let key ← readText k
    if keys.contains key then pure (some (key, v, rest))
    else
      v.skip
      nextMember keys fault rest

/-- Reads a whole text as one value. -/
def decode {α : Type} (read : Read α) (s : String) : Except Fault α := do
  let d := Json.read s
  let a ← read d.value
  if d.trailing then throw .malformed
  pure a

end PlayerWatch.Json
