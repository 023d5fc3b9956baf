import PlayerWatch.Text.Ascii

/-!
# Trees of setting values

Every source of settings gives values under keys, and later sources are laid over earlier ones. A
`Node` is what has been given so far. Each value knows the source it comes from, if that can be named
in a message; a table that was put together from several has none. A table has its entries in the order
of their keys, so that it does not tell in which order they came.
-/

namespace PlayerWatch.Settings

/-- A single value. -/
inductive Scalar where
  | nil
  | bool (b : Bool)
  | integer (n : Int)
  | real (x : Float)
  | text (s : String)

/-- Values under keys, with their sources. -/
inductive Node where
  | scalar (origin : Option String) (value : Scalar)
  | list (origin : Option String) (items : List Node)
  | table (origin : Option String) (entries : List (String × Node))

namespace Node

def nil : Node := .scalar none .nil

/-- A table without entries. -/
def empty : Node := .table none []

/-- Adds an entry at its place in the order of the keys. -/
def insertEntry (key : String) (value : Node) : List (String × Node) → List (String × Node)
  | [] => [(key, value)]
  | (k, v) :: rest =>
    if key < k then (key, value) :: (k, v) :: rest else (k, v) :: insertEntry key value rest

/-- Puts a value in the place of the one under its key. -/
def replace (key : String) (value : Node) (e : String × Node) : String × Node :=
  if e.1 = key then (key, value) else e

/-- Changes the entry with a key, or adds it. -/
def adjustEntry (key : String) (f : Option Node → Node) (entries : List (String × Node)) :
    List (String × Node) :=
  match entries.lookup key with
  | some old => entries.map (replace key (f (some old)))
  | none => insertEntry key (f none) entries

/-- Changes what is under a key; what is no table becomes one. -/
def adjust (key : String) (f : Option Node → Node) : Node → Node
  | .table origin entries => .table origin (adjustEntry key f entries)
  | _ => .table none (adjustEntry key f [])

/-- The place of an item in a list of some length, and how many items have to be added in front. A
negative number counts from the end. -/
def place (i : Int) (length : Nat) : Nat × Nat :=
  if 0 ≤ i then (i.toNat, 0)
  else if i.natAbs ≤ length then (length - i.natAbs, 0)
  else (0, i.natAbs - length)

/-- Changes the item at a place of a list, which is filled up to there. -/
def adjustAt (i : Int) (f : Node → Node) (items : List Node) : List Node :=
  let (n, missing) := place i items.length
  let items := List.replicate missing nil ++ items
  (items ++ List.replicate (n + 1 - items.length) nil).modify n f

/-- Changes an item; what is no list becomes one. -/
def adjustItem (i : Int) (f : Node → Node) : Node → Node
  | .list origin items => .list origin (adjustAt i f items)
  | _ => .list none (adjustAt i f [])

mutual

/-- Lays a value over what is under a key. A table is laid over entry by entry, so one without
entries changes nothing but what is missing. -/
def put (key : String) : Node → Node → Node
  | .table _ incoming, root => root.adjust key fun old => putAll incoming (old.getD empty)
  | .scalar origin value, root => root.adjust key fun _ => .scalar origin value
  | .list origin items, root => root.adjust key fun _ => .list origin items

/-- Lays entries over what is there, with their keys in lower case. -/
def putAll : List (String × Node) → Node → Node
  | [], root => root
  | (key, value) :: rest, root => putAll rest (put (Text.lower key) value root)

end

/-- One step on the way to a value. -/
inductive Step where
  | child (key : String)
  | item (i : Int)
  deriving DecidableEq, Repr

/-- Lays a value over what is at the end of a path. -/
def putPath (root : Node) (path : List Step) (value : Node) : Node :=
  match path with
  | [] => root
  | [.child key] => put key value root
  | [.item i] => root.adjustItem i fun _ => value
  | .child key :: path => root.adjust key fun old => putPath (old.getD nil) path value
  | .item i :: path => root.adjustItem i fun old => putPath old path value

def child? (key : String) : Node → Option Node
  | .table _ entries => entries.lookup key
  | _ => none

end Node

end PlayerWatch.Settings
