import PlayerWatch.Toml.Basic

/-!
# Putting TOML tables together

Keys and headers with several parts reach into tables inside tables and make those that are missing.
No key may be given twice. A table that has a header of its own, or stands between braces, cannot be
reached into by a key with dots from outside, and each table has one header at most.
-/

namespace PlayerWatch.Toml

abbrev Entries := List (String × Toml)

/-- Gives a key a value in place of the one it had, or behind all others. -/
def Entries.set (key : String) (value : Toml) : Entries → Entries
  | [] => [(key, value)]
  | (k, v) :: rest => if k = key then (k, value) :: rest else (k, v) :: Entries.set key value rest

/-- Adds an entry under a new key. -/
def Entries.add? (entries : Entries) (key : String) (value : Toml) : Option Entries :=
  match entries.lookup key with
  | some _ => none
  | none => some (entries ++ [(key, value)])

/-- What is done with the last of several tables. -/
def withLast (f : Entries → Option Entries) : List Entries → Option (List Entries)
  | [] => none
  | [e] => (f e).map fun e => [e]
  | e :: rest => (withLast f rest).map (e :: ·)

/-- Does something with the table at the end of a path of dots. `isDotted` says whether the table
in hand is itself one that dots led to. -/
def atDots (isDotted : Bool) (f : Entries → Option Entries) : List String → Entries → Option Entries
  | [], entries => if isDotted then f entries else none
  | key :: path, entries =>
    match entries.lookup key with
    | none => do
      let inner ← atDots true f path []
      some (entries.set key (.table .dotted inner))
    | some (.table origin inner) =>
      if origin = .dotted ∨ origin = .implied then do
        let inner ← atDots (origin = .dotted) f path inner
        some (entries.set key (.table origin inner))
      else none
    | some (.tables items) => do
      let items ← withLast (atDots false f path) items
      some (entries.set key (.tables items))
    | some _ => none

/-- Adds a value under a key of one or more parts. -/
def Entries.addPair? (entries : Entries) (pair : List String × Toml) : Option Entries :=
  match pair.1.getLast? with
  | none => none
  | some key =>
    match pair.1.dropLast with
    | [] => entries.add? key pair.2
    | path => atDots false (fun e => e.add? key pair.2) path entries

/-- Adds values one after the other. -/
def Entries.addPairs? (entries : Entries) (pairs : List (List String × Toml)) : Option Entries :=
  pairs.foldlM Entries.addPair? entries

def inlineEntries? (pairs : List (List String × Toml)) : Option Entries :=
  Entries.addPairs? [] pairs

/-- A header and the values behind it. -/
structure Section where
  /-- Whether the header has two brackets, which adds a table to a list. -/
  isRepeated : Bool
  key : List String
  pairs : List (List String × Toml)

/-- Does something with the table that holds the last part of a header's key. -/
def atHeader (f : Entries → Option Entries) : List String → Entries → Option Entries
  | [], entries => f entries
  | key :: path, entries =>
    match entries.lookup key with
    | none => do
      let inner ← atHeader f path []
      some (entries.set key (.table .implied inner))
    | some (.table .inline _) => none
    | some (.table origin inner) => do
      let inner ← atHeader f path inner
      some (entries.set key (.table origin inner))
    | some (.tables items) => do
      let items ← withLast (atHeader f path) items
      some (entries.set key (.tables items))
    | some _ => none

/-- Adds what stands behind a header to the table that holds the header's last part. -/
def Section.addTo? (s : Section) (key : String) (entries : Entries) : Option Entries :=
  match s.isRepeated, entries.lookup key with
  | false, none => do
    some (entries.set key (.table .header (← Entries.addPairs? [] s.pairs)))
  | false, some (.table .implied inner) => do
    some (entries.set key (.table .header (← Entries.addPairs? inner s.pairs)))
  | true, none => do some (entries.set key (.tables [← Entries.addPairs? [] s.pairs]))
  | true, some (.tables items) => do
    some (entries.set key (.tables (items ++ [← Entries.addPairs? [] s.pairs])))
  | _, _ => none

/-- Adds a section to a whole text's table. -/
def addSection? (entries : Entries) (s : Section) : Option Entries :=
  match s.key.getLast? with
  | none => none
  | some key => atHeader (s.addTo? key) s.key.dropLast entries

/-- The table of a whole text. -/
def assemble? (pairs : List (List String × Toml)) (sections : List Section) : Option Entries := do
  let entries ← Entries.addPairs? [] pairs
  sections.foldlM addSection? entries

end PlayerWatch.Toml
