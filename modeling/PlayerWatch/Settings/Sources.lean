import PlayerWatch.Json.Fields
import PlayerWatch.Number.Real
import PlayerWatch.Settings.Path
import PlayerWatch.Text.Ascii
import PlayerWatch.Toml.Sections

/-!
# Sources of settings

A file and the variables of the environment each give values under keys. Keys are compared in lower
case. A variable belongs here if its name begins with `MPDW_`; two underscores in the rest stand for
the dot of a path, and the value is a truth value, a number or else a text.
-/

namespace PlayerWatch.Settings

open Text Number

/-- Values under keys that are paths. They are laid over others in the order of the list here; in which
order that is makes no difference unless they contradict each other. -/
abbrev Source := List (String × Node)

/-- What is there once a source has been laid over it. -/
def Node.overlay (root : Node) (source : Source) : Node :=
  source.foldl (fun root entry => root.putPath (Path.ofKey (lower entry.1)) entry.2) root

abbrev Variables := List (String × String)

namespace Source

/-! ### The environment -/

/-- How the environment is named in messages. -/
def environmentName : String := "the environment"

/-- A text with a dot for any two underscores in a row, from left to right. -/
def dotted : List Char → List Char
  | '_' :: '_' :: cs => '.' :: dotted cs
  | c :: cs => c :: dotted cs
  | [] => []

def valueOfText (s : String) : Scalar :=
  if lower s = "true" then .bool true
  else if lower s = "false" then .bool false
  else
    match readSigned? 64 s with
    | some n => .integer n
    | none =>
      match readReal? s with
      | some x => .real x
      | none => .text s

/-- The beginning of the names of variables that give settings, in lower case. -/
def variableMark : List Char := ['m', 'p', 'd', 'w', '_']

def ofVariable (v : String × String) : Option (String × Node) :=
  (dropLead? variableMark (lower v.1).toList).map fun rest =>
    (String.ofList (dotted rest), .scalar (some environmentName) (valueOfText v.2))

/-- Of several entries with one key the last. -/
def latest : Source → Source
  | [] => []
  | e :: rest => if rest.any (·.1 = e.1) then latest rest else e :: latest rest

/-- What the environment gives. -/
def ofVariables (env : Variables) : Source := latest (env.filterMap ofVariable)

/-! ### Files -/

mutual

/-- The node of a value of a TOML file. -/
def ofToml (origin : String) : Toml → Node
  | .text s => .scalar (some origin) (.text s)
  | .integer n => .scalar (some origin) (.integer n)
  | .real x => .scalar (some origin) (.real x)
  | .bool b => .scalar (some origin) (.bool b)
  | .moment s => .scalar (some origin) (.text s)
  | .array items => .list (some origin) (ofTomlItems origin items)
  | .tables items => .list (some origin) (ofTomlTables origin items)
  | .table _ entries => .table (some origin) (ofTomlEntries origin entries)

def ofTomlItems (origin : String) : List Toml → List Node
  | [] => []
  | t :: rest => ofToml origin t :: ofTomlItems origin rest

def ofTomlTables (origin : String) : List (List (String × Toml)) → List Node
  | [] => []
  | entries :: rest =>
    .table (some origin) (ofTomlEntries origin entries) :: ofTomlTables origin rest

def ofTomlEntries (origin : String) : List (String × Toml) → List (String × Node)
  | [] => []
  | (key, t) :: rest => Node.insertEntry key (ofToml origin t) (ofTomlEntries origin rest)

end

/-- What a TOML text gives; nothing if it is none. -/
def ofTomlText? (origin text : String) : Option Source :=
  (Toml.ofText? text).map (ofTomlEntries origin)

/-- The node of a number of a JSON file. -/
def ofNumeral (origin : String) (n : Numeral) : Node :=
  .scalar (some origin) <|
    match Json.figure? n with
    | some (.natural value) =>
      if value < twoTo 63 then .integer value else .real (UInt64.ofNat value).toFloat
    | some (.negative value) => .integer value
    | some (.real value) => .real value
    | none => .nil

mutual

/-- The node of a value of a JSON file. -/
def ofJson (origin : String) : Json → Node
  | .bool b => .scalar (some origin) (.bool b)
  | .number n => ofNumeral origin n
  | .string s => .scalar (some origin) (.text (s.getD ""))
  | .array items _ => .list (some origin) (ofJsonItems origin items)
  | .object members _ => .table (some origin) (ofJsonMembers origin members)
  | .null | .broken .. => .scalar (some origin) .nil

def ofJsonItems (origin : String) : List Json → List Node
  | [] => []
  | j :: rest => ofJson origin j :: ofJsonItems origin rest

/-- The members of an object; of several with one key the last counts. -/
def ofJsonMembers (origin : String) : List (Json × Json) → List (String × Node)
  | [] => []
  | (.string (some key), j) :: rest =>
    let others := ofJsonMembers origin rest
    if (others.lookup key).isSome then others else Node.insertEntry key (ofJson origin j) others
  | _ :: rest => ofJsonMembers origin rest

end

/-- What a JSON text gives; nothing if it is none, or no object. -/
def ofJsonText? (origin text : String) : Option Source :=
  let document := Json.read text
  match document.value, document.value.settle Json.greatestDepth, document.trailing with
  | .object members _, .ok (), false => some (ofJsonMembers origin members)
  | _, _, _ => none

end Source

end PlayerWatch.Settings
