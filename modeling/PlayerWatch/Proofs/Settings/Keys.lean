import PlayerWatch.Proofs.Settings.Overlay

/-!
# The settings one by one

Each setting has a `Key`, with the names under which the sources give it: one in its section of a file,
a path, and a variable. All of them lead to the same place in a tree of values (`ofKey_path`,
`variableKey?_varName`), and no two settings share it.
-/

namespace PlayerWatch.Settings

open Text Number

/-! ### Names of variables -/

namespace Source

/-- The name under which a variable gives a setting, if it gives one. -/
def variableKey? (name : String) : Option String :=
  (dropLead? variableMark (lower name).toList).map fun rest => String.ofList (dotted rest)

theorem ofVariable_eq (v : String × String) :
    ofVariable v = (variableKey? v.1).map fun key =>
      (key, .scalar (some environmentName) (valueOfText v.2)) := by
  rw [variableKey?, Option.map_map]
  rfl

theorem ofVariables_cons_none {v : String × String} (h : ofVariable v = none) (env : Variables) :
    ofVariables (v :: env) = ofVariables env := by
  rw [ofVariables, List.filterMap_cons_none h, ofVariables]

/-- A variable counts if no later one gives the same. -/
theorem ofVariables_cons_some {v : String × String} {entry : String × Node}
    (h : ofVariable v = some entry) (env : Variables) :
    ofVariables (v :: env) =
      if (env.filterMap ofVariable).any (·.1 = entry.1) then ofVariables env
      else entry :: ofVariables env := by
  rw [ofVariables, List.filterMap_cons_some h, latest, ofVariables]

/-- Which entry is the last one under its key does not depend on other keys. -/
theorem filter_latest (p : String → Bool) (source : Source) :
    (latest source).filter (fun e => p e.1) = latest (source.filter fun e => p e.1) := by
  induction source with
  | nil => rfl
  | cons e rest ih =>
    rw [latest]
    cases hp : p e.1 with
    | false =>
      rw [List.filter_cons_of_neg (by simp [hp]), ← ih]
      split
      · rfl
      · rw [List.filter_cons_of_neg (by simp [hp])]
    | true =>
      have hsame : (rest.filter fun e => p e.1).any (·.1 = e.1) = rest.any (·.1 = e.1) := by
        rw [List.any_filter]
        congr 1
        funext e'
        by_cases hkey : e'.1 = e.1 <;> simp [hkey, hp]
      rw [List.filter_cons, if_pos hp, latest, hsame]
      split
      · exact ih
      · rw [List.filter_cons, if_pos hp, ih]

end Source

/-! ### Keys -/

inductive Key where
  | host
  | port
  | pollInterval
  | retryDelay
  | maxRetryDelay
  | ioTimeout
  deriving DecidableEq, Repr

namespace Key

def part : Key → Section
  | host | port => .player
  | _ => .watch

/-- The name of a setting in its section. -/
def name : Key → String
  | host => "host"
  | port => "port"
  | pollInterval => "poll_interval_ms"
  | retryDelay => "retry_delay_ms"
  | maxRetryDelay => "max_retry_delay_ms"
  | ioTimeout => "io_timeout_ms"

def path (k : Key) : String := k.part.key ++ "." ++ k.name

/-- The variable that gives a setting. -/
def varName : Key → String
  | host => "MPDW_MPD__HOST"
  | port => "MPDW_MPD__PORT"
  | pollInterval => "MPDW_WATCHER__POLL_INTERVAL_MS"
  | retryDelay => "MPDW_WATCHER__RETRY_DELAY_MS"
  | maxRetryDelay => "MPDW_WATCHER__MAX_RETRY_DELAY_MS"
  | ioTimeout => "MPDW_WATCHER__IO_TIMEOUT_MS"

theorem ofKey_path (k : Key) :
    Path.ofKey (lower k.path) = [.child k.part.key, .child k.name] := by
  cases k <;> decide +kernel

theorem variableKey?_varName (k : Key) : Source.variableKey? k.varName = some k.path := by
  cases k <;> decide +kernel

theorem eq_of_varName {k k' : Key} (h : k.varName = k'.varName) : k = k' := by
  revert h
  cases k <;> cases k' <;> decide

theorem eq_of_name {k k' : Key} (h : k.name = k'.name) : k = k' := by
  revert h
  cases k <;> cases k' <;> decide

theorem eq_of_path {k k' : Key} (h : k.path = k'.path) : k = k' := by
  revert h
  cases k <;> cases k' <;> decide

theorem part_eq_of_key {p q : Section} (h : p.key = q.key) : p = q := by
  revert h
  cases p <;> cases q <;> decide

/-- A setting of a section leads to that section. -/
theorem leadsTo_path (k : Key) : Source.leadsTo k.part.key k.path = true := by
  rw [Source.leadsTo, ofKey_path]
  simp

end Key

theorem ofVariable_varName (k : Key) (s : String) :
    Source.ofVariable (k.varName, s) =
      some (k.path, .scalar (some Source.environmentName) (Source.valueOfText s)) := by
  rw [Source.ofVariable_eq, k.variableKey?_varName]
  rfl

end PlayerWatch.Settings
