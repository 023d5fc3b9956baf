import PlayerWatch.Proofs.Settings.Numerals
import PlayerWatch.Proofs.Settings.Reading

/-!
# What each source gives

Each source of settings gives some of them. What it gives is a `Given`, read off the source on its
own: a file by the names in its sections, the environment by the names of its variables, the call by
what it says. A file and an environment are well-formed (`Source.FitsFile`,
`Variables.FitsEnvironment`) if every setting in them has a value of its own kind, and then each value
reads from its node as it is meant (`denotes_of_ofScalar?`, `denotes_of_ofText?`).
-/

namespace PlayerWatch.Settings

open Text Number

/-! ### Values of settings -/

/-- The type of a setting. -/
abbrev Key.Value : Key → Type
  | host => String
  | port => UInt16
  | pollInterval | retryDelay | maxRetryDelay => UInt64
  | ioTimeout => Option UInt64

def get (s : Settings) : (k : Key) → k.Value
  | .host => s.player.host
  | .port => s.player.port
  | .pollInterval => s.watch.pollInterval
  | .retryDelay => s.watch.retryDelay
  | .maxRetryDelay => s.watch.maxRetryDelay
  | .ioTimeout => s.watch.ioTimeout

theorem ext_get {s t : Settings} (h : ∀ k, s.get k = t.get k) : s = t := by
  obtain ⟨⟨host, port⟩, ⟨interval, delay, max, timeout⟩⟩ := s
  obtain rfl : host = t.player.host := h .host
  obtain rfl : port = t.player.port := h .port
  obtain rfl : interval = t.watch.pollInterval := h .pollInterval
  obtain rfl : delay = t.watch.retryDelay := h .retryDelay
  obtain rfl : max = t.watch.maxRetryDelay := h .maxRetryDelay
  obtain rfl : timeout = t.watch.ioTimeout := h .ioTimeout
  rfl

def Key.default (k : Key) : k.Value := ({} : Settings).get k

/-- Settings, each of which may be given or not. -/
abbrev Given := (k : Key) → Option k.Value

namespace Given

def nothing : Given := fun _ => none

/-- What is given by one of two sources; where both give a setting the upper one counts. -/
def atop (upper lower : Given) : Given := fun k => (upper k).or (lower k)

/-- The value of a setting, by default if it is not given. -/
def value (g : Given) (k : Key) : k.Value := (g k).getD k.default

def set (g : Given) (k : Key) (v : k.Value) : Given := fun k' =>
  if h : k' = k then some (h ▸ v) else g k'

@[simp] theorem set_self (g : Given) (k : Key) (v : k.Value) : g.set k v k = some v := by
  simp [set]

theorem set_of_ne (g : Given) {k k' : Key} (v : k.Value) (h : k' ≠ k) : g.set k v k' = g k' := by
  simp [set, h]

@[simp] theorem atop_nothing (g : Given) : g.atop nothing = g := by
  funext k
  exact Option.or_none

theorem atop_assoc (g g' g'' : Given) : (g.atop g').atop g'' = g.atop (g'.atop g'') := by
  funext k
  exact Option.or_assoc

end Given

/-! ### The call and the player's clients -/

def Given.player (host : Option String) (port : Option UInt16) : Given
  | .host => host
  | .port => port
  | _ => none

def Overrides.given (o : Overrides) : Given := .player o.host o.port

/-- A host that is neither a socket nor has a password, nor is empty. -/
def IsUsableHost (host : String) : Prop :=
  host ≠ "" ∧ host.toList.head? ≠ some '/' ∧ '@' ∉ host.toList

instance (host : String) : Decidable (IsUsableHost host) :=
  inferInstanceAs (Decidable (_ ∧ _ ∧ _))

def Given.ofClients (env : Variables) : Given :=
  .player ((env.lookup "MPD_HOST").filter fun host => IsUsableHost host)
    ((env.lookup "MPD_PORT").bind readUInt16?)

/-! ### Variables of the settings -/

/-- A whole number as it is held: from 2⁶³ on as the nearest double. -/
def heldWord (n : Nat) : UInt64 :=
  if n < twoTo 63 then UInt64.ofNat n else nearestWord (nearest n 0)

/-- A text that is neither a truth value nor a number. -/
def IsPlainText (s : String) : Prop :=
  lower s ≠ "true" ∧ lower s ≠ "false" ∧ readSigned? 64 s = none ∧ (readReal? s).isNone

instance (s : String) : Decidable (IsPlainText s) :=
  inferInstanceAs (Decidable (_ ∧ _ ∧ _ ∧ _))

/-- The setting that a variable gives: a host by a text that is nothing else, a number by a decimal
number in its range. -/
def Key.ofText? (s : String) : (k : Key) → Option k.Value
  | host => if IsPlainText s then some s else none
  | port => (wholeOfText? 16 s).map UInt16.ofNat
  | pollInterval | retryDelay | maxRetryDelay => (wholeOfText? 64 s).map heldWord
  | ioTimeout => (wholeOfText? 64 s).map fun n => some (heldWord n)

def Given.ofVariables (env : Variables) : Given := fun k =>
  (env.lookup k.varName).bind (Key.ofText? · k)

/-- Whether a variable has nothing to do with any section. -/
def Source.isStray (name : String) : Bool :=
  (variableKey? name).all fun key =>
    !leadsTo Section.player.key key && !leadsTo Section.watch.key key

/-- An environment in which no variable is set twice and the variables of the settings have texts of
their own kind. No other variable may reach into a section. -/
structure Variables.FitsEnvironment (env : Variables) : Prop where
  once : (env.map Prod.fst).Nodup
  fits : ∀ v ∈ env, ∀ k : Key, v.1 = k.varName → (k.ofText? v.2).isSome
  stray : ∀ v ∈ env, (∀ k : Key, v.1 ≠ k.varName) → Source.isStray v.1

/-! ### Files -/

/-- The word that a number in a file stands for. A real number, as large whole numbers are in some
files, is rounded. -/
def wordOfScalar? : Scalar → Option UInt64
  | .integer n => if 0 ≤ n ∧ n < twoTo 64 then some (UInt64.ofNat n.toNat) else none
  | .real x => some (nearestWord x)
  | _ => none

/-- The setting that a single value in a file gives: a host by a text, a number by a number in its
range. Only the time limit may be given as missing. -/
def Key.ofScalar? (value : Scalar) : (k : Key) → Option k.Value
  | host => match value with
    | .text s => some s
    | _ => none
  | port => match value with
    | .integer n => if 0 ≤ n ∧ n < twoTo 16 then some (UInt16.ofNat n.toNat) else none
    | _ => none
  | pollInterval | retryDelay | maxRetryDelay => wordOfScalar? value
  | ioTimeout => match value with
    | .nil => some none
    | value => (wordOfScalar? value).map some

def Key.ofNode? (k : Key) : Node → Option k.Value
  | .scalar _ value => k.ofScalar? value
  | _ => none

/-- What stands under a name in any letter case. -/
def named? (name : String) (entries : List (String × Node)) : Option Node :=
  (entries.find? fun e => lower e.1 = name).map Prod.snd

def Node.entries : Node → List (String × Node)
  | .table _ entries => entries
  | _ => []

def Given.ofSection (part : Section) (content : Node) : Given := fun k =>
  if k.part = part then (named? k.name content.entries).bind k.ofNode? else none

def Given.ofFile (file : Source) : Given := fun k =>
  (named? k.part.key file).bind fun content => Given.ofSection k.part content k

/-- A name that is no path. -/
def IsIdentifier (name : String) : Prop := name ≠ "" ∧ name.toList.all Path.isNameChar = true

instance (name : String) : Decidable (IsIdentifier name) := inferInstanceAs (Decidable (_ ∧ _))

/-- A name stands at most once, in any letter case. -/
def Once (name : String) (entries : List (String × Node)) : Prop :=
  (entries.countP fun e => lower e.1 = name) ≤ 1

instance (name : String) (entries : List (String × Node)) : Decidable (Once name entries) :=
  inferInstanceAs (Decidable (_ ≤ _))

instance (p : Key → Prop) [DecidablePred p] : Decidable (∀ k, p k) :=
  decidable_of_iff
    (p .host ∧ p .port ∧ p .pollInterval ∧ p .retryDelay ∧ p .maxRetryDelay ∧ p .ioTimeout)
    ⟨fun ⟨_, _, _, _, _, _⟩ k => by cases k <;> assumption,
      fun h => ⟨h _, h _, h _, h _, h _, h _⟩⟩

instance (p : Section → Prop) [DecidablePred p] : Decidable (∀ part, p part) :=
  decidable_of_iff (p .player ∧ p .watch)
    ⟨fun ⟨_, _⟩ part => by cases part <;> assumption, fun h => ⟨h _, h _⟩⟩

def Node.isTable : Node → Bool
  | .table .. => true
  | _ => false

/-- A section in which every setting stands at most once and with a value of its own kind. Other names
may stand there with any values. -/
def Node.FitsSection (part : Section) (content : Node) : Prop :=
  content.isTable ∧ ∀ k : Key, k.part = part → Once k.name content.entries ∧
    ∀ e ∈ content.entries, lower e.1 = k.name → (k.ofNode? e.2).isSome

instance (part : Section) (content : Node) : Decidable (content.FitsSection part) :=
  inferInstanceAs (Decidable (_ ∧ _))

/-- A file whose sections stand at most once and are as they should be. Other identifiers may stand
beside them with any values. -/
def Source.FitsFile (file : Source) : Prop :=
  (∀ e ∈ file, IsIdentifier e.1) ∧ ∀ part : Section, Once part.key file ∧
    ∀ e ∈ file, lower e.1 = part.key → e.2.FitsSection part

instance (file : Source) : Decidable file.FitsFile := inferInstanceAs (Decidable (_ ∧ _))

/-! ### How it is read -/

def Key.read : (k : Key) → ReadSetting k.Value
  | host => readText
  | port => readPort
  | pollInterval | retryDelay | maxRetryDelay => readNatural
  | ioTimeout => readOptional

/-- The node of a value that can only be read as the setting. -/
def Key.Denotes (k : Key) (node : Node) (v : k.Value) : Prop := ∀ key, k.read key node = .ok v

theorem readNatural_of_wordOfScalar? {value : Scalar} {word : UInt64}
    (h : wordOfScalar? value = some word) (key : String) (origin : Option String) :
    readNatural key (.scalar origin value) = .ok word := by
  unfold wordOfScalar? at h
  split at h
  · next n =>
    split at h
    · next hrange =>
      obtain rfl := Option.some.inj h
      have hn : (n.toNat : Int) = n := Int.toNat_of_nonneg hrange.1
      rw [← hn, readNatural_integer, Int.toNat_natCast]
    · cases h
  · obtain rfl := Option.some.inj h
    rfl
  · cases h

theorem readOptional_of_wordOfScalar? {value : Scalar} {word : UInt64}
    (h : wordOfScalar? value = some word) (key : String) (origin : Option String) :
    readOptional key (.scalar origin value) = .ok (some word) := by
  have hread := readNatural_of_wordOfScalar? h key origin
  have hnil : value ≠ .nil := by
    rintro rfl
    cases h
  unfold readOptional
  split
  · next heq => exact absurd (Node.scalar.inj heq).2 hnil
  · rw [hread]
    rfl

theorem denotes_of_ofScalar? {k : Key} {value : Scalar} {v : k.Value} (h : k.ofScalar? value = some v)
    (origin : Option String) : k.Denotes (.scalar origin value) v := by
  intro key
  cases k with
  | host =>
    simp only [Key.ofScalar?] at h
    split at h
    · obtain rfl := Option.some.inj h
      rfl
    · cases h
  | port =>
    simp only [Key.ofScalar?] at h
    split at h
    · next n =>
      split at h
      · next hrange =>
        obtain rfl := Option.some.inj h
        have hn : (n.toNat : Int) = n := Int.toNat_of_nonneg hrange.1
        have hport : n.toNat < twoTo 16 := by omega
        show readPort key _ = _
        rw [← hn, readPort_integer key origin hport, Int.toNat_natCast]
      · cases h
    · cases h
  | pollInterval | retryDelay | maxRetryDelay => exact readNatural_of_wordOfScalar? h key origin
  | ioTimeout =>
    simp only [Key.ofScalar?] at h
    split at h
    · obtain rfl := Option.some.inj h
      rfl
    · obtain ⟨word, hword, rfl⟩ := Option.map_eq_some_iff.1 h
      exact readOptional_of_wordOfScalar? hword key origin

theorem wordOfScalar?_integer {n : Nat} (h : n < twoTo 64) :
    wordOfScalar? (.integer n) = some (UInt64.ofNat n) := by
  simp only [wordOfScalar?]
  rw [if_pos ⟨Int.natCast_nonneg n, Int.ofNat_lt.2 h⟩, Int.toNat_natCast]

theorem ofScalar?_port {n : Nat} (h : n < twoTo 16) :
    Key.port.ofScalar? (.integer n) = some (UInt16.ofNat n) := by
  simp only [Key.ofScalar?]
  rw [if_pos ⟨Int.natCast_nonneg n, Int.ofNat_lt.2 h⟩, Int.toNat_natCast]

theorem wordOfScalar?_valueOfText {s : String} {n : Nat} (h : wholeOfText? 64 s = some n) :
    wordOfScalar? (Source.valueOfText s) = some (heldWord n) := by
  obtain ⟨hread, hn⟩ := wholeOfText?_eq_some h
  rw [valueOfText_of_whole hread, heldWord]
  split
  · exact wordOfScalar?_integer hn
  · rfl

theorem denotes_of_ofText? {k : Key} {s : String} {v : k.Value} (h : k.ofText? s = some v)
    (origin : Option String) : k.Denotes (.scalar origin (Source.valueOfText s)) v := by
  apply denotes_of_ofScalar?
  cases k with
  | host =>
    simp only [Key.ofText?] at h
    split at h
    · next hplain =>
      obtain rfl := Option.some.inj h
      obtain ⟨htrue, hfalse, hinteger, hreal⟩ := hplain
      rw [Source.valueOfText, if_neg htrue, if_neg hfalse, hinteger, Option.isNone_iff_eq_none.1 hreal]
      rfl
    · cases h
  | port =>
    obtain ⟨n, hn, rfl⟩ := Option.map_eq_some_iff.1 h
    obtain ⟨hread, hport⟩ := wholeOfText?_eq_some hn
    have hword : n < twoTo 63 := Nat.lt_trans hport (by decide)
    rw [valueOfText_of_whole hread, if_pos hword]
    exact ofScalar?_port hport
  | pollInterval | retryDelay | maxRetryDelay =>
    obtain ⟨n, hn, rfl⟩ := Option.map_eq_some_iff.1 h
    exact wordOfScalar?_valueOfText hn
  | ioTimeout =>
    obtain ⟨n, hn, rfl⟩ := Option.map_eq_some_iff.1 h
    have hword := wordOfScalar?_valueOfText hn
    simp only [Key.ofScalar?]
    split
    · next hnil =>
      rw [hnil] at hword
      cases hword
    · rw [hword]
      rfl

end PlayerWatch.Settings
