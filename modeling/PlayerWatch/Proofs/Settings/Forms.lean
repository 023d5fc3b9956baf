import PlayerWatch.Proofs.Json.Members
import PlayerWatch.Proofs.Settings.Given
import PlayerWatch.Settings.Json

/-!
# Settings with parts left out

Any of the settings, and any of their sections, may be left out of the JSON of settings. What is left out
has its default when the rest is read, and all else is as it was (`ofJson_partly`).
-/

namespace PlayerWatch.Settings

open Json Number

/-- The settings of a section, in their order. -/
def Section.all : Section → List Key
  | .player => [.host, .port]
  | .watch => [.pollInterval, .retryDelay, .maxRetryDelay, .ioTimeout]

def Section.fields : Section → List Field
  | .player => PlayerSettings.fields
  | .watch => WatchSettings.fields

/-- The value of a setting in JSON. -/
def Key.toJson : (k : Key) → k.Value → Json
  | .host => text
  | .port => fun n => natural n.toNat
  | .pollInterval | .retryDelay | .maxRetryDelay => fun n => natural n.toNat
  | .ioTimeout => optional fun n => natural n.toNat

/-- A setting as a member of its section. -/
def member (s : Settings) (k : Key) : String × Json := (k.name, k.toJson (s.get k))

/-- A section as a member of all settings, with the settings that are kept. -/
def part (s : Settings) (keep : Key → Bool) (p : Section) : String × Json :=
  (p.key, record ((p.all.filter keep).map s.member))

/-- Settings in JSON, with the sections and the settings that are kept. -/
def partly (s : Settings) (keepPart : Section → Bool) (keep : Key → Bool) : Json :=
  record (([Section.player, .watch].filter keepPart).map (s.part keep))

/-- With nothing left out, these are the settings in JSON. -/
theorem partly_all (s : Settings) : s.partly (fun _ => true) (fun _ => true) = s.toJson := rfl

/-! ### One setting -/

/-- Reads the value of a setting. -/
def Key.ofJson : (k : Key) → Read k.Value
  | .host => Json.readText
  | .port => readUInt16
  | .pollInterval | .retryDelay | .maxRetryDelay => readUInt64
  | .ioTimeout => Json.readOptional readUInt64

theorem Key.ofJson_toJson (k : Key) (v : k.Value) : k.ofJson (k.toJson v) = .ok v := by
  cases k with
  | host => rfl
  | port => exact readUInt16_natural v
  | pollInterval | retryDelay | maxRetryDelay => exact readUInt64_natural v
  | ioTimeout =>
    cases v with
    | none => rfl
    | some n =>
      show (readUInt64 (natural n.toNat)).map some = _
      rw [readUInt64_natural]
      rfl

/-- A setting that is left out has another value. -/
theorem getD_of_lookup {entries : Entries} {k : Key} {v : k.Value} {kept : Bool}
    (h : entries.lookup k.name = if kept then some (k.toJson v) else none) (d : k.Value) :
    entries.getD k.name k.ofJson d = .ok (if kept then v else d) := by
  rw [Entries.getD, h]
  cases kept with
  | true => exact k.ofJson_toJson v
  | false => rfl

theorem fields_eq (p : Section) : p.fields = p.all.map fun k => field k.name k.ofJson := by
  cases p <;> rfl

theorem fits_member (s : Settings) (p : Section) :
    List.Forall₂ Field.Fits p.fields (p.all.map s.member) := by
  rw [fields_eq, List.forall₂_map_left_iff, List.forall₂_map_right_iff, List.forall₂_same]
  intro k _
  refine ⟨rfl, ?_⟩
  show (k.ofJson (k.toJson (s.get k))).map _ = _
  rw [k.ofJson_toJson]
  rfl

theorem nodup_names (s : Settings) (p : Section) :
    ((p.all.map s.member).map Prod.fst).Nodup := by
  rw [List.map_map]
  cases p <;> (show (List.map Key.name _).Nodup; decide)

/-! ### One section -/

section Sections

variable (s : Settings) (keep : Key → Bool)

/-- The value of a setting, by default if it is not kept. -/
def kept (k : Key) : k.Value := if keep k then s.get k else k.default

/-- The fields that the settings of a section are read from. -/
theorem readEntries_part (p : Section) :
    ∃ entries, readEntries .streamed true p.fields (s.part keep p).2 = .ok entries ∧
      ∀ k ∈ p.all, ∀ d, entries.getD k.name k.ofJson d = .ok (if keep k then s.get k else d) := by
  obtain ⟨entries, hread, hlookup⟩ :=
    readEntries_kept .streamed true keep (s.fits_member p) (s.nodup_names p)
  exact ⟨entries, hread, fun k hk d => getD_of_lookup (hlookup k hk) d⟩

def keptPlayer : PlayerSettings := { host := s.kept keep .host, port := s.kept keep .port }

def keptWatch : WatchSettings where
  pollInterval := s.kept keep .pollInterval
  retryDelay := s.kept keep .retryDelay
  maxRetryDelay := s.kept keep .maxRetryDelay
  ioTimeout := s.kept keep .ioTimeout

theorem ofJson_player : PlayerSettings.ofJson (s.part keep .player).2 = .ok (s.keptPlayer keep) := by
  obtain ⟨entries, hread, hget⟩ := s.readEntries_part keep .player
  have hhost : entries.getD "host" Json.readText ({} : PlayerSettings).host =
      .ok (s.kept keep .host) := hget .host (by decide) _
  have hport : entries.getD "port" readUInt16 ({} : PlayerSettings).port =
      .ok (s.kept keep .port) := hget .port (by decide) _
  have hfields : PlayerSettings.fields = Section.fields .player := rfl
  rw [PlayerSettings.ofJson, hfields, hread]
  simp only [bind, Except.bind, hhost, hport]
  rfl

theorem ofJson_watch : WatchSettings.ofJson (s.part keep .watch).2 = .ok (s.keptWatch keep) := by
  obtain ⟨entries, hread, hget⟩ := s.readEntries_part keep .watch
  have hinterval : entries.getD "poll_interval_ms" readUInt64 ({} : WatchSettings).pollInterval =
      .ok (s.kept keep .pollInterval) := hget .pollInterval (by decide) _
  have hdelay : entries.getD "retry_delay_ms" readUInt64 ({} : WatchSettings).retryDelay =
      .ok (s.kept keep .retryDelay) := hget .retryDelay (by decide) _
  have hmax : entries.getD "max_retry_delay_ms" readUInt64 ({} : WatchSettings).maxRetryDelay =
      .ok (s.kept keep .maxRetryDelay) := hget .maxRetryDelay (by decide) _
  have htimeout : entries.getD "io_timeout_ms" (Json.readOptional readUInt64)
      ({} : WatchSettings).ioTimeout = .ok (s.kept keep .ioTimeout) := hget .ioTimeout (by decide) _
  have hfields : WatchSettings.fields = Section.fields .watch := rfl
  rw [WatchSettings.ofJson, hfields, hread]
  simp only [bind, Except.bind, hinterval, hdelay, hmax, htimeout]
  rfl

/-! ### All settings -/

theorem fits_part :
    List.Forall₂ Field.Fits Settings.fields ([Section.player, .watch].map (s.part keep)) := by
  have hplayer : (PlayerSettings.ofJson (s.part keep .player).2).map (fun _ => ()) = .ok () := by
    rw [ofJson_player]
    rfl
  have hwatch : (WatchSettings.ofJson (s.part keep .watch).2).map (fun _ => ()) = .ok () := by
    rw [ofJson_watch]
    rfl
  exact .cons ⟨rfl, hplayer⟩ (.cons ⟨rfl, hwatch⟩ .nil)

/-- **What is left out has its default, and all else is as it was.** -/
theorem ofJson_partly (keepPart : Section → Bool) :
    ∃ t, Settings.ofJson (s.partly keepPart keep) = .ok t ∧
      ∀ k, t.get k = if keepPart k.part ∧ keep k then s.get k else k.default := by
  have hkeys : (([Section.player, .watch].map (s.part keep)).map Prod.fst).Nodup := by
    show ["mpd", "watcher"].Nodup
    decide
  obtain ⟨entries, hread, hlookup⟩ :=
    readEntries_kept .streamed true keepPart (s.fits_part keep) hkeys
  have hplayer : entries.getD "mpd" PlayerSettings.ofJson {} =
      .ok (if keepPart .player then s.keptPlayer keep else {}) := by
    have hplayer : entries.lookup "mpd" = _ := hlookup .player (by decide)
    rw [Entries.getD, hplayer]
    cases keepPart .player with
    | true => exact s.ofJson_player keep
    | false => rfl
  have hwatch : entries.getD "watcher" WatchSettings.ofJson {} =
      .ok (if keepPart .watch then s.keptWatch keep else {}) := by
    have hwatch : entries.lookup "watcher" = _ := hlookup .watch (by decide)
    rw [Entries.getD, hwatch]
    cases keepPart .watch with
    | true => exact s.ofJson_watch keep
    | false => rfl
  refine ⟨⟨if keepPart .player then s.keptPlayer keep else {},
    if keepPart .watch then s.keptWatch keep else {}⟩, ?_, ?_⟩
  · rw [Settings.ofJson, partly, hread]
    simp only [bind, Except.bind, hplayer, hwatch]
    rfl
  · intro k
    cases k <;> dsimp only [get, Key.part] <;> split <;>
      simp_all [keptPlayer, keptWatch, kept, Key.default, get]

end Sections

theorem proper_toJson (k : Key) (v : k.Value) : (k.toJson v).Proper := by
  cases k with
  | host => exact .string v
  | port | pollInterval | retryDelay | maxRetryDelay => exact .number (wellWritten_ofNat _)
  | ioTimeout =>
    cases v with
    | none => exact .null
    | some n => exact .number (wellWritten_ofNat _)

theorem proper_partly (s : Settings) (keepPart : Section → Bool) (keep : Key → Bool) :
    (s.partly keepPart keep).Proper := by
  refine .record fun m hm => ?_
  obtain ⟨p, -, rfl⟩ := List.mem_map.1 hm
  refine .record fun m hm => ?_
  obtain ⟨k, -, rfl⟩ := List.mem_map.1 hm
  exact proper_toJson k _

end PlayerWatch.Settings
