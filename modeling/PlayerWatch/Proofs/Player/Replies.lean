import PlayerWatch.Proofs.Number.Decimals
import PlayerWatch.Proofs.Player.Places
import PlayerWatch.Proofs.Record.Lines

/-!
# Statuses and songs from the lines of a reply

What is made of a reply goes by the last line with each key and by nothing else: lines may be left out or
moved as long as each key keeps its last line (`last_line_with_key_counts`). So a status comes back from
lines that tell its fields, in whatever order and among whatever other lines they are sent
(`status_comes_back`).
-/

namespace PlayerWatch

open Number

/-! ### Replies that are read alike -/

/-- Two replies are the same as a status and as a song, and so are the reports about them. -/
structure ReadAlike (lines lines' : List String) : Prop where
  status : Status.ofRecord (.ofLines lines) = Status.ofRecord (.ofLines lines')
  statusReports : Status.unreadable (.ofLines lines) = Status.unreadable (.ofLines lines')
  song : Song.ofRecord (.ofLines lines) = Song.ofRecord (.ofLines lines')
  songReports : Song.unreadable (.ofLines lines) = Song.unreadable (.ofLines lines')

theorem readAlike_of_lastValue {lines lines' : List String}
    (h : ∀ key value, LastValue lines key value ↔ LastValue lines' key value) :
    ReadAlike lines lines' := by
  have hget (key : String) : (Record.ofLines lines).get? key = (Record.ofLines lines').get? key := by
    apply Option.ext
    intro value
    rw [Record.get?_ofLines_eq_some_iff, Record.get?_ofLines_eq_some_iff, h]
  have hstatus := Status.lawful_decoder.congr fun p _ => hget p.key
  have hsong := Song.lawful_decoder.congr fun p _ => hget p.key
  exact ⟨hstatus.1, hstatus.2, hsong.1, hsong.2⟩

/-- **The last line with a key counts, and nothing else.** A record has a key with a value exactly if
one of its lines splits into them, at the first separator in it, and no later line has the key. So
replies that have for every key the same last value are the same as a status and as a song, with the
same reports. Such are replies that have for every key the same lines in the same order, wherever those
of other keys and those without a key stand; and a line may be left out if it has no key, or if a later
line has the same. -/
theorem last_line_with_key_counts :
    (∀ lines key value,
      (Record.ofLines lines).get? key = some value ↔ LastValue lines key value) ∧
    (∀ lines lines', (∀ key value, LastValue lines key value ↔ LastValue lines' key value) →
      ReadAlike lines lines') ∧
    (∀ lines lines' : List String,
      (∀ key, lines.filter (HasKey key) = lines'.filter (HasKey key)) → ReadAlike lines lines') ∧
    ∀ (before after : List String) (line : String),
      (∀ key, HasKey key line → ∃ later ∈ after, HasKey key later) →
      ReadAlike (before ++ line :: after) (before ++ after) := by
  refine ⟨?_, ?_, ?_, ?_⟩
  · intro lines key value
    exact Record.get?_ofLines_eq_some_iff
  · intro lines lines' h
    exact readAlike_of_lastValue h
  · intro lines lines' h
    apply readAlike_of_lastValue
    intro key value
    rw [← lastValue_filter, h key, lastValue_filter]
  · intro before after line h
    apply readAlike_of_lastValue
    intro key value
    exact lastValue_leave_out (h key)

/-- A line whose key ends in a colon among a line without a key and one that is overruled. -/
theorem overruled_volume_left_out :
    let lines := ["volume: loud", "key:none", "Title:: Intro: one", "volume: 65"]
    let kept := ["Title:: Intro: one", "volume: 65"]
    (Record.ofLines lines).get? "Title:" = some "Intro: one" ∧ ReadAlike lines kept := by
  intro lines kept
  obtain ⟨hlast, halike, -, hleave⟩ := last_line_with_key_counts
  have hvolume : ∀ key, HasKey key "volume: loud" →
      ∃ later ∈ ["key:none", "Title:: Intro: one", "volume: 65"], HasKey key later := by
    intro key hkey
    obtain rfl : key = "volume" := hkey.eq (by decide +kernel)
    exact ⟨"volume: 65", by decide, by decide +kernel⟩
  have hnone : ∀ key, HasKey key "key:none" → ∃ later ∈ kept, HasKey key later := by
    intro key hkey
    have hfield : field? "key:none" = none := by decide +kernel
    rw [hasKey_iff, hfield] at hkey
    cases hkey
  have hfirst := hleave [] ["key:none", "Title:: Intro: one", "volume: 65"] "volume: loud" hvolume
  have hsecond := hleave [] kept "key:none" hnone
  refine ⟨by decide +kernel, ?_⟩
  exact
    { status := hfirst.status.trans hsecond.status
      statusReports := hfirst.statusReports.trans hsecond.statusReports
      song := hfirst.song.trans hsecond.song
      songReports := hfirst.songReports.trans hsecond.songReports }

/-! ### A status as a player tells it -/

namespace Status

/-- The fields that a player tells of a status with nothing elapsed and no duration, each by its key and
the text of its value. -/
def told (s : Status) : List (String × String) :=
  let switch (on : Bool) : String := if on then "1" else "0"
  [("state", s.state), ("volume", signedDecimal s.volume.toInt), ("repeat", switch s.repeatAll),
   ("random", switch s.random), ("single", switch s.single), ("consume", switch s.consume),
   ("playlistlength", decimal s.queueLength.toNat), ("song", signedDecimal s.song.toInt),
   ("songid", signedDecimal s.songId.toInt), ("nextsong", signedDecimal s.nextSong.toInt),
   ("nextsongid", signedDecimal s.nextSongId.toInt), ("bitrate", decimal s.bitrate.toNat),
   ("error", s.error)]

/-- Lines that tell a status: one for each of its fields, in any order, and among them any lines that
have no key of a status, or the key of a later line. -/
inductive ToldBy (s : Status) : List String → Prop where
  | fields {fields : List (String × String)} (h : fields.Perm s.told) :
      s.ToldBy (fields.map fieldLine)
  | among {before after : List String} (line : String) (h : s.ToldBy (before ++ after))
      (hline : ∀ p ∈ decoder.places, HasKey p.key line → ∃ later ∈ after, HasKey p.key later) :
      s.ToldBy (before ++ line :: after)

/-- A status of which nothing is known but what it is told by. -/
structure Bare (s : Status) : Prop where
  duration : s.duration = 0
  elapsed : s.elapsed = 0
  artist : s.artist = ""
  album : s.album = ""
  title : s.title = ""

/-- No key of a status has a colon, and no two are the same. -/
theorem told_keys (s : Status) :
    (s.told.map Prod.fst).Nodup ∧ ∀ f ∈ s.told, ':' ∉ f.1.toList := by
  have hkeys : s.told.map Prod.fst = ["state", "volume", "repeat", "random", "single", "consume",
      "playlistlength", "song", "songid", "nextsong", "nextsongid", "bitrate", "error"] := rfl
  have hcolon : ∀ key ∈ s.told.map Prod.fst, ':' ∉ key.toList := by
    rw [hkeys]
    decide
  refine ⟨?_, fun f hf => hcolon f.1 (List.mem_map_of_mem hf)⟩
  rw [hkeys]
  decide

/-- Among the keys of a status the lines that tell it have those of its fields, and their values. -/
theorem ToldBy.lastValue_iff {s : Status} {lines : List String} (h : s.ToldBy lines)
    {p : Place Status} (hp : p ∈ decoder.places) {value : String} :
    LastValue lines p.key value ↔ (p.key, value) ∈ s.told := by
  induction h with
  | fields hperm =>
    obtain ⟨hnodup, hcolon⟩ := s.told_keys
    rw [lastValue_fieldLines_iff ((hperm.map _).nodup_iff.2 hnodup)
      fun f hf => hcolon f (hperm.mem_iff.1 hf), hperm.mem_iff]
  | among line _ hline ih => rw [lastValue_leave_out (hline p hp), ih]

theorem ToldBy.get?_eq {s : Status} {lines : List String} (h : s.ToldBy lines) {p : Place Status}
    (hp : p ∈ decoder.places) : (Record.ofLines lines).get? p.key = (Record.mk s.told).get? p.key := by
  apply Option.ext
  intro value
  rw [Record.get?_ofLines_eq_some_iff, h.lastValue_iff hp, Record.get?_eq_some_iff s.told_keys.1]

/-- What is told of a status is that status. -/
theorem ofRecord_told {s : Status} (h : s.Bare) : ofRecord ⟨s.told⟩ = s := by
  obtain ⟨hduration, helapsed, hartist, halbum, htitle⟩ := h
  cases s
  simp_all [ofRecord, told, Record.text, Record.flag, Record.read?, Record.get?, List.lookup_cons,
    readInt32?_signedDecimal, readUInt32?_decimal]

/-- Every number that is told can be read. -/
theorem unreadable_told (s : Status) : unreadable ⟨s.told⟩ = [] := by
  simp [unreadable, told, Record.unreadable, Record.get?, List.lookup_cons,
    readInt32?_signedDecimal, readUInt32?_decimal]

/-- **A status comes back from the lines that tell it.** Let nothing have elapsed of a status, and let it
have no duration and no song. Whatever its numbers, switches and texts, from one line for each other
field, in any order, among lines without a key of a status and earlier lines for the same keys, be they
well formed or not, that status is read and nothing is reported. -/
theorem status_comes_back (s : Status) (hs : s.Bare) (lines : List String) (h : s.ToldBy lines) :
    ofRecord (.ofLines lines) = s ∧ unreadable (.ofLines lines) = [] := by
  obtain ⟨hstatus, hreports⟩ := lawful_decoder.congr fun p hp => h.get?_eq hp
  exact ⟨hstatus.trans (ofRecord_told hs), hreports.trans s.unreadable_told⟩

/-- A status told backwards, behind a volume that is none and a line without a key, with a separator in
its error and words at the ends of their ranges. -/
theorem cluttered_status_comes_back :
    let s : Status :=
      { state := "pause", volume := -2147483648, repeatAll := true, queueLength := 4294967295,
        songId := 2147483647, error := "lost: again" }
    let lines :=
      ["volume: loud", "OK MPD", "error: lost: again", "bitrate: 0", "nextsongid: -1", "nextsong: 0",
       "songid: 2147483647", "song: 0", "playlistlength: 4294967295", "consume: 0", "single: 0",
       "random: 0", "repeat: 1", "volume: -2147483648", "state: pause", "playlist: 7"]
    s.Bare ∧ s.ToldBy lines ∧ ofRecord (.ofLines lines) = s ∧ unreadable (.ofLines lines) = [] := by
  intro s lines
  have hs : s.Bare := ⟨rfl, rfl, rfl, rfl, rfl⟩
  have hfields : s.ToldBy (s.told.reverse.map fieldLine ++ []) := by
    rw [List.append_nil]
    exact .fields (List.reverse_perm _)
  have hbehind := hfields.among "playlist: 7" (by decide +kernel)
  have hbetween := @ToldBy.among s [] _ "OK MPD" hbehind (by decide +kernel)
  have hbefore := @ToldBy.among s [] _ "volume: loud" hbetween (by decide +kernel)
  have hlines : lines =
      "volume: loud" :: "OK MPD" :: (s.told.reverse.map fieldLine ++ ["playlist: 7"]) := by
    decide +kernel
  have h : s.ToldBy lines := by
    rw [hlines]
    exact hbefore
  exact ⟨hs, h, status_comes_back s hs lines h⟩

end Status

end PlayerWatch
