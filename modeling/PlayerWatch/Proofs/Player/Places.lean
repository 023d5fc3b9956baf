import Mathlib.Data.List.Basic
import PlayerWatch.Player.Decode

/-!
# Every field from its own key

A status has fifteen fields that a reply can fill and a song has seven. Each is a place with a key and a
way of reading, and what a place holds is what can be read of the value of its key, or else what it
holds by default (`Decoder.Lawful`). From that alone it follows that no key reaches into the field or
the report of another (`keys_keep_apart`).
-/

namespace PlayerWatch

open Number

/-! ### Places -/

/-- What a field holds. -/
inductive Content where
  | text (s : String)
  | flag (on : Bool)
  | signed (n : Int32)
  | unsigned (n : UInt32)
  | real (x : Float)
  /-- For a field that may lack. -/
  | nothing

/-- How a value is read. -/
inductive Reading where
  /-- As it is. -/
  | verbatim
  /-- As on if it is `1`, and else as off. -/
  | switch
  /-- As a number, if it is one. -/
  | number (read? : String → Option Content)

/-- What is read of a value. -/
def Reading.read? : Reading → String → Option Content
  | verbatim, value => some (.text value)
  | switch, value => some (.flag (value = "1"))
  | number read?, value => read? value

/-- A field that is read from the value of one key. -/
structure Place (α : Type) where
  key : String
  reading : Reading
  held : α → Content

namespace Place

variable {α : Type}

/-- What a place is filled with from a record. -/
def found? (p : Place α) (r : Record) : Option Content := (r.get? p.key).bind p.reading.read?

/-- The report for a place: its key and the value, if there is one and it cannot be read. -/
def report? (p : Place α) (r : Record) : Option Unreadable :=
  ((r.get? p.key).filter fun value => (p.reading.read? value).isNone).map fun value => ⟨p.key, value⟩

theorem report?_eq_some_iff {p : Place α} {r : Record} {u : Unreadable} :
    p.report? r = some u ↔
      p.key = u.key ∧ r.get? u.key = some u.value ∧ p.reading.read? u.value = none := by
  obtain ⟨key, value⟩ := u
  simp only [report?, Option.map_eq_some_iff, Option.filter_eq_some_iff, Option.isNone_iff_eq_none,
    Unreadable.mk.injEq]
  constructor
  · rintro ⟨_, ⟨hget, hread⟩, rfl, rfl⟩
    exact ⟨rfl, hget, hread⟩
  · rintro ⟨rfl, hget, hread⟩
    exact ⟨value, ⟨hget, hread⟩, rfl, rfl⟩

end Place

/-- A way to make something of a record: the places that it fills, what they hold before, what comes of
a record, and which of its values could not be read. -/
structure Decoder (α : Type) where
  places : List (Place α)
  blank : α
  decode : Record → α
  unreadable : Record → List Unreadable

def Status.decoder : Decoder Status where
  places :=
    [⟨"state", .verbatim, fun s => .text s.state⟩,
     ⟨"volume", .number fun v => (readInt32? v).map .signed, fun s => .signed s.volume⟩,
     ⟨"repeat", .switch, fun s => .flag s.repeatAll⟩,
     ⟨"random", .switch, fun s => .flag s.random⟩,
     ⟨"single", .switch, fun s => .flag s.single⟩,
     ⟨"consume", .switch, fun s => .flag s.consume⟩,
     ⟨"playlistlength", .number fun v => (readUInt32? v).map .unsigned,
      fun s => .unsigned s.queueLength⟩,
     ⟨"song", .number fun v => (readInt32? v).map .signed, fun s => .signed s.song⟩,
     ⟨"songid", .number fun v => (readInt32? v).map .signed, fun s => .signed s.songId⟩,
     ⟨"nextsong", .number fun v => (readInt32? v).map .signed, fun s => .signed s.nextSong⟩,
     ⟨"nextsongid", .number fun v => (readInt32? v).map .signed, fun s => .signed s.nextSongId⟩,
     ⟨"duration", .number fun v => (readReal? v).map fun x => .unsigned (wholeSeconds x),
      fun s => .unsigned s.duration⟩,
     ⟨"elapsed", .number fun v => (readReal? v).map .real, fun s => .real s.elapsed⟩,
     ⟨"bitrate", .number fun v => (readUInt32? v).map .unsigned, fun s => .unsigned s.bitrate⟩,
     ⟨"error", .verbatim, fun s => .text s.error⟩]
  blank := {}
  decode := Status.ofRecord
  unreadable := Status.unreadable

def Song.decoder : Decoder Song where
  places :=
    [⟨"file", .verbatim, fun s => .text s.file⟩,
     ⟨"Artist", .verbatim, fun s => .text s.artist⟩,
     ⟨"Album", .verbatim, fun s => .text s.album⟩,
     ⟨"Title", .verbatim, fun s => .text s.title⟩,
     ⟨"Pos", .number fun v => (readUInt32? v).map .unsigned,
      fun s => s.position.elim .nothing .unsigned⟩,
     ⟨"Id", .number fun v => (readUInt32? v).map .unsigned, fun s => s.id.elim .nothing .unsigned⟩,
     ⟨"duration", .number fun v => (readReal? v).map .real, fun s => s.duration.elim .nothing .real⟩]
  blank := {}
  decode := Song.ofRecord
  unreadable := Song.unreadable

/-! ### What follows from reading place by place -/

namespace Decoder

variable {α : Type} {d : Decoder α}

/-- A decoder that fills its places one by one and has nothing besides. -/
structure Lawful (d : Decoder α) : Prop where
  nodup : (d.places.map Place.key).Nodup
  filled : ∀ r, ∀ p ∈ d.places, p.held (d.decode r) = (p.found? r).getD (p.held d.blank)
  reported : ∀ r, d.unreadable r = d.places.filterMap fun p => p.report? r
  determined : ∀ r r', (∀ p ∈ d.places, p.held (d.decode r) = p.held (d.decode r')) →
    d.decode r = d.decode r'

/-- A place goes by the value of its key. -/
theorem Lawful.held_congr (hd : d.Lawful) {r r' : Record} {p : Place α} (hp : p ∈ d.places)
    (h : r.get? p.key = r'.get? p.key) : p.held (d.decode r) = p.held (d.decode r') := by
  rw [hd.filled r p hp, hd.filled r' p hp, Place.found?, Place.found?, h]

/-- Nothing but the values of the keys counts. -/
theorem Lawful.congr (hd : d.Lawful) {r r' : Record}
    (h : ∀ p ∈ d.places, r.get? p.key = r'.get? p.key) :
    d.decode r = d.decode r' ∧ d.unreadable r = d.unreadable r' := by
  constructor
  · exact hd.determined r r' fun p hp => hd.held_congr hp (h p hp)
  · rw [hd.reported, hd.reported]
    apply List.filterMap_congr
    intro p hp
    rw [Place.report?, Place.report?, h p hp]

theorem Lawful.mem_unreadable_iff (hd : d.Lawful) {r : Record} {u : Unreadable} :
    u ∈ d.unreadable r ↔ ∃ p ∈ d.places, ∃ read?, p.reading = .number read? ∧ p.key = u.key ∧
      r.get? u.key = some u.value ∧ read? u.value = none := by
  simp only [hd.reported, List.mem_filterMap, Place.report?_eq_some_iff]
  refine exists_congr fun p => and_congr_right fun _ => ?_
  constructor
  · rintro ⟨hkey, hget, hread⟩
    cases hreading : p.reading with
    | verbatim | switch =>
      rw [hreading] at hread
      cases hread
    | number read? =>
      rw [hreading] at hread
      exact ⟨read?, rfl, hkey, hget, hread⟩
  · rintro ⟨read?, hreading, hkey, hget, hread⟩
    refine ⟨hkey, hget, ?_⟩
    rw [hreading]
    exact hread

/-- The reports come in the order of the places, and each place has one at most. -/
theorem Lawful.keys_sublist (hd : d.Lawful) (r : Record) :
    ((d.unreadable r).map Unreadable.key).Sublist (d.places.map Place.key) := by
  have hkeys : (d.unreadable r).map Unreadable.key =
      d.places.filterMap fun p => (p.report? r).map fun _ => p.key := by
    rw [hd.reported, List.map_filterMap]
    apply List.filterMap_congr
    intro p _
    cases hreport : p.report? r with
    | none => rfl
    | some u => rw [Option.map_some, Option.map_some, (Place.report?_eq_some_iff.1 hreport).1]
  rw [hkeys]
  induction d.places with
  | nil => exact .slnil
  | cons p places ih =>
    cases hreport : p.report? r with
    | none => simpa [hreport] using ih.cons p.key
    | some u => simpa [hreport] using ih.cons_cons p.key

/-- Whatever becomes of one key, the reports for the others stay as they are. -/
theorem Lawful.reports_off (hd : d.Lawful) {r r' : Record} {key : String}
    (h : ∀ k, k ≠ key → r.get? k = r'.get? k) :
    (d.unreadable r).filter (·.key ≠ key) = (d.unreadable r').filter (·.key ≠ key) := by
  rw [hd.reported, hd.reported, List.filter_filterMap, List.filter_filterMap]
  apply List.filterMap_congr
  intro p _
  by_cases hkey : p.key = key
  · have hnone (s : Record) : (p.report? s).filter (·.key ≠ key) = none := by
      rw [Option.filter_eq_none_iff]
      intro u hu
      rw [← (Place.report?_eq_some_iff.1 hu).1]
      simpa using hkey
    rw [hnone, hnone]
  · rw [Place.report?, Place.report?, h p.key hkey]

/-- What can be said of a decoder that lets no key reach into what belongs to another. -/
structure KeepsApart (d : Decoder α) : Prop where
  nodup : (d.places.map Place.key).Nodup
  /-- A place holds what is read of the value of its key. If there is none, or nothing can be read of
  it, the place holds its default. -/
  filled : ∀ r, ∀ p ∈ d.places,
    p.held (d.decode r) = ((r.get? p.key).bind p.reading.read?).getD (p.held d.blank)
  /-- What is reported are the numbers that are there and cannot be read. -/
  reported : ∀ r u, u ∈ d.unreadable r ↔ ∃ p ∈ d.places, ∃ read?, p.reading = .number read? ∧
    p.key = u.key ∧ r.get? u.key = some u.value ∧ read? u.value = none
  /-- They are reported in the order of the places, and none of them twice. -/
  ordered : ∀ r, ((d.unreadable r).map Unreadable.key).Sublist (d.places.map Place.key)
  /-- A change to one key is a change to its place and its report, if it has any. -/
  framed : ∀ (r r' : Record) (key : String), (∀ k, k ≠ key → r.get? k = r'.get? k) →
    (∀ p ∈ d.places, p.key ≠ key → p.held (d.decode r) = p.held (d.decode r')) ∧
    (d.unreadable r).filter (·.key ≠ key) = (d.unreadable r').filter (·.key ≠ key) ∧
    (key ∉ d.places.map Place.key → d.decode r = d.decode r' ∧ d.unreadable r = d.unreadable r')

theorem Lawful.keepsApart (hd : d.Lawful) : d.KeepsApart where
  nodup := hd.nodup
  filled := hd.filled
  reported _ _ := hd.mem_unreadable_iff
  ordered := hd.keys_sublist
  framed := by
    intro r r' key h
    refine ⟨fun p hp hkey => hd.held_congr hp (h p.key hkey), hd.reports_off h, fun hkey => ?_⟩
    refine hd.congr fun p hp => h p.key ?_
    rintro rfl
    exact hkey (List.mem_map_of_mem hp)

end Decoder

/-! ### The places of a status and of a song -/

namespace Record

variable (r : Record) (key : String)

theorem content_text : Content.text (r.text key) =
    ((r.get? key).bind Reading.verbatim.read?).getD (.text "") := by
  unfold text
  cases r.get? key <;> rfl

theorem content_flag : Content.flag (r.flag key) =
    ((r.get? key).bind Reading.switch.read?).getD (.flag false) := by
  unfold flag
  cases r.get? key with
  | none => rfl
  | some value => simp [Reading.read?]

/-- A number that is converted once it is read. -/
theorem content_converted {α β : Type} (read : String → Option α) (g : α → β) (f : β → Content)
    (otherwise : β) :
    f (((r.read? read key).map g).getD otherwise) =
      ((r.get? key).bind (Reading.number fun v => (read v).map fun a => f (g a)).read?).getD
        (f otherwise) := by
  unfold read?
  cases r.get? key with
  | none => rfl
  | some value => cases hread : read value <;> simp [Reading.read?, hread]

theorem content_number {α : Type} (read : String → Option α) (f : α → Content) (otherwise : α) :
    f ((r.read? read key).getD otherwise) =
      ((r.get? key).bind (Reading.number fun v => (read v).map f).read?).getD (f otherwise) := by
  simpa using r.content_converted key read id f otherwise

/-- A number that may lack. -/
theorem content_optional {α : Type} (read : String → Option α) (f : α → Content) :
    (r.read? read key).elim .nothing f =
      ((r.get? key).bind (Reading.number fun v => (read v).map f).read?).getD .nothing := by
  unfold read?
  cases r.get? key with
  | none => rfl
  | some value => cases hread : read value <;> simp [Reading.read?, hread]

theorem unreadable_eq_toList {α β : Type} (read : String → Option α) (f : α → Content)
    (held : β → Content) :
    r.unreadable read key =
      ((Place.mk key (.number fun v => (read v).map f) held).report? r).toList := by
  unfold unreadable Place.report?
  cases r.get? key with
  | none => rfl
  | some value => cases hread : read value <;> simp [Reading.read?, Option.filter, hread]

end Record

namespace Place

variable {α : Type} (key : String) (held : α → Content) (r : Record)

/-- A text can always be read. -/
theorem report?_verbatim : (Place.mk key .verbatim held).report? r = none := by
  unfold report?
  cases r.get? key <;> rfl

/-- A switch can always be read. -/
theorem report?_switch : (Place.mk key .switch held).report? r = none := by
  unfold report?
  cases r.get? key <;> rfl

end Place

/-- A status without a song is what its places hold. -/
theorem Status.eq_of_held {s t : Status} (h : ∀ p ∈ decoder.places, p.held s = p.held t)
    (hs : s.withSong {} = s) (ht : t.withSong {} = t) : s = t := by
  simp only [decoder, List.forall_mem_cons, Content.text.injEq, Content.signed.injEq,
    Content.flag.injEq, Content.unsigned.injEq, Content.real.injEq] at h
  rw [← hs, ← ht]
  simp only [withSong, h]

theorem Status.lawful_decoder : decoder.Lawful where
  nodup := by decide
  filled r := by
    simp only [decoder, List.forall_mem_cons]
    exact ⟨r.content_text _, r.content_number _ _ .signed _, r.content_flag _, r.content_flag _,
      r.content_flag _, r.content_flag _, r.content_number _ _ .unsigned _,
      r.content_number _ _ .signed _, r.content_number _ _ .signed _, r.content_number _ _ .signed _,
      r.content_number _ _ .signed _, r.content_converted _ _ _ .unsigned _,
      r.content_number _ _ .real _, r.content_number _ _ .unsigned _, r.content_text _, nofun⟩
  reported r := by
    rw [List.filterMap_eq_flatMap_toList]
    simp only [decoder, List.flatMap_cons, List.flatMap_nil, Place.report?_verbatim,
      Place.report?_switch, Option.toList_none, List.nil_append, ← Record.unreadable_eq_toList]
    simp only [Status.unreadable, List.append_assoc, List.append_nil]
  determined _ _ h := eq_of_held h rfl rfl

theorem Content.eq_of_elim {α : Type} {f : α → Content} (hsome : ∀ a, f a ≠ .nothing)
    (hf : ∀ a b, f a = f b → a = b) {o o' : Option α}
    (h : o.elim .nothing f = o'.elim .nothing f) : o = o' := by
  cases o with
  | none =>
    cases o' with
    | none => rfl
    | some b => exact absurd h.symm (hsome b)
  | some a =>
    cases o' with
    | none => exact absurd h (hsome a)
    | some b => rw [hf a b h]

/-- A song is what its places hold. -/
theorem Song.eq_of_held {s t : Song} (h : ∀ p ∈ decoder.places, p.held s = p.held t) : s = t := by
  simp only [decoder, List.forall_mem_cons, Content.text.injEq] at h
  obtain ⟨hfile, hartist, halbum, htitle, hposition, hid, hduration, -⟩ := h
  have hposition := Content.eq_of_elim nofun (fun _ _ => Content.unsigned.inj) hposition
  have hid := Content.eq_of_elim nofun (fun _ _ => Content.unsigned.inj) hid
  have hduration := Content.eq_of_elim nofun (fun _ _ => Content.real.inj) hduration
  cases s
  cases t
  simp_all

theorem Song.lawful_decoder : decoder.Lawful where
  nodup := by decide
  filled r := by
    simp only [decoder, List.forall_mem_cons]
    exact ⟨r.content_text _, r.content_text _, r.content_text _, r.content_text _,
      r.content_optional _ _ .unsigned, r.content_optional _ _ .unsigned,
      r.content_optional _ _ .real, nofun⟩
  reported r := by
    rw [List.filterMap_eq_flatMap_toList]
    simp only [decoder, List.flatMap_cons, List.flatMap_nil, Place.report?_verbatim,
      Option.toList_none, List.nil_append, ← Record.unreadable_eq_toList]
    simp only [Song.unreadable, List.append_assoc, List.append_nil]
  determined _ _ h := eq_of_held h

/-- **Every key has its own field and its own report.** A status and a song have each field from the
value of one key: a text is that value or empty, a switch is on exactly if the value is `1`, and a number
is what is read of the value, of the duration of a status its whole seconds, and as by default if the
key is absent or nothing can be read. Of each record exactly the numbers that are there and cannot be
read are reported, each once, with key and value and in the order of the fields. So a change to the
value of one key, be it put there or taken away, changes at most the field and the report of that key,
and one to a key that has no field changes nothing. The song of a status is not read from its record. -/
theorem keys_keep_apart :
    Status.decoder.KeepsApart ∧ Song.decoder.KeepsApart ∧
      ∀ r, (Status.ofRecord r).withSong {} = Status.ofRecord r :=
  ⟨Status.lawful_decoder.keepsApart, Song.lawful_decoder.keepsApart, fun _ => rfl⟩

/-- A song number that is no longer one is reported, and leaves alone what stands beside it. -/
theorem spoilt_song_number_kept_apart :
    let r := Record.ofLines ["volume: loud", "song: 3", "songid: 17", "duration: 245.873"]
    let r' := r.insert "songid" "next"
    (∀ k, k ≠ "songid" → r.get? k = r'.get? k) ∧
      (Status.ofRecord r).songId = 17 ∧ Status.unreadable r = [⟨"volume", "loud"⟩] ∧
      (Status.ofRecord r').songId = -1 ∧
      Status.unreadable r' = [⟨"volume", "loud"⟩, ⟨"songid", "next"⟩] ∧
      (Status.ofRecord r').volume = -1 ∧ (Status.ofRecord r').song = 3 ∧
      (Status.ofRecord r').duration = (Status.ofRecord r).duration := by
  intro r r'
  have hoff : ∀ k, k ≠ "songid" → r.get? k = r'.get? k := by
    intro k hk
    rw [Record.get?_insert, if_neg hk]
  have hduration := (keys_keep_apart.1.framed r r' "songid" hoff).1 Status.decoder.places[11]
    (List.getElem_mem _) (by decide)
  exact ⟨hoff, by decide +kernel, by decide +kernel, by decide +kernel, by decide +kernel,
    by decide +kernel, by decide +kernel, (Content.unsigned.inj hduration).symm⟩

end PlayerWatch
