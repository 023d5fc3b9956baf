import PlayerWatch.Player.Json
import PlayerWatch.Proofs.Json.Members

/-!
# A status as an object

Each field of a status is a member of its object, and each but one is read as it was
(`Status.ofJson_toJson`). What has elapsed is read as its own numeral is.
-/

namespace PlayerWatch.Status

open Json Number

/-- The fields of a status as members of an object. -/
def members (s : Status) : List (String × Json) :=
  [("state", text s.state), ("volume", integer s.volume.toInt), ("repeat", .bool s.repeatAll),
   ("random", .bool s.random), ("single", .bool s.single), ("consume", .bool s.consume),
   ("playlist_length", natural s.queueLength.toNat), ("song", integer s.song.toInt),
   ("song_id", integer s.songId.toInt), ("next_song", integer s.nextSong.toInt),
   ("next_song_id", integer s.nextSongId.toInt), ("duration", natural s.duration.toNat),
   ("elapsed", real s.elapsed), ("bitrate", natural s.bitrate.toNat), ("error", text s.error),
   ("artist", text s.artist), ("album", text s.album), ("title", text s.title)]

theorem toJson_eq (s : Status) : s.toJson = record s.members := rfl

theorem nodup_members (s : Status) : (s.members.map Prod.fst).Nodup := by
  have hkeys : s.members.map Prod.fst = fields.map Field.key := rfl
  rw [hkeys]
  decide

theorem fits_of_read {α : Type} {key : String} {read : Read α} {j : Json} {a : α}
    (h : read j = .ok a) : (field key read).Fits (key, j) := by
  refine ⟨rfl, ?_⟩
  show (read j).map _ = _
  rw [h]
  rfl

/-- The members of a status stand for its fields. -/
theorem fits_members {s : Status} {y : Float} (hy : readReal (real s.elapsed) = .ok y) :
    List.Forall₂ Field.Fits fields s.members := by
  have htext (key t : String) : (field key readText).Fits (key, text t) := fits_of_read (a := t) rfl
  have hflag (key : String) (b : Bool) : (field key readFlag).Fits (key, .bool b) :=
    fits_of_read (a := b) rfl
  have hint (key : String) (n : Int32) : (field key readInt32).Fits (key, integer n.toInt) :=
    fits_of_read (readInt32_integer n)
  have hnat (key : String) (n : UInt32) : (field key readUInt32).Fits (key, natural n.toNat) :=
    fits_of_read (readUInt32_natural n)
  simp only [fields, members, List.forall₂_cons, List.forall₂_nil_left_iff, htext, hflag, hint, hnat,
    fits_of_read hy, and_self]

/-- A status is read back, with what has elapsed as its numeral is read. -/
theorem ofJson_toJson {s : Status} {y : Float} (hy : readReal (real s.elapsed) = .ok y) :
    ofJson s.toJson = .ok { s with elapsed := y } := by
  obtain ⟨entries, hread, hlookup, -⟩ := readEntries_record .streamed false
    (Field.takes_of_fits (fits_members hy) s.nodup_members)
    (List.Sublist.nodup (List.filter_sublist.map _) s.nodup_members)
  have hget : ∀ m ∈ s.members, entries.lookup m.1 = some m.2 := fun m hm =>
    hlookup m hm ((Field.named_iff (fits_members hy)).2 (List.mem_map_of_mem hm))
  simp only [members, List.forall_mem_cons, List.not_mem_nil, false_imp_iff, implies_true,
    and_true] at hget
  have htext (t : String) : readText (text t) = .ok t := rfl
  have hflag (b : Bool) : readFlag (.bool b) = .ok b := rfl
  rw [toJson_eq, ofJson, hread]
  simp only [Entries.get, hget, htext, hflag, readInt32_integer, readUInt32_natural, hy, bind,
    Except.bind, pure, Except.pure]

theorem proper_toJson {s : Status} (h : (real s.elapsed).Proper) : s.toJson.Proper := by
  rw [toJson_eq]
  refine .record fun m hm => ?_
  simp only [members, List.mem_cons, List.not_mem_nil, or_false] at hm
  rcases hm with rfl | rfl | rfl | rfl | rfl | rfl | rfl | rfl | rfl | rfl | rfl | rfl | rfl | rfl |
    rfl | rfl | rfl | rfl <;>
  first
  | exact .string _
  | exact .bool _
  | exact .number (wellWritten_ofInt _)
  | exact .number (wellWritten_ofNat _)
  | exact h

end PlayerWatch.Status
