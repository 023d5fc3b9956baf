import PlayerWatch.Player
import PlayerWatch.Record
import PlayerWatch.Number.Real

/-!
# Reading a status and a song from a record

Every field is read from the value of its own key. A field whose key is absent has its default, and
so has a number that cannot be read; such values are reported in a fixed order, whatever the order of
the lines.
-/

namespace PlayerWatch

/-- A key with a value that could not be read as a number. -/
structure Unreadable where
  key : String
  value : String
  deriving DecidableEq, Repr

namespace Record

/-- The text of a key; empty if it is absent. -/
def text (r : Record) (key : String) : String := (r.get? key).getD ""

/-- Whether a key has the value `1`. -/
def flag (r : Record) (key : String) : Bool := r.get? key = some "1"

/-- The value of a key as `read` reads it. -/
def read? {α : Type} (r : Record) (read : String → Option α) (key : String) : Option α :=
  (r.get? key).bind read

/-- A report for a key if it is present and its value cannot be read. -/
def unreadable {α : Type} (r : Record) (read : String → Option α) (key : String) :
    List Unreadable :=
  match r.get? key with
  | some value => if (read value).isSome then [] else [⟨key, value⟩]
  | none => []

end Record

open Number

def Status.ofRecord (r : Record) : Status where
  state := r.text "state"
  volume := (r.read? readInt32? "volume").getD (-1)
  repeatAll := r.flag "repeat"
  random := r.flag "random"
  single := r.flag "single"
  consume := r.flag "consume"
  queueLength := (r.read? readUInt32? "playlistlength").getD 0
  song := (r.read? readInt32? "song").getD 0
  songId := (r.read? readInt32? "songid").getD (-1)
  nextSong := (r.read? readInt32? "nextsong").getD 0
  nextSongId := (r.read? readInt32? "nextsongid").getD (-1)
  duration := ((r.read? readReal? "duration").map wholeSeconds).getD 0
  elapsed := (r.read? readReal? "elapsed").getD 0
  bitrate := (r.read? readUInt32? "bitrate").getD 0
  error := r.text "error"

/-- The values of a status reply that could not be read. -/
def Status.unreadable (r : Record) : List Unreadable :=
  r.unreadable readInt32? "volume" ++ r.unreadable readUInt32? "playlistlength" ++
  r.unreadable readInt32? "song" ++ r.unreadable readInt32? "songid" ++
  r.unreadable readInt32? "nextsong" ++ r.unreadable readInt32? "nextsongid" ++
  r.unreadable readReal? "duration" ++ r.unreadable readReal? "elapsed" ++
  r.unreadable readUInt32? "bitrate"

/-- The song in a reply to `currentsong`. -/
def Song.ofRecord (r : Record) : Song where
  file := r.text "file"
  artist := r.text "Artist"
  album := r.text "Album"
  title := r.text "Title"
  position := r.read? readUInt32? "Pos"
  id := r.read? readUInt32? "Id"
  duration := r.read? readReal? "duration"

/-- The values of a song reply that could not be read. -/
def Song.unreadable (r : Record) : List Unreadable :=
  r.unreadable readUInt32? "Pos" ++ r.unreadable readUInt32? "Id" ++
  r.unreadable readReal? "duration"

end PlayerWatch
