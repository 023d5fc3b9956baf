import PlayerWatch.Player
import PlayerWatch.Json.Fields
import PlayerWatch.Json.Writer

/-!
# Status and song in JSON

Both are objects with one member for each field. Every field of a status has to be there when it is
read; what a song may lack is `null`, or left out.
-/

namespace PlayerWatch

open Json

namespace Status

def toJson (s : Status) : Json :=
  record
    [("state", text s.state), ("volume", integer s.volume.toInt), ("repeat", .bool s.repeatAll),
     ("random", .bool s.random), ("single", .bool s.single), ("consume", .bool s.consume),
     ("playlist_length", natural s.queueLength.toNat), ("song", integer s.song.toInt),
     ("song_id", integer s.songId.toInt), ("next_song", integer s.nextSong.toInt),
     ("next_song_id", integer s.nextSongId.toInt), ("duration", natural s.duration.toNat),
     ("elapsed", real s.elapsed), ("bitrate", natural s.bitrate.toNat), ("error", text s.error),
     ("artist", text s.artist), ("album", text s.album), ("title", text s.title)]

/-- The fields of a status in their order. -/
def fields : List Field :=
  [field "state" readText, field "volume" readInt32, field "repeat" readFlag,
   field "random" readFlag, field "single" readFlag, field "consume" readFlag,
   field "playlist_length" readUInt32, field "song" readInt32, field "song_id" readInt32,
   field "next_song" readInt32, field "next_song_id" readInt32, field "duration" readUInt32,
   field "elapsed" readReal, field "bitrate" readUInt32, field "error" readText,
   field "artist" readText, field "album" readText, field "title" readText]

def ofJson : Read Status := fun j => do
  let e ← readEntries .streamed false fields j
  return {
    state := ← e.get "state" readText
    volume := ← e.get "volume" readInt32
    repeatAll := ← e.get "repeat" readFlag
    random := ← e.get "random" readFlag
    single := ← e.get "single" readFlag
    consume := ← e.get "consume" readFlag
    queueLength := ← e.get "playlist_length" readUInt32
    song := ← e.get "song" readInt32
    songId := ← e.get "song_id" readInt32
    nextSong := ← e.get "next_song" readInt32
    nextSongId := ← e.get "next_song_id" readInt32
    duration := ← e.get "duration" readUInt32
    elapsed := ← e.get "elapsed" readReal
    bitrate := ← e.get "bitrate" readUInt32
    error := ← e.get "error" readText
    artist := ← e.get "artist" readText
    album := ← e.get "album" readText
    title := ← e.get "title" readText }

end Status

namespace Song

def toJson (s : Song) : Json :=
  record
    [("file", text s.file), ("artist", text s.artist), ("album", text s.album),
     ("title", text s.title), ("position", optional (fun n => natural n.toNat) s.position),
     ("id", optional (fun n => natural n.toNat) s.id), ("duration", optional real s.duration)]

/-- The fields of a song in their order. -/
def fields : List Field :=
  [field "file" readText, field "artist" readText, field "album" readText, field "title" readText,
   field "position" (readOptional readUInt32), field "id" (readOptional readUInt32),
   field "duration" (readOptional readReal)]

def ofJson : Read Song := fun j => do
  let e ← readEntries .streamed false fields j
  return {
    file := ← e.get "file" readText
    artist := ← e.get "artist" readText
    album := ← e.get "album" readText
    title := ← e.get "title" readText
    position := ← e.getD "position" (readOptional readUInt32) none
    id := ← e.getD "id" (readOptional readUInt32) none
    duration := ← e.getD "duration" (readOptional readReal) none }

end Song

end PlayerWatch
