/-!
# What a player reports

`Status` is the state of the player as a whole and `Song` the metadata of one song. A status carries
the artist, album and title of the current song if they were asked for.
-/

namespace PlayerWatch

structure Status where
  /-- `play`, `pause` or `stop`; empty if the player did not say. -/
  state : String := ""
  /-- From 0 to 100, and -1 if there is no mixer. -/
  volume : Int32 := -1
  repeatAll : Bool := false
  random : Bool := false
  single : Bool := false
  consume : Bool := false
  queueLength : UInt32 := 0
  song : Int32 := 0
  songId : Int32 := -1
  nextSong : Int32 := 0
  nextSongId : Int32 := -1
  /-- In whole seconds. -/
  duration : UInt32 := 0
  /-- The seconds of the current song that have been played. -/
  elapsed : Float := 0
  /-- In kilobits per second. -/
  bitrate : UInt32 := 0
  error : String := ""
  artist : String := ""
  album : String := ""
  title : String := ""

structure Song where
  file : String := ""
  artist : String := ""
  album : String := ""
  title : String := ""
  /-- The place in the queue. -/
  position : Option UInt32 := none
  id : Option UInt32 := none
  /-- In seconds. -/
  duration : Option Float := none

namespace Status

def isPlaying (s : Status) : Bool := s.state = "play"

def isPaused (s : Status) : Bool := s.state = "pause"

/-- Whether there is a current song to ask about. -/
def hasCurrentSong (s : Status) : Bool := s.isPlaying || s.isPaused

/-- A status with the metadata of the current song. -/
def withSong (s : Status) (song : Song) : Status :=
  { s with artist := song.artist, album := song.album, title := song.title }

end Status

end PlayerWatch
