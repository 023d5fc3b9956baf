import PlayerWatch.Number.Layout
import PlayerWatch.Player

/-!
# The status for people

A few lines that say what plays and how. Lines about a song are left out if there is none, and so is
the line about an error.
-/

namespace PlayerWatch.CommandLine

open Number

/-- The wording of a switch. -/
def onOff (on : Bool) : String := if on then "on" else "off"

/-- The lines about the current song. -/
def songLines (s : Status) : List String :=
  ["song:     " ++ s.artist ++ " - " ++ s.title ++ " (" ++ s.album ++ ")",
   "time:     " ++ wholeText s.elapsed ++ "/" ++ decimal s.duration.toNat ++ "s  bitrate " ++
     decimal s.bitrate.toNat ++ " kbps"]

def switchLine (s : Status) : String :=
  "repeat: " ++ onOff s.repeatAll ++ "  random: " ++ onOff s.random ++ "  single: " ++
    onOff s.single ++ "  consume: " ++ onOff s.consume

def statusLines (s : Status) : List String :=
  ["state:    " ++ s.state] ++
  (if s.hasCurrentSong then songLines s else []) ++
  ["volume:   " ++ signedDecimal s.volume.toInt, switchLine s] ++
  (if s.error.isEmpty then [] else ["error:    " ++ s.error])

def textOfLines (lines : List String) : String := String.join (lines.map (· ++ "\n"))

end PlayerWatch.CommandLine
