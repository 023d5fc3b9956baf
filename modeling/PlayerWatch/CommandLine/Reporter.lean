import PlayerWatch.Event
import PlayerWatch.Journal
import PlayerWatch.Number.Integer
import PlayerWatch.Player

/-!
# The reporter

While the program watches it tells its operator when the state or the song changes, and when the
player is lost.
-/

namespace PlayerWatch.CommandLine

/-- A reporter remembers the state and the title that it told of last. -/
structure Reporter where
  last : Option (String × String) := none

namespace Reporter

def statusText (s : Status) : String :=
  s.state ++ " " ++ s.artist ++ " - " ++ s.title ++ " (volume " ++
    Number.signedDecimal s.volume.toInt ++ ")"

/-- Tells of an event, with the status that is in the slot by then. -/
def hear (r : Reporter) (event : Event) (status : Option Status) : Reporter × List Note :=
  match event, status with
  | .statusUpdated .., some s =>
    if r.last = some (s.state, s.title) then (r, [])
    else (⟨some (s.state, s.title)⟩, [⟨.info, .program, statusText s⟩])
  | .disconnected addr reason, _ =>
    (r, [⟨.warn, .program, "Lost MPD at " ++ addr ++ ": " ++ reason⟩])
  | _, _ => (r, [])

end Reporter

end PlayerWatch.CommandLine
