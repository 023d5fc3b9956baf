import PlayerWatch.Text.Quoted

/-!
# Failures

What can go wrong between a client and a player. Each kind of failure is a cause, not a text; its
wording is given once, by `message`. A failed request either leaves the connection at the start of
the next reply (`RequestError.rejected`) or makes it useless (`isLost`).
-/

namespace PlayerWatch

inductive IoKind where
  | notFound | permissionDenied | connectionRefused | connectionReset | hostUnreachable
  | networkUnreachable | connectionAborted | notConnected | addrInUse | addrNotAvailable
  | networkDown | brokenPipe | alreadyExists | wouldBlock | notADirectory | isADirectory
  | directoryNotEmpty | readOnlyFilesystem | staleNetworkFileHandle | invalidInput | invalidData
  | timedOut | writeZero | storageFull | notSeekable | quotaExceeded | fileTooLarge | resourceBusy
  | executableFileBusy | deadlock | crossesDevices | tooManyLinks | invalidFilename
  | argumentListTooLong | interrupted | unsupported | unexpectedEof | outOfMemory | other
  deriving DecidableEq, Repr

/-- A failure of the transport, with the text that describes it. -/
structure IoError where
  kind : IoKind
  text : String
  deriving DecidableEq, Repr

/-- The ways in which no connection comes about. -/
inductive DialError where
  /-- The transport failed before the greeting was complete. -/
  | transport (addr : String) (source : IoError)
  /-- The first line is no greeting. -/
  | badGreeting (addr line : String)
  /-- The peer ended the stream without a greeting. -/
  | closed (addr : String)
  /-- The peer took longer than allowed. -/
  | timedOut (addr : String)
  deriving DecidableEq, Repr

inductive RequestError where
  /-- The player refused the request; the stream stands at the next reply. -/
  | rejected (detail : String)
  | transport (source : IoError)
  /-- The connection is closed, or the stream ended before the reply did. -/
  | closed
  /-- The peer took longer than allowed. -/
  | timedOut
  deriving DecidableEq, Repr

/-- A failure on either side of a connection's beginning. -/
inductive ClientError where
  | dial (cause : DialError)
  | request (cause : RequestError)
  deriving DecidableEq, Repr

namespace DialError

/-- The address that could not be reached. -/
def addr : DialError → String
  | transport addr _ | badGreeting addr _ | closed addr | timedOut addr => addr

def message : DialError → String
  | transport addr source => "could not connect to MPD at " ++ addr ++ ": " ++ source.text
  | badGreeting addr line => "unexpected MPD greeting from " ++ addr ++ ": " ++ Text.quoted line
  | closed addr => "MPD at " ++ addr ++ " closed the connection before greeting"
  | timedOut addr => "timed out connecting to MPD at " ++ addr

/-- The transport failure behind a failed dial, if that is what it was. -/
def source? : DialError → Option IoError
  | transport _ source => some source
  | _ => none

end DialError

namespace RequestError

/-- Whether the connection can carry no further request. -/
def isLost : RequestError → Bool
  | rejected _ => false
  | _ => true

/-- The player's own text, if it refused the request. -/
def detail? : RequestError → Option String
  | rejected detail => some detail
  | _ => none

def message : RequestError → String
  | rejected detail => "MPD rejected command: " ++ detail
  | transport source => "MPD I/O error: " ++ source.text
  | closed => "MPD connection closed"
  | timedOut => "MPD command timed out"

/-- The transport failure behind a failed request, if that is what it was. -/
def source? : RequestError → Option IoError
  | transport source => some source
  | _ => none

end RequestError

namespace ClientError

/-- Whether no connection is left to carry a further request. -/
def isLost : ClientError → Bool
  | dial _ => true
  | request cause => cause.isLost

/-- The wording of a failure: that of its cause. -/
def message : ClientError → String
  | dial cause => cause.message
  | request cause => cause.message

/-- The transport failure at the bottom, if there is one. -/
def source? : ClientError → Option IoError
  | dial cause => cause.source?
  | request cause => cause.source?

end ClientError

end PlayerWatch
