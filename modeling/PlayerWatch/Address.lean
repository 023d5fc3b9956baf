import PlayerWatch.Number.Integer

/-!
# Addresses

A player is reached at a host and a port, written `host:port`. A host that has colons of its own is
put into brackets, so that the last colon always separates the port.
-/

namespace PlayerWatch

def defaultPort : UInt16 := 6600

/-- Whether a host has to be put into brackets: it has a colon and no bracket in front yet. -/
def isBareHost (host : String) : Bool :=
  host.toList.contains ':' && host.toList.head? != some '['

def address (host : String) (port : UInt16) : String :=
  let shown := if isBareHost host then "[" ++ host ++ "]" else host
  shown ++ ":" ++ Number.decimal port.toNat

/-- What stands behind the last colon of an address; nothing if there is none. -/
def portText? (addr : String) : Option String :=
  if addr.toList.contains ':' then
    some (String.ofList (addr.toList.reverse.takeWhile (· ≠ ':')).reverse)
  else none

end PlayerWatch
