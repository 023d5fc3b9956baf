import PlayerWatch.Watcher

/-!
# Connections that are still open

What will come over an open connection is not known in advance. Its peer is written down as far as it
is known and falls silent there; what comes later is put in at that place by `Peer.hear`. A run
against the peers that are known shows what it needs to go on: something to come, another dial, or
nothing more, because it is over (`Progress.need`).
-/

namespace PlayerWatch

/-! ### Peers that are known in part -/

/-- Puts more in at the place where nothing more is known. -/
def Action.extend (news : List Action) : List Action → List Action
  | [] => []
  | .hang :: rest => news ++ .hang :: rest
  | a :: rest => a :: extend news rest

namespace Peer

/-- A peer from which nothing has come yet. -/
def silent : Peer := ⟨[.hang], []⟩

/-- A peer from which more has come. -/
def hear (news : List Action) (p : Peer) : Peer := { p with inbound := Action.extend news p.inbound }

/-- A peer that has taken so many lines and fails to take the next one. -/
def rejecting (taken : Nat) (error : IoError) (p : Peer) : Peer :=
  { p with answers := List.replicate taken (.actions []) ++ [.refuse error] }

end Peer

namespace Reception

/-- A reception that is the same but for its peer. -/
def mapPeer (f : Peer → Peer) : Reception → Reception
  | .accepted peer => .accepted (f peer)
  | r => r

/-- Whether a connection came about. -/
def isAccepted : Reception → Bool
  | .accepted _ => true
  | _ => false

end Reception

/-! ### Runs against them -/

/-- What a run needs to go on. -/
inductive Need (α : Type) where
  | nothing (result : α)
  | dial
  /-- Something has to come; if there is a point of time, the run can go on without it then. -/
  | input (until? : Option Nat)

/-- What has become of the dials of a run so far, and how many milliseconds it has waited. -/
structure Progress where
  receptions : List Reception := []
  waited : Nat := 0

namespace Progress

/-- How many connections have come about. -/
def connections (p : Progress) : Nat := p.receptions.countP Reception.isAccepted

/-- What is known of the network. A further dial can be told by the connection that it leaves. -/
def network (p : Progress) : Network := { turns := p.receptions, otherwise := .dismissed }

/-- What a run needs to go on. -/
def need {α : Type} (run : Network → Wait (α × Network)) (p : Progress) : Need α :=
  match run p.network with
  | .forever => .input none
  | .after t (result, network) =>
    if p.waited < t then .input (some t)
    else if p.connections < network.received.length then .dial
    else .nothing result

/-- A further dial has met something; a dial that is not answered takes all the time it has. -/
def dialled (reception : Reception) (limit : Option Nat) (p : Progress) : Progress where
  receptions := p.receptions ++ [reception]
  waited :=
    match reception with
    | .unanswered => p.waited + limit.getD 0
    | _ => p.waited

/-- Changes the peer of the latest connection. -/
def mapPeer (f : Peer → Peer) (p : Progress) : Progress :=
  { p with receptions := modifyLast (Reception.mapPeer f) p.receptions }

/-- The lines that a run sends over the latest connection before it needs more to come: those that it
sends if the stream ends there. -/
def sent {α : Type} (run : Network → Wait (α × Network)) (p : Progress) : List String :=
  match run (p.mapPeer (Peer.hear [.close])).network with
  | .forever => []
  | .after _ (_, network) => network.received[p.connections - 1]?.getD []

/-- After some milliseconds more has come, or nothing. -/
def hear (ms : Nat) (news : List Action) (p : Progress) : Progress :=
  { p.mapPeer (Peer.hear (.pause ms :: news)) with waited := p.waited + ms }

end Progress

/-! ### Watching them -/

/-- A session that is the same but for its peer. -/
def Session.mapPeer (f : Peer → Peer) (s : Session) : Session :=
  let connection := s.client.connection
  { s with client := { s.client with connection := { connection with peer := connection.peer.map f } } }

namespace Phase

/-- A phase that is the same but for its peer. -/
def mapPeer (f : Peer → Peer) : Phase → Phase
  | .dialling reception => .dialling (reception.mapPeer f)
  | .asking session ticker => .asking (session.mapPeer f) ticker
  | .completing session ticker status => .completing (session.mapPeer f) ticker status
  | .idle session ticker => .idle (session.mapPeer f) ticker
  | phase => phase

/-- Whether the next step dials. -/
def dials : Phase → Bool
  | .start | .resting => true
  | _ => false

/-- Whether something has to come. -/
def reads : Phase → Bool
  | .dialling _ | .asking .. | .completing .. => true
  | _ => false

end Phase

namespace Watcher

/-- When the next step is taken if nothing comes before; never if there is none. -/
def nextTime? (w : Watcher) : Option Nat := w.step?.map Watcher.now

/-- After some milliseconds more has come, or nothing. -/
def hear (ms : Nat) (news : List Action) (w : Watcher) : Watcher :=
  { w with phase := w.phase.mapPeer (Peer.hear (.pause ms :: news)) }

/-- A watcher that knows what its next dial meets. -/
def expecting (reception : Reception) (w : Watcher) : Watcher :=
  { w with network := { w.network with turns := [reception], otherwise := .unanswered } }

/-- The lines that were sent since a watcher was `told`. -/
def lines (w : Watcher) : List String := w.network.received.flatten

/-- A watcher whose events and lines have been passed on. -/
def told (w : Watcher) : Watcher :=
  { w with events := [], network := { w.network with received := [[]] } }

end Watcher

end PlayerWatch
