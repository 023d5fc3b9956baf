import PlayerWatch.Event
import PlayerWatch.Number.Power

/-!
# The event bus

A bus passes every event to all its subscribers and never waits for them. It keeps as many of the
latest events as it has room for; a subscriber that falls further behind is told once how many it
missed and goes on with the oldest event that is kept. The room is the requested capacity rounded up
to a power of two.
-/

namespace PlayerWatch

/-- The least power of two that is not below a number. -/
def roundUpToPower (n : Nat) : Nat := if n ≤ 1 then 1 else Number.twoTo (Nat.log2 (n - 1) + 1)

/-- Why a bus cannot be had. -/
inductive CapacityError where
  | zero
  | tooLarge
  deriving DecidableEq, Repr

/-- The wording of a refused capacity. -/
def CapacityError.message : CapacityError → String
  | zero => "broadcast channel capacity cannot be zero"
  | tooLarge => "broadcast channel capacity exceeded `usize::MAX / 2`"

/-- A bus: its room, how many events were dropped to keep within it, the events that are kept from
the oldest on, and the place up to which each subscriber has read, if it still listens. -/
structure Bus where
  room : Nat
  dropped : Nat := 0
  kept : List Event := []
  places : List (Option Nat) := []

/-- What a subscriber receives. -/
inductive Delivery where
  | event (e : Event)
  /-- Nothing new. -/
  | empty
  /-- So many events were missed. -/
  | missed (count : Nat)
  deriving DecidableEq, Repr

namespace Bus

/-- The room of a bus when nothing else is asked for. -/
def defaultCapacity : Nat := 256

/-- A bus with room for at least `capacity` events. -/
def create (capacity : Nat) : Except CapacityError Bus :=
  if capacity = 0 then .error .zero
  else if capacity > Number.twoTo 63 - 1 then .error .tooLarge
  else .ok { room := roundUpToPower capacity }

/-- How many events were published so far. -/
def published (b : Bus) : Nat := b.dropped + b.kept.length

/-- Adds an event and lets the oldest go if there is no room for it. -/
def publish (b : Bus) (e : Event) : Bus :=
  if b.kept.length < b.room then { b with kept := b.kept ++ [e] }
  else { b with kept := b.kept.drop 1 ++ [e], dropped := b.dropped + 1 }

/-- Adds a subscriber, who receives what is published from now on. Its number is the second part. -/
def subscribe (b : Bus) : Bus × Nat :=
  ({ b with places := b.places ++ [some b.published] }, b.places.length)

/-- Forgets a subscriber. -/
def leave (b : Bus) (subscriber : Nat) : Bus :=
  { b with places := b.places.set subscriber none }

/-- How many subscribers listen. -/
def subscribers (b : Bus) : Nat := (b.places.filter Option.isSome).length

/-- What a reader at a place receives, and its next place. -/
def deliver (b : Bus) (place : Nat) : Delivery × Nat :=
  if place < b.dropped then (.missed (b.dropped - place), b.dropped)
  else
    match b.kept[place - b.dropped]? with
    | some e => (.event e, place + 1)
    | none => (.empty, place)

/-- What a subscriber receives next; nothing if it does not listen. -/
def receive (b : Bus) (subscriber : Nat) : Bus × Delivery :=
  match b.places[subscriber]?.join with
  | some place =>
    let (delivery, next) := b.deliver place
    ({ b with places := b.places.set subscriber (some next) }, delivery)
  | none => (b, .empty)

/-- What a subscriber receives until nothing is new, in at most so many steps. -/
def drainWithin (b : Bus) (subscriber : Nat) : Nat → Bus × List Delivery
  | 0 => (b, [])
  | steps + 1 =>
    match b.receive subscriber with
    | (b, .empty) => (b, [.empty])
    | (b, delivery) =>
      let (b, rest) := b.drainWithin subscriber steps
      (b, delivery :: rest)

/-- All that a subscriber can receive now, with `empty` at the end: at most one report of missed
events and each event that is kept. -/
def drain (b : Bus) (subscriber : Nat) : Bus × List Delivery :=
  b.drainWithin subscriber (b.kept.length + 2)

end Bus

end PlayerWatch
