import PlayerWatch.Player

/-!
# The status slot

A slot holds the status that was published last, with its generation: the first has generation one
and each further one the next. A slot is never cleared. Several handles may share a slot.
-/

namespace PlayerWatch

/-- A published status with its place in the order of publishing. -/
structure Snapshot where
  status : Status
  generation : UInt64

/-- The place that holds the latest status, if one was published. -/
structure Slot where
  current : Option Snapshot := none

namespace Slot

/-- The generation of the status held; zero if there is none. -/
def generation (s : Slot) : UInt64 := (s.current.map Snapshot.generation).getD 0

/-- The status held. -/
def read (s : Slot) : Option Status := s.current.map Snapshot.status

/-- Puts a status in the place of the one held, under the next generation. -/
def publish (s : Slot) (status : Status) : Slot := ⟨some ⟨status, s.generation + 1⟩⟩

@[simp] theorem generation_publish (s : Slot) (status : Status) :
    (s.publish status).generation = s.generation + 1 := rfl

@[simp] theorem read_publish (s : Slot) (status : Status) :
    (s.publish status).read = some status := rfl

end Slot

/-- Slots and the handles that lead to them; handles are numbered in the order of their making. -/
structure Slots where
  slots : List Slot := [{}]
  handles : List Nat := [0]

namespace Slots

/-- The slot that a handle leads to. -/
def slot (s : Slots) (handle : Nat) : Slot :=
  (s.handles[handle]?.bind fun i => s.slots[i]?).getD {}

def publish (s : Slots) (handle : Nat) (status : Status) : Slots :=
  match s.handles[handle]? with
  | some i => { s with slots := s.slots.modify i fun slot => slot.publish status }
  | none => s

/-- Another handle to the same slot. -/
def share (s : Slots) (handle : Nat) : Slots :=
  { s with handles := s.handles ++ [s.handles.getD handle 0] }

/-- A handle to a slot of its own. -/
def fresh (s : Slots) : Slots :=
  { slots := s.slots ++ [{}], handles := s.handles ++ [s.slots.length] }

end Slots

end PlayerWatch
