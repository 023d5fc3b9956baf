import PlayerWatch.Bus
import PlayerWatch.Client
import PlayerWatch.Proofs.Calls

/-!
# Announcing changes nothing

A client that is attached to a bus announces there what it could not read or get. That is all that the
bus is for: a run of calls with a bus, less what is announced, is the run of the same calls without one
(`announcing_changes_nothing`). The step is `quiet_perform`: a call does the same to a client that keeps
quiet, whatever it would have announced.
-/

namespace PlayerWatch

/-! ### Keeping quiet -/

/-- The same client, announcing nothing. -/
def Client.quiet (c : Client) : Client := { c with announces := false }

/-- The same answer with nothing announced. -/
def Answered.quiet {α : Type} (a : Answered α) : Answered α :=
  { a with events := [], client := a.client.quiet }

namespace Client

theorem quiet_ask {α : Type} (c : Client) (request : Request)
    (read : List String → α × List Unreadable) :
    (c.ask request read).map Answered.quiet = c.quiet.ask request read := by
  rw [ask, ask, Wait.map_map]
  show (c.connection.execute request).map _ = (c.connection.execute request).map _
  congr 1
  funext x
  cases x.result <;> simp [Answered.quiet, quiet, announced]

/-- What is announced about the song has no part in the answer. -/
theorem quiet_following (first : Answered Status) (status : Status) (second : Answered Song) :
    (first.following (withSong status second)).quiet =
      first.quiet.following (withSong status second.quiet) := by
  cases hresult : second.result <;>
    simp [Answered.quiet, Answered.following, withSong, quiet, announced, hresult]

theorem quiet_complete (first : Answered Status) :
    (complete first).map Answered.quiet = complete first.quiet := by
  have hresult : first.quiet.result = first.result := rfl
  have hclient : first.quiet.client = first.client.quiet := rfl
  unfold complete
  rw [hresult, hclient]
  cases first.result with
  | error error => rfl
  | ok status =>
    dsimp only
    split
    · rw [currentSong, currentSong, ← quiet_ask, Wait.map_map, Wait.map_map]
      congr 1
      funext second
      exact quiet_following first status second
    · rfl

theorem quiet_status (c : Client) : c.status.map Answered.quiet = c.quiet.status := by
  rw [status, status, bareStatus, bareStatus, ← quiet_ask, Wait.map_bind, Wait.bind_map]
  congr 1
  funext first
  exact quiet_complete first

/-- A client that keeps quiet does the same. -/
theorem quiet_perform (c : Client) (call : Call) :
    (c.perform call).map Answered.quiet = c.quiet.perform call := by
  -- Seeing an answer as something else and keeping it quiet do not meet.
  have hmap {α : Type} (w : Wait (Answered α)) (f : α → Outcome) :
      (w.map (Answered.map f)).map Answered.quiet = (w.map Answered.quiet).map (Answered.map f) := by
    rw [Wait.map_map, Wait.map_map]
    rfl
  cases call with
  | status => rw [perform, perform, hmap, quiet_status]
  | currentSong => rw [perform, perform, hmap, currentSong, currentSong, quiet_ask]
  | list tag filters => rw [perform, perform, hmap, list, list, quiet_ask]
  | control order => rw [perform, perform, hmap, control, control, quiet_ask]
  | execute request => rw [perform, perform, hmap, execute, execute, quiet_ask]
  | close => rfl

/-- Only a status or a song can have anything announced. -/
theorem events_of_perform {c : Client} {call : Call} {t : Nat} {a : Answered Outcome}
    (h : c.perform call = .after t a) (hstatus : call ≠ .status) (hsong : call ≠ .currentSong) :
    a.events = [] := by
  -- Where no field is looked at, none is unreadable.
  have hask {α : Type} {request : Request} {read : List String → α} {f : α → Outcome}
      (h : (c.ask request fun lines => (read lines, [])).map (Answered.map f) = .after t a) :
      a.events = [] := by
    obtain ⟨b, hb, rfl⟩ := Wait.map_eq_after_iff.1 h
    obtain ⟨x, -, rfl⟩ := Wait.map_eq_after_iff.1 hb
    cases x.result <;> simp [Answered.map, announced, fieldEvents]
  cases call with
  | status => exact absurd rfl hstatus
  | currentSong => exact absurd rfl hsong
  | list tag filters => exact hask h
  | control order => exact hask h
  | execute request => exact hask h
  | close =>
    cases h
    rfl

end Client

/-! ### Clients on a bus -/

/-- A client's connection, and the bus that the client is attached to, if there is one. -/
structure Attached where
  connection : Connection
  bus : Option Bus

/-- What a call to an attached client brought, and the bus behind it. -/
structure Reported where
  answered : Answered Client.Outcome
  bus : Option Bus

namespace Attached

/-- An attached client announces; one without a bus does not. -/
def client (a : Attached) : Client := ⟨a.connection, a.bus.isSome⟩

/-- Does what the client was asked to do, and publishes what it announces. -/
def perform (a : Attached) (call : Client.Call) : Wait Reported :=
  (a.client.perform call).map fun answered =>
    ⟨answered, a.bus.map fun bus => answered.events.foldl Bus.publish bus⟩

end Attached

namespace Reported

/-- The client that a call leaves, on its bus. -/
def attached (r : Reported) : Attached := ⟨r.answered.client.connection, r.bus⟩

/-- The same without a bus. -/
def detach (r : Reported) : Reported := ⟨r.answered.quiet, none⟩

end Reported

namespace Attached

/-- The same without a bus. -/
def detach (a : Attached) : Attached := { a with bus := none }

/-- The calls that return when they are made one after the other. -/
abbrev made (a : Attached) (calls : List Client.Call) : List (Made Attached Client.Call Reported) :=
  madeCalls perform Reported.attached a calls

theorem detach_perform (a : Attached) (call : Client.Call) :
    (a.perform call).map Reported.detach = a.detach.perform call := by
  have hquiet : a.detach.client = a.client.quiet := rfl
  rw [perform, perform, hquiet, ← Client.quiet_perform, Wait.map_map, Wait.map_map]
  rfl

/-- **Announcing changes nothing.** Make the same calls to a client on a bus, whatever stands on the bus
and whoever listens, and to one without a bus, over the same connection. Each call takes the same time,
has the same result, writes the same text and leaves the same connection, open or not, and a call that
never returns is the same one. Without a bus nothing is announced; on a bus only a status or a song can
be the cause of an announcement, whatever a reply contains, and every other call leaves the bus as it
was. -/
theorem announcing_changes_nothing (c : Connection) (bus : Bus) (calls : List Client.Call) :
    let seen (m : Made Attached Client.Call Reported) :=
      (m.call, m.took, m.outcome.answered.result, m.outcome.answered.sent,
        m.outcome.answered.client.connection, m.outcome.answered.client.isOpen)
    (made ⟨c, some bus⟩ calls).map seen = (made ⟨c, none⟩ calls).map seen ∧
    (∀ m ∈ made ⟨c, none⟩ calls, m.outcome.answered.events = []) ∧
    ∀ m ∈ made ⟨c, some bus⟩ calls, m.call ≠ .status → m.call ≠ .currentSong →
      m.outcome.answered.events = [] ∧ m.outcome.bus = m.before.bus := by
  intro seen
  have hdetached : (made ⟨c, some bus⟩ calls).map (Made.map detach Reported.detach) =
      made ⟨c, none⟩ calls :=
    map_madeCalls detach_perform (fun _ => rfl) _ _
  refine ⟨?_, ?_, ?_⟩
  · rw [← hdetached, List.map_map]
    rfl
  · intro m hm
    rw [← hdetached] at hm
    obtain ⟨m', -, rfl⟩ := List.mem_map.1 hm
    rfl
  · intro m hm hstatus hsong
    have hcall : m.before.perform m.call = .after m.took m.outcome := perform_of_made hm
    obtain ⟨a, ha, hout⟩ := Wait.map_eq_after_iff.1 hcall
    have hnone : a.events = [] := Client.events_of_perform ha hstatus hsong
    rw [← hout]
    refine ⟨hnone, ?_⟩
    show (m.before.bus.map fun bus => a.events.foldl Bus.publish bus) = m.before.bus
    rw [hnone]
    exact Option.map_id'

end Attached

end PlayerWatch
