import PlayerWatch.Proofs.Calls
import PlayerWatch.Proofs.Connection.Conversation

/-!
# Lost connections

A connection is open or closed, and only its own calls change that: closing closes it, and a request
closes it unless the player answers, which its failure tells (`isOpen_of_perform`). A closed connection
is left as it is by every call and fails every request at once (`perform_of_closed`). So over a whole
run a loss is seen by the call that it happens in and by all later ones (`loss_is_final`).
-/

namespace PlayerWatch

namespace Connection

/-! ### Calls -/

/-- What a connection can be asked to do. -/
inductive Call where
  | ask (a : Ask)
  | close

/-- Does what a connection was asked to do. -/
def perform (c : Connection) : Call → Wait Exchange
  | .ask a => c.ask a
  | .close => .after 0 ⟨.ok [], "", c.close⟩

/-- The calls to a connection that return when they are made one after the other. -/
abbrev made (c : Connection) (calls : List Call) : List (Made Connection Call Exchange) :=
  madeCalls perform Exchange.connection c calls

/-! ### One call -/

theorem close_of_closed {c : Connection} (hc : c.isOpen = false) : c.close = c := by
  have hpeer : c.peer = none := by simpa [isOpen] using hc
  rw [close, ← hpeer]

/-- A call leaves the connection open if it was, unless it closes it or the player does not answer. -/
theorem isOpen_of_perform {c : Connection} {call : Call} {t : Nat} {x : Exchange}
    (h : c.perform call = .after t x) :
    x.connection.isOpen = true ↔ c.isOpen = true ∧ call ≠ .close ∧ x.IsAnswered := by
  cases call with
  | ask a =>
    rw [perform, ask_eq] at h
    rw [isOpen_of_executeLine h]
    simp
  | close =>
    obtain ⟨-, rfl⟩ := by simpa [perform] using h
    simp [isOpen_close]

/-- On a closed connection every call returns at once and changes nothing, and requests fail. -/
theorem perform_of_closed {c : Connection} (hc : c.isOpen = false) (call : Call) :
    ∃ x, c.perform call = .after 0 x ∧ x.connection = c ∧ x.sent = "" ∧
      (call ≠ .close → x.result = .error .closed) := by
  cases call with
  | ask a =>
    have hpeer : c.peer = none := by simpa [isOpen] using hc
    rw [perform, ask_eq, executeLine_of_closed hpeer]
    exact ⟨_, rfl, rfl, rfl, fun _ => rfl⟩
  | close => exact ⟨_, rfl, close_of_closed hc, rfl, fun h => absurd rfl h⟩

theorem isOpen_of_closed {c : Connection} {call : Call} {t : Nat} {x : Exchange}
    (hc : c.isOpen = false) (h : c.perform call = .after t x) : x.connection.isOpen = false := by
  obtain ⟨x', hx', hsame, -⟩ := perform_of_closed hc call
  rw [hx'] at h
  obtain ⟨-, rfl⟩ := by simpa using h
  rw [hsame, hc]

/-- A failure tells whether it has left the connection closed. -/
theorem isLost_of_perform {c : Connection} {call : Call} {t : Nat} {x : Exchange}
    {error : RequestError} (h : c.perform call = .after t x) (hx : x.result = .error error) :
    error.isLost = true ↔ x.connection.isOpen = false := by
  have hcall : call ≠ .close := by
    rintro rfl
    obtain ⟨-, rfl⟩ := by simpa [perform] using h
    cases hx
  cases hc : c.isOpen with
  | false =>
    -- The failure is that of a request to a closed connection.
    obtain ⟨x', hx', hsame, -, hresult⟩ := perform_of_closed hc call
    rw [hx'] at h
    obtain ⟨-, rfl⟩ := by simpa using h
    obtain rfl : RequestError.closed = error := by simpa [hresult hcall] using hx
    simp [hsame, hc, RequestError.isLost]
  | true =>
    rw [Exchange.isLost_iff hx, ← Bool.not_eq_true, isOpen_of_perform h, hc]
    simp [hcall]

/-! ### Calls return -/

theorem limit_of_perform {c : Connection} {call : Call} {t : Nat} {x : Exchange}
    (h : c.perform call = .after t x) : x.connection.limit = c.limit := by
  cases call with
  | ask a =>
    rw [perform, ask_eq] at h
    rw [connection_of_executeLine h]
  | close =>
    obtain ⟨-, rfl⟩ := by simpa [perform] using h
    rfl

/-- With a limit a reply is not waited for without end. -/
theorem returns_of_readReply (limit : Nat) (inbound : List Action) :
    ∃ t reply, readReply (some limit) inbound = .after t reply := by
  fun_induction readReply (some limit) inbound with
  | case1 inbound hforever =>
    obtain ⟨t, read, hread⟩ := Wait.arrives_within limit (readLine inbound)
    rw [hforever] at hread
    cases hread
  | case2 | case3 | case4 | case5 | case6 => exact ⟨_, _, rfl⟩
  | case7 inbound t bytes rest hread text hdata hsize ih =>
    obtain ⟨s, reply, hreply⟩ := ih
    rw [hreply]
    exact ⟨t + s, _, rfl⟩

theorem returns_of_executeLine {limit : Nat} {c : Connection} (hlimit : c.limit = some limit)
    (line : String) : ∃ t x, c.executeLine line = .after t x := by
  cases hc : c.peer with
  | none => exact ⟨0, _, executeLine_of_closed hc line⟩
  | some p =>
    obtain ⟨t, written, hwrite⟩ := Wait.arrives_within limit (p.write (line ++ "\n"))
    simp only [executeLine, hc, hlimit, hwrite, Wait.bind_after]
    rcases written with _ | error | q
    · exact ⟨t + 0, _, rfl⟩
    · exact ⟨t + 0, _, rfl⟩
    · obtain ⟨s, reply, hreply⟩ := returns_of_readReply limit q.inbound
      refine ⟨t + s, c.conclude (line ++ "\n") q.answers reply, ?_⟩
      show (c.awaitReply (line ++ "\n") q).later t = _
      rw [awaitReply, hlimit, hreply]
      rfl

/-- With a limit every call returns, and keeps the limit. -/
theorem returns_of_limit {limit : Nat} {c : Connection} (hlimit : c.limit = some limit)
    (call : Call) : ∃ t x, c.perform call = .after t x ∧ x.connection.limit = some limit := by
  cases call with
  | close => exact ⟨0, _, rfl, hlimit⟩
  | ask a =>
    obtain ⟨t, x, hx⟩ := returns_of_executeLine hlimit a.text
    have hcall : c.perform (.ask a) = .after t x := by rw [perform, ask_eq, hx]
    exact ⟨t, x, hcall, (limit_of_perform hcall).trans hlimit⟩

/-! ### Whole runs -/

/-- **A lost connection is lost for good, and every call tells so.** Over any calls to a connection
that a handshake has opened, each call leaves it open exactly if it found it open, was no `close` and
was answered; a request fails with a loss exactly if it leaves the connection closed. A call that finds
the connection closed returns at once, writes nothing, takes nothing from the peer and changes nothing,
and a request fails as closed; so do all calls after it. With a limit every call returns, whatever the
peer does. -/
theorem loss_is_final (c : Connection) (calls : List Call) :
    (∀ addr limit p t, handshake addr limit p = .after t (.ok c) → c.isOpen = true) ∧
    (c.limit ≠ none → (c.made calls).map Made.call = calls) ∧
    (∀ m ∈ c.made calls,
      (m.outcome.connection.isOpen = true ↔
        m.before.isOpen = true ∧ m.call ≠ .close ∧ m.outcome.IsAnswered) ∧
      (∀ error, m.outcome.result = .error error →
        (error.isLost = true ↔ m.outcome.connection.isOpen = false)) ∧
      (m.call = .close → m.outcome = ⟨.ok [], "", m.before.close⟩) ∧
      (m.before.isOpen = false → m.took = 0 ∧ m.outcome.connection = m.before ∧
        m.outcome.sent = "" ∧ (m.call ≠ .close → m.outcome.result = .error .closed))) ∧
    ∀ i a, (c.made calls)[i]? = some a → a.outcome.connection.isOpen = false →
      ((c.made calls).drop (i + 1)).map Made.call = calls.drop (i + 1) ∧
      ∀ m ∈ (c.made calls).drop (i + 1), m.before = a.outcome.connection := by
  refine ⟨?_, ?_, ?_, ?_⟩
  · intro addr limit p t hshake
    exact isOpen_of_handshake hshake
  · intro hlimit
    obtain ⟨limit, hlimit⟩ := Option.ne_none_iff_exists'.1 hlimit
    exact map_call_madeCalls (P := fun d : Connection => d.limit = some limit)
      (fun call hd => returns_of_limit hd call) hlimit
  · intro m hm
    have hcall := perform_of_made hm
    refine ⟨isOpen_of_perform hcall, fun error herror => isLost_of_perform hcall herror, ?_, ?_⟩
    · intro hclose
      rw [hclose] at hcall
      obtain ⟨-, hout⟩ := by simpa [perform] using hcall
      exact hout.symm
    · intro hclosed
      obtain ⟨x, hx, hsame, hsent, hresult⟩ := perform_of_closed hclosed m.call
      rw [hx] at hcall
      obtain ⟨htook, rfl⟩ := by simpa using hcall
      exact ⟨htook.symm, hsame, hsent, hresult⟩
  · intro i a ha hclosed
    let d := a.outcome.connection
    rw [drop_madeCalls ha]
    have hreturns {e : Connection} (call : Call) (he : e = d) :
        ∃ t x, e.perform call = .after t x ∧ x.connection = d := by
      obtain ⟨x, hx, hsame, -⟩ := perform_of_closed (he ▸ hclosed : e.isOpen = false) call
      exact ⟨0, x, hx, hsame.trans he⟩
    refine ⟨map_call_madeCalls (P := (· = d)) hreturns rfl, ?_⟩
    refine before_of_kept (P := (· = d)) ?_ rfl
    intro e call t x he hx
    obtain ⟨s, y, hy, hsame⟩ := hreturns call he
    rw [hy] at hx
    obtain ⟨-, rfl⟩ := by simpa using hx
    exact hsame

end Connection

end PlayerWatch
