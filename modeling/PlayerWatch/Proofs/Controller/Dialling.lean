import PlayerWatch.Controller
import PlayerWatch.Proofs.Calls
import PlayerWatch.Proofs.Client.Trips
import PlayerWatch.Proofs.Network

/-!
# When a controller dials

A call to a controller closes, or it asks something: over the client of the last call if that one is
still open, and else over a connection that it dials (`conduct_of_perform`). What it asks is written
once, over that one connection, and whatever goes wrong is returned and not tried again. The controller
is left with an open client exactly if all that it asked was answered (`Conduct.isSome_openClient?`),
so this alone decides whether the next call dials. As it dials only when no connection is open, nothing
more arrives over a connection that came about before the last one (`Settled.next`). With a limit every
call returns (`returns_of_limited`). All this holds along every run (`dials_when_needed`).
-/

namespace PlayerWatch

namespace Controller

/-! ### What a call asks -/

/-- What a call may ask, one request after the other. -/
def Call.requests (slot : Slot) : Call → List Request
  | .status => [.status, .currentSong]
  | .list tag filters => [.list tag filters]
  | .control order => [order.request]
  | .togglePause => [(Control.pause (slot.read.any Status.isPlaying)).request]
  | .close => []

theorem withClient_of_open {c : Controller} {client : Client} (h : c.openClient? = some client)
    {α : Type} (n : Network) (ask : Client → Wait (Answered α)) :
    c.withClient n ask = (ask client).map (c.handle n) := by
  rw [withClient, h]

theorem withClient_of_none {c : Controller} (h : c.openClient? = none) {α : Type} (n : Network)
    (ask : Client → Wait (Answered α)) :
    c.withClient n ask = ((n.meet c.addr).1.greet c.addr c.limit).bind fun
      | .error error => .after 0 ⟨.error (.dial error), [], c, (n.meet c.addr).2⟩
      | .ok d => (ask ⟨d, c.announces⟩).map (c.handle (n.meet c.addr).2) := by
  rw [withClient, h]
  rfl

theorem map_withClient {α β : Type} (f : α → β) (c : Controller) (n : Network)
    (ask : Client → Wait (Answered α)) :
    (c.withClient n ask).map (Handled.map f) =
      c.withClient n fun client => (ask client).map (Answered.map f) := by
  have hhandle (n : Network) (w : Wait (Answered α)) :
      (w.map (c.handle n)).map (Handled.map f) = (w.map (Answered.map f)).map (c.handle n) := by
    cases w with
    | forever => rfl
    | after t a =>
      cases hresult : a.result <;> simp [Handled.map, Answered.map, handle, hresult, Except.map]
  cases hclient : c.openClient? with
  | some client => rw [withClient_of_open hclient, withClient_of_open hclient, hhandle]
  | none =>
    rw [withClient_of_none hclient, withClient_of_none hclient, Wait.map_bind]
    congr 1
    funext greeted
    cases greeted with
    | error error => rfl
    | ok d => exact hhandle _ _

/-- A call that does not close puts a question to a client. -/
theorem question_of_call {call : Call} (hcall : call ≠ .close) (c : Controller) (slot : Slot) :
    ∃ ask, Client.AsksOnly (call.requests slot) ask ∧
      ∀ n, c.perform n slot call = c.withClient n ask := by
  cases call with
  | status => exact ⟨_, Client.asksOnly_status.map _, fun n => map_withClient _ c n _⟩
  | list tag filters => exact ⟨_, (Client.asksOnly_ask _ _).map _, fun n => map_withClient _ c n _⟩
  | control order => exact ⟨_, (Client.asksOnly_ask _ _).map _, fun n => map_withClient _ c n _⟩
  | togglePause =>
    let playing := slot.read.any Status.isPlaying
    have hpause : Client.AsksOnly [(Control.pause playing).request] fun client =>
        (client.control (.pause playing)).map (Answered.map fun _ => playing) :=
      (Client.asksOnly_ask _ _).map _
    refine ⟨_, hpause.map .paused, ?_⟩
    intro n
    rw [perform, togglePause, control, map_withClient, map_withClient]
  | close => exact absurd rfl hcall

/-! ### What a call does -/

/-- What a call does, with the number of its dials and the round trips of its requests. -/
inductive Conduct : Controller × Network → Slot × Call → Handled Outcome → Nat → List Exchange →
    Prop where
  | closed {c : Controller} {n : Network} {slot : Slot} :
      Conduct (c, n) (slot, .close) ⟨.ok .done, [], c.close, n⟩ 0 []
  /-- It asks over the client that is open. -/
  | kept {c : Controller} {n : Network} {slot : Slot} {call : Call} {client : Client}
      {a : Answered Outcome} {rs : List Request} {xs : List Exchange} (asks : call ≠ .close)
      (opened : c.openClient? = some client)
      (takes : a.Takes client (call.requests slot) rs xs) :
      Conduct (c, n) (slot, call) (c.handle n a) 0 xs
  /-- It dials and no connection comes about. -/
  | unreached {c : Controller} {n : Network} {slot : Slot} {call : Call} {error : DialError}
      {t : Nat} (asks : call ≠ .close) (none_open : c.openClient? = none)
      (greeted : (n.meet c.addr).1.greet c.addr c.limit = .after t (.error error)) :
      Conduct (c, n) (slot, call) ⟨.error (.dial error), [], c, (n.meet c.addr).2⟩ 1 []
  /-- It dials and asks over the connection that comes about. -/
  | dialled {c : Controller} {n : Network} {slot : Slot} {call : Call} {a : Answered Outcome}
      {d : Connection} {t : Nat} {rs : List Request} {xs : List Exchange} (asks : call ≠ .close)
      (none_open : c.openClient? = none)
      (greeted : (n.meet c.addr).1.greet c.addr c.limit = .after t (.ok d))
      (takes : a.Takes ⟨d, c.announces⟩ (call.requests slot) rs xs) :
      Conduct (c, n) (slot, call) (c.handle (n.meet c.addr).2 a) 1 xs

theorem conduct_of_perform {c : Controller} {n : Network} {slot : Slot} {call : Call} {t : Nat}
    {h : Handled Outcome} (hh : c.perform n slot call = .after t h) :
    ∃ dials xs, Conduct (c, n) (slot, call) h dials xs := by
  by_cases hcall : call = .close
  · subst hcall
    obtain ⟨-, rfl⟩ := by simpa [perform] using hh
    exact ⟨0, [], .closed⟩
  obtain ⟨ask, hasks, hperform⟩ := question_of_call hcall c slot
  rw [hperform] at hh
  cases hclient : c.openClient? with
  | some client =>
    rw [withClient_of_open hclient] at hh
    obtain ⟨a, ha, rfl⟩ := Wait.map_eq_after_iff.1 hh
    obtain ⟨rs, xs, htakes⟩ := hasks.takes ha
    exact ⟨0, xs, .kept hcall hclient htakes⟩
  | none =>
    rw [withClient_of_none hclient] at hh
    obtain ⟨s, greeted, u, hgreet, hrest⟩ := Wait.arrived_of_bind hh
    cases greeted with
    | error error =>
      obtain ⟨-, rfl⟩ := by simpa using hrest
      exact ⟨1, [], .unreached hcall hclient hgreet⟩
    | ok d =>
      obtain ⟨a, ha, rfl⟩ := Wait.map_eq_after_iff.1 hrest
      obtain ⟨rs, xs, htakes⟩ := hasks.takes ha
      exact ⟨1, xs, .dialled hcall hclient hgreet htakes⟩

/-! ### What a call leaves -/

/-- A call that was answered fails exactly as the answer does. -/
theorem result_handle {c : Controller} {n : Network} {α : Type} {a : Answered α}
    {error : ClientError} :
    (c.handle n a).result = .error error ↔
      ∃ cause, a.result = .error cause ∧ error = .request cause := by
  cases hresult : a.result with
  | ok value => simp [handle, hresult]
  | error cause => simp [handle, hresult, eq_comm]

theorem isOpen_of_openClient? {c : Controller} {client : Client}
    (h : c.openClient? = some client) : client.isOpen = true := by
  rw [openClient?, Option.filter_eq_some_iff] at h
  exact h.2

/-- What was asked over an open connection leaves it open exactly if all of it was answered. -/
theorem isSome_openClient?_handle {c : Controller} {n : Network} {client : Client} {α : Type}
    {a : Answered α} {requests rs : List Request} {xs : List Exchange}
    (takes : a.Takes client requests rs xs) (hopen : client.isOpen = true) :
    (c.handle n a).controller.openClient?.isSome = true ↔ xs ≠ [] ∧ ∀ x ∈ xs, x.IsAnswered := by
  have hconnection : client.connection.isOpen = true := hopen
  have hleft : (c.handle n a).controller.openClient?.isSome = a.client.connection.isOpen := by
    cases hopen : a.client.connection.isOpen <;> simp [handle, openClient?, Client.isOpen, hopen]
  rw [hleft, takes.trips.isOpen_iff, hconnection]
  simp [takes.ne_nil]

namespace Conduct

variable {s : Controller × Network} {call : Slot × Call} {h : Handled Outcome} {dials : Nat}
  {xs : List Exchange}

/-- A call changes nothing of a controller but its client. -/
theorem controller_eq (hc : Conduct s call h dials xs) :
    h.controller = { s.1 with client := h.controller.client } := by
  cases hc <;> rfl

/-- A call dials once if it needs a connection and none is open, and else not at all. -/
theorem dials_iff (hc : Conduct s call h dials xs) :
    dials ≤ 1 ∧ (dials = 1 ↔ call.2 ≠ .close ∧ s.1.openClient? = none) := by
  cases hc with
  | closed => simp
  | kept asks opened takes => simp [opened]
  | unreached asks none_open greeted => simp [asks, none_open]
  | dialled asks none_open greeted takes => simp [asks, none_open]

/-- A call takes as many turns of the network as it dials. -/
theorem turns_eq (hc : Conduct s call h dials xs) (haddr : Network.addressFault? s.1.addr = none) :
    h.network.turns = s.2.turns.drop dials := by
  cases hc with
  | closed => rfl
  | kept asks opened takes => rfl
  | unreached asks none_open greeted => exact Network.turns_of_meet haddr _
  | dialled asks none_open greeted takes => exact Network.turns_of_meet haddr _

/-- What a call may ask is written once or not at all, and in its order. -/
theorem sent_once (hc : Conduct s call h dials xs) :
    ∃ rs, rs <+: call.2.requests call.1 ∧
      List.Forall₂ (fun r x => x.sent = "" ∨ x.sent = r.line ++ "\n") rs xs := by
  cases hc with
  | closed => exact ⟨[], List.nil_prefix, .nil⟩
  | unreached asks none_open greeted => exact ⟨[], List.nil_prefix, .nil⟩
  | kept asks opened takes => exact ⟨_, takes.ofThese, takes.trips.sent_once⟩
  | dialled asks none_open greeted takes => exact ⟨_, takes.ofThese, takes.trips.sent_once⟩

/-- After a failed dial nothing is asked, and after a failed request nothing else. -/
theorem asked_of_error (hc : Conduct s call h dials xs) {error : ClientError}
    (herror : h.result = .error error) :
    (xs = [] ∧ ∃ cause, error = .dial cause) ∨
      ∃ x cause, xs = [x] ∧ x.result = .error cause ∧ error = .request cause := by
  -- Only the first request can fail a call.
  have hasked {c : Controller} {n : Network} {client : Client} {a : Answered Outcome}
      {requests rs : List Request} (takes : a.Takes client requests rs xs)
      (herror : (c.handle n a).result = .error error) :
      ∃ x cause, xs = [x] ∧ x.result = .error cause ∧ error = .request cause := by
    obtain ⟨cause, hcause, rfl⟩ := result_handle.1 herror
    obtain ⟨x, hxs, hx⟩ := (takes.failed cause).1 hcause
    exact ⟨x, cause, hxs, hx, rfl⟩
  cases hc with
  | closed => cases herror
  | unreached asks none_open greeted =>
    obtain rfl := by simpa using herror
    exact .inl ⟨rfl, _, rfl⟩
  | kept asks opened takes => exact .inr (hasked takes herror)
  | dialled asks none_open greeted takes => exact .inr (hasked takes herror)

/-- A call leaves an open client exactly if it asked something and all of that was answered. -/
theorem isSome_openClient? (hc : Conduct s call h dials xs) :
    h.controller.openClient?.isSome = true ↔ xs ≠ [] ∧ ∀ x ∈ xs, x.IsAnswered := by
  cases hc with
  | closed => simp [close, openClient?]
  | unreached asks none_open greeted => simp [none_open]
  | kept asks opened takes =>
    exact isSome_openClient?_handle takes (isOpen_of_openClient? opened)
  | dialled asks none_open greeted takes =>
    obtain ⟨peer, -, hshake⟩ := Reception.accepted_of_greet greeted
    exact isSome_openClient?_handle takes (Connection.isOpen_of_handshake hshake)

/-- A call asks nothing exactly if it closes or fails to dial. -/
theorem eq_nil_iff (hc : Conduct s call h dials xs) :
    xs = [] ↔ call.2 = .close ∨ ∃ cause, h.result = .error (.dial cause) := by
  cases hc with
  | closed => simp
  | unreached asks none_open greeted => simp
  | kept asks opened takes => simp [takes.ne_nil, asks, result_handle]
  | dialled asks none_open greeted takes => simp [takes.ne_nil, asks, result_handle]

/-- A call leaves no open client exactly if it closes, fails to dial or loses its connection. -/
theorem openClient?_eq_none_iff (hc : Conduct s call h dials xs) :
    h.controller.openClient? = none ↔ call.2 = .close ∨ (∃ cause, h.result = .error (.dial cause)) ∨
      ∃ x ∈ xs, ¬ x.IsAnswered := by
  rw [← Option.not_isSome_iff_eq_none, hc.isSome_openClient?, ← or_assoc, ← hc.eq_nil_iff]
  simp only [Classical.not_and_iff_not_or_not, Classical.not_forall, Classical.not_not, exists_prop]

end Conduct

/-! ### What stays settled -/

/-- What has arrived before a point stays, and the open connection, if there is one, came about after
that point. -/
structure Settled (before : List (List String)) (s : Controller × Network) : Prop where
  stays : before <+: s.2.received
  later : s.1.openClient?.isSome = true → before.length < s.2.received.length

/-- Calls keep what is settled. -/
theorem Settled.next {before : List (List String)} {s : Controller × Network} {call : Slot × Call}
    {h : Handled Outcome} {dials : Nat} {xs : List Exchange} (hs : Settled before s)
    (hc : Conduct s call h dials xs) : Settled before (h.controller, h.network) := by
  cases hc with
  | closed => exact ⟨hs.stays, nofun⟩
  | @kept _ _ _ _ _ a _ _ asks opened takes =>
    have hlater := Network.prefix_of_deliver hs.stays (hs.later (by simp [opened])) a.sent
    exact ⟨hlater.1, fun _ => hlater.2⟩
  | @unreached c n _ _ _ _ asks none_open greeted =>
    refine ⟨(Network.prefix_of_meet hs.stays c.addr).1, ?_⟩
    intro hsome
    rw [none_open] at hsome
    cases hsome
  | @dialled c n _ _ a _ _ _ _ asks none_open greeted takes =>
    -- A greeting comes only over a connection that has come about.
    obtain ⟨peer, haccepted, -⟩ := Reception.accepted_of_greet greeted
    obtain ⟨hstays, hlength⟩ := Network.prefix_of_meet hs.stays c.addr
    have hlater := Network.prefix_of_deliver hstays (hlength peer haccepted) a.sent
    exact ⟨hlater.1, fun _ => hlater.2⟩

theorem Settled.of_perform {before : List (List String)} {s : Controller × Network}
    {call : Slot × Call} {t : Nat} {h : Handled Outcome} (hs : Settled before s)
    (hh : s.1.perform s.2 call.1 call.2 = .after t h) :
    Settled before (h.controller, h.network) := by
  obtain ⟨dials, xs, hc⟩ := conduct_of_perform hh
  exact hs.next hc

/-! ### Calls return -/

/-- The limit of a controller is that of its client's connection. -/
structure Limited (limit : Nat) (s : Controller × Network) : Prop where
  own : s.1.limit = some limit
  client : ∀ client, s.1.client = some client → client.connection.limit = some limit

/-- Calls keep the limit. -/
theorem Limited.next {limit : Nat} {s : Controller × Network} {call : Slot × Call}
    {h : Handled Outcome} {dials : Nat} {xs : List Exchange} (hs : Limited limit s)
    (hc : Conduct s call h dials xs) : Limited limit (h.controller, h.network) := by
  cases hc with
  | closed => exact ⟨hs.own, nofun⟩
  | unreached asks none_open greeted => exact ⟨hs.own, hs.client⟩
  | kept asks opened takes =>
    refine ⟨hs.own, ?_⟩
    intro client hclient
    obtain rfl := Option.some.inj hclient
    rw [takes.trips.limit_eq]
    exact hs.client _ (Option.eq_some_of_filter_eq_some opened)
  | dialled asks none_open greeted takes =>
    obtain ⟨peer, -, hshake⟩ := Reception.accepted_of_greet greeted
    refine ⟨hs.own, ?_⟩
    intro client hclient
    obtain rfl := Option.some.inj hclient
    rw [takes.trips.limit_eq]
    exact (Connection.limit_of_handshake hshake).trans hs.own

/-- With a limit every dial comes to something. -/
theorem returns_of_greet (reception : Reception) (addr : String) (limit : Nat) :
    ∃ t greeted, reception.greet addr (some limit) = .after t greeted := by
  cases reception with
  | failed error => exact ⟨0, _, rfl⟩
  | unanswered => exact ⟨limit, _, rfl⟩
  | accepted peer =>
    obtain ⟨t, read, hread⟩ := Wait.arrives_within limit (readLine peer.inbound)
    refine ⟨t, Connection.greet addr (some limit) peer.answers read, ?_⟩
    show Connection.handshake addr (some limit) peer = _
    rw [Connection.handshake, hread]
    rfl

/-- With a limit every call returns. -/
theorem returns_of_limited {limit : Nat} {s : Controller × Network} (hs : Limited limit s)
    (slot : Slot) (call : Call) : ∃ t h, s.1.perform s.2 slot call = .after t h := by
  by_cases hcall : call = .close
  · subst hcall
    exact ⟨0, _, rfl⟩
  obtain ⟨ask, hasks, hperform⟩ := question_of_call hcall s.1 slot
  rw [hperform]
  cases hclient : s.1.openClient? with
  | some client =>
    have hlimit := hs.client client (Option.eq_some_of_filter_eq_some hclient)
    obtain ⟨t, a, ha⟩ := hasks.returns hlimit
    rw [withClient_of_open hclient, ha]
    exact ⟨t, _, rfl⟩
  | none =>
    rw [withClient_of_none hclient, hs.own]
    obtain ⟨t, greeted, hgreet⟩ := returns_of_greet (s.2.meet s.1.addr).1 s.1.addr limit
    rw [hgreet, Wait.bind_after]
    cases greeted with
    | error error => exact ⟨_, _, rfl⟩
    | ok d =>
      obtain ⟨peer, -, hshake⟩ := Reception.accepted_of_greet hgreet
      have hlimit : d.limit = some limit := Connection.limit_of_handshake hshake
      obtain ⟨u, a, ha⟩ := hasks.returns (c := ⟨d, s.1.announces⟩) hlimit
      refine ⟨t + u, s.1.handle (s.2.meet s.1.addr).2 a, ?_⟩
      show ((ask ⟨d, s.1.announces⟩).map _).later t = _
      rw [ha]
      rfl

/-! ### Whole runs -/

/-- The calls to a controller that return when they are made one after the other; each comes with what
the shared slot holds then. -/
abbrev made (c : Controller) (n : Network) (calls : List (Slot × Call)) :
    List (Made (Controller × Network) (Slot × Call) (Handled Outcome)) :=
  madeCalls (fun s call => s.1.perform s.2 call.1 call.2) (fun h => (h.controller, h.network)) (c, n)
    calls

section Runs

variable {c : Controller} {n : Network} {calls : List (Slot × Call)}
  {a b : Made (Controller × Network) (Slot × Call) (Handled Outcome)}

theorem conduct_of_made (ha : a ∈ made c n calls) :
    ∃ dials xs, Conduct a.before a.call a.outcome dials xs :=
  conduct_of_perform (perform_of_made ha)

/-- Along a run nothing of a controller changes but its client. -/
theorem controller_of_made (ha : a ∈ made c n calls) :
    a.before.1 = { c with client := a.before.1.client } := by
  refine before_of_kept (P := fun s => s.1 = { c with client := s.1.client }) ?_ rfl a ha
  intro s call t h hs hh
  obtain ⟨dials, xs, hc⟩ := conduct_of_perform hh
  show h.controller = _
  rw [hc.controller_eq, hs]

/-- Whenever a client is open, a connection has come about. -/
theorem settled_nil_of_made (hc : c.openClient? = none) (ha : a ∈ made c n calls) :
    Settled [] (a.outcome.controller, a.outcome.network) := by
  have hstart : Settled [] (c, n) := by
    refine ⟨List.nil_prefix, ?_⟩
    intro hopen
    rw [hc] at hopen
    cases hopen
  exact left_of_kept (P := Settled []) Settled.of_perform hstart ha

/-- With a limit all calls are made. -/
theorem call_of_made {limit : Nat} (hs : Limited limit (c, n)) :
    (made c n calls).map Made.call = calls := by
  refine map_call_madeCalls (P := Limited limit) ?_ hs
  intro s call hs
  obtain ⟨t, h, hh⟩ := returns_of_limited hs call.1 call.2
  obtain ⟨dials, xs, hc⟩ := conduct_of_perform hh
  exact ⟨t, h, hh, hs.next hc⟩

end Runs

/-- **A controller dials exactly when it needs a connection and has none.** Over any calls to a
controller that has no client to begin with, on any network, each call does one of what `Conduct`
lists; with a limit all of them return. A `close` dials nothing; any other call dials once if no client
is open, and else not at all. What a call asks is written once, and a failure is that of its dial,
after which it asks nothing, or of its first request, after which it asks nothing else. It leaves an
open client exactly if it asked something and all of that was answered. So the next call, unless it
closes, dials exactly if this one closed, failed to dial or lost its connection, be it over the song of
a status that did come. No connection is ever open but the one that came about last: nothing more
arrives over those before it, nor over itself once no client is open. -/
theorem dials_when_needed (c : Controller) (n : Network) (calls : List (Slot × Call)) :
    (c.limit ≠ none → (c.close.made n calls).map Made.call = calls) ∧
    (∀ m ∈ c.close.made n calls,
      (∃ dials xs, Conduct m.before m.call m.outcome dials xs) ∧
      ∀ dials xs, Conduct m.before m.call m.outcome dials xs →
        (dials ≤ 1 ∧ (dials = 1 ↔ m.call.2 ≠ .close ∧ m.before.1.openClient? = none)) ∧
        (Network.addressFault? c.addr = none →
          m.outcome.network.turns = m.before.2.turns.drop dials) ∧
        (∃ rs, rs <+: m.call.2.requests m.call.1 ∧
          List.Forall₂ (fun r x => x.sent = "" ∨ x.sent = r.line ++ "\n") rs xs) ∧
        (∀ error, m.outcome.result = .error error →
          (xs = [] ∧ ∃ cause, error = .dial cause) ∨
            ∃ x cause, xs = [x] ∧ x.result = .error cause ∧ error = .request cause) ∧
        (m.outcome.controller.openClient?.isSome = true ↔ xs ≠ [] ∧ ∀ x ∈ xs, x.IsAnswered)) ∧
    (∀ i a b, (c.close.made n calls)[i]? = some a → (c.close.made n calls)[i + 1]? = some b →
      b.before = (a.outcome.controller, a.outcome.network) ∧
      ∀ dials xs dials' xs', Conduct a.before a.call a.outcome dials xs →
        Conduct b.before b.call b.outcome dials' xs' →
        (dials' = 1 ↔ b.call.2 ≠ .close ∧ (a.call.2 = .close ∨
          (∃ cause, a.outcome.result = .error (.dial cause)) ∨ ∃ x ∈ xs, ¬ x.IsAnswered))) ∧
    ∀ (i j : Nat) a b, (c.close.made n calls)[i]? = some a →
      (c.close.made n calls)[j]? = some b → i < j →
      a.outcome.network.received.dropLast <+: b.outcome.network.received ∧
      (a.outcome.controller.openClient? = none →
        a.outcome.network.received <+: b.outcome.network.received) := by
  refine ⟨?_, ?_, ?_, ?_⟩
  · intro hlimit
    obtain ⟨limit, hlimit⟩ := Option.ne_none_iff_exists'.1 hlimit
    exact call_of_made ⟨hlimit, nofun⟩
  · intro m hm
    refine ⟨conduct_of_made hm, ?_⟩
    intro dials xs hc
    refine ⟨hc.dials_iff, ?_, hc.sent_once, ?_, hc.isSome_openClient?⟩
    · intro haddr
      apply hc.turns_eq
      rw [controller_of_made hm]
      exact haddr
    · intro error herror
      exact hc.asked_of_error herror
  · intro i a b ha hb
    have hbefore : b.before = (a.outcome.controller, a.outcome.network) := before_of_succ ha hb
    refine ⟨hbefore, ?_⟩
    intro dials xs dials' xs' hca hcb
    rw [hcb.dials_iff.2, hbefore, hca.openClient?_eq_none_iff]
  · intro i j a b ha hb hlater
    have hsome := settled_nil_of_made rfl (List.mem_of_getElem? ha)
    -- What is settled after one call is settled after all later ones.
    have hstays {before : List (List String)}
        (hleft : Settled before (a.outcome.controller, a.outcome.network)) :
        before <+: b.outcome.network.received :=
      (left_of_later (P := Settled before) Settled.of_perform ha hleft hb hlater).stays
    constructor
    · apply hstays
      refine ⟨List.dropLast_prefix _, ?_⟩
      intro hopen
      have hpos := hsome.later hopen
      rw [List.length_nil] at hpos
      rw [List.length_dropLast]
      exact Nat.sub_lt hpos Nat.one_pos
    · intro hnone
      apply hstays
      refine ⟨List.prefix_refl _, ?_⟩
      intro hopen
      rw [hnone] at hopen
      cases hopen

end Controller

end PlayerWatch
