import Mathlib.Data.List.Forall2
import PlayerWatch.Proofs.Client.Enquiry
import PlayerWatch.Proofs.Connection.Loss

/-!
# Trips

Whatever a client is asked, it sends requests over its connection, one after the other, and each is a
round trip. `Trips` are such requests with what each of them did; the connection survives them exactly
if every one was answered (`Trips.isOpen_iff`). An answer of a client `Takes` trips: at most those that
were called for, in their order, and a failure is always that of the first one, after which nothing
else is sent.
-/

namespace PlayerWatch

/-- Requests that are sent one after the other over a connection, with what each of them did, and the
connection that they leave. -/
inductive Trips : Connection → List Request → List Exchange → Connection → Prop where
  | none (c : Connection) : Trips c [] [] c
  | cons {c d : Connection} {r : Request} {t : Nat} {x : Exchange} {rs : List Request}
      {xs : List Exchange} (sent : c.execute r = .after t x) (rest : Trips x.connection rs xs d) :
      Trips c (r :: rs) (x :: xs) d

namespace Trips

theorem one {c : Connection} {r : Request} {t : Nat} {x : Exchange} (h : c.execute r = .after t x) :
    Trips c [r] [x] x.connection :=
  .cons h (.none _)

theorem append {c d e : Connection} {rs rs' : List Request} {xs xs' : List Exchange}
    (h : Trips c rs xs d) (h' : Trips d rs' xs' e) : Trips c (rs ++ rs') (xs ++ xs') e := by
  induction h with
  | none c => exact h'
  | cons sent rest ih => exact .cons sent (ih h')

/-- A connection survives trips exactly if every one of them was answered. -/
theorem isOpen_iff {c d : Connection} {rs : List Request} {xs : List Exchange}
    (h : Trips c rs xs d) : d.isOpen = true ↔ c.isOpen = true ∧ ∀ x ∈ xs, x.IsAnswered := by
  induction h with
  | none c => simp
  | cons sent rest ih =>
    rw [ih, Connection.isOpen_of_executeLine sent, List.forall_mem_cons, and_assoc]

theorem limit_eq {c d : Connection} {rs : List Request} {xs : List Exchange}
    (h : Trips c rs xs d) : d.limit = c.limit := by
  induction h with
  | none c => rfl
  | cons sent rest ih => rw [ih, Connection.connection_of_executeLine sent]

/-- Each request is written once, or not at all. -/
theorem sent_once {c d : Connection} {rs : List Request} {xs : List Exchange}
    (h : Trips c rs xs d) :
    List.Forall₂ (fun r x => x.sent = "" ∨ x.sent = r.line ++ "\n") rs xs := by
  induction h with
  | none c => exact .nil
  | @cons c _ r _ x _ _ sent rest ih =>
    refine .cons ?_ ih
    rw [Connection.sent_of_executeLine sent]
    exact Connection.accepted_cases ..

end Trips

/-! ### What an answer takes -/

/-- The requests that were sent for an answer, of those that it may take, and what each of them did. A
failure is that of the only request. -/
structure Answered.Takes {α : Type} (a : Answered α) (c : Client) (requests rs : List Request)
    (xs : List Exchange) : Prop where
  begun : rs ≠ []
  ofThese : rs <+: requests
  trips : Trips c.connection rs xs a.client.connection
  client : a.client = { c with connection := a.client.connection }
  sent : a.sent = String.join (xs.map Exchange.sent)
  failed : ∀ error, a.result = .error error ↔ ∃ x, xs = [x] ∧ x.result = .error error

/-- An answer seen as something else has taken the same requests. -/
theorem Answered.Takes.map {α β : Type} {a : Answered α} {c : Client} {requests rs : List Request}
    {xs : List Exchange} (h : a.Takes c requests rs xs) (f : α → β) :
    (a.map f).Takes c requests rs xs := by
  refine ⟨h.begun, h.ofThese, h.trips, h.client, h.sent, ?_⟩
  intro error
  rw [← h.failed error, Answered.map]
  cases a.result <;> simp [Except.map]

/-- Whatever an answer takes, it takes something. -/
theorem Answered.Takes.ne_nil {α : Type} {a : Answered α} {c : Client} {requests rs : List Request}
    {xs : List Exchange} (h : a.Takes c requests rs xs) : xs ≠ [] := by
  intro hxs
  have hlength := h.trips.sent_once.length_eq
  rw [hxs] at hlength
  exact h.begun (List.length_eq_zero_iff.1 hlength)

namespace Client

/-- An answer after one request, that fails exactly as the request does. -/
theorem takes_of_trip {α : Type} {c : Client} {request : Request} {requests : List Request} {t : Nat}
    {x : Exchange} {result : Except RequestError α} {events : List Event}
    (asked : c.connection.execute request = .after t x) (hbegun : [request] <+: requests)
    (hfails : ∀ error, result = .error error ↔ x.result = .error error) :
    (⟨result, x.sent, events, { c with connection := x.connection }⟩ : Answered α).Takes c requests
      [request] [x] := by
  refine ⟨by simp, hbegun, .one asked, rfl, by simp [String.join], ?_⟩
  intro error
  simp [hfails]

/-- A question takes one request. -/
theorem takes_of_ask {α : Type} {c : Client} {request : Request}
    {read : List String → α × List Unreadable} {t : Nat} {a : Answered α}
    (h : c.ask request read = .after t a) : ∃ x, a.Takes c [request] [request] [x] := by
  obtain ⟨x, hx, rfl⟩ := Wait.map_eq_after_iff.1 h
  refine ⟨x, takes_of_trip hx (List.prefix_refl _) ?_⟩
  intro error
  cases x.result <;> simp [Except.map]

/-- The status takes one request, and a second one if there is a current song. -/
theorem takes_of_status {c : Client} {t : Nat} {a : Answered Status}
    (h : c.status = .after t a) : ∃ rs xs, a.Takes c [.status, .currentSong] rs xs := by
  have hbegun : [Request.status] <+: [.status, .currentSong] := ⟨[.currentSong], rfl⟩
  have henquiry := enquiry_status c
  rw [h] at henquiry
  cases henquiry with
  | failed asked reply => exact ⟨_, _, takes_of_trip asked hbegun (by simp [reply])⟩
  | answered asked reply no_song => exact ⟨_, _, takes_of_trip asked hbegun (by simp [reply])⟩
  | @completed _ _ x y lines asked reply song returned =>
    exact ⟨[.status, .currentSong], [x, y], by simp, List.prefix_refl _, .cons asked (.one returned),
      rfl, by simp [String.join], by simp⟩

/-- With a limit, whatever is asked is answered some time. -/
theorem returns_of_ask {α : Type} {c : Client} {limit : Nat}
    (hlimit : c.connection.limit = some limit) (request : Request)
    (read : List String → α × List Unreadable) : ∃ t a, c.ask request read = .after t a := by
  obtain ⟨t, x, hx, -⟩ := Connection.returns_of_limit hlimit (.ask (.request request))
  have hsent : c.connection.execute request = .after t x := hx
  rw [ask, hsent]
  exact ⟨t, _, rfl⟩

theorem returns_of_status {c : Client} {limit : Nat} (hlimit : c.connection.limit = some limit) :
    ∃ t a, c.status = .after t a := by
  have hends {d : Connection} (hd : d.limit = some limit) (request : Request) :
      d.execute request ≠ .forever := by
    obtain ⟨t, x, hx, -⟩ := Connection.returns_of_limit hd (.ask (.request request))
    have hasked : d.execute request = .after t x := hx
    simp [hasked]
  have henquiry := enquiry_status c
  generalize c.status = w at henquiry
  cases henquiry with
  | silent asked => exact absurd asked (hends hlimit _)
  | failed => exact ⟨_, _, rfl⟩
  | answered => exact ⟨_, _, rfl⟩
  | songSilent asked reply song silent =>
    have hkept := congrArg Connection.limit (Connection.connection_of_executeLine asked)
    exact absurd silent (hends (hkept.trans hlimit) _)
  | completed => exact ⟨_, _, rfl⟩

/-- Whatever client the question is put to, its answer takes no other requests than these, and it comes
some time if there is a limit. -/
structure AsksOnly {α : Type} (requests : List Request) (ask : Client → Wait (Answered α)) :
    Prop where
  takes : ∀ {c t a}, ask c = .after t a → ∃ rs xs, a.Takes c requests rs xs
  returns : ∀ {c limit}, c.connection.limit = some limit → ∃ t a, ask c = .after t a

theorem asksOnly_status : AsksOnly [.status, .currentSong] status where
  takes h := takes_of_status h
  returns h := returns_of_status h

theorem asksOnly_ask {α : Type} (request : Request) (read : List String → α × List Unreadable) :
    AsksOnly [request] fun c => c.ask request read where
  takes h := by
    obtain ⟨x, htakes⟩ := takes_of_ask h
    exact ⟨_, _, htakes⟩
  returns h := returns_of_ask h request read

theorem AsksOnly.map {α β : Type} {requests : List Request} {ask : Client → Wait (Answered α)}
    (h : AsksOnly requests ask) (f : α → β) :
    AsksOnly requests fun c => (ask c).map (Answered.map f) where
  takes ha := by
    obtain ⟨b, hb, rfl⟩ := Wait.map_eq_after_iff.1 ha
    obtain ⟨rs, xs, htakes⟩ := h.takes hb
    exact ⟨rs, xs, htakes.map f⟩
  returns hlimit := by
    obtain ⟨t, a, ha⟩ := h.returns hlimit
    rw [ha]
    exact ⟨t, _, rfl⟩

end Client

end PlayerWatch
