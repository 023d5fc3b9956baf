import PlayerWatch.Proofs.Connection.Loss

/-!
# Limits on waiting

A connection with a limit does what the same connection does without one, until something takes too
long: a write or one line of a reply that takes longer than the limit (`Connection.Late`). The write and
every line have the limit to themselves, so a reply may take as long as it has lines to. A reply whose lines are all in time is read just as without a limit (`readReply_of_inTime`), and
one late line makes a timeout of it (`readReply_of_late`), which closes the connection. So a run with a
limit is the run without one, up to its first timeout, and then all is over (`limit_only_times_out`).
-/

namespace PlayerWatch

/-! ### Waits and limits -/

namespace Wait

/-- A value arrives within the limit. -/
def InTime {α : Type} (limit : Nat) : Wait α → Prop
  | after t _ => t ≤ limit
  | forever => False

theorem within_of_le {α : Type} {limit t : Nat} (h : t ≤ limit) (a : α) :
    (after t a).within (some limit) = after t (some a) := by
  simp [within, h]

/-- Nobody waits for longer than the limit. -/
theorem within_of_late {α : Type} {limit : Nat} {w : Wait α} (h : ¬ w.InTime limit) :
    w.within (some limit) = after limit none := by
  cases w with
  | after t a =>
    have hgt : ¬ t ≤ limit := h
    simp [within, hgt]
  | forever => rfl

/-- What arrives in time arrives as it does without a limit. -/
theorem within_of_inTime {α : Type} {limit : Nat} {w : Wait α} (h : w.InTime limit) :
    ∃ t a, w = after t a ∧ w.within none = after t (some a) ∧
      w.within (some limit) = after t (some a) := by
  cases w with
  | forever => cases h
  | after t a => exact ⟨t, a, rfl, rfl, within_of_le h a⟩

end Wait

/-! ### The lines of a reply -/

/-- The waits for the lines of a reply, one after the other: up to the line that ends the reply, to a
failure, or to a line that never comes. -/
def lineWaits (inbound : List Action) : List (Wait LineRead) :=
  match h : readLine inbound with
  | .forever => [.forever]
  | .after t (.failed error, _) => [.after t (.failed error)]
  | .after t (.ended, _) => [.after t .ended]
  | .after t (.line bytes, rest) =>
    have := inboundSize_of_readLine h
    .after t (.line bytes) ::
      match ReplyLine.ofText (lineText bytes) with
      | .data _ => lineWaits rest
      | _ => []
termination_by inboundSize inbound

/-- A late line makes a timeout of the whole reply. -/
theorem readReply_of_late {limit : Nat} {inbound : List Action}
    (h : ∃ w ∈ lineWaits inbound, ¬ w.InTime limit) :
    ∃ t rest, readReply (some limit) inbound = .after t (.error .timedOut, rest) := by
  -- A line that is late itself is not waited for.
  have hlate {inbound : List Action} (hread : ¬ (readLine inbound).InTime limit) :
      ∃ t rest, readReply (some limit) inbound = .after t (.error .timedOut, rest) := by
    rw [readReply_eq, Wait.within_of_late hread]
    exact ⟨_, inbound, rfl⟩
  fun_induction lineWaits inbound with
  | case1 inbound hread =>
    apply hlate
    rw [hread]
    exact id
  | case2 inbound t error rest hread =>
    obtain ⟨w, hw, hslow⟩ := h
    obtain rfl := List.mem_singleton.1 hw
    apply hlate
    rw [hread]
    exact hslow
  | case3 inbound t rest hread =>
    obtain ⟨w, hw, hslow⟩ := h
    obtain rfl := List.mem_singleton.1 hw
    apply hlate
    rw [hread]
    exact hslow
  | case4 inbound t bytes rest hread hsize ih =>
    by_cases hle : t ≤ limit
    · obtain ⟨w, hw, hslow⟩ := h
      -- The first line is in time, so a later one is late and the first one is data.
      rcases List.mem_cons.1 hw with rfl | hw
      · exact absurd hle hslow
      · rw [readReply_eq, hread, Wait.within_of_le hle, Wait.bind_after]
        dsimp only
        cases hline : ReplyLine.ofText (lineText bytes) with
        | data text =>
          rw [hline] at hw
          obtain ⟨s, left, hrest⟩ := ih ⟨w, hw, hslow⟩
          exact ⟨t + s, left, by rw [hrest]; rfl⟩
        | ok =>
          rw [hline] at hw
          cases hw
        | refusal detail =>
          rw [hline] at hw
          cases hw
    · apply hlate
      rw [hread]
      exact hle

/-- A reply whose lines are all in time is read as without a limit. -/
theorem readReply_of_inTime {limit : Nat} {inbound : List Action}
    (h : ∀ w ∈ lineWaits inbound, w.InTime limit) :
    ∃ t result rest, result ≠ .error .timedOut ∧
      readReply none inbound = .after t (result, rest) ∧
      readReply (some limit) inbound = .after t (result, rest) := by
  fun_induction lineWaits inbound with
  | case1 inbound hread =>
    cases h .forever (List.mem_singleton_self _)
  | case2 inbound t error rest hread =>
    have hle : t ≤ limit := h _ (List.mem_singleton_self _)
    refine ⟨t, .error (.transport error), rest, by simp, ?_, ?_⟩
    · rw [readReply_eq, hread]
      rfl
    · rw [readReply_eq, hread, Wait.within_of_le hle]
      rfl
  | case3 inbound t rest hread =>
    have hle : t ≤ limit := h _ (List.mem_singleton_self _)
    refine ⟨t, .error .closed, rest, by simp, ?_, ?_⟩
    · rw [readReply_eq, hread]
      rfl
    · rw [readReply_eq, hread, Wait.within_of_le hle]
      rfl
  | case4 inbound t bytes rest hread hsize ih =>
    have hle : t ≤ limit := h _ List.mem_cons_self
    rw [readReply_eq, readReply_eq, hread, Wait.within_none_after, Wait.within_of_le hle,
      Wait.bind_after, Wait.bind_after]
    dsimp only
    cases hline : ReplyLine.ofText (lineText bytes) with
    | ok => exact ⟨t, .ok [], rest, by simp, rfl, rfl⟩
    | refusal detail => exact ⟨t, .error (.rejected detail), rest, by simp, rfl, rfl⟩
    | data text =>
      rw [hline] at h
      obtain ⟨s, result, left, hresult, hfree, htimed⟩ :=
        ih fun w hw => h w (List.mem_cons_of_mem _ hw)
      refine ⟨t + s, result.map (text :: ·), left, ?_, ?_, ?_⟩
      · cases result with
        | ok lines => simp [Except.map]
        | error error => exact hresult
      · rw [hfree]
        rfl
      · rw [htimed]
        rfl

/-! ### One call -/

/-- The same connection with another limit. -/
def Connection.withLimit (limit : Option Nat) (c : Connection) : Connection := { c with limit }

/-- The same exchange over a connection with another limit. -/
def Exchange.withLimit (limit : Option Nat) (x : Exchange) : Exchange :=
  { x with connection := x.connection.withLimit limit }

/-- The same call to a connection with another limit. -/
def Made.withLimit (limit : Option Nat) (m : Made Connection Connection.Call Exchange) :
    Made Connection Connection.Call Exchange :=
  { m with before := m.before.withLimit limit, outcome := m.outcome.withLimit limit }

namespace Connection

/-- A call has to wait for longer than the limit: for its line to be written, or, once that has been,
for a line of the reply. -/
def Late (limit : Nat) (c : Connection) : Call → Prop
  | .ask a => ∃ p, c.peer = some p ∧
      (¬ (p.write (a.text ++ "\n")).InTime limit ∨
        ∃ t q, p.write (a.text ++ "\n") = .after t (.ok q) ∧
          ∃ w ∈ lineWaits q.inbound, ¬ w.InTime limit)
  | .close => False

section Writes

variable {c : Connection} {p : Peer} {line : String} {t : Nat}

theorem executeLine_of_taken {q : Peer} (hc : c.peer = some p)
    (hwrite : (p.write (line ++ "\n")).within c.limit = .after t (some (.ok q))) :
    c.executeLine line = (c.awaitReply (line ++ "\n") q).later t := by
  simp only [executeLine, hc, hwrite, Wait.bind_after]

theorem executeLine_of_failed {error : IoError} (hc : c.peer = some p)
    (hwrite : (p.write (line ++ "\n")).within c.limit = .after t (some (.error error))) :
    c.executeLine line = .after t (c.abandon (.transport error)) := by
  simp only [executeLine, hc, hwrite, Wait.bind_after]
  rfl

/-- A line that is not taken in time is waited with up to the limit. -/
theorem executeLine_of_lateWrite {limit : Nat} (hc : c.peer = some p) (hlimit : c.limit = some limit)
    (hwrite : ¬ (p.write (line ++ "\n")).InTime limit) :
    c.executeLine line = .after limit (c.abandon .timedOut) := by
  simp only [executeLine, hc, hlimit, Wait.within_of_late hwrite, Wait.bind_after]
  rfl

end Writes

/-- What a reply makes of a connection does not depend on its limit. -/
theorem conclude_withLimit (limit : Option Nat) (c : Connection) (sent : String)
    (answers : List Answer) (reply : Except RequestError (List String) × List Action) :
    (c.withLimit limit).conclude sent answers reply =
      (c.conclude sent answers reply).withLimit limit := by
  obtain ⟨result, rest⟩ := reply
  cases result <;> rfl

/-- A line that was taken is answered with the reply that is read within the limit. -/
theorem awaitReply_withLimit (limit : Option Nat) (c : Connection) (sent : String) (q : Peer) :
    (c.withLimit limit).awaitReply sent q =
      ((readReply limit q.inbound).map (c.conclude sent q.answers)).map
        (Exchange.withLimit limit) := by
  show (readReply limit q.inbound).map ((c.withLimit limit).conclude sent q.answers) = _
  cases readReply limit q.inbound with
  | forever => rfl
  | after t reply => rw [Wait.map_after, Wait.map_after, Wait.map_after, conclude_withLimit]

/-- A call that is late ends with a timeout, which closes the connection. -/
theorem perform_of_late {limit : Nat} {c : Connection} {call : Call} (h : c.Late limit call) :
    ∃ t x, (c.withLimit (some limit)).perform call = .after t x ∧
      x.result = .error .timedOut ∧ x.connection.isOpen = false := by
  cases call with
  | close => cases h
  | ask a =>
    obtain ⟨p, hp, hwrite⟩ := h
    have hp' : (c.withLimit (some limit)).peer = some p := hp
    rw [perform, ask_eq]
    by_cases hwritten : (p.write (a.text ++ "\n")).InTime limit
    · obtain ⟨t, q, htaken, hlate⟩ := hwrite.resolve_left (not_not_intro hwritten)
      rw [htaken] at hwritten
      have hwithin : (p.write (a.text ++ "\n")).within (some limit) = .after t (some (.ok q)) := by
        rw [htaken, Wait.within_of_le hwritten]
      obtain ⟨s, rest, hread⟩ := readReply_of_late hlate
      rw [executeLine_of_taken hp' hwithin, awaitReply_withLimit, hread]
      exact ⟨_, _, rfl, rfl, rfl⟩
    · rw [executeLine_of_lateWrite hp' rfl hwritten]
      exact ⟨_, _, rfl, rfl, rfl⟩

/-- A call that is not late does the same with the limit as without one. -/
theorem perform_of_not_late {limit : Nat} {c : Connection} {call : Call} (h : ¬ c.Late limit call) :
    ∃ (t : Nat) (x : Exchange), x.result ≠ .error .timedOut ∧
      (c.withLimit none).perform call = .after t (x.withLimit none) ∧
      (c.withLimit (some limit)).perform call = .after t (x.withLimit (some limit)) := by
  cases call with
  | close => exact ⟨0, ⟨.ok [], "", c.close⟩, by simp, rfl, rfl⟩
  | ask a =>
    have hnone (l : Option Nat) (hc : c.peer = none) : (c.withLimit l).peer = none := hc
    have hsome (l : Option Nat) {p : Peer} (hp : c.peer = some p) :
        (c.withLimit l).peer = some p := hp
    rw [perform, perform, ask_eq, ask_eq]
    cases hc : c.peer with
    | none =>
      rw [executeLine_of_closed (hnone _ hc), executeLine_of_closed (hnone _ hc)]
      exact ⟨0, ⟨.error .closed, "", c⟩, by simp, rfl, rfl⟩
    | some p =>
      -- The line is written in time, so it does not matter whether there is a limit.
      have hwritten : (p.write (a.text ++ "\n")).InTime limit :=
        Classical.byContradiction fun hlate => h ⟨p, hc, .inl hlate⟩
      obtain ⟨t, outcome, hwrite, hfree, htimed⟩ := Wait.within_of_inTime hwritten
      cases outcome with
      | error error =>
        rw [executeLine_of_failed (hsome _ hc) hfree, executeLine_of_failed (hsome _ hc) htimed]
        exact ⟨t, c.abandon (.transport error), by simp [abandon], rfl, rfl⟩
      | ok q =>
        have hlines : ∀ w ∈ lineWaits q.inbound, w.InTime limit := fun w hw =>
          Classical.byContradiction fun hlate => h ⟨p, hc, .inr ⟨t, q, hwrite, w, hw, hlate⟩⟩
        obtain ⟨s, result, rest, hresult, hread, hread'⟩ := readReply_of_inTime hlines
        rw [executeLine_of_taken (hsome _ hc) hfree, executeLine_of_taken (hsome _ hc) htimed,
          awaitReply_withLimit, awaitReply_withLimit, hread, hread']
        refine ⟨t + s, c.conclude (a.text ++ "\n") q.answers (result, rest), ?_, rfl, rfl⟩
        cases result with
        | ok lines => simp [conclude]
        | error error => exact hresult

/-! ### The handshake -/

/-- A greeting makes the same of a connection under every limit, and never a timeout. -/
theorem greet_withLimit (addr : String) (answers : List Answer) (read : LineRead × List Action) :
    ∃ greeted : Except DialError Connection, greeted ≠ .error (.timedOut addr) ∧
      ∀ limit, greet addr limit answers (some read) = greeted.map (withLimit limit) := by
  obtain ⟨read, rest⟩ := read
  cases read with
  | failed error => exact ⟨.error (.transport addr error), by simp, fun _ => rfl⟩
  | ended => exact ⟨.error (.closed addr), by simp, fun _ => rfl⟩
  | line bytes =>
    simp only [greet]
    cases greetingVersion? (lineText bytes) with
    | none => exact ⟨.error (.badGreeting addr (lineText bytes)), by simp, fun _ => rfl⟩
    | some version =>
      exact ⟨.ok { addr, version, peer := some ⟨rest, answers⟩ }, by simp, fun _ => rfl⟩

/-- With a limit, a greeting makes the same of a connection if it is in time. -/
theorem handshake_of_inTime {addr : String} {p : Peer} {limit : Nat}
    (h : (readLine p.inbound).InTime limit) :
    ∃ (t : Nat) (greeted : Except DialError Connection), greeted ≠ .error (.timedOut addr) ∧
      handshake addr none p = .after t (greeted.map (withLimit none)) ∧
      handshake addr (some limit) p = .after t (greeted.map (withLimit (some limit))) := by
  obtain ⟨t, read, -, hfree, htimed⟩ := Wait.within_of_inTime h
  obtain ⟨greeted, hgreeted, hlimits⟩ := greet_withLimit addr p.answers read
  refine ⟨t, greeted, hgreeted, ?_, ?_⟩
  · rw [handshake, hfree, Wait.map_after, hlimits]
  · rw [handshake, htimed, Wait.map_after, hlimits]

theorem handshake_of_late {addr : String} {p : Peer} {limit : Nat}
    (h : ¬ (readLine p.inbound).InTime limit) :
    handshake addr (some limit) p = .after limit (.error (.timedOut addr)) := by
  rw [handshake, Wait.within_of_late h]
  rfl

/-! ### Whole runs -/

theorem withLimit_of_limit {c : Connection} {limit : Option Nat} (h : c.limit = limit) :
    c.withLimit limit = c := by
  rw [withLimit, ← h]

/-- With a limit a call times out if it is late, and only then. -/
theorem timedOut_iff_late {limit : Nat} {c : Connection} {call : Call} {t : Nat} {x : Exchange}
    (hlimit : c.limit = some limit) (h : c.perform call = .after t x) :
    x.result = .error .timedOut ↔ c.Late limit call := by
  rw [← withLimit_of_limit hlimit] at h
  by_cases hlate : c.Late limit call
  · obtain ⟨s, y, hy, htimeout, -⟩ := perform_of_late hlate
    rw [hy] at h
    obtain ⟨-, rfl⟩ := by simpa using h
    exact ⟨fun _ => hlate, fun _ => htimeout⟩
  · obtain ⟨s, y, hno, -, hy⟩ := perform_of_not_late hlate
    rw [hy] at h
    obtain ⟨-, rfl⟩ := by simpa using h
    exact ⟨fun htimeout => absurd htimeout hno, fun hlate' => absurd hlate' hlate⟩

/-- What a request does without a limit it does with the limit of the connection, unless it is late. -/
theorem execute_unless_late {c : Connection} {request : Request} {t : Nat} {x : Exchange}
    (h : (c.withLimit none).execute request = .after t x) :
    c.execute request = .after t (x.withLimit c.limit) ∨
      ∃ limit s y, c.limit = some limit ∧ c.Late limit (.ask (.request request)) ∧
        c.execute request = .after s y ∧ y.result = .error .timedOut ∧
        y.connection.isOpen = false := by
  cases hlimit : c.limit with
  | none =>
    left
    have hkept : x.connection.limit = none := by
      rw [connection_of_executeLine h]
      rfl
    have hsame : x.withLimit none = x := by rw [Exchange.withLimit, withLimit_of_limit hkept]
    rw [hsame, ← h, withLimit_of_limit hlimit]
  | some limit =>
    by_cases hlate : c.Late limit (.ask (.request request))
    · obtain ⟨s, y, hcall, htimeout, hclosed⟩ := perform_of_late hlate
      rw [withLimit_of_limit hlimit] at hcall
      exact .inr ⟨limit, s, y, rfl, hlate, hcall, htimeout, hclosed⟩
    · obtain ⟨s, y, -, hfree, htimed⟩ := perform_of_not_late hlate
      rw [withLimit_of_limit hlimit] at htimed
      have hboth := hfree.symm.trans h
      obtain ⟨rfl, rfl⟩ := by simpa using hboth
      exact .inl htimed

/-- Up to the first timeout, the calls with the limit are those without one. -/
theorem take_made_of_no_timeout {limit : Nat} (c : Connection) (calls : List Call) (k : Nat)
    (h : ∀ m ∈ ((c.withLimit (some limit)).made calls).take k, m.outcome.result ≠ .error .timedOut) :
    ((c.withLimit (some limit)).made calls).take k =
      (((c.withLimit none).made calls).take k).map (Made.withLimit (some limit)) := by
  induction calls generalizing c k with
  | nil => simp [made, madeCalls]
  | cons call rest ih =>
    cases k with
    | zero => rfl
    | succ k =>
      by_cases hlate : c.Late limit call
      · obtain ⟨t, x, hcall, htimeout, -⟩ := perform_of_late hlate
        rw [made, madeCalls_of_after hcall, List.take_succ_cons] at h
        exact absurd htimeout (h _ List.mem_cons_self)
      · obtain ⟨t, x, -, hfree, htimed⟩ := perform_of_not_late hlate
        rw [made, madeCalls_of_after htimed, List.take_succ_cons] at h ⊢
        rw [made, madeCalls_of_after hfree, List.take_succ_cons, List.map_cons]
        have hrest := ih x.connection k fun m hm => h m (List.mem_cons_of_mem _ hm)
        exact congrArg _ hrest

/-- **A limit only ever turns a call into a timeout.** With a limit the greeting is waited for as long
as that and no longer, and one that is in time makes the same of the connection as without a limit.
Every call returns; up to the first timeout the calls do the same, in the same time, as without a
limit. A call times out exactly if its line takes longer to be written than the limit or one line of the
reply is late, however long the write and the whole reply take together; that closes the connection, and later calls write nothing and fail as
closed. -/
theorem limit_only_times_out (addr : String) (p : Peer) (limit : Nat) :
    (¬ (readLine p.inbound).InTime limit ∧
        handshake addr (some limit) p = .after limit (.error (.timedOut addr)) ∨
      (readLine p.inbound).InTime limit ∧
        ∃ (t : Nat) (greeted : Except DialError Connection), greeted ≠ .error (.timedOut addr) ∧
          handshake addr none p = .after t (greeted.map (withLimit none)) ∧
          handshake addr (some limit) p = .after t (greeted.map (withLimit (some limit)))) ∧
    ∀ (c : Connection) (calls : List Call),
      let free := (c.withLimit none).made calls
      let timed := (c.withLimit (some limit)).made calls
      timed.map Made.call = calls ∧
      (∀ k, (∀ m ∈ timed.take k, m.outcome.result ≠ .error .timedOut) →
        timed.take k = (free.take k).map (Made.withLimit (some limit))) ∧
      (∀ m ∈ timed, m.outcome.result = .error .timedOut ↔ m.before.Late limit m.call) ∧
      ∀ i a, timed[i]? = some a → a.outcome.result = .error .timedOut →
        a.outcome.connection.isOpen = false ∧
        ∀ m ∈ timed.drop (i + 1), m.outcome.connection.isOpen = false ∧ m.outcome.sent = "" ∧
          (m.call ≠ .close → m.outcome.result = .error .closed) := by
  constructor
  · by_cases hgreeting : (readLine p.inbound).InTime limit
    · exact .inr ⟨hgreeting, handshake_of_inTime hgreeting⟩
    · exact .inl ⟨hgreeting, handshake_of_late hgreeting⟩
  · intro c calls free timed
    have hlimited : ∀ m ∈ timed, m.before.limit = some limit :=
      before_of_kept (P := fun c : Connection => c.limit = some limit)
        (fun hc h => (limit_of_perform h).trans hc) rfl
    refine ⟨?_, take_made_of_no_timeout c calls, ?_, ?_⟩
    · exact map_call_madeCalls (P := fun c : Connection => c.limit = some limit)
        (fun call hc => returns_of_limit hc call) rfl
    · intro m hm
      exact timedOut_iff_late (hlimited m hm) (perform_of_made hm)
    · intro i a ha htimeout
      have hcall := perform_of_made (List.mem_of_getElem? ha)
      have hclosed := (isLost_of_perform hcall htimeout).1 rfl
      refine ⟨hclosed, ?_⟩
      intro m hm
      have hm' := perform_of_made (List.mem_of_mem_drop hm)
      have hbefore : m.before.isOpen = false := by
        rw [drop_madeCalls ha] at hm
        exact before_of_kept (P := fun c : Connection => c.isOpen = false) isOpen_of_closed hclosed
          m hm
      obtain ⟨x, hx, hsame, hsent, hresult⟩ := perform_of_closed hbefore m.call
      rw [hx] at hm'
      obtain ⟨-, rfl⟩ := by simpa using hm'
      exact ⟨hsame ▸ hbefore, hsent, hresult⟩

/-- Writing takes most of the limit, and the first line of the reply has all of it again. -/
example :
    let reply := [.pause 45, .send (Text.encode "OK\n")]
    let p : Peer := ⟨[], [{ octets := 3, outcome := .after 40 (.ok reply) }]⟩
    let c : Connection :=
      { addr := "mpd:6600", version := "0.23.5", limit := some 50, peer := some p }
    ∃ x, c.executeLine "status" = .after 85 x ∧ x.sent = "status\n" ∧ x.result = .ok [] := by
  exact ⟨_, by cbv, by cbv, by cbv⟩

end Connection

end PlayerWatch
