import PlayerWatch.Connection
import PlayerWatch.Proofs.Text.Encoding

/-!
# Writing a line

What a request writes depends only on whether the connection is open and the peer takes the line
within the limit. If it does, the whole line is written with its end and the peer is left to answer it
(`executeLine_of_accepts`). Otherwise the connection is given up; the octets that have left by then are
those that the line begins with (`octetsSent_prefix`), and its end is not among them
(`lineEnd_mem_octetsSent_iff`), so a player has nothing to act on. Either way a request that returns has
written `Connection.accepted` of its line (`sent_of_executeLine`).
-/

namespace PlayerWatch

namespace Peer

/-- A write within a limit goes as the answer to its first line says. -/
theorem write_within (p : Peer) (limit : Option Nat) (text : String) :
    (p.write text).within limit =
      (p.next.outcome.within limit).map (Option.map fun outcome =>
        outcome.map fun _ => p.takeLines (text.toList.count '\n')) :=
  Wait.within_map ..

theorem write_of_accepts {p : Peer} {limit : Option Nat} (hp : p.accepts limit = true) :
    ∃ t, ∀ text, (p.write text).within limit =
      .after t (some (.ok (p.takeLines (text.toList.count '\n')))) := by
  unfold accepts at hp
  split at hp
  · next t list h => exact ⟨t, fun text => by rw [write_within, h]; rfl⟩
  · cases hp

theorem write_of_rejects {p : Peer} {limit : Option Nat} (hp : p.accepts limit = false)
    (text : String) :
    (p.write text).within limit = .forever ∨
      ∃ t, (p.write text).within limit = .after t none ∨
        ∃ error, (p.write text).within limit = .after t (some (.error error)) := by
  rw [write_within]
  rcases h : p.next.outcome.within limit with ⟨t, _ | error | list⟩ | _
  · exact .inr ⟨t, .inl rfl⟩
  · exact .inr ⟨t, .inr ⟨error, rfl⟩⟩
  · simp [accepts, h] at hp
  · exact .inl rfl

/-- A text of one line calls for one answer. -/
theorem takeLines_one (p : Peer) : p.takeLines 1 = p.takeLine := rfl

end Peer

namespace Connection

theorem accepted_of_accepts {c : Connection} {p : Peer} (hc : c.peer = some p)
    (hp : p.accepts c.limit = true) (line : String) : c.accepted line = line ++ "\n" := by
  simp [accepted, hc, hp]

theorem accepted_of_rejects {c : Connection} {p : Peer} (hc : c.peer = some p)
    (hp : p.accepts c.limit = false) (line : String) : c.accepted line = "" := by
  simp [accepted, hc, hp]

theorem accepted_of_closed {c : Connection} (hc : c.peer = none) (line : String) :
    c.accepted line = "" := by
  simp [accepted, hc]

/-- A line is written as a whole or it does not count. -/
theorem accepted_cases (c : Connection) (line : String) :
    c.accepted line = "" ∨ c.accepted line = line ++ "\n" := by
  unfold accepted
  split
  · exact .inr rfl
  · exact .inl rfl

/-! ### Octets -/

theorem encode_line (line : String) : Text.encode (line ++ "\n") = Text.encode line ++ [lineEnd] := by
  rw [Text.encode_append, show Text.encode "\n" = [lineEnd] by decide +kernel]

/-- The octets that leave are those that the line begins with. -/
theorem octetsSent_prefix (c : Connection) (line : String) :
    c.octetsSent line <+: Text.encode (line ++ "\n") := by
  unfold octetsSent
  split
  · exact List.nil_prefix
  · unfold Peer.octetsTaken
    split
    · exact List.prefix_rfl
    · exact (List.take_prefix ..).trans (List.dropLast_prefix _)

/-- Of a line that is not written as a whole the player never sees the end. -/
theorem lineEnd_mem_octetsSent_iff {c : Connection} {line : String} (hline : '\n' ∉ line.toList) :
    lineEnd ∈ c.octetsSent line ↔ c.accepted line = line ++ "\n" := by
  have hne : "" ≠ line ++ "\n" := fun h => by simpa using congrArg String.toList h
  unfold octetsSent
  cases hc : c.peer with
  | none => simp [accepted_of_closed hc, hne]
  | some p =>
    cases hp : p.accepts c.limit with
    | true => simp [accepted_of_accepts hc hp, Peer.octetsTaken, hp, encode_line]
    | false =>
      rw [accepted_of_rejects hc hp]
      refine iff_of_false ?_ hne
      intro hmem
      simp only [Peer.octetsTaken, hp, Bool.false_eq_true, if_false, encode_line,
        List.dropLast_concat] at hmem
      exact Text.lineEnd_not_mem_encode hline (List.mem_of_mem_take hmem)

/-- A peer that takes half of the line and then no more of it before the limit ends. -/
example :
    let p : Peer := ⟨[], [{ octets := 3, outcome := .after 70 (.error nothingWritten) }]⟩
    let c : Connection :=
      { addr := "mpd:6600", version := "0.23.5", limit := some 50, peer := some p }
    c.octetsSent "status" = Text.encode "sta" ∧
      c.executeLine "status" = .after 50 (c.abandon .timedOut) :=
  ⟨by decide +kernel, rfl⟩

/-! ### Requests -/

/-- On a closed connection a request fails at once and writes nothing. -/
theorem executeLine_of_closed {c : Connection} (hc : c.peer = none) (line : String) :
    c.executeLine line = .after 0 ⟨.error .closed, "", c⟩ := by
  simp [executeLine, hc]

/-- A line that the peer takes is written as a whole, and then its reply is awaited. -/
theorem executeLine_of_accepts {c : Connection} {p : Peer} (hc : c.peer = some p)
    (hp : p.accepts c.limit = true) :
    ∃ t, ∀ line, c.executeLine line =
      (c.awaitReply (line ++ "\n")
        (p.takeLines ((line ++ "\n").toList.count '\n'))).later t := by
  obtain ⟨t, hwrite⟩ := Peer.write_of_accepts hp
  exact ⟨t, fun line => by simp only [executeLine, hc, hwrite, Wait.bind_after]⟩

/-- A line that the peer does not take closes the connection, if the wait for it ends. -/
theorem executeLine_of_rejects {c : Connection} {p : Peer} (hc : c.peer = some p)
    (hp : p.accepts c.limit = false) (line : String) :
    c.executeLine line = .forever ∨
      ∃ t error, error.isLost = true ∧ c.executeLine line = .after t (c.abandon error) := by
  rcases Peer.write_of_rejects hp (line ++ "\n") with h | ⟨t, h | ⟨error, h⟩⟩
  · exact .inl (by simp only [executeLine, hc, h]; rfl)
  · exact .inr ⟨t, .timedOut, rfl, by simp only [executeLine, hc, h]; rfl⟩
  · exact .inr ⟨t, .transport error, rfl, by simp only [executeLine, hc, h]; rfl⟩

theorem sent_conclude (c : Connection) (sent : String) (answers : List Answer)
    (reply : Except RequestError (List String) × List Action) :
    (c.conclude sent answers reply).sent = sent := by
  obtain ⟨result, rest⟩ := reply
  cases result <;> rfl

/-- A request whose line is taken returns with what a reply makes of the connection. -/
theorem concluded_of_accepts {c : Connection} {p : Peer} {line : String} {t : Nat} {x : Exchange}
    (hc : c.peer = some p) (hp : p.accepts c.limit = true) (h : c.executeLine line = .after t x) :
    ∃ reply, x = c.conclude (line ++ "\n")
      (p.takeLines ((line ++ "\n").toList.count '\n')).answers reply := by
  obtain ⟨s, hcall⟩ := executeLine_of_accepts hc hp
  rw [hcall] at h
  obtain ⟨u, hreply, -⟩ := Wait.later_eq_after h
  obtain ⟨reply, -, rfl⟩ := Wait.map_eq_after_iff.1 hreply
  exact ⟨reply, rfl⟩

/-- A request that returns has written what the peer took of its line. -/
theorem sent_of_executeLine {c : Connection} {line : String} {t : Nat} {x : Exchange}
    (h : c.executeLine line = .after t x) : x.sent = c.accepted line := by
  cases hc : c.peer with
  | none =>
    rw [executeLine_of_closed hc] at h
    obtain ⟨-, rfl⟩ := by simpa using h
    exact (accepted_of_closed hc line).symm
  | some p =>
    cases hp : p.accepts c.limit with
    | true =>
      obtain ⟨reply, rfl⟩ := concluded_of_accepts hc hp h
      rw [sent_conclude, accepted_of_accepts hc hp]
    | false =>
      rw [accepted_of_rejects hc hp]
      rcases executeLine_of_rejects hc hp line with hw | ⟨s, error, -, hw⟩
      · rw [hw] at h
        cases h
      · rw [hw] at h
        obtain ⟨-, rfl⟩ := by simpa using h
        rfl

end Connection

/-! ### The connection afterwards -/

namespace Exchange

/-- The player has answered: it did what it was asked to do, or it refused. -/
def IsAnswered (x : Exchange) : Prop :=
  (∃ lines, x.result = .ok lines) ∨ ∃ detail, x.result = .error (.rejected detail)

/-- Every failure but a refusal is one of the connection. -/
theorem isLost_iff {x : Exchange} {error : RequestError} (hx : x.result = .error error) :
    error.isLost = true ↔ ¬ x.IsAnswered := by
  cases error <;> simp [IsAnswered, hx, RequestError.isLost]

end Exchange

namespace Connection

/-- A request that returns found the connection closed, was not taken, or was taken and answered. -/
theorem executeLine_cases {c : Connection} {line : String} {t : Nat} {x : Exchange}
    (h : c.executeLine line = .after t x) :
    (c.peer = none ∧ x = ⟨.error .closed, "", c⟩) ∨
      (c.isOpen = true ∧ ∃ error, error.isLost = true ∧ x = c.abandon error) ∨
      (c.isOpen = true ∧ ∃ sent answers reply, x = c.conclude sent answers reply) := by
  cases hc : c.peer with
  | none =>
    rw [executeLine_of_closed hc] at h
    obtain ⟨-, rfl⟩ := by simpa using h
    exact .inl ⟨rfl, rfl⟩
  | some p =>
    have hopen : c.isOpen = true := by simp [isOpen, hc]
    cases hp : p.accepts c.limit with
    | true =>
      obtain ⟨reply, rfl⟩ := concluded_of_accepts hc hp h
      exact .inr (.inr ⟨hopen, _, _, reply, rfl⟩)
    | false =>
      rcases executeLine_of_rejects hc hp line with hw | ⟨s, error, hlost, hw⟩
      · rw [hw] at h
        cases h
      · rw [hw] at h
        obtain ⟨-, rfl⟩ := by simpa using h
        exact .inr (.inl ⟨hopen, error, hlost, rfl⟩)

/-- A request changes nothing of a connection but what is left of its peer. -/
theorem connection_of_executeLine {c : Connection} {line : String} {t : Nat} {x : Exchange}
    (h : c.executeLine line = .after t x) :
    x.connection = { c with peer := x.connection.peer } := by
  rcases executeLine_cases h with
    ⟨-, rfl⟩ | ⟨-, error, -, rfl⟩ | ⟨-, sent, answers, ⟨result, rest⟩, rfl⟩
  · rfl
  · rfl
  · cases result <;> rfl

/-- A request never changes whom the connection is with. -/
theorem addr_of_executeLine {c : Connection} {line : String} {t : Nat} {x : Exchange}
    (h : c.executeLine line = .after t x) : x.connection.addr = c.addr := by
  rw [connection_of_executeLine h]

/-- A connection is open after a request if it was before and the player has answered. -/
theorem isOpen_of_executeLine {c : Connection} {line : String} {t : Nat} {x : Exchange}
    (h : c.executeLine line = .after t x) :
    x.connection.isOpen = true ↔ c.isOpen = true ∧ x.IsAnswered := by
  rcases executeLine_cases h with
    ⟨hc, rfl⟩ | ⟨hopen, error, hlost, rfl⟩ | ⟨hopen, sent, answers, ⟨result, rest⟩, rfl⟩
  · simp [isOpen, hc]
  · have hunanswered : ¬ (c.abandon error).IsAnswered := (Exchange.isLost_iff rfl).1 hlost
    constructor
    · intro hclosed
      cases hclosed
    · rintro ⟨-, hanswered⟩
      exact absurd hanswered hunanswered
  · cases result with
    | ok lines => exact ⟨fun _ => ⟨hopen, .inl ⟨lines, rfl⟩⟩, fun _ => rfl⟩
    | error error =>
      have hpeer : (c.conclude sent answers (.error error, rest)).connection.isOpen =
          !error.isLost := by
        cases hlost : error.isLost <;> simp [conclude, isOpen, hlost]
      have hlost := Exchange.isLost_iff (x := c.conclude sent answers (.error error, rest)) rfl
      rw [hpeer, Bool.not_eq_true', ← Bool.not_eq_true, hlost, Classical.not_not]
      exact ⟨fun hanswered => ⟨hopen, hanswered⟩, And.right⟩

/-- After a failure that makes it useless a connection is closed. -/
theorem peer_of_lost {c : Connection} {line : String} {t : Nat} {x : Exchange}
    {error : RequestError} (h : c.executeLine line = .after t x) (hx : x.result = .error error)
    (hlost : error.isLost = true) : x.connection.peer = none := by
  have hunanswered := (Exchange.isLost_iff hx).1 hlost
  have hclosed : ¬ x.connection.isOpen = true := fun hopen =>
    hunanswered ((isOpen_of_executeLine h).1 hopen).2
  simpa [isOpen] using hclosed

/-- What is answered was sent, and over an open connection. -/
theorem sent_of_answered {c : Connection} {line : String} {t : Nat} {x : Exchange}
    (h : c.executeLine line = .after t x) (hanswered : x.IsAnswered) :
    c.isOpen = true ∧ x.sent = line ++ "\n" := by
  have hclosed {error : RequestError} (hx : x.result = .error error) (hlost : error.isLost = true) :
      False :=
    (Exchange.isLost_iff hx).1 hlost hanswered
  cases hc : c.peer with
  | none =>
    rw [executeLine_of_closed hc] at h
    obtain ⟨-, rfl⟩ := by simpa using h
    exact (hclosed rfl rfl).elim
  | some p =>
    refine ⟨by simp [isOpen, hc], ?_⟩
    rw [sent_of_executeLine h]
    cases hp : p.accepts c.limit with
    | true => exact accepted_of_accepts hc hp line
    | false =>
      rcases executeLine_of_rejects hc hp line with hw | ⟨s, error, hlost, hw⟩
      · rw [hw] at h
        cases h
      · rw [hw] at h
        obtain ⟨-, rfl⟩ := by simpa using h
        exact (hclosed rfl hlost).elim

end Connection

end PlayerWatch
