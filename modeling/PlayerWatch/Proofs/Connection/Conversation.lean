import PlayerWatch.Proofs.Connection.Writing
import PlayerWatch.Proofs.Connection.Replies

/-!
# Conversations

A conversation is any number of lines, each sent when the reply to the one before has been read. The
**invariant** is `Behind`: the peer of the connection is the peer that has taken so many lines, less
exactly the octets of the greeting and of the replies that were read. Each request keeps it
(`ask_of_answers`), whether its reply is `OK` or a refusal, so over a whole conversation every request
gets the reply to its own line (`converse_in_step`).
-/

namespace PlayerWatch

/-! ### Peers that have been read from -/

/-- `q` is what is left of `p` after some octets have been read from it. -/
structure Behind (taken : List UInt8) (p q : Peer) : Prop where
  answers : q.answers = p.answers
  leaves : Leaves p.inbound taken q.inbound

/-- The octets of several replies. -/
def replyOctets (replies : List Reply) : List UInt8 := replies.flatMap Reply.octets

/-- Behind the octets that it begins with, a peer sends these replies one after the other. It takes a
line for each of them, and once it has taken so many lines, as many replies are on their way, perhaps
with more behind them. -/
structure Peer.AnswersWith (p : Peer) (before : List UInt8) (replies : List Reply) : Prop where
  accepts : ∀ k < replies.length, (p.takeLines k).accepts none = true
  sends : ∀ k ≤ replies.length,
    before ++ replyOctets (replies.take k) <+: arriving (p.takeLines k).inbound

theorem replyOctets_cons (r : Reply) (replies : List Reply) :
    replyOctets (r :: replies) = r.octets ++ replyOctets replies := by
  simp [replyOctets]

namespace Behind

theorem next_eq {taken : List UInt8} {p q : Peer} (h : Behind taken p q) : q.next = p.next := by
  unfold Peer.next
  rw [h.answers]

/-- What a line calls forth comes behind all that has not been read. -/
theorem takeLine {taken : List UInt8} {p q : Peer} (h : Behind taken p q) :
    Behind taken p.takeLine q.takeLine := by
  unfold Peer.takeLine
  rw [h.next_eq, h.answers]
  exact ⟨rfl, h.leaves.append _⟩

theorem accepts_eq {taken : List UInt8} {p q : Peer} (h : Behind taken p q) (limit : Option Nat) :
    q.accepts limit = p.accepts limit := by
  unfold Peer.accepts
  rw [h.next_eq]

end Behind

namespace Peer.AnswersWith

/-- The first reply is there when the first line has been taken. -/
theorem first {p : Peer} {before : List UInt8} {r : Reply} {replies : List Reply}
    (h : p.AnswersWith before (r :: replies)) :
    ∃ more, arriving p.takeLine.inbound = before ++ r.octets ++ more := by
  obtain ⟨more, hmore⟩ := h.sends 1 (by simp)
  refine ⟨more, ?_⟩
  simpa [replyOctets, takeLines_one] using hmore.symm

/-- Behind the first reply come the others. -/
theorem next {p : Peer} {before : List UInt8} {r : Reply} {replies : List Reply}
    (h : p.AnswersWith before (r :: replies)) :
    p.takeLine.AnswersWith (before ++ r.octets) replies where
  accepts k hk := h.accepts (k + 1) (by simpa using hk)
  sends k hk := by
    have hsends := h.sends (k + 1) (by simpa using hk)
    rw [List.take_succ_cons, replyOctets_cons, ← List.append_assoc] at hsends
    exact hsends

end Peer.AnswersWith

/-! ### One request -/

/-- What is asked over a connection: a line as it stands, or a request. -/
inductive Ask where
  | line (text : String)
  | request (request : Request)

/-- The line that is sent. -/
def Ask.text : Ask → String
  | line text => text
  | request r => r.line

namespace Connection

/-- Asks and waits for the reply. -/
def ask (c : Connection) : Ask → Wait Exchange
  | .line text => c.executeLine text
  | .request r => c.execute r

/-- Asks one thing after the other. -/
def converse (c : Connection) : List Ask → Wait (List Exchange)
  | [] => .after 0 []
  | a :: rest => (c.ask a).bind fun x => (x.connection.converse rest).map (x :: ·)

theorem ask_eq (c : Connection) (a : Ask) : c.ask a = c.executeLine a.text := by
  cases a <;> rfl

/-- What a reply makes of a connection does not depend on whether it is a refusal. -/
theorem conclude_of_outcome (c : Connection) (sent : String) (answers : List Answer) (r : Reply)
    (rest : List Action) :
    c.conclude sent answers (r.outcome, rest) =
      ⟨r.outcome, sent, { c with peer := some ⟨rest, answers⟩ }⟩ := by
  cases h : r.outcome with
  | ok lines => rfl
  | error error =>
    have hkept := isLost_of_outcome h
    simp [conclude, hkept]

/-- One request reads the whole of its reply and no octet of the next one. -/
theorem ask_of_answers {c : Connection} {a : Ask} {p q : Peer} {before : List UInt8} {r : Reply}
    {replies : List Reply} (hlimit : c.limit = none) (hq : c.peer = some q)
    (hbehind : Behind before p q) (hline : '\n' ∉ a.text.toList)
    (hp : p.AnswersWith before (r :: replies)) :
    ∃ t q', c.ask a = .after t ⟨r.outcome, a.text ++ "\n", { c with peer := some q' }⟩ ∧
      Behind (before ++ r.octets) p.takeLine q' := by
  have haccepts : q.accepts c.limit = true := by
    rw [hlimit, hbehind.accepts_eq]
    exact hp.accepts 0 (by simp)
  have hcount : (a.text ++ "\n").toList.count '\n' = 1 := by
    simp [List.count_eq_zero.2 hline]
  have hstep := hbehind.takeLine
  -- All that was read of the peer lies before the reply, so the reply is what comes next.
  obtain ⟨more, hmore⟩ := hp.first
  have hnext : arriving q.takeLine.inbound = r.octets ++ more := by
    have heq := hstep.leaves.arriving_eq
    rw [hmore, List.append_assoc] at heq
    exact (List.append_cancel_left heq).symm
  obtain ⟨t, rest, hread, hrest⟩ := readReply_of_reply r hnext
  rw [← hlimit] at hread
  obtain ⟨s, hwritten⟩ := executeLine_of_accepts hq haccepts
  refine ⟨s + t, ⟨rest, q.takeLine.answers⟩, ?_, hstep.answers, hstep.leaves.trans hrest⟩
  rw [ask_eq, hwritten, hcount, Peer.takeLines_one, awaitReply, hread, Wait.map_after,
    conclude_of_outcome, Wait.later_after]

/-! ### Whole conversations -/

/-- From a connection that is in step with its peer, the `k`-th request gets the `k`-th reply, has
sent the `k`-th line, and leaves what comes behind that reply. -/
theorem converse_of_answers {c : Connection} {asks : List Ask} {p q : Peer} {before : List UInt8}
    {replies : List Reply} (hlimit : c.limit = none) (hq : c.peer = some q)
    (hbehind : Behind before p q) (hlines : ∀ a ∈ asks, '\n' ∉ a.text.toList)
    (hlen : asks.length = replies.length) (hp : p.AnswersWith before replies) :
    ∃ t exchanges, c.converse asks = .after t exchanges ∧ exchanges.length = asks.length ∧
      ∀ k a r, asks[k]? = some a → replies[k]? = some r → ∃ q',
        exchanges[k]? = some ⟨r.outcome, a.text ++ "\n", { c with peer := some q' }⟩ ∧
        Behind (before ++ replyOctets (replies.take (k + 1))) (p.takeLines (k + 1)) q' := by
  induction asks generalizing c p q before replies with
  | nil => exact ⟨0, [], rfl, rfl, by simp⟩
  | cons a asks ih =>
    obtain ⟨r, replies, rfl⟩ : ∃ r rs, replies = r :: rs :=
      List.exists_cons_of_length_eq_add_one (by simpa using hlen.symm)
    obtain ⟨t, q₁, hask, hfirst⟩ :=
      ask_of_answers hlimit hq hbehind (hlines a (by simp)) hp
    -- The first request leaves the peer in step for the others, with its reply read as well.
    obtain ⟨s, exchanges, hrest, hcount, heach⟩ :=
      ih (c := { c with peer := some q₁ }) hlimit rfl hfirst
        (fun b hb => hlines b (List.mem_cons_of_mem _ hb)) (by simpa using hlen) hp.next
    refine ⟨t + s, ⟨r.outcome, a.text ++ "\n", { c with peer := some q₁ }⟩ :: exchanges, ?_, ?_, ?_⟩
    · rw [converse, hask, Wait.bind_after, hrest, Wait.map_after, Wait.later_after]
    · rw [List.length_cons, hcount, List.length_cons]
    · intro k b r' hb hr'
      cases k with
      | zero =>
        obtain rfl : a = b := by simpa using hb
        obtain rfl : r = r' := by simpa using hr'
        refine ⟨q₁, rfl, ?_⟩
        simpa [replyOctets, Peer.takeLines_one] using hfirst
      | succ k =>
        obtain ⟨q', hx, hbehind'⟩ := heach k b r' (by simpa using hb) (by simpa using hr')
        refine ⟨q', by simpa using hx, ?_⟩
        rw [List.take_succ_cons, replyOctets_cons, ← List.append_assoc]
        exact hbehind'

/-- The greeting is all that a handshake reads. -/
theorem behind_of_handshake {addr : String} {p : Peer} {t : Nat} {c : Connection}
    {greeting more : List UInt8} (hshake : handshake addr none p = .after t (.ok c))
    (hgreeting : lineEnd ∉ greeting) (hp : arriving p.inbound = greeting ++ lineEnd :: more) :
    c.limit = none ∧ ∃ q, c.peer = some q ∧ Behind (greeting ++ [lineEnd]) p q := by
  obtain ⟨read, hread, hgreet⟩ := Wait.map_eq_after_iff.1 hshake
  obtain ⟨bytes, rest, version, rfl, -, rfl⟩ := greet_eq_ok hgreet
  obtain ⟨-, hleaves⟩ := line_of_readLine hp hgreeting (Wait.eq_after_of_within hread)
  exact ⟨rfl, ⟨rest, p.answers⟩, rfl, rfl, hleaves⟩

/-- **Requests and replies stay in step.** Behind a handshake without a limit, let a peer answer each
of its lines with a well-formed reply, in whatever pieces and however late. Then the `k`-th request
gets what the `k`-th reply says; the peer has been sent that line and took no other one since the
reply before; the connection is open; and what is left to read is what comes behind the `k`-th
reply. -/
theorem converse_in_step {addr : String} {p : Peer} {t : Nat} {c : Connection}
    {greeting : List UInt8} {asks : List Ask} {replies : List Reply}
    (hshake : handshake addr none p = .after t (.ok c)) (hgreeting : lineEnd ∉ greeting)
    (hp : p.AnswersWith (greeting ++ [lineEnd]) replies)
    (hlines : ∀ a ∈ asks, '\n' ∉ a.text.toList) (hlen : asks.length = replies.length) :
    ∃ s exchanges, c.converse asks = .after s exchanges ∧ exchanges.length = asks.length ∧
      ∀ k a r, asks[k]? = some a → replies[k]? = some r → ∃ q,
        exchanges[k]? = some ⟨r.outcome, a.text ++ "\n", { c with peer := some q }⟩ ∧
        Behind (greeting ++ [lineEnd] ++ replyOctets (replies.take (k + 1)))
          (p.takeLines (k + 1)) q := by
  obtain ⟨more, hmore⟩ := hp.sends 0 (Nat.zero_le _)
  have hstart : arriving p.inbound = greeting ++ lineEnd :: more := by
    simpa [replyOctets, Peer.takeLines] using hmore.symm
  obtain ⟨hlimit, q, hq, hbehind⟩ := behind_of_handshake hshake hgreeting hstart
  exact converse_of_answers hlimit hq hbehind hlines hlen hp

/-- Three requests to a player that sends half of the first reply with its greeting and refuses the
second request. -/
theorem refusal_keeps_step :
    let say := Text.encode
    let answers : List Answer := [
      .actions [.pause 5, .send (say "me: 50\nO"), .send (say "K\n")],
      .actions [.send (say "ACK unknown\n")],
      .actions [.send (say "OK\n")]]
    let p : Peer := ⟨[.send (say "OK MPD 0.23.5\nvolu")], answers⟩
    let c : Connection :=
      { addr := "mpd:6600", version := "0.23.5", peer := some ⟨[.send (say "volu")], answers⟩ }
    handshake "mpd:6600" none p = .after 0 (.ok c) ∧
      ∃ s exchanges q,
        c.converse [.request .status, .line "bogus", .request .next] = .after s exchanges ∧
        exchanges[0]?.map Exchange.result = some (.ok ["volume: 50"]) ∧
        exchanges[1]?.map Exchange.sent = some "bogus\n" ∧
        exchanges[1]?.map Exchange.result = some (.error (.rejected "unknown")) ∧
        exchanges[2]?.map Exchange.result = some (.ok []) ∧
        exchanges[2]?.map Exchange.connection = some { c with peer := some q } := by
  intro say answers p c
  have hshake : handshake "mpd:6600" none p = .after 0 (.ok c) := by
    have hcut : cutLine (maxLineLength + 1) (say "OK MPD 0.23.5\nvolu") =
        .complete (say "OK MPD 0.23.5\n") (say "volu") := by decide +kernel
    have hversion : greetingVersion? (lineText (say "OK MPD 0.23.5\n")) = some "0.23.5" := by
      decide +kernel
    simp [handshake, readLine, readLineFrom, p, hcut, greet, hversion, c]
  let volume : Reply :=
    ⟨[say "volume: 50"], say "OK", by decide +kernel, by decide +kernel, by decide +kernel⟩
  let refusal : Reply :=
    ⟨[], say "ACK unknown", by decide +kernel, by decide +kernel, by decide +kernel⟩
  let done : Reply := ⟨[], say "OK", by decide +kernel, by decide +kernel, by decide +kernel⟩
  have hp : p.AnswersWith (say "OK MPD 0.23.5" ++ [lineEnd]) [volume, refusal, done] :=
    ⟨by decide +kernel, by decide +kernel⟩
  have hlines : ∀ a ∈ [Ask.request .status, .line "bogus", .request .next],
      '\n' ∉ a.text.toList := by decide
  obtain ⟨s, exchanges, hconverse, hlen, heach⟩ :=
    converse_in_step hshake (by decide +kernel) hp hlines rfl
  obtain ⟨q₁, hfirst, -⟩ := heach 0 _ _ rfl rfl
  obtain ⟨q₂, hsecond, -⟩ := heach 1 _ _ rfl rfl
  obtain ⟨q₃, hthird, -⟩ := heach 2 _ _ rfl rfl
  refine ⟨hshake, s, exchanges, q₃, hconverse, ?_, by rw [hsecond]; rfl, ?_, ?_, by rw [hthird]; rfl⟩
  · have hvolume : lineText (say "volume: 50") = "volume: 50" := by decide +kernel
    have hok : (lineText (say "OK")).toList = okLine := by decide +kernel
    simp [hfirst, Reply.outcome, outcomeOf, volume, hok, hvolume]
  · have hack : lineText (say "ACK unknown") = "ACK unknown" := by decide +kernel
    rw [hsecond]
    simp only [Reply.outcome, outcomeOf, refusal, hack]
    rfl
  · have hok : (lineText (say "OK")).toList = okLine := by decide +kernel
    simp [hthird, Reply.outcome, outcomeOf, done, hok]

end Connection

end PlayerWatch
