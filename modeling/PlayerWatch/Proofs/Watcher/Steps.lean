import PlayerWatch.Watcher
import PlayerWatch.Proofs.Client.Enquiry

/-!
# The steps of a watcher

`Step` is the relational form of `Watcher.step?`: one constructor for each thing that can come from
outside in a phase, with the watcher that follows written out. For a watcher that is `InOrder` the two
are the same (`step_iff`), so a proof about steps goes by cases on `Step` and opens neither the client
nor the connection. What a step learns is an `Occurrence`, and a watcher's `history` is what it learnt
in its first steps.
-/

namespace PlayerWatch

/-! ### What happens to a watcher -/

/-- Something that a watcher learns from outside. -/
inductive Occurrence where
  | dialled
  /-- No connection came about. -/
  | unreached (error : DialError)
  | greeted (version : String)
  /-- A request for the status has returned. -/
  | status (reply : Except RequestError (List String))
  /-- A request for the current song has returned. -/
  | song (reply : Except RequestError (List String))

namespace Phase

/-- The stage that belongs to a phase. -/
def stage : Phase → Stage
  | start | resting => .disconnected
  | dialling _ => .connecting
  | _ => .polling

/-- The session of a phase, if there is one. -/
def session? : Phase → Option Session
  | idle session _ | asking session _ | completing session _ _ => some session
  | _ => none

end Phase

/-- A session after a request over its connection. -/
def Session.after (session : Session) (x : Exchange) : Session :=
  { session with client := { session.client with connection := x.connection } }

namespace Watcher

/-- What the next step learns. A tick brings nothing from outside. -/
def occurrence? (w : Watcher) : Option Occurrence :=
  match w.phase with
  | .start | .resting => some .dialled
  | .dialling reception =>
    match reception.greet w.addr w.pace.limit with
    | .after _ (.ok connection) => some (.greeted connection.version)
    | .after _ (.error error) => some (.unreached error)
    | .forever => none
  | .asking session _ =>
    match session.client.connection.execute .status with
    | .after _ exchange => some (.status exchange.result)
    | .forever => none
  | .completing session _ _ =>
    match session.client.connection.execute .currentSong with
    | .after _ exchange => some (.song exchange.result)
    | .forever => none
  | .idle .. | .broken => none

/-- What the first so many steps learn. -/
def history (w : Watcher) : Nat → List Occurrence
  | 0 => []
  | n + 1 => match w.step? with
    | some next => w.occurrence?.toList ++ next.history n
    | none => []

/-- The stage is that of the phase, and a session is one with the watched player that tells all that
cannot be read. -/
structure InOrder (w : Watcher) : Prop where
  stage : w.stage = w.phase.stage
  session : ∀ session, w.phase.session? = some session →
    session.client.announces = true ∧ session.client.connection.addr = w.addr

/-- The steps of a watcher, with what each of them learns. -/
inductive Step (w : Watcher) : Option Occurrence → Watcher → Prop where
  | start (phase : w.phase = .start) : Step w (some .dialled) w.dial
  | resting (phase : w.phase = .resting) :
      Step w (some .dialled)
        { w.elapse w.delay with delay := w.pace.backoff.next w.delay }.dial
  | unreached {reception : Reception} {t : Nat} {error : DialError}
      (phase : w.phase = .dialling reception)
      (greet : reception.greet w.addr w.pace.limit = .after t (.error error)) :
      Step w (some (.unreached error)) (w.elapse t).rest
  | greeted {reception : Reception} {t : Nat} {c : Connection}
      (phase : w.phase = .dialling reception)
      (greet : reception.greet w.addr w.pace.limit = .after t (.ok c)) :
      Step w (some (.greeted c.version)) ((w.elapse t).welcome c)
  | tick {session : Session} {ticker : Ticker} (phase : w.phase = .idle session ticker) :
      Step w none
        ({ w with
          now := ticker.tickTime w.now
          phase := .asking session (ticker.tick w.now) }.send session .status)
  | failed {session : Session} {ticker : Ticker} {t : Nat} {x : Exchange} {error : RequestError}
      (phase : w.phase = .asking session ticker)
      (asked : session.client.connection.execute .status = .after t x)
      (reply : x.result = .error error) :
      Step w (some (.status (.error error))) ((w.elapse t).giveUp (session.after x) error)
  | answered {session : Session} {ticker : Ticker} {t : Nat} {x : Exchange} {lines : List String}
      (phase : w.phase = .asking session ticker)
      (asked : session.client.connection.execute .status = .after t x)
      (reply : x.result = .ok lines) (no_song : (statusOf lines).hasCurrentSong = false) :
      Step w (some (.status (.ok lines)))
        (((w.elapse t).announce (statusReports lines)).publish (session.after x) ticker
          (statusOf lines))
  | awaiting {session : Session} {ticker : Ticker} {t : Nat} {x : Exchange} {lines : List String}
      (phase : w.phase = .asking session ticker)
      (asked : session.client.connection.execute .status = .after t x)
      (reply : x.result = .ok lines) (song : (statusOf lines).hasCurrentSong = true) :
      Step w (some (.status (.ok lines)))
        { ((w.elapse t).announce (statusReports lines)).send (session.after x) .currentSong with
          phase := .completing (session.after x) ticker (statusOf lines) }
  | completed {session : Session} {ticker : Ticker} {status : Status} {t : Nat} {x : Exchange}
      (phase : w.phase = .completing session ticker status)
      (asked : session.client.connection.execute .currentSong = .after t x) :
      Step w (some (.song x.result))
        (((w.elapse t).announce (songReports w.addr x.result)).publish (session.after x) ticker
          (status.withReply x.result))

theorem announce_nil (w : Watcher) : w.announce [] = w := by
  simp [announce]

namespace Step

theorem occurrence?_eq {w next : Watcher} {occurrence : Option Occurrence}
    (h : Step w occurrence next) : w.occurrence? = occurrence := by
  cases h with
  | start phase => simp [occurrence?, phase]
  | resting phase => simp [occurrence?, phase]
  | unreached phase greet => simp [occurrence?, phase, greet]
  | greeted phase greet => simp [occurrence?, phase, greet]
  | tick phase => simp [occurrence?, phase]
  | failed phase asked reply => simp [occurrence?, phase, asked, reply]
  | answered phase asked reply => simp [occurrence?, phase, asked, reply]
  | awaiting phase asked reply => simp [occurrence?, phase, asked, reply]
  | completed phase asked => simp [occurrence?, phase, asked]

theorem step?_eq {w next : Watcher} {occurrence : Option Occurrence} (hw : w.InOrder)
    (h : Step w occurrence next) : w.step? = some next := by
  cases h with
  | start phase => simp [step?, phase]
  | resting phase => simp [step?, phase]
  | unreached phase greet => simp [step?, phase, greet]
  | greeted phase greet => simp [step?, phase, greet]
  | tick phase => simp [step?, phase]
  | failed phase asked reply =>
    have hstatus := Client.bareStatus_of_execute asked
    simp [step?, phase, hstatus, takeStatus, reply, Except.map, announce_nil, Session.after]
  | answered phase asked reply no_song =>
    obtain ⟨hannounces, -⟩ := hw.session _ (by rw [phase]; rfl)
    have hstatus := Client.bareStatus_of_execute asked
    simp [step?, phase, hstatus, hannounces, takeStatus, reply, Except.map, no_song, Session.after]
  | awaiting phase asked reply song =>
    obtain ⟨hannounces, -⟩ := hw.session _ (by rw [phase]; rfl)
    have hstatus := Client.bareStatus_of_execute asked
    simp [step?, phase, hstatus, hannounces, takeStatus, reply, Except.map, song, Session.after]
  | @completed _ _ status _ _ phase asked =>
    -- The client reports a lost song under its own address, which is that of the watcher.
    obtain ⟨hannounces, haddr⟩ := hw.session _ (by rw [phase]; rfl)
    obtain ⟨a, hsong, hclient, htold⟩ := Client.withSong_of_execute status asked
    simp [step?, phase, hsong, takeSong, hclient, htold, hannounces, haddr, Except.toOption,
      Session.after]

/-- Whatever a watcher does next is one of the steps. -/
theorem of_step? {w next : Watcher} (hw : w.InOrder) (h : w.step? = some next) :
    ∃ occurrence, Step w occurrence next := by
  -- Once a step is found, it is the one that is taken.
  have found {occurrence : Option Occurrence} {next' : Watcher} (hstep : Step w occurrence next') :
      ∃ occurrence, Step w occurrence next := by
    obtain rfl : next' = next := by simpa [hstep.step?_eq hw] using h
    exact ⟨occurrence, hstep⟩
  cases hphase : w.phase with
  | start => exact found (.start hphase)
  | resting => exact found (.resting hphase)
  | dialling reception =>
    cases hgreet : reception.greet w.addr w.pace.limit with
    | forever => simp [step?, hphase, hgreet] at h
    | after t greeting =>
      cases greeting with
      | error error => exact found (.unreached hphase hgreet)
      | ok c => exact found (.greeted hphase hgreet)
  | idle session ticker => exact found (.tick hphase)
  | asking session ticker =>
    cases hasked : session.client.connection.execute .status with
    | forever => simp [step?, hphase, Client.bareStatus, Client.ask, hasked, Wait.map] at h
    | after t x =>
      cases hreply : x.result with
      | error error => exact found (.failed hphase hasked hreply)
      | ok lines =>
        cases hsong : (statusOf lines).hasCurrentSong with
        | false => exact found (.answered hphase hasked hreply hsong)
        | true => exact found (.awaiting hphase hasked hreply hsong)
  | completing session ticker status =>
    cases hasked : session.client.connection.execute .currentSong with
    | forever => simp [step?, hphase, Client.currentSong, Client.ask, hasked, Wait.map] at h
    | after t x => exact found (.completed hphase hasked)
  | broken => simp [step?, hphase] at h

end Step

/-- **A step and what it learns are one of the steps of the relation.** -/
theorem step_iff {w next : Watcher} {occurrence : Option Occurrence} (hw : w.InOrder) :
    Step w occurrence next ↔ w.step? = some next ∧ w.occurrence? = occurrence := by
  constructor
  · intro h
    exact ⟨h.step?_eq hw, h.occurrence?_eq⟩
  · rintro ⟨hstep, rfl⟩
    obtain ⟨occurrence, h⟩ := Step.of_step? hw hstep
    rw [h.occurrence?_eq]
    exact h

end Watcher

end PlayerWatch
