import Mathlib.Data.List.Chain
import PlayerWatch.Proofs.Watcher.Moves

/-!
# Attempts

What a watcher announces is one attempt after the other, and each attempt is one of a few shapes: it
comes to nothing, or it is a session of any number of polls that ends by a failed request for the
status. Only the last attempt may be cut short by a stop. `Attempt.events` writes these shapes down,
and `Attempt.occurrences` says what has to come from outside for each.

The **invariant** is `Account`: what was announced and learnt so far is that of the attempts that have
ended and of the one that is `Underway`. Each move either carries that one on (`Account.goesOn`) or
ends it (`Account.ends`).
-/

namespace PlayerWatch

/-! ### Polls, attempts and what they announce -/

/-- A poll that brought a status: the lines of it, what the player replied about the current song if
there was one to ask about, and the generation it was published under. -/
structure Poll where
  lines : List String
  song : Option (Except RequestError (List String))
  generation : UInt64
  asked : song.isSome = (statusOf lines).hasCurrentSong

namespace Poll

/-- The status that was published. -/
def status (p : Poll) : Status :=
  match p.song with
  | some reply => (statusOf p.lines).withReply reply
  | none => statusOf p.lines

/-- What was learnt. -/
def occurrences (p : Poll) : List Occurrence :=
  .status (.ok p.lines) :: p.song.toList.map .song

/-- What is announced: what could not be read or had, and then the status. -/
def events (addr : String) (p : Poll) : List Event :=
  statusReports p.lines ++ p.song.elim [] (songReports addr) ++
    [.statusUpdated addr p.generation p.status.state]

end Poll

/-- How a session ends. -/
inductive Ending where
  /-- A request for the status failed. -/
  | failed (error : RequestError)
  /-- The watcher was stopped between two polls or while it waited for a status. -/
  | cancelled
  /-- The watcher was stopped while it waited for the song that belongs to a status. -/
  | cutShort (lines : List String) (song : (statusOf lines).hasCurrentSong = true)

namespace Ending

def occurrences : Ending → List Occurrence
  | failed error => [.status (.error error)]
  | cancelled => []
  | cutShort lines _ => [.status (.ok lines)]

def events (addr : String) : Ending → List Event
  | failed error => [.disconnected addr error.message]
  | cancelled => []
  | cutShort lines _ => statusReports lines

end Ending

/-- An attempt to watch a player, from the dial on. -/
inductive Attempt where
  /-- No connection came about. -/
  | unreached (error : DialError)
  /-- The watcher was stopped before a greeting came. -/
  | abandoned
  | session (version : String) (polls : List Poll) (ending : Ending)

/-- What is announced up to the first poll of a session. -/
def opening (addr version : String) : List Event :=
  [.stageChanged addr .connecting, .connected addr version, .stageChanged addr .polling]

namespace Attempt

/-- Whether a stop ended the attempt. -/
def isCancelled : Attempt → Bool
  | unreached _ | session _ _ (.failed _) => false
  | abandoned | session _ _ .cancelled | session _ _ (.cutShort ..) => true

/-- What was learnt. -/
def occurrences : Attempt → List Occurrence
  | unreached error => [.dialled, .unreached error]
  | abandoned => [.dialled]
  | session version polls ending =>
    .dialled :: .greeted version :: polls.flatMap Poll.occurrences ++ ending.occurrences

/-- What is announced. -/
def events (addr : String) : Attempt → List Event
  | unreached _ | abandoned => [.stageChanged addr .connecting, .stageChanged addr .disconnected]
  | session version polls ending =>
    opening addr version ++ polls.flatMap (Poll.events addr) ++ ending.events addr ++
      [.stageChanged addr .disconnected]

end Attempt

/-! ### Stages -/

/-- The stage that an event announces. -/
def Event.stage? : Event → Option Stage
  | .stageChanged _ stage => some stage
  | _ => none

/-- The stages of an attempt. -/
def Attempt.stages : Attempt → List Stage
  | unreached _ | abandoned => [.connecting, .disconnected]
  | session .. => [.connecting, .polling, .disconnected]

theorem stages_fieldEvents (request : Request) (fields : List Unreadable) :
    (Client.fieldEvents request fields).filterMap Event.stage? = [] := by
  simp [Client.fieldEvents, Event.stage?]

theorem Poll.stages_events (addr : String) (p : Poll) :
    (p.events addr).filterMap Event.stage? = [] := by
  have hsong : (p.song.elim [] (songReports addr)).filterMap Event.stage? = [] := by
    cases p.song with
    | none => rfl
    | some reply =>
      cases reply with
      | ok lines => exact stages_fieldEvents _ _
      | error error => rfl
  rw [Poll.events, List.filterMap_append, List.filterMap_append, statusReports, stages_fieldEvents,
    hsong]
  rfl

theorem Ending.stages_events (addr : String) (ending : Ending) :
    (ending.events addr).filterMap Event.stage? = [] := by
  cases ending with
  | failed error => rfl
  | cancelled => rfl
  | cutShort lines song => exact stages_fieldEvents _ _

theorem Attempt.stages_events (addr : String) (a : Attempt) :
    (a.events addr).filterMap Event.stage? = a.stages := by
  cases a with
  | unreached error => rfl
  | abandoned => rfl
  | session version polls ending =>
    -- Only the ends of a session change the stage.
    have hpolls : (polls.flatMap (Poll.events addr)).filterMap Event.stage? = [] := by
      simp [List.filterMap_flatMap, Poll.stages_events]
    rw [Attempt.events, List.filterMap_append, List.filterMap_append, List.filterMap_append, hpolls,
      Ending.stages_events]
    rfl

/-- No stage follows itself: an attempt begins with another stage than the one before ended with. -/
theorem isChain_stages (attempts : List Attempt) :
    (attempts.flatMap Attempt.stages).IsChain (· ≠ ·) := by
  induction attempts with
  | nil => exact .nil
  | cons a rest ih =>
    cases rest with
    | nil => cases a <;> simp [Attempt.stages]
    | cons b rest =>
      cases a <;> cases b <;> simpa [Attempt.stages] using ih

/-! ### The attempt that is under way -/

/-- How far the latest attempt has come. -/
inductive Underway where
  /-- There is none: the watcher waits before it dials. -/
  | nothing
  | dialling
  /-- A session of so many polls. -/
  | session (version : String) (polls : List Poll)
  /-- A session that waits for the song that belongs to a status. -/
  | awaiting (version : String) (polls : List Poll) (lines : List String)
      (song : (statusOf lines).hasCurrentSong = true)

namespace Underway

/-- What was learnt in it so far. -/
def occurrences : Underway → List Occurrence
  | nothing => []
  | dialling => [.dialled]
  | session version polls => .dialled :: .greeted version :: polls.flatMap Poll.occurrences
  | awaiting version polls lines _ =>
    .dialled :: .greeted version :: polls.flatMap Poll.occurrences ++ [.status (.ok lines)]

/-- What was announced in it so far. -/
def events (addr : String) : Underway → List Event
  | nothing => []
  | dialling => [.stageChanged addr .connecting]
  | session version polls => opening addr version ++ polls.flatMap (Poll.events addr)
  | awaiting version polls lines _ =>
    opening addr version ++ polls.flatMap (Poll.events addr) ++ statusReports lines

/-- The attempt that it becomes if the watcher is stopped now. -/
def cancelled : Underway → List Attempt
  | nothing => []
  | dialling => [.abandoned]
  | session version polls => [.session version polls .cancelled]
  | awaiting version polls lines song => [.session version polls (.cutShort lines song)]

/-- Whether it is what a watcher does in a phase. -/
def Fits : Underway → Phase → Prop
  | nothing, .start | nothing, .resting => True
  | dialling, .dialling _ => True
  | session .., .idle .. | session .., .asking .. => True
  | session _ polls, .broken => polls = []
  | awaiting _ _ lines _, .completing _ _ status => status = statusOf lines
  | _, _ => False

theorem eq_nothing_of_fits {u : Underway} {phase : Phase} (h : u.Fits phase)
    (hphase : phase = .start ∨ phase = .resting) : u = .nothing := by
  rcases hphase with rfl | rfl <;> cases u <;> first | rfl | cases h

theorem eq_dialling_of_fits {u : Underway} {reception : Reception}
    (h : u.Fits (.dialling reception)) : u = .dialling := by
  cases u <;> first | rfl | cases h

theorem eq_session_of_fits {u : Underway} {phase : Phase} {s : Session} {ticker : Ticker}
    (h : u.Fits phase) (hphase : phase = .idle s ticker ∨ phase = .asking s ticker) :
    ∃ version polls, u = .session version polls := by
  rcases hphase with rfl | rfl <;> cases u <;> first | exact ⟨_, _, rfl⟩ | cases h

theorem eq_awaiting_of_fits {u : Underway} {s : Session} {ticker : Ticker} {status : Status}
    (h : u.Fits (.completing s ticker status)) :
    ∃ version polls lines song, u = .awaiting version polls lines song ∧
      status = statusOf lines := by
  cases u with
  | awaiting version polls lines song => exact ⟨version, polls, lines, song, rfl, h⟩
  | _ => cases h

theorem eq_opened_of_fits {u : Underway} (h : u.Fits .broken) :
    ∃ version, u = .session version [] := by
  cases u with
  | session version polls =>
    obtain rfl : polls = [] := h
    exact ⟨version, rfl⟩
  | _ => cases h

/-- The watcher is disconnected exactly between two attempts. -/
theorem stage_of_fits {u : Underway} {phase : Phase} (h : u.Fits phase) :
    phase.stage = .disconnected ↔ u = .nothing := by
  cases phase <;> cases u <;> simp_all [Phase.stage, Fits]

/-- A stop ends the attempt under way by its last event. -/
theorem events_cancelled {u : Underway} (h : u ≠ .nothing) (addr : String) :
    u.cancelled.flatMap (Attempt.events addr) =
      u.events addr ++ [.stageChanged addr .disconnected] := by
  cases u with
  | nothing => exact absurd rfl h
  | dialling => rfl
  | session version polls => simp [cancelled, events, Attempt.events, Ending.events]
  | awaiting version polls lines song =>
    simp [cancelled, events, Attempt.events, Ending.events]

theorem occurrences_cancelled (u : Underway) :
    u.cancelled.flatMap Attempt.occurrences = u.occurrences := by
  cases u <;> simp [cancelled, occurrences, Attempt.occurrences, Ending.occurrences]

/-- What becomes of the attempt under way when something occurs: it goes on, or it has ended as an
attempt and nothing is under way. -/
inductive Becomes : Underway → Option Occurrence → List Attempt → Underway → Prop where
  | dialled : Becomes nothing (some .dialled) [] dialling
  | unreached (error : DialError) :
      Becomes dialling (some (.unreached error)) [.unreached error] nothing
  | greeted (version : String) :
      Becomes dialling (some (.greeted version)) [] (session version [])
  | ticked (version : String) (polls : List Poll) :
      Becomes (session version polls) none [] (session version polls)
  | failed (version : String) (polls : List Poll) (error : RequestError) :
      Becomes (session version polls) (some (.status (.error error)))
        [.session version polls (.failed error)] nothing
  | answered (version : String) (polls : List Poll) (poll : Poll) (no_song : poll.song = none) :
      Becomes (session version polls) (some (.status (.ok poll.lines))) []
        (session version (polls ++ [poll]))
  | awaiting (version : String) (polls : List Poll) (lines : List String)
      (song : (statusOf lines).hasCurrentSong = true) :
      Becomes (session version polls) (some (.status (.ok lines))) []
        (awaiting version polls lines song)
  | completed (version : String) (polls : List Poll) (poll : Poll)
      (reply : Except RequestError (List String))
      (song : (statusOf poll.lines).hasCurrentSong = true) (replied : poll.song = some reply) :
      Becomes (awaiting version polls poll.lines song) (some (.song reply)) []
        (session version (polls ++ [poll]))

end Underway

namespace Watcher

/-- What a watcher has announced and learnt so far is that of the attempts that have ended and of the
one that is under way. -/
structure Account (w : Watcher) (past : List Occurrence) (ended : List Attempt) (u : Underway) :
    Prop where
  fits : u.Fits w.phase
  not_cancelled : ∀ a ∈ ended, a.isCancelled = false
  announced : w.announced = ended.flatMap (Attempt.events w.addr) ++ u.events w.addr
  learnt : past = ended.flatMap Attempt.occurrences ++ u.occurrences

namespace Account

/-- A step that carries the attempt under way on. -/
theorem goesOn {w next : Watcher} {past more : List Occurrence} {ended : List Attempt}
    {u v : Underway} {news : List Event} {published : Option Status}
    (h : Account w past ended u) (heffect : Effect w news published next)
    (hfits : v.Fits next.phase) (hevents : v.events w.addr = u.events w.addr ++ news)
    (hlearnt : v.occurrences = u.occurrences ++ more) : Account next (past ++ more) ended v where
  fits := hfits
  not_cancelled := h.not_cancelled
  announced := by rw [heffect.announced, heffect.addr, h.announced, hevents, List.append_assoc]
  learnt := by rw [h.learnt, hlearnt, List.append_assoc]

/-- A step that ends the attempt under way. -/
theorem ends {w next : Watcher} {past more : List Occurrence} {ended : List Attempt}
    {u : Underway} {news : List Event} {published : Option Status} {a : Attempt}
    (h : Account w past ended u) (heffect : Effect w news published next)
    (hphase : next.phase = .resting) (ha : a.isCancelled = false)
    (hevents : a.events w.addr = u.events w.addr ++ news)
    (hlearnt : a.occurrences = u.occurrences ++ more) :
    Account next (past ++ more) (ended ++ [a]) .nothing where
  fits := by rw [hphase]; trivial
  not_cancelled b hb := by
    rcases List.mem_append.1 hb with hb | hb
    · exact h.not_cancelled b hb
    · rw [List.mem_singleton.1 hb]
      exact ha
  announced := by
    rw [heffect.announced, heffect.addr, h.announced, List.append_assoc, ← hevents]
    simp [Underway.events]
  learnt := by
    rw [h.learnt, List.append_assoc, ← hlearnt]
    simp [Underway.occurrences]

end Account

/-- Every step carries the attempt under way on or ends it. -/
theorem account_of_step {w next : Watcher} {past : List Occurrence}
    {occurrence : Option Occurrence} {ended : List Attempt} {u : Underway} (hw : w.InOrder)
    (h : Account w past ended u) (hstep : Step w occurrence next) :
    ∃ finished v, u.Becomes occurrence finished v ∧
      Account next (past ++ occurrence.toList) (ended ++ finished) v := by
  obtain ⟨news, published, hmove, heffect, -⟩ := moves_of_step hw hstep
  have hfits := h.fits
  -- An attempt that goes on leaves those that have ended as they are.
  have onwards {v : Underway} (hbecomes : u.Becomes occurrence [] v)
      (hfits : v.Fits next.phase) (hevents : v.events w.addr = u.events w.addr ++ news)
      (hlearnt : v.occurrences = u.occurrences ++ occurrence.toList) :
      ∃ finished v, u.Becomes occurrence finished v ∧
        Account next (past ++ occurrence.toList) (ended ++ finished) v := by
    refine ⟨[], v, hbecomes, ?_⟩
    rw [List.append_nil]
    exact h.goesOn heffect hfits hevents hlearnt
  -- The phase tells what is under way, and the move what becomes of it.
  generalize hphase' : next.phase = phase' at hmove onwards
  cases hmove with
  | dial hphase =>
    obtain rfl := Underway.eq_nothing_of_fits hfits hphase
    exact onwards .dialled trivial rfl rfl
  | @unreached _ error hphase =>
    rw [hphase] at hfits
    obtain rfl := Underway.eq_dialling_of_fits hfits
    exact ⟨_, _, .unreached error, h.ends heffect hphase' rfl rfl rfl⟩
  | @greeted _ version _ _ hphase =>
    rw [hphase] at hfits
    obtain rfl := Underway.eq_dialling_of_fits hfits
    exact onwards (.greeted version) trivial rfl rfl
  | @broken _ version hphase hinterval =>
    rw [hphase] at hfits
    obtain rfl := Underway.eq_dialling_of_fits hfits
    exact onwards (.greeted version) rfl rfl rfl
  | tick hphase =>
    obtain ⟨version, polls, rfl⟩ := Underway.eq_session_of_fits hfits (.inl hphase)
    refine onwards (.ticked version polls) trivial ?_ ?_
    · rw [List.append_nil]
    · exact (List.append_nil _).symm
  | @failed _ _ error hphase =>
    obtain ⟨version, polls, rfl⟩ := Underway.eq_session_of_fits hfits (.inr hphase)
    refine ⟨_, _, .failed version polls error, h.ends heffect hphase' rfl ?_ rfl⟩
    simp [Attempt.events, Underway.events, Ending.events]
  | @answered _ _ _ lines hphase hsong =>
    obtain ⟨version, polls, rfl⟩ := Underway.eq_session_of_fits hfits (.inr hphase)
    let poll : Poll := ⟨lines, none, w.slot.generation + 1, hsong.symm⟩
    refine onwards (.answered version polls poll rfl) trivial ?_ ?_
    · simp [Underway.events, Poll.events, poll, Poll.status]
    · simp [Underway.occurrences, Poll.occurrences, poll]
  | @awaiting _ _ _ lines hphase hsong =>
    obtain ⟨version, polls, rfl⟩ := Underway.eq_session_of_fits hfits (.inr hphase)
    exact onwards (.awaiting version polls lines hsong) rfl rfl rfl
  | @completed _ _ _ _ reply hphase =>
    rw [hphase] at hfits
    obtain ⟨version, polls, lines, hsong, rfl, rfl⟩ := Underway.eq_awaiting_of_fits hfits
    let poll : Poll := ⟨lines, some reply, w.slot.generation + 1, hsong.symm⟩
    refine onwards (.completed version polls poll reply hsong rfl) trivial ?_ ?_
    · simp [Underway.events, Poll.events, poll, Poll.status]
    · simp [Underway.occurrences, Poll.occurrences, poll]

/-- A watcher that has not begun has nothing to account for. -/
theorem account_of_start (addr : String) (pace : Pace) (network : Network) (slot : Slot) :
    Account { addr, pace, network, slot } [] [] .nothing where
  fits := trivial
  not_cancelled := by simp
  announced := rfl
  learnt := rfl

theorem account_of_run {w : Watcher} {past : List Occurrence} {ended : List Attempt} {u : Underway}
    (hw : w.InOrder) (h : Account w past ended u) (n : Nat) :
    (w.run n).InOrder ∧ ∃ ended' u', Account (w.run n) (past ++ w.history n) ended' u' := by
  refine run_keeps (P := fun w past => ∃ ended u, Account w past ended u) ?_ hw ⟨ended, u, h⟩ n
  rintro w next past occurrence hw ⟨ended, u, h⟩ hstep
  obtain ⟨finished, v, -, hnext⟩ := account_of_step hw h hstep
  exact ⟨_, v, hnext⟩

/-- A stop turns the attempt under way into one that was cancelled. -/
theorem announced_stop {w : Watcher} {past : List Occurrence} {ended : List Attempt} {u : Underway}
    (hw : w.InOrder) (h : Account w past ended u) :
    w.stop.announced = (ended ++ u.cancelled).flatMap (Attempt.events w.addr) := by
  have hstage : w.stage = .disconnected ↔ u = .nothing := by
    rw [hw.stage]
    exact Underway.stage_of_fits h.fits
  -- Between two attempts a stop announces nothing, since no stage is announced twice in a row.
  by_cases hu : u = .nothing
  · rw [stop, enter, if_pos (hstage.2 hu), h.announced, hu]
    simp [Underway.cancelled, Underway.events]
  · have hgoing : w.stage ≠ .disconnected := fun hdone => hu (hstage.1 hdone)
    rw [stop, (Effect.enter hgoing).announced, h.announced, List.append_assoc,
      ← Underway.events_cancelled hu, List.flatMap_append]

/-- Of the attempts at a stop only the last can have been cancelled by it. -/
theorem not_cancelled_of_dropLast {w : Watcher} {past : List Occurrence} {ended : List Attempt}
    {u : Underway} (h : Account w past ended u) :
    ∀ a ∈ (ended ++ u.cancelled).dropLast, a.isCancelled = false := by
  have hended : ∀ a ∈ ended.dropLast, a.isCancelled = false := fun a ha =>
    h.not_cancelled a (List.dropLast_subset _ ha)
  cases u with
  | nothing => simpa [Underway.cancelled] using hended
  | _ => simpa [Underway.cancelled] using h.not_cancelled

/-- **The events of a watcher are its attempts.** Whatever the dials meet and whenever the watcher is
stopped, what it announced is what its attempts announce, one after the other, and they are the
attempts that made up what it learnt; only the last of them may have been cancelled by the stop. No
stage is announced twice in a row. A watcher without a period fails after its first greeting, and
only such a watcher does. -/
theorem announces_attempts (addr : String) (pace : Pace) (network : Network) (slot : Slot)
    (n : Nat) :
    let w : Watcher := { addr, pace, network, slot }
    let v := w.run n
    (v.phase ≠ .broken → ∃ attempts : List Attempt,
      v.stop.announced = attempts.flatMap (Attempt.events addr) ∧
      w.history n = attempts.flatMap Attempt.occurrences ∧
      (∀ a ∈ attempts.dropLast, a.isCancelled = false) ∧
      (v.stop.announced.filterMap Event.stage?).IsChain (· ≠ ·)) ∧
    (v.phase = .broken → pace.interval = 0 ∧ ∃ (attempts : List Attempt) (version : String),
      v.announced = attempts.flatMap (Attempt.events addr) ++ opening addr version ∧
      w.history n = attempts.flatMap Attempt.occurrences ++ [.dialled, .greeted version] ∧
      ∀ a ∈ attempts, a.isCancelled = false) := by
  intro w v
  have hw : w.InOrder := inOrder_of_start addr pace network slot
  obtain ⟨hv, ended, u, h⟩ := account_of_run hw (account_of_start addr pace network slot) n
  obtain ⟨haddr, -, hperiod⟩ := run_stays hw (by simp [w]) n
  have hlearnt : w.history n = ended.flatMap Attempt.occurrences ++ u.occurrences := h.learnt
  constructor
  · intro _
    have hevents : v.stop.announced = (ended ++ u.cancelled).flatMap (Attempt.events addr) := by
      rw [announced_stop hv h, haddr]
    refine ⟨ended ++ u.cancelled, hevents, ?_, not_cancelled_of_dropLast h, ?_⟩
    · rw [hlearnt, List.flatMap_append, Underway.occurrences_cancelled]
    · rw [hevents, List.filterMap_flatMap]
      simp only [Attempt.stages_events]
      exact isChain_stages _
  · intro hbroken
    have hfits : u.Fits .broken := hbroken ▸ h.fits
    obtain ⟨version, rfl⟩ := Underway.eq_opened_of_fits hfits
    refine ⟨hperiod hbroken, ended, version, ?_, hlearnt, h.not_cancelled⟩
    have hevents := h.announced
    rw [haddr] at hevents
    simpa [Underway.events] using hevents

end Watcher

end PlayerWatch
