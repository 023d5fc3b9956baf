import PlayerWatch.Proofs.Network
import PlayerWatch.Proofs.Watcher.Steps

/-!
# The moves of a watcher

`Move` is the transition table of a watcher: what may occur in each phase, what is announced then,
which status is published, and which phase comes next. Every step makes one of these moves and keeps
the watcher in order (`moves_of_step`); its effect on all but the phase is an `Effect`. What every step
keeps holds all along a run (`run_keeps`).
-/

namespace PlayerWatch

namespace Watcher

/-- All that was announced, in order. -/
def announced (w : Watcher) : List Event := w.events.map Prod.snd

/-- The transition table of a watcher: what occurs, what is announced, which status is published, and
the phase that comes next. -/
inductive Move (w : Watcher) :
    Option Occurrence → List Event → Option Status → Phase → Prop where
  | dial {reception : Reception} (phase : w.phase = .start ∨ w.phase = .resting) :
      Move w (some .dialled) [.stageChanged w.addr .connecting] none (.dialling reception)
  | unreached {reception : Reception} {error : DialError} (phase : w.phase = .dialling reception) :
      Move w (some (.unreached error)) [.stageChanged w.addr .disconnected] none .resting
  | greeted {reception : Reception} {version : String} {session : Session} {ticker : Ticker}
      (phase : w.phase = .dialling reception) :
      Move w (some (.greeted version))
        [.connected w.addr version, .stageChanged w.addr .polling] none (.idle session ticker)
  | broken {reception : Reception} {version : String} (phase : w.phase = .dialling reception)
      (no_period : w.pace.interval = 0) :
      Move w (some (.greeted version))
        [.connected w.addr version, .stageChanged w.addr .polling] none .broken
  | tick {session : Session} {ticker next : Ticker} (phase : w.phase = .idle session ticker) :
      Move w none [] none (.asking session next)
  | failed {session : Session} {ticker : Ticker} {error : RequestError}
      (phase : w.phase = .asking session ticker) :
      Move w (some (.status (.error error)))
        [.disconnected w.addr error.message, .stageChanged w.addr .disconnected] none .resting
  | answered {session next : Session} {ticker : Ticker} {lines : List String}
      (phase : w.phase = .asking session ticker) (no_song : (statusOf lines).hasCurrentSong = false) :
      Move w (some (.status (.ok lines)))
        (statusReports lines ++
          [.statusUpdated w.addr (w.slot.generation + 1) (statusOf lines).state])
        (some (statusOf lines)) (.idle next ticker)
  | awaiting {session next : Session} {ticker : Ticker} {lines : List String}
      (phase : w.phase = .asking session ticker) (song : (statusOf lines).hasCurrentSong = true) :
      Move w (some (.status (.ok lines))) (statusReports lines) none
        (.completing next ticker (statusOf lines))
  | completed {session next : Session} {ticker : Ticker} {status : Status}
      {reply : Except RequestError (List String)}
      (phase : w.phase = .completing session ticker status) :
      Move w (some (.song reply))
        (songReports w.addr reply ++
          [.statusUpdated w.addr (w.slot.generation + 1) (status.withReply reply).state])
        (some (status.withReply reply)) (.idle next ticker)

theorem Move.interval_eq_zero {w : Watcher} {occurrence : Option Occurrence} {news : List Event}
    {published : Option Status} (h : Move w occurrence news published .broken) :
    w.pace.interval = 0 := by
  cases h with
  | broken _ no_period => exact no_period

/-- What a step does to all but the phase. -/
structure Effect (w : Watcher) (news : List Event) (published : Option Status) (next : Watcher) :
    Prop where
  announced : next.announced = w.announced ++ news
  slot : next.slot = published.elim w.slot w.slot.publish
  addr : next.addr = w.addr
  pace : next.pace = w.pace

/-! ### The parts of a step -/

@[simp] theorem announced_announce (w : Watcher) (events : List Event) :
    (w.announce events).announced = w.announced ++ events := by
  simp [announced, announce, Function.comp_def]

/-- Entering a stage changes the stage and the events and nothing else. -/
theorem enter_eq (w : Watcher) (stage : Stage) :
    w.enter stage = { w with stage, events := (w.enter stage).events } := by
  unfold enter
  split
  · next h => rw [← h]
  · rfl

namespace Effect

/-- What is done before a status is published, or without one. -/
theorem trans {u v w : Watcher} {news more : List Event} {published : Option Status}
    (h : Effect u news none v) (h' : Effect v more published w) :
    Effect u (news ++ more) published w where
  announced := by rw [h'.announced, h.announced, List.append_assoc]
  slot := by rw [h'.slot, h.slot]; rfl
  addr := h'.addr.trans h.addr
  pace := h'.pace.trans h.pace

/-- Time that passes changes nothing else. -/
theorem of_elapse {w next : Watcher} {t : Nat} {news : List Event} {published : Option Status}
    (h : Effect (w.elapse t) news published next) : Effect w news published next :=
  ⟨h.announced, h.slot, h.addr, h.pace⟩

theorem announce (w : Watcher) (events : List Event) : Effect w events none (w.announce events) :=
  ⟨announced_announce w events, rfl, rfl, rfl⟩

theorem enter {w : Watcher} {stage : Stage} (h : w.stage ≠ stage) :
    Effect w [.stageChanged w.addr stage] none (w.enter stage) := by
  unfold Watcher.enter
  rw [if_neg h]
  exact ⟨announced_announce w _, rfl, rfl, rfl⟩

theorem dial {w : Watcher} (h : w.stage ≠ .connecting) :
    Effect w [.stageChanged w.addr .connecting] none w.dial := by
  have henter := enter h
  exact ⟨henter.announced, henter.slot, henter.addr, henter.pace⟩

theorem rest {w : Watcher} (h : w.stage ≠ .disconnected) :
    Effect w [.stageChanged w.addr .disconnected] none w.rest := by
  have henter := enter h
  exact ⟨henter.announced, henter.slot, henter.addr, henter.pace⟩

theorem giveUp {w : Watcher} (h : w.stage ≠ .disconnected) (session : Session)
    (error : RequestError) :
    Effect w [.disconnected w.addr error.message, .stageChanged w.addr .disconnected] none
      (w.giveUp session error) := by
  let u := { w with delay := if session.polls = 0 then w.delay else w.pace.backoff.initial }
  have htold : Effect w [.disconnected w.addr error.message] none
      (u.announce [.disconnected u.addr error.message]) :=
    ⟨announced_announce u _, rfl, rfl, rfl⟩
  exact htold.trans (rest h)

theorem publish (w : Watcher) (session : Session) (ticker : Ticker) (status : Status) :
    Effect w [.statusUpdated w.addr (w.slot.generation + 1) status.state] (some status)
      (w.publish session ticker status) :=
  ⟨announced_announce _ _, rfl, rfl, rfl⟩

theorem welcome {w : Watcher} (h : w.stage ≠ .polling) (c : Connection) :
    Effect w [.connected w.addr c.version, .stageChanged w.addr .polling] none (w.welcome c) := by
  have htold : Effect w [.connected w.addr c.version, .stageChanged w.addr .polling] none
      ((w.announce [.connected w.addr c.version]).enter .polling) :=
    (announce w [.connected w.addr c.version]).trans (enter h)
  dsimp only [Watcher.welcome]
  split
  · exact ⟨htold.announced, htold.slot, htold.addr, htold.pace⟩
  · exact ⟨htold.announced, htold.slot, htold.addr, htold.pace⟩

end Effect

theorem stage_enter (w : Watcher) (stage : Stage) : (w.enter stage).stage = stage := by
  rw [enter_eq]

/-- After a greeting the first tick is waited for, unless there is no ticker. -/
theorem phase_welcome (w : Watcher) (c : Connection) :
    w.pace.interval = 0 ∧ (w.welcome c).phase = .broken ∨
      ∃ ticker, (w.welcome c).phase = .idle ⟨⟨c, true⟩, 0⟩ ticker := by
  dsimp only [welcome]
  split
  · next hinterval =>
    rw [enter_eq] at hinterval
    exact .inl ⟨hinterval, rfl⟩
  · exact .inr ⟨_, rfl⟩

theorem stage_welcome (w : Watcher) (c : Connection) : (w.welcome c).stage = .polling := by
  dsimp only [welcome]
  split
  · exact stage_enter _ _
  · exact stage_enter _ _

/-! ### Watchers stay in order -/

namespace InOrder

theorem stage_ne {w : Watcher} {stage : Stage} (hw : w.InOrder) (h : w.phase.stage ≠ stage) :
    w.stage ≠ stage := by
  rw [hw.stage]
  exact h

/-- Without a session a watcher is in order if its stage is. -/
theorem of_stage {w : Watcher} (hstage : w.stage = w.phase.stage)
    (hsession : w.phase.session? = none) : w.InOrder := by
  refine ⟨hstage, fun session h => ?_⟩
  rw [hsession] at h
  cases h

/-- With a session a watcher is in order if it polls and the session is with the player. -/
theorem of_session {w : Watcher} {session : Session} (hstage : w.stage = w.phase.stage)
    (hsession : w.phase.session? = some session)
    (hwith : session.client.announces = true ∧ session.client.connection.addr = w.addr) :
    w.InOrder := by
  refine ⟨hstage, fun s h => ?_⟩
  obtain rfl : session = s := by simpa [hsession] using h
  exact hwith

/-- A session is still with the same player after a request. -/
theorem session_after {w : Watcher} {session : Session} {request : Request} {t : Nat} {x : Exchange}
    (h : w.InOrder) (hsession : w.phase.session? = some session)
    (hx : session.client.connection.execute request = .after t x) :
    (session.after x).client.announces = true ∧
      (session.after x).client.connection.addr = w.addr := by
  obtain ⟨hannounces, haddr⟩ := h.session session hsession
  exact ⟨hannounces, (Connection.addr_of_executeLine hx).trans haddr⟩

end InOrder

theorem addr_of_greet {reception : Reception} {addr : String} {limit : Option Nat} {t : Nat}
    {c : Connection} (h : reception.greet addr limit = .after t (.ok c)) : c.addr = addr := by
  obtain ⟨peer, rfl, hshake⟩ := Reception.accepted_of_greet h
  obtain ⟨_, -, hgreet⟩ := Wait.map_eq_after_iff.1 hshake
  obtain ⟨_, _, _, -, -, rfl⟩ := Connection.greet_eq_ok hgreet
  rfl

/-! ### Every step is a move -/

/-- **Every step makes one of the moves** and leaves a watcher that is in order. -/
theorem moves_of_step {w next : Watcher} {occurrence : Option Occurrence} (hw : w.InOrder)
    (h : Step w occurrence next) :
    ∃ news published, Move w occurrence news published next.phase ∧
      Effect w news published next ∧ next.InOrder := by
  have hstage := hw.stage
  cases h with
  | start phase =>
    have hdial : w.stage ≠ .connecting := hw.stage_ne (by simp [phase, Phase.stage])
    exact ⟨_, _, .dial (.inl phase), .dial hdial, .of_stage (stage_enter _ _) rfl⟩
  | resting phase =>
    have hdial : w.stage ≠ .connecting := hw.stage_ne (by simp [phase, Phase.stage])
    let u := { w.elapse w.delay with delay := w.pace.backoff.next w.delay }
    have heffect : Effect u [.stageChanged u.addr .connecting] none u.dial := .dial hdial
    exact ⟨_, _, .dial (.inr phase), ⟨heffect.announced, heffect.slot, heffect.addr, heffect.pace⟩,
      .of_stage (stage_enter _ _) rfl⟩
  | @unreached _ t _ phase greet =>
    have hrest : (w.elapse t).stage ≠ .disconnected := hw.stage_ne (by simp [phase, Phase.stage])
    exact ⟨_, _, .unreached phase, (Effect.rest hrest).of_elapse, .of_stage (stage_enter _ _) rfl⟩
  | @greeted _ t c phase greet =>
    have hwelcome : (w.elapse t).stage ≠ .polling := hw.stage_ne (by simp [phase, Phase.stage])
    have heffect := (Effect.welcome hwelcome c).of_elapse
    -- Without a period all is announced as ever, but there is no ticker to wait for.
    rcases phase_welcome (w.elapse t) c with ⟨hinterval, hbroken⟩ | ⟨ticker, hidle⟩
    · refine ⟨_, _, ?_, heffect, .of_stage ?_ (by rw [hbroken]; rfl)⟩
      · rw [hbroken]
        exact .broken phase hinterval
      · rw [stage_welcome, hbroken]
        rfl
    · refine ⟨_, _, ?_, heffect, .of_session ?_ (by rw [hidle]; rfl) ?_⟩
      · rw [hidle]
        exact .greeted phase
      · rw [stage_welcome, hidle]
        rfl
      · exact ⟨rfl, (addr_of_greet greet).trans heffect.addr.symm⟩
  | tick phase =>
    rw [phase] at hstage
    exact ⟨_, _, .tick phase, ⟨(List.append_nil _).symm, rfl, rfl, rfl⟩,
      .of_session hstage rfl (hw.session _ (by rw [phase]; rfl))⟩
  | @failed _ _ t _ error phase asked reply =>
    have hgoing : (w.elapse t).stage ≠ .disconnected := hw.stage_ne (by simp [phase, Phase.stage])
    exact ⟨_, _, .failed phase, (Effect.giveUp hgoing _ error).of_elapse,
      .of_stage (stage_enter _ _) rfl⟩
  | @answered _ _ t _ lines phase asked reply no_song =>
    rw [phase] at hstage
    have htold := (Effect.announce (w.elapse t) (statusReports lines)).of_elapse
    exact ⟨_, _, .answered phase no_song, htold.trans (.publish _ _ _ _),
      .of_session hstage rfl (hw.session_after (by rw [phase]; rfl) asked)⟩
  | @awaiting _ _ t _ lines phase asked reply song =>
    rw [phase] at hstage
    have htold := (Effect.announce (w.elapse t) (statusReports lines)).of_elapse
    exact ⟨_, _, .awaiting phase song, ⟨htold.announced, htold.slot, htold.addr, htold.pace⟩,
      .of_session hstage rfl (hw.session_after (by rw [phase]; rfl) asked)⟩
  | @completed _ _ _ t x phase asked =>
    rw [phase] at hstage
    have htold := (Effect.announce (w.elapse t) (songReports w.addr x.result)).of_elapse
    exact ⟨_, _, .completed phase, htold.trans (.publish _ _ _ _),
      .of_session hstage rfl (hw.session_after (by rw [phase]; rfl) asked)⟩

/-! ### Runs -/

/-- What every step keeps, given what has been learnt so far, holds all along a run. -/
theorem run_keeps {P : Watcher → List Occurrence → Prop}
    (hstep : ∀ {w next : Watcher} {past : List Occurrence} {occurrence : Option Occurrence},
      w.InOrder → P w past → Step w occurrence next → P next (past ++ occurrence.toList))
    {w : Watcher} {past : List Occurrence} (hw : w.InOrder) (h : P w past) (n : Nat) :
    (w.run n).InOrder ∧ P (w.run n) (past ++ w.history n) := by
  -- The past grows with each step, so it has to be general.
  induction n generalizing w past with
  | zero => exact ⟨hw, by simpa [run, history] using h⟩
  | succ n ih =>
    rw [run, history]
    cases hnext : w.step? with
    | none => exact ⟨hw, by simpa using h⟩
    | some next =>
      have htaken : Step w w.occurrence? next := (step_iff hw).2 ⟨hnext, rfl⟩
      obtain ⟨_, _, -, -, hnext⟩ := moves_of_step hw htaken
      have hrest := ih hnext (hstep hw h htaken)
      rwa [List.append_assoc] at hrest

theorem run_of_step {w next : Watcher} {occurrence : Option Occurrence} (hw : w.InOrder)
    (h : Step w occurrence next) (n : Nat) : w.run (n + 1) = next.run n := by
  rw [run, h.step?_eq hw]

/-- A watcher that has not begun is in order. -/
theorem inOrder_of_start (addr : String) (pace : Pace) (network : Network) (slot : Slot) :
    InOrder { addr, pace, network, slot } := .of_stage rfl rfl

/-- A watcher stays with its player and its pace, and fails for good only if it has no period. -/
theorem run_stays {w : Watcher} (hw : w.InOrder) (hphase : w.phase ≠ .broken) (n : Nat) :
    (w.run n).addr = w.addr ∧ (w.run n).pace = w.pace ∧
      ((w.run n).phase = .broken → w.pace.interval = 0) := by
  let P (v : Watcher) (_ : List Occurrence) : Prop :=
    v.addr = w.addr ∧ v.pace = w.pace ∧ (v.phase = .broken → w.pace.interval = 0)
  have hstart : P w [] := ⟨rfl, rfl, fun h => absurd h hphase⟩
  have hrun : (w.run n).InOrder ∧ P (w.run n) ([] ++ w.history n) := by
    refine run_keeps ?_ hw hstart n
    rintro v next past occurrence hv ⟨haddr, hpace, -⟩ hstep
    obtain ⟨news, published, hmove, heffect, -⟩ := moves_of_step hv hstep
    refine ⟨heffect.addr.trans haddr, heffect.pace.trans hpace, fun hbroken => ?_⟩
    rw [hbroken] at hmove
    rw [← hpace]
    exact hmove.interval_eq_zero
  exact hrun.2

end Watcher

end PlayerWatch
