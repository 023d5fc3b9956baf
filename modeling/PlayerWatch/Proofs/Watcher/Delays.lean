import PlayerWatch.Proofs.Watcher.Spans
import PlayerWatch.Proofs.Watcher.Waiting

/-!
# Delays that stay in range

A watcher whose first wait is no longer than its longest one keeps every wait between the two, and
each of its tickers has the period of its pace. The **invariant** is `Timely` (`timely_of_run`); what a
watcher really waits is one of these (`exists_delay_of_mem_waits`).
-/

namespace PlayerWatch

/-- The ticker of a phase, if there is one. -/
def Phase.ticker? : Phase → Option Ticker
  | idle _ ticker | asking _ ticker | completing _ ticker _ => some ticker
  | _ => none

namespace Watcher

/-- The next wait is in the range of the backoff, and a ticker has the period of the pace. -/
structure Timely (w : Watcher) : Prop where
  initial_le : w.pace.backoff.initial ≤ w.delay
  le_max : w.delay ≤ w.pace.backoff.max
  period : ∀ ticker, w.phase.ticker? = some ticker → ticker.period = w.pace.interval

variable {w next : Watcher}

theorem ticker?_welcome {c : Connection} {ticker : Ticker}
    (h : (w.welcome c).phase.ticker? = some ticker) : ticker.period = w.pace.interval := by
  dsimp only [welcome] at h
  split at h
  · cases h
  · rw [enter_eq] at h
    obtain rfl := Option.some.inj h
    rfl

/-- A step that leaves the next wait alone. -/
theorem Timely.of_delay (h : w.Timely) (hpace : next.pace = w.pace) (hdelay : next.delay = w.delay)
    (hticker : ∀ ticker, next.phase.ticker? = some ticker → ticker.period = w.pace.interval) :
    next.Timely where
  initial_le := by
    rw [hpace, hdelay]
    exact h.initial_le
  le_max := by
    rw [hpace, hdelay]
    exact h.le_max
  period := by
    rw [hpace]
    exact hticker

/-- A step that carries the session on with the same period. -/
theorem Timely.goesOn (h : w.Timely) (hpace : next.pace = w.pace) (hdelay : next.delay = w.delay)
    {ticker ticker' : Ticker} (hwas : w.phase.ticker? = some ticker)
    (his : next.phase.ticker? = some ticker') (hperiod : ticker'.period = ticker.period) :
    next.Timely := by
  apply h.of_delay hpace hdelay
  intro t ht
  obtain rfl : ticker' = t := Option.some.inj (his.symm.trans ht)
  rw [hperiod]
  exact h.period ticker hwas

/-- Every step keeps the next wait in range. -/
theorem timely_of_step {occurrence : Option Occurrence} (hw : w.InOrder) (h : w.Timely)
    (hstep : Step w occurrence next) : next.Timely := by
  obtain ⟨_, _, -, heffect, -⟩ := moves_of_step hw hstep
  have hpace := heffect.pace
  have hinitial := h.initial_le
  have hmax := h.le_max
  cases hstep with
  | start phase => exact h.of_delay hpace (delay_dial w) (by rintro _ ⟨⟩)
  | resting phase =>
    have hdelay : ({ w.elapse w.delay with delay := w.pace.backoff.next w.delay }.dial).delay =
        w.pace.backoff.next w.delay := delay_dial _
    refine ⟨?_, ?_, by rintro _ ⟨⟩⟩
    · rw [hpace, hdelay, Backoff.next]
      omega
    · rw [hpace, hdelay]
      exact Nat.min_le_right _ _
  | unreached phase greet => exact h.of_delay hpace (delay_rest _) (by rintro _ ⟨⟩)
  | greeted phase greet => exact h.of_delay hpace (delay_welcome _ _) fun _ => ticker?_welcome
  | @tick session ticker phase =>
    have hwas : w.phase.ticker? = some ticker := by rw [phase]; rfl
    exact h.goesOn hpace rfl hwas rfl rfl
  | @failed session _ t x error phase asked reply =>
    have hdelay : ((w.elapse t).giveUp (session.after x) error).delay =
        if session.polls = 0 then w.delay else w.pace.backoff.initial := delay_giveUp _ _ _
    refine ⟨?_, ?_, by rintro _ ⟨⟩⟩
    · rw [hpace, hdelay]
      split
      · exact hinitial
      · exact le_rfl
    · rw [hpace, hdelay]
      split
      · exact hmax
      · exact Nat.le_trans hinitial hmax
  | answered phase asked reply no_song => exact h.goesOn hpace rfl (by rw [phase]; rfl) rfl rfl
  | awaiting phase asked reply song => exact h.goesOn hpace rfl (by rw [phase]; rfl) rfl rfl
  | completed phase asked => exact h.goesOn hpace rfl (by rw [phase]; rfl) rfl rfl

/-- **The next wait stays in range all along a run.** -/
theorem timely_of_run (hw : w.InOrder) (h : w.Timely) (n : Nat) : (w.run n).Timely := by
  let P (v : Watcher) (_ : List Occurrence) : Prop := v.Timely
  have hrun : (w.run n).InOrder ∧ P (w.run n) ([] ++ w.history n) := by
    refine run_keeps ?_ hw h n
    intro v next past occurrence hv htimely hstep
    exact timely_of_step hv htimely hstep
  exact hrun.2

theorem timely_of_start (addr : String) (pace : Pace) (network : Network) (slot : Slot)
    (hpace : pace.backoff.initial ≤ pace.backoff.max) : Timely { addr, pace, network, slot } :=
  ⟨le_rfl, hpace, nofun⟩

/-- Each wait of a run was the next one at some point before. -/
theorem exists_delay_of_mem_waits {n d : Nat} (h : d ∈ w.waits n) : ∃ m < n, (w.run m).delay = d := by
  induction n with
  | zero => cases h
  | succ n ih =>
    rw [waits_succ] at h
    rcases List.mem_append.1 h with h | h
    · obtain ⟨m, hm, hd⟩ := ih h
      exact ⟨m, Nat.lt_succ_of_lt hm, hd⟩
    · refine ⟨n, Nat.lt_succ_self n, ?_⟩
      -- Only a watcher that rests waits, and its next step is to dial.
      cases hphase : (w.run n).phase with
      | resting =>
        simp only [step?, hphase, Option.elim_some, waited, now_dial, elapse, List.mem_singleton,
          Nat.add_sub_cancel_left] at h
        exact h.symm
      | _ =>
        obtain ⟨hnothing, -⟩ := active_of_phase (w := w.run n) (by simp [hphase])
        cases hstep : (w.run n).step? <;> simp [hstep, hnothing] at h

end Watcher

end PlayerWatch
