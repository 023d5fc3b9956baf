import PlayerWatch.Proofs.Watcher.Attempts

/-!
# Waiting between attempts

After every attempt a watcher waits before it dials again. How long is settled by the attempts alone:
`Backoff.schedule` has one wait for each, twice the one before up to the longest, and anew from the
first one after a session that brought a status. The **invariant** is `Paced`: the waits so far,
together with the one that the watcher is about to make, are those of the attempts that have ended. So
each wait has a closed form (`waits_double_until_reset`).
-/

namespace PlayerWatch

/-- Whether an attempt brought a status. -/
def Attempt.broughtStatus : Attempt → Bool
  | session _ polls _ => !polls.isEmpty
  | _ => false

/-- The polls of the session under way. -/
def Underway.polls : Underway → List Poll
  | session _ polls | awaiting _ polls _ _ => polls
  | _ => []

/-! ### The waits that attempts call for -/

namespace Backoff

variable {b : Backoff}

/-- The wait after an attempt; `due` is the one that it would be if nothing had been brought. -/
def waitAfter (b : Backoff) (due : Nat) (a : Attempt) : Nat :=
  if a.broughtStatus then b.initial else due

/-- The waits after attempts, one for each; `due` is the next one if nothing is brought. -/
def schedule (b : Backoff) : Nat → List Attempt → List Nat
  | _, [] => []
  | due, a :: rest => b.waitAfter due a :: b.schedule (b.next (b.waitAfter due a)) rest

/-- What is due after attempts and their waits. -/
def dueAfter (b : Backoff) (due : Nat) (attempts : List Attempt) : Nat :=
  attempts.foldl (fun due a => b.next (b.waitAfter due a)) due

theorem length_schedule (due : Nat) (attempts : List Attempt) :
    (b.schedule due attempts).length = attempts.length := by
  induction attempts generalizing due with
  | nil => rfl
  | cons a rest ih => rw [schedule, List.length_cons, ih, List.length_cons]

theorem schedule_append (due : Nat) (attempts : List Attempt) (a : Attempt) :
    b.schedule due (attempts ++ [a]) =
      b.schedule due attempts ++ [b.waitAfter (b.dueAfter due attempts) a] := by
  induction attempts generalizing due with
  | nil => rfl
  | cons first rest ih =>
    rw [List.cons_append, schedule, ih, schedule, List.cons_append]
    rfl

theorem dueAfter_append (due : Nat) (attempts : List Attempt) (a : Attempt) :
    b.dueAfter due (attempts ++ [a]) = b.next (b.waitAfter (b.dueAfter due attempts) a) := by
  rw [dueAfter, List.foldl_append]
  rfl

/-- The first wait of all is the first one of the backoff, whatever the first attempt brought. -/
theorem schedule_first {attempts : List Attempt} {d : Nat}
    (hd : (b.schedule b.initial attempts)[0]? = some d) : d = b.initial := by
  cases attempts with
  | nil => cases hd
  | cons a rest =>
    rw [schedule, List.getElem?_cons_zero, waitAfter, ite_self] at hd
    exact (Option.some.inj hd).symm

/-- Each wait follows from the one before and the attempt in between. -/
theorem schedule_succ {attempts : List Attempt} {due i d e : Nat}
    (hd : (b.schedule due attempts)[i]? = some d) (he : (b.schedule due attempts)[i + 1]? = some e) :
    ∃ a, attempts[i + 1]? = some a ∧ e = b.waitAfter (b.next d) a := by
  induction attempts generalizing due i with
  | nil => cases hd
  | cons a rest ih =>
    rw [schedule] at hd he
    cases i with
    | zero =>
      obtain rfl := by simpa using hd
      cases rest with
      | nil => cases he
      | cons next rest =>
        obtain rfl := by simpa [schedule] using he
        exact ⟨next, rfl, rfl⟩
    | succ i =>
      obtain ⟨a', ha', rfl⟩ := ih (by simpa using hd) (by simpa using he)
      exact ⟨a', by simpa using ha', rfl⟩

/-- Each wait is as many doublings away from the first one as there were waits since the waits began
anew: at the start, or after the last attempt that brought a status. -/
theorem schedule_eq_delay {attempts : List Attempt} {i d : Nat}
    (hd : (b.schedule b.initial attempts)[i]? = some d) :
    ∃ j ≤ i, (j = 0 ∨ attempts[j]?.any Attempt.broughtStatus = true) ∧
      (∀ m, j < m → m ≤ i → attempts[m]?.any Attempt.broughtStatus = false) ∧
      d = b.delay (i - j) := by
  induction i generalizing d with
  | zero =>
    refine ⟨0, le_rfl, .inl rfl, fun m hm hm' => by omega, ?_⟩
    rw [schedule_first hd, delay]
  | succ i ih =>
    obtain ⟨before, hbefore⟩ : ∃ before, (b.schedule b.initial attempts)[i]? = some before := by
      have hlength := (List.getElem?_eq_some_iff.1 hd).1
      exact ⟨_, List.getElem?_eq_getElem (Nat.lt_of_succ_lt hlength)⟩
    obtain ⟨a, ha, rfl⟩ := schedule_succ hbefore hd
    cases hbrought : a.broughtStatus with
    | true =>
      refine ⟨i + 1, le_rfl, .inr (by simp [ha, hbrought]), fun m hm hm' => by omega, ?_⟩
      rw [waitAfter, if_pos hbrought, Nat.sub_self, delay]
    | false =>
      obtain ⟨j, hj, hbegan, hsince, rfl⟩ := ih hbefore
      refine ⟨j, Nat.le_succ_of_le hj, hbegan, ?_, ?_⟩
      · intro m hm hm'
        rcases Nat.le_succ_iff.1 hm' with hm' | rfl
        · exact hsince m hm hm'
        · simp [ha, hbrought]
      · rw [waitAfter, if_neg (by simp [hbrought]), Nat.succ_sub hj, delay]

theorem delay_range (h : b.initial ≤ b.max) (k : Nat) :
    b.initial ≤ b.delay k ∧ b.delay k ≤ b.max := by
  rw [delay_eq_min h]
  have hpos : 0 < Number.twoTo k := Nat.two_pow_pos k
  exact ⟨Nat.le_min.2 ⟨Nat.le_mul_of_pos_right _ hpos, h⟩, Nat.min_le_right _ _⟩

/-- After an attempt that brought a status the wait is the first one. -/
theorem schedule_of_brought {attempts : List Attempt} {i d : Nat}
    (hd : (b.schedule b.initial attempts)[i]? = some d)
    (hbrought : attempts[i]?.any Attempt.broughtStatus = true) : d = b.initial := by
  obtain ⟨j, hj, -, hsince, rfl⟩ := schedule_eq_delay hd
  have hlast : ¬ j < i := by
    intro hlt
    rw [hsince i hlt le_rfl] at hbrought
    cases hbrought
  rw [Nat.le_antisymm hj (Nat.not_lt.1 hlast), Nat.sub_self, delay]

/-- After any other attempt the wait is the one that follows the wait before. -/
theorem schedule_of_not_brought {attempts : List Attempt} {due i d e : Nat}
    (hd : (b.schedule due attempts)[i]? = some d) (he : (b.schedule due attempts)[i + 1]? = some e)
    (hnot : attempts[i + 1]?.any Attempt.broughtStatus = false) : e = b.next d := by
  obtain ⟨a, ha, rfl⟩ := schedule_succ hd he
  have hbrought : a.broughtStatus = false := by simpa [ha] using hnot
  rw [waitAfter, if_neg (by simp [hbrought])]

end Backoff

namespace Watcher

/-! ### The waits of a run -/

/-- The wait in a step: the time that passes in one that a watcher takes from its rest. -/
def waited (w next : Watcher) : List Nat :=
  match w.phase with
  | .resting => [next.now - w.now]
  | _ => []

/-- The waits in the first so many steps. -/
def waits (w : Watcher) : Nat → List Nat
  | 0 => []
  | n + 1 => match w.step? with
    | some next => w.waited next ++ next.waits n
    | none => []

/-- The wait that a watcher is about to make, if it rests. -/
def ahead (w : Watcher) : List Nat :=
  match w.phase with
  | .resting => [w.delay]
  | _ => []

/-- The wait that is due after the one ahead, if nothing is brought. -/
def due (w : Watcher) : Nat :=
  match w.phase with
  | .resting => w.pace.backoff.next w.delay
  | _ => w.delay

/-- The waits of one step more. -/
theorem waits_succ (w : Watcher) (n : Nat) :
    w.waits (n + 1) = w.waits n ++ (w.run n).step?.elim [] (w.run n).waited := by
  induction n generalizing w with
  | zero =>
    rw [waits, waits, run]
    cases w.step? with
    | none => rfl
    | some next => simp [waits]
  | succ n ih =>
    rw [waits, waits, run]
    cases hnext : w.step? with
    | none => simp [hnext]
    | some next =>
      dsimp only
      rw [ih next, List.append_assoc]

/-- A watcher that rests waits in its next step. -/
theorem length_waits_of_resting {w : Watcher} {n : Nat} (h : (w.run n).phase = .resting) :
    (w.waits (n + 1)).length = (w.waits n).length + 1 := by
  rw [waits_succ, List.length_append]
  simp [step?, waited, h]

/-- A watcher that does not rest waits for nothing of its own. -/
theorem active_of_phase {w : Watcher} (h : w.phase ≠ .resting) :
    (∀ next, w.waited next = []) ∧ w.ahead = [] ∧ w.due = w.delay := by
  unfold waited ahead due
  cases hphase : w.phase with
  | resting => exact absurd hphase h
  | _ => exact ⟨fun _ => rfl, rfl, rfl⟩

theorem delay_enter (w : Watcher) (stage : Stage) : (w.enter stage).delay = w.delay := by
  rw [enter_eq]

theorem delay_dial (w : Watcher) : w.dial.delay = w.delay := delay_enter w .connecting

theorem now_dial (w : Watcher) : w.dial.now = w.now := by
  show (w.enter .connecting).now = w.now
  rw [enter_eq]

theorem delay_rest (w : Watcher) : w.rest.delay = w.delay := delay_enter w .disconnected

theorem delay_giveUp (w : Watcher) (session : Session) (error : RequestError) :
    (w.giveUp session error).delay =
      if session.polls = 0 then w.delay else w.pace.backoff.initial := by
  rw [giveUp, delay_rest]
  rfl

theorem delay_welcome (w : Watcher) (c : Connection) : (w.welcome c).delay = w.delay := by
  dsimp only [welcome]
  split
  · exact delay_enter _ _
  · exact delay_enter _ _

/-! ### The waits follow the attempts -/

/-- The waits so far and the one ahead are those that the attempts that have ended call for, and a
session knows how many statuses it brought. -/
structure Paced (w : Watcher) (waits : List Nat) (ended : List Attempt) (u : Underway) : Prop where
  polls : ∀ session, w.phase.session? = some session → session.polls = u.polls.length
  waits : waits ++ w.ahead = w.pace.backoff.schedule w.pace.backoff.initial ended
  due : w.due = w.pace.backoff.dueAfter w.pace.backoff.initial ended

namespace Paced

variable {w next : Watcher} {waits : List Nat} {ended : List Attempt} {u v : Underway}

/-- A step that begins an attempt after the wait ahead. -/
theorem begins (h : Paced w waits ended u) (hphase : w.phase = .resting)
    (hpace : next.pace = w.pace) (hnext : next.phase ≠ .resting) (hnow : next.now = w.now + w.delay)
    (hdelay : next.delay = w.pace.backoff.next w.delay) (hsession : next.phase.session? = none) :
    Paced next (waits ++ w.waited next) ended v := by
  obtain ⟨-, hahead, hdue⟩ := active_of_phase hnext
  have hwaited : w.waited next = w.ahead := by
    rw [waited, ahead, hphase, hnow, Nat.add_sub_cancel_left]
  have hwas : w.due = w.pace.backoff.next w.delay := by rw [Watcher.due, hphase]
  refine ⟨?_, ?_, ?_⟩
  · intro s hs
    rw [hsession] at hs
    cases hs
  · rw [hwaited, hahead, hpace, List.append_nil, h.waits]
  · rw [hdue, hdelay, hpace, ← hwas, h.due]

/-- A step that carries the attempt under way on. -/
theorem goesOn (h : Paced w waits ended u) (hphase : w.phase ≠ .resting)
    (hpace : next.pace = w.pace) (hnext : next.phase ≠ .resting) (hdelay : next.delay = w.delay)
    (hpolls : ∀ session, next.phase.session? = some session → session.polls = v.polls.length) :
    Paced next (waits ++ w.waited next) ended v := by
  obtain ⟨hwaited, hahead, hdue⟩ := active_of_phase hphase
  obtain ⟨-, hahead', hdue'⟩ := active_of_phase hnext
  have hwaits := h.waits
  rw [hahead] at hwaits
  refine ⟨hpolls, ?_, ?_⟩
  · rw [hwaited, hahead', hpace, List.append_nil, hwaits]
  · rw [hdue', hdelay, hpace, ← hdue, h.due]

/-- A step that ends the attempt under way. -/
theorem ends {a : Attempt} (h : Paced w waits ended u) (hphase : w.phase ≠ .resting)
    (hpace : next.pace = w.pace) (hnext : next.phase = .resting)
    (hdelay : next.delay = w.pace.backoff.waitAfter w.delay a) :
    Paced next (waits ++ w.waited next) (ended ++ [a]) .nothing := by
  obtain ⟨hwaited, hahead, hdue⟩ := active_of_phase hphase
  have hahead' : next.ahead = [next.delay] := by rw [ahead, hnext]
  have hdue' : next.due = next.pace.backoff.next next.delay := by rw [Watcher.due, hnext]
  have hwaits := h.waits
  rw [hahead, List.append_nil] at hwaits
  have hwas := h.due
  rw [hdue] at hwas
  refine ⟨?_, ?_, ?_⟩
  · intro s hs
    rw [hnext] at hs
    cases hs
  · rw [hwaited, hahead', hdelay, hpace, List.append_nil, Backoff.schedule_append, ← hwas, hwaits]
  · rw [hdue', hdelay, hpace, Backoff.dueAfter_append, ← hwas]

end Paced

/-- Every step waits for as long as the attempts call for. -/
theorem paced_of_step {w next : Watcher} {waits : List Nat} {occurrence : Option Occurrence}
    {ended finished : List Attempt} {u v : Underway} (hw : w.InOrder) (h : Paced w waits ended u)
    (hstep : Step w occurrence next) (hbecomes : u.Becomes occurrence finished v) :
    Paced next (waits ++ w.waited next) (ended ++ finished) v := by
  obtain ⟨_, _, -, heffect, -⟩ := moves_of_step hw hstep
  have hpace := heffect.pace
  -- Only a watcher that does not rest has an attempt to carry on or to end.
  have hactive {phase : Phase} (hphase : w.phase = phase) (hphase' : phase ≠ .resting) :
      w.phase ≠ .resting := hphase ▸ hphase'
  cases hstep with
  | start phase =>
    cases hbecomes
    rw [List.append_nil]
    exact h.goesOn (hactive phase nofun) hpace nofun (delay_dial w) nofun
  | resting phase =>
    cases hbecomes
    rw [List.append_nil]
    exact h.begins phase hpace nofun (now_dial _) (delay_dial _) rfl
  | @unreached _ t error phase greet =>
    cases hbecomes
    exact h.ends (hactive phase nofun) hpace rfl (delay_rest _)
  | @greeted _ t c phase greet =>
    cases hbecomes
    rw [List.append_nil]
    have hdelay : ((w.elapse t).welcome c).delay = w.delay := delay_welcome _ c
    rcases phase_welcome (w.elapse t) c with ⟨-, hbroken⟩ | ⟨ticker, hidle⟩
    · refine h.goesOn (hactive phase nofun) hpace ?_ hdelay ?_
      · rw [hbroken]
        nofun
      · rw [hbroken]
        nofun
    · refine h.goesOn (hactive phase nofun) hpace ?_ hdelay ?_
      · rw [hidle]
        nofun
      · rw [hidle]
        intro session hsession
        obtain rfl := Option.some.inj hsession
        rfl
  | tick phase =>
    cases hbecomes
    rw [List.append_nil]
    apply h.goesOn (hactive phase nofun) hpace nofun rfl
    intro s hs
    obtain rfl := Option.some.inj hs
    exact h.polls _ (by rw [phase]; rfl)
  | @failed session _ t x error phase asked reply =>
    cases hbecomes with
    | failed version polls _ =>
      have hpolls : session.polls = polls.length := h.polls _ (by rw [phase]; rfl)
      apply h.ends (hactive phase nofun) hpace rfl
      rw [delay_giveUp]
      show (if session.polls = 0 then w.delay else w.pace.backoff.initial) = _
      rw [hpolls]
      cases polls <;> rfl
  | @answered session _ _ _ _ phase asked reply no_song =>
    cases hbecomes with
    | answered version polls poll _ =>
      rw [List.append_nil]
      have hpolls : session.polls = polls.length := h.polls _ (by rw [phase]; rfl)
      apply h.goesOn (hactive phase nofun) hpace nofun rfl
      intro s hs
      obtain rfl := Option.some.inj hs
      show session.polls + 1 = (polls ++ [poll]).length
      rw [hpolls, List.length_append, List.length_singleton]
    | awaiting version polls _ song =>
      rw [no_song] at song
      cases song
  | @awaiting session _ _ _ _ phase asked reply song =>
    cases hbecomes with
    | answered version polls poll no_song =>
      -- A status with a song is not published before the song is asked for.
      have hasked := poll.asked
      rw [no_song, song] at hasked
      cases hasked
    | awaiting version polls _ _ =>
      rw [List.append_nil]
      apply h.goesOn (hactive phase nofun) hpace nofun rfl
      intro s hs
      obtain rfl := Option.some.inj hs
      exact h.polls session (by rw [phase]; rfl)
  | @completed session _ _ _ _ phase asked =>
    cases hbecomes with
    | completed version polls poll _ _ _ =>
      rw [List.append_nil]
      have hpolls : session.polls = polls.length := h.polls _ (by rw [phase]; rfl)
      apply h.goesOn (hactive phase nofun) hpace nofun rfl
      intro s hs
      obtain rfl := Option.some.inj hs
      show session.polls + 1 = (polls ++ [poll]).length
      rw [hpolls, List.length_append, List.length_singleton]

/-- The waits of a run are those that the attempts of its account call for. -/
theorem paced_of_run {w : Watcher} {past : List Occurrence} {waits : List Nat}
    {ended : List Attempt} {u : Underway} (hw : w.InOrder) (h : Account w past ended u)
    (hpaced : Paced w waits ended u) (n : Nat) :
    ∃ ended u, Account (w.run n) (past ++ w.history n) ended u ∧
      Paced (w.run n) (waits ++ w.waits n) ended u := by
  induction n generalizing w past waits ended u with
  | zero =>
    rw [history, Watcher.waits, List.append_nil, List.append_nil]
    exact ⟨ended, u, h, hpaced⟩
  | succ n ih =>
    rw [run, history, Watcher.waits]
    cases hnext : w.step? with
    | none =>
      rw [List.append_nil, List.append_nil]
      exact ⟨ended, u, h, hpaced⟩
    | some next =>
      have hstep : Step w w.occurrence? next := (step_iff hw).2 ⟨hnext, rfl⟩
      obtain ⟨_, _, -, -, hw'⟩ := moves_of_step hw hstep
      obtain ⟨finished, v, hbecomes, hnext⟩ := account_of_step hw h hstep
      have hrest := ih hw' hnext (paced_of_step hw hpaced hstep hbecomes)
      rwa [List.append_assoc, List.append_assoc] at hrest

/-- A watcher that has not begun has waited for nothing. -/
theorem paced_of_start (addr : String) (pace : Pace) (network : Network) (slot : Slot) :
    Paced { addr, pace, network, slot } [] [] .nothing where
  polls _ h := by cases h
  waits := rfl
  due := rfl

/-- **Each wait is twice the one before, up to the longest, until a session brings a status.** The
first attempt is made at once, and behind every attempt there is one wait. A wait that comes `i - j`
waits after the first one of the run, or after the one behind the last attempt that brought a status,
is the first of the backoff doubled `i - j` times, or the longest. So no wait is out of the range of
the backoff; behind an attempt that brought a status it is the first one, and behind any other, be it a
session that was greeted, it is no shorter than the wait before. -/
theorem waits_double_until_reset (addr : String) (pace : Pace) (network : Network) (slot : Slot)
    (n : Nat) (hpace : pace.backoff.initial ≤ pace.backoff.max) :
    let w : Watcher := { addr, pace, network, slot }
    ((∃ reception, (w.run 1).phase = .dialling reception) ∧ (w.run 1).now = 0) ∧
    ∃ ended u, Account (w.run n) (w.history n) ended u ∧
      ((w.run n).phase = .resting →
        ended.length = (w.waits n).length + 1 ∧ ended.length = (w.waits (n + 1)).length) ∧
      ((w.run n).phase ≠ .resting → ended.length = (w.waits n).length) ∧
      ∀ i d, (w.waits n)[i]? = some d →
        (∃ j ≤ i, (j = 0 ∨ ended[j]?.any Attempt.broughtStatus = true) ∧
          (∀ m, j < m → m ≤ i → ended[m]?.any Attempt.broughtStatus = false) ∧
          d = min (pace.backoff.initial * Number.twoTo (i - j)) pace.backoff.max) ∧
        (pace.backoff.initial ≤ d ∧ d ≤ pace.backoff.max) ∧
        (ended[i]?.any Attempt.broughtStatus = true → d = pace.backoff.initial) ∧
        ∀ e, (w.waits n)[i + 1]? = some e → ended[i + 1]?.any Attempt.broughtStatus = false →
          e = min (2 * d) pace.backoff.max ∧ d ≤ e := by
  intro w
  have hw : w.InOrder := inOrder_of_start addr pace network slot
  refine ⟨⟨⟨_, rfl⟩, now_dial w⟩, ?_⟩
  obtain ⟨ended, u, haccount, hpaced⟩ := paced_of_run hw (account_of_start addr pace network slot)
    (paced_of_start addr pace network slot) n
  obtain ⟨-, hsame, -⟩ := run_stays hw (by simp [w]) n
  let b := pace.backoff
  have hwaits : w.waits n ++ (w.run n).ahead = b.schedule b.initial ended := by
    have hwaits := hpaced.waits
    rwa [hsame] at hwaits
  have hlength : (w.waits n).length + (w.run n).ahead.length = ended.length := by
    rw [← List.length_append, hwaits, Backoff.length_schedule]
  have hschedule {i d : Nat} (hd : (w.waits n)[i]? = some d) :
      (b.schedule b.initial ended)[i]? = some d := by
    have hi := (List.getElem?_eq_some_iff.1 hd).1
    rw [← hwaits, List.getElem?_append_left hi]
    exact hd
  refine ⟨ended, u, haccount, ?_, ?_, ?_⟩
  · intro hresting
    have hahead : (w.run n).ahead.length = 1 := by
      rw [ahead, hresting]
      rfl
    rw [length_waits_of_resting hresting, ← hlength, hahead]
    exact ⟨rfl, rfl⟩
  · intro hactive
    rw [← hlength, (active_of_phase hactive).2.1]
    rfl
  · intro i d hd
    obtain ⟨j, hj, hbegan, hsince, hdelay⟩ := Backoff.schedule_eq_delay (hschedule hd)
    have hrange : b.initial ≤ d ∧ d ≤ b.max := by
      rw [hdelay]
      exact Backoff.delay_range hpace _
    refine ⟨⟨j, hj, hbegan, hsince, ?_⟩, hrange, Backoff.schedule_of_brought (hschedule hd), ?_⟩
    · rw [hdelay, Backoff.delay_eq_min hpace]
    · intro e he hnot
      have hnext : e = b.next d :=
        Backoff.schedule_of_not_brought (hschedule hd) (hschedule he) hnot
      refine ⟨hnext, ?_⟩
      rw [hnext]
      apply Nat.le_min.2
      exact ⟨Nat.le_mul_of_pos_left d Nat.two_pos, hrange.2⟩

/-- Where nothing listens, each wait is longer than the one before until the longest is reached. -/
theorem refused_watcher_waits_longest :
    let w : Watcher :=
      { addr := "mpd:6600"
        pace := { backoff := ⟨500, 2000⟩ }
        network := { otherwise := .refused } }
    500 ≤ 2000 ∧ w.waits 7 = [500, 1000, 2000] ∧
      ∃ ended u, Account (w.run 7) (w.history 7) ended u ∧ ended.length = 3 := by
  have hpace : 500 ≤ 2000 := by decide
  obtain ⟨-, ended, u, haccount, -, hlength, -⟩ := waits_double_until_reset "mpd:6600"
    { backoff := ⟨500, 2000⟩ } { otherwise := .refused } {} 7 hpace
  exact ⟨hpace, rfl, ended, u, haccount, hlength nofun⟩

end Watcher

end PlayerWatch
