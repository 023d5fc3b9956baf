import PlayerWatch.Proofs.Watcher.Moves

/-!
# What arrives over the connections of a watcher

A network remembers what arrived over each connection. A watcher sends over its latest connection only,
and never again over one that is over: what arrived over that one stays as it is (`Beyond.run`).
-/

namespace PlayerWatch

/-! ### Connections that are over -/

/-- Whether a connection has come about. -/
def Phase.isConnected : Phase → Bool
  | .dialling (.accepted _) | .idle .. | .asking .. | .completing .. => true
  | _ => false

namespace Watcher

theorem network_enter (w : Watcher) (stage : Stage) : (w.enter stage).network = w.network := by
  rw [enter_eq]

theorem network_rest (w : Watcher) : w.rest.network = w.network := network_enter _ _

theorem network_giveUp (w : Watcher) (session : Session) (error : RequestError) :
    (w.giveUp session error).network = w.network := network_rest _

theorem network_welcome (w : Watcher) (c : Connection) : (w.welcome c).network = w.network := by
  dsimp only [welcome]
  split
  · exact network_enter _ _
  · exact network_enter _ _

theorem network_dial (w : Watcher) : w.dial.network = (w.network.meet w.addr).2 := by
  unfold dial
  rw [enter_eq]

theorem phase_dial (w : Watcher) : w.dial.phase = .dialling (w.network.meet w.addr).1 := by
  unfold dial
  rw [enter_eq]

/-- The connections that `before` tells of are over: what arrives from now on arrives over later
ones. -/
structure Beyond (before : List (List String)) (w : Watcher) : Prop where
  kept : before <+: w.network.received
  later : w.phase.isConnected = true → before.length < w.network.received.length

namespace Beyond

variable {before : List (List String)} {w next : Watcher}

theorem dial (h : before <+: w.network.received) : Beyond before w.dial := by
  obtain ⟨hkept, hlater⟩ := Network.prefix_of_meet h w.addr
  refine ⟨by rw [network_dial]; exact hkept, fun hconnected => ?_⟩
  rw [phase_dial] at hconnected
  rw [network_dial]
  cases hreception : (w.network.meet w.addr).1 with
  | accepted peer => exact hlater peer hreception
  | failed error => rw [hreception] at hconnected; cases hconnected
  | unanswered => rw [hreception] at hconnected; cases hconnected

/-- When no connection is left, all that has arrived stays. -/
theorem of_over (h : before <+: w.network.received) (hphase : w.phase.isConnected = false) :
    Beyond before w :=
  ⟨h, fun hconnected => by rw [hphase] at hconnected; cases hconnected⟩

theorem of_same (h : Beyond before w) (hconnected : w.phase.isConnected = true)
    (hsame : next.network = w.network) : Beyond before next :=
  ⟨hsame ▸ h.kept, fun _ => hsame ▸ h.later hconnected⟩

/-- What arrives over the latest connection does not arrive over those before. -/
theorem of_deliver {text : String} (h : Beyond before w) (hconnected : w.phase.isConnected = true)
    (hsent : next.network = w.network.deliver text) : Beyond before next := by
  have hkept := Network.prefix_of_deliver h.kept (h.later hconnected) text
  rw [← hsent] at hkept
  exact ⟨hkept.1, fun _ => hkept.2⟩

theorem step {occurrence : Option Occurrence} (h : Beyond before w)
    (hstep : Step w occurrence next) : Beyond before next := by
  cases hstep with
  | start phase => exact dial h.kept
  | resting phase =>
    let u := { w.elapse w.delay with delay := w.pace.backoff.next w.delay }
    have hkept : before <+: u.network.received := h.kept
    exact dial hkept
  | unreached phase greet =>
    refine of_over ?_ rfl
    rw [network_rest]
    exact h.kept
  | @greeted reception t c phase greet =>
    obtain ⟨peer, rfl, -⟩ := Reception.accepted_of_greet greet
    have hconnected : w.phase.isConnected = true := by rw [phase]; rfl
    exact h.of_same hconnected (network_welcome _ _)
  | tick phase => exact h.of_deliver (by rw [phase]; rfl) rfl
  | failed phase asked reply =>
    refine of_over ?_ rfl
    rw [network_giveUp]
    exact h.kept
  | answered phase asked reply no_song => exact h.of_same (by rw [phase]; rfl) rfl
  | awaiting phase asked reply song => exact h.of_deliver (by rw [phase]; rfl) rfl
  | completed phase asked => exact h.of_same (by rw [phase]; rfl) rfl

/-- What arrived over a connection that is over stays as it is, however the watcher goes on. -/
theorem run (hw : w.InOrder) (h : Beyond before w) (n : Nat) : Beyond before (w.run n) := by
  -- What has been learnt does not matter here.
  let P (v : Watcher) (_ : List Occurrence) : Prop := Beyond before v
  have hrun : (w.run n).InOrder ∧ P (w.run n) ([] ++ w.history n) :=
    run_keeps (fun _ hv hstep => hv.step hstep) hw h n
  exact hrun.2

end Beyond

end Watcher

end PlayerWatch
