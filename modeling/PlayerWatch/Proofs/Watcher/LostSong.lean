import PlayerWatch.Proofs.Watcher.Received

/-!
# Polls that lose their connection

A poll can succeed although its connection is gone, when it was the question about the song that lost
it. The next poll then finds the connection closed and ends the session, and nothing is sent over that
connection from the question on (`lost_song_run`).
-/

namespace PlayerWatch

namespace Watcher

/-- Over a closed connection nothing is sent. -/
theorem network_send_of_closed {w : Watcher} {session : Session}
    (hclosed : session.client.connection.peer = none) (request : Request) :
    (w.send session request).network = w.network := by
  show w.network.deliver (session.client.connection.accepted request.line) = w.network
  rw [Connection.accepted_of_closed hclosed, Network.deliver_empty]

/-- **A song that cannot be had because the connection is lost.** The status is published all the
same, and then the next poll finds the connection closed and ends the session. Whatever comes after
that, nothing more arrives over the connection. -/
theorem lost_song_run {w : Watcher} {session : Session} {ticker : Ticker} {status : Status}
    {t : Nat} {x : Exchange} {error : RequestError} (hw : w.InOrder)
    (hphase : w.phase = .completing session ticker status)
    (hx : session.client.connection.execute .currentSong = .after t x)
    (herror : x.result = .error error) (hlost : error.isLost = true) :
    (w.run 1).slot = w.slot.publish status ∧
      (w.run 1).announced = w.announced ++ [.songUnavailable w.addr error.message,
        .statusUpdated w.addr (w.slot.generation + 1) status.state] ∧
      (w.run 3).phase = .resting ∧ (w.run 3).slot = (w.run 1).slot ∧
      (w.run 3).announced = (w.run 1).announced ++
        [.disconnected w.addr "MPD connection closed", .stageChanged w.addr .disconnected] ∧
      ∀ n, w.network.received <+: (w.run n).network.received ∧
        (n ≤ 3 → (w.run n).network = w.network) := by
  -- The status is published, the next tick comes, and the session ends.
  let s₁ : Session := { session.after x with polls := session.polls + 1 }
  let u₁ := ((w.elapse t).announce (songReports w.addr x.result)).publish (session.after x) ticker
    (status.withReply x.result)
  let u₂ := { u₁ with
    now := ticker.tickTime u₁.now
    phase := .asking s₁ (ticker.tick u₁.now) }.send s₁ .status
  have hclosed : s₁.client.connection.peer = none := Connection.peer_of_lost hx herror hlost
  let x₃ : Exchange := ⟨.error .closed, "", s₁.client.connection⟩
  let u₃ := (u₂.elapse 0).giveUp (s₁.after x₃) .closed
  have hstep₁ : Step w (some (.song x.result)) u₁ := .completed hphase hx
  have hstep₂ : Step u₁ none u₂ := .tick rfl
  have hstep₃ : Step u₂ (some (.status (.error .closed))) u₃ :=
    .failed rfl (Connection.executeLine_of_closed hclosed _) rfl
  obtain ⟨-, -, -, -, hw₁⟩ := moves_of_step hw hstep₁
  obtain ⟨-, -, -, -, hw₂⟩ := moves_of_step hw₁ hstep₂
  obtain ⟨-, -, -, -, hw₃⟩ := moves_of_step hw₂ hstep₃
  have hrun₁ : w.run 1 = u₁ := run_of_step hw hstep₁ 0
  have hrun₂ : w.run 2 = u₂ := (run_of_step hw hstep₁ 1).trans (run_of_step hw₁ hstep₂ 0)
  have hrun₃ (n : Nat) : w.run (n + 3) = u₃.run n := by
    rw [run_of_step hw hstep₁, run_of_step hw₁ hstep₂, run_of_step hw₂ hstep₃]
  have hsame₂ : u₂.network = w.network := network_send_of_closed hclosed .status
  have hsame₃ : u₃.network = w.network := (network_giveUp _ _ _).trans hsame₂
  have hover : Beyond w.network.received u₃ := .of_over (hsame₃ ▸ List.prefix_refl _) rfl
  have heffect₁ : Effect w (songReports w.addr x.result ++ [.statusUpdated w.addr
      (w.slot.generation + 1) (status.withReply x.result).state])
      (some (status.withReply x.result)) u₁ :=
    (Effect.announce (w.elapse t) _).of_elapse.trans (.publish _ _ _ _)
  have hpolling : u₂.stage = .polling := hw₂.stage
  have hgoing : u₂.stage ≠ .disconnected := by
    rw [hpolling]
    decide
  have heffect₃ := (Effect.giveUp (w := u₂.elapse 0) hgoing (s₁.after x₃) .closed).of_elapse
  rw [herror] at heffect₁
  refine ⟨?_, ?_, ?_, ?_, ?_, fun n => ?_⟩
  · rw [hrun₁]
    exact heffect₁.slot
  · rw [hrun₁]
    exact heffect₁.announced
  · rw [hrun₃ 0]
    rfl
  · rw [hrun₃ 0, hrun₁]
    exact heffect₃.slot
  · rw [hrun₃ 0, hrun₁]
    exact heffect₃.announced
  · match n with
    | 0 => exact ⟨List.prefix_refl _, fun _ => rfl⟩
    | 1 =>
      rw [hrun₁]
      exact ⟨List.prefix_refl _, fun _ => rfl⟩
    | 2 =>
      rw [hrun₂, hsame₂]
      exact ⟨List.prefix_refl _, fun _ => rfl⟩
    | n + 3 =>
      rw [hrun₃ n]
      refine ⟨(hover.run hw₃ n).kept, fun hn => ?_⟩
      obtain rfl : n = 0 := by omega
      exact hsame₃

end Watcher

end PlayerWatch
