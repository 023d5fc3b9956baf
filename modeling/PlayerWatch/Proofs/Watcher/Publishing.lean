import PlayerWatch.Proofs.Watcher.Attempts
import PlayerWatch.Proofs.Watcher.LostSong

/-!
# What a watcher publishes

Replies on the wire, the slot and the events are three views of the same polls. `Published` relates
them: the polls so far are the answers that a watcher got, in order; the slot holds the status of the
last of them; and the updates that were announced are theirs, numbered on from the generation that
the slot began with. Every step keeps this, with at most one poll more (`published_of_step`), whatever
fails on the way (`publishes_answers`).
-/

namespace PlayerWatch

/-- Whether an occurrence belongs to a poll that brings a status. -/
def Occurrence.isAnswer : Occurrence → Bool
  | .status (.ok _) | .song _ => true
  | _ => false

/-- What a slot holds of a poll. -/
def Poll.snapshot (p : Poll) : Snapshot := ⟨p.status, p.generation⟩

/-- What is announced of a poll when it is published. -/
def Poll.update (addr : String) (p : Poll) : Event :=
  .statusUpdated addr p.generation p.status.state

/-- The lines of a status that waits for its song, in a phase. -/
def Phase.Awaits : Phase → Option (List String) → Prop
  | .completing _ _ status, awaited =>
    ∃ lines, awaited = some lines ∧ status = statusOf lines ∧
      (statusOf lines).hasCurrentSong = true
  | _, awaited => awaited = none

namespace Watcher

/-- The polls of a watcher whose slot was `slot` before, as its three views show them. -/
structure Published (slot : Slot) (w : Watcher) (past : List Occurrence) (polls : List Poll)
    (awaited : Option (List String)) : Prop where
  /-- The answers are those of the polls, and of the status that waits for its song. -/
  answers : past.filter Occurrence.isAnswer =
    polls.flatMap Poll.occurrences ++ awaited.toList.map fun lines => .status (.ok lines)
  awaits : w.phase.Awaits awaited
  /-- The updates are those of the polls. -/
  updates : w.announced.filter isUpdate = polls.map (Poll.update w.addr)
  /-- The polls are numbered on from the generation before. -/
  numbered : ∀ i p, polls[i]? = some p → p.generation = slot.generation + UInt64.ofNat (i + 1)
  /-- The slot holds the last poll, or still what it held before. -/
  slot : w.slot = ⟨(polls.getLast?.map Poll.snapshot).or slot.current⟩

namespace Published

/-- The slot is at the generation of the last poll. -/
theorem generation_eq {slot : Slot} {w : Watcher} {past : List Occurrence} {polls : List Poll}
    {awaited : Option (List String)} (h : Published slot w past polls awaited) :
    w.slot.generation = slot.generation + UInt64.ofNat polls.length := by
  rw [h.slot]
  cases hlast : polls.getLast? with
  | none =>
    obtain rfl : polls = [] := List.getLast?_eq_none_iff.1 hlast
    simp [Slot.generation]
  | some p =>
    have hlen : polls.length - 1 + 1 = polls.length := by
      have hne : polls ≠ [] := by
        rintro rfl
        cases hlast
      have hpos := List.length_pos_iff.2 hne
      omega
    rw [List.getLast?_eq_getElem?] at hlast
    have hp := h.numbered _ p hlast
    rw [hlen] at hp
    simpa [Slot.generation, Poll.snapshot] using hp

/-- A step that publishes nothing. -/
theorem goesOn {slot : Slot} {w next : Watcher} {past more : List Occurrence} {polls : List Poll}
    {awaited awaited' : Option (List String)} {news : List Event}
    (h : Published slot w past polls awaited) (heffect : Effect w news none next)
    (hawaits : next.phase.Awaits awaited')
    (hanswers : awaited.toList.map (fun lines => Occurrence.status (.ok lines)) ++
        more.filter Occurrence.isAnswer =
      awaited'.toList.map fun lines => .status (.ok lines))
    (hnews : news.filter isUpdate = []) :
    Published slot next (past ++ more) polls awaited' where
  answers := by rw [List.filter_append, h.answers, List.append_assoc, hanswers]
  awaits := hawaits
  updates := by
    rw [heffect.announced, heffect.addr, List.filter_append, h.updates, hnews, List.append_nil]
  numbered := h.numbered
  slot := by rw [heffect.slot, ← h.slot]; rfl

/-- A step that publishes the status of a poll. -/
theorem publishes {slot : Slot} {w next : Watcher} {past more : List Occurrence}
    {polls : List Poll} {awaited : Option (List String)} {news : List Event} {p : Poll}
    (h : Published slot w past polls awaited)
    (heffect : Effect w (news ++ [p.update w.addr]) (some p.status) next)
    (hawaits : next.phase.Awaits none)
    (hanswers : awaited.toList.map (fun lines => Occurrence.status (.ok lines)) ++
        more.filter Occurrence.isAnswer = p.occurrences)
    (hnews : news.filter isUpdate = []) (hp : p.generation = w.slot.generation + 1) :
    Published slot next (past ++ more) (polls ++ [p]) none where
  answers := by
    rw [List.filter_append, h.answers, List.append_assoc, hanswers]
    simp
  awaits := hawaits
  updates := by
    have hupdate : [p.update w.addr].filter isUpdate = [p.update w.addr] := rfl
    rw [heffect.announced, heffect.addr, List.filter_append, List.filter_append, h.updates, hnews,
      hupdate, List.nil_append, List.map_append]
    rfl
  numbered i q hq := by
    -- The polls before keep their places, and the new one comes next.
    rcases Nat.lt_trichotomy i polls.length with hi | rfl | hi
    · rw [List.getElem?_append_left hi] at hq
      exact h.numbered i q hq
    · obtain rfl : p = q := by simpa using hq
      rw [hp, h.generation_eq, UInt64.ofNat_add, UInt64.add_assoc]
      rfl
    · rw [List.getElem?_eq_none (by simp; omega)] at hq
      cases hq
  slot := by
    rw [heffect.slot]
    simp [Slot.publish, Poll.snapshot, hp]

end Published

theorem updates_statusReports (lines : List String) : (statusReports lines).filter isUpdate = [] := by
  simp [statusReports, Client.fieldEvents, isUpdate]

theorem updates_songReports (addr : String) (reply : Except RequestError (List String)) :
    (songReports addr reply).filter isUpdate = [] := by
  cases reply with
  | ok lines => simp [songReports, Client.fieldEvents, isUpdate]
  | error error => rfl

/-- A step that neither brings an answer nor publishes one, in a phase that awaits no song. -/
theorem Published.silent {slot : Slot} {w next : Watcher} {past more : List Occurrence}
    {polls : List Poll} {awaited : Option (List String)} {news : List Event}
    (h : Published slot w past polls awaited) (heffect : Effect w news none next)
    (hphase : w.phase.Awaits = (· = none)) (hnext : next.phase.Awaits none)
    (hmore : more.filter Occurrence.isAnswer = []) (hnews : news.filter isUpdate = []) :
    ∃ polls' awaited', polls <+: polls' ∧ Published slot next (past ++ more) polls' awaited' := by
  have hawaits := h.awaits
  rw [hphase] at hawaits
  subst hawaits
  exact ⟨polls, none, List.prefix_refl _, h.goesOn heffect hnext (by simpa using hmore) hnews⟩

/-- Every step keeps the polls there were, and adds the one whose status it publishes. -/
theorem published_of_step {slot : Slot} {w next : Watcher} {past : List Occurrence}
    {occurrence : Option Occurrence} {polls : List Poll} {awaited : Option (List String)}
    (hw : w.InOrder) (h : Published slot w past polls awaited) (hstep : Step w occurrence next) :
    ∃ polls' awaited', polls <+: polls' ∧
      Published slot next (past ++ occurrence.toList) polls' awaited' := by
  obtain ⟨news, published, hmove, heffect, -⟩ := moves_of_step hw hstep
  have hawaits := h.awaits
  generalize hphase' : next.phase = phase' at hmove
  cases hmove with
  | dial hphase =>
    have hsilent : w.phase.Awaits = (· = none) := by
      rcases hphase with hphase | hphase <;> rw [hphase] <;> rfl
    exact h.silent heffect hsilent (by rw [hphase']; rfl) rfl rfl
  | unreached hphase =>
    exact h.silent heffect (by rw [hphase]; rfl) (by rw [hphase']; rfl) rfl rfl
  | greeted hphase =>
    exact h.silent heffect (by rw [hphase]; rfl) (by rw [hphase']; rfl) rfl rfl
  | broken hphase hinterval =>
    exact h.silent heffect (by rw [hphase]; rfl) (by rw [hphase']; rfl) rfl rfl
  | tick hphase =>
    exact h.silent heffect (by rw [hphase]; rfl) (by rw [hphase']; rfl) rfl rfl
  | failed hphase =>
    exact h.silent heffect (by rw [hphase]; rfl) (by rw [hphase']; rfl) rfl rfl
  | @answered _ _ _ lines hphase hsong =>
    rw [hphase] at hawaits
    obtain rfl : awaited = none := hawaits
    let poll : Poll := ⟨lines, none, w.slot.generation + 1, hsong.symm⟩
    exact ⟨polls ++ [poll], none, List.prefix_append _ _,
      h.publishes heffect (by rw [hphase']; rfl) rfl (updates_statusReports lines) rfl⟩
  | @awaiting _ _ _ lines hphase hsong =>
    rw [hphase] at hawaits
    obtain rfl : awaited = none := hawaits
    have hnext : next.phase.Awaits (some lines) := by
      rw [hphase']
      exact ⟨lines, rfl, rfl, hsong⟩
    exact ⟨polls, some lines, List.prefix_refl _,
      h.goesOn heffect hnext rfl (updates_statusReports lines)⟩
  | @completed _ _ _ _ reply hphase =>
    rw [hphase] at hawaits
    obtain ⟨lines, rfl, rfl, hsong⟩ := hawaits
    let poll : Poll := ⟨lines, some reply, w.slot.generation + 1, hsong.symm⟩
    exact ⟨polls ++ [poll], none, List.prefix_append _ _,
      h.publishes heffect (by rw [hphase']; rfl) rfl (updates_songReports w.addr reply) rfl⟩

/-- Nothing has been published when a watcher begins. -/
theorem published_of_start (addr : String) (pace : Pace) (network : Network) (slot : Slot) :
    Published slot { addr, pace, network, slot } [] [] none where
  answers := rfl
  awaits := rfl
  updates := rfl
  numbered := by simp
  slot := rfl

/-- A run keeps the polls there were. -/
theorem published_of_run {slot : Slot} {w : Watcher} {past : List Occurrence} {polls : List Poll}
    {awaited : Option (List String)} (hw : w.InOrder) (h : Published slot w past polls awaited)
    (n : Nat) :
    (w.run n).InOrder ∧ ∃ polls' awaited', polls <+: polls' ∧
      Published slot (w.run n) (past ++ w.history n) polls' awaited' := by
  refine run_keeps (P := fun v past => ∃ polls' awaited', polls <+: polls' ∧
    Published slot v past polls' awaited') ?_ hw ⟨polls, awaited, List.prefix_refl _, h⟩ n
  rintro v next past occurrence hv ⟨polls', awaited', hmore, h'⟩ hstep
  obtain ⟨polls'', awaited'', hmore', h''⟩ := published_of_step hv h' hstep
  exact ⟨polls'', awaited'', hmore.trans hmore', h''⟩

/-- **What a watcher publishes is what it was answered.** At every point of a run, the polls that are
published are the answers so far, and they stay published whatever comes later. A status whose song is
lost with the connection is published without metadata, nothing more arrives over that connection, and
its session ends with the next poll. -/
theorem publishes_answers (addr : String) (pace : Pace) (network : Network) (slot : Slot)
    (n : Nat) :
    let w : Watcher := { addr, pace, network, slot }
    let v := w.run n
    (∃ polls awaited, Published slot v (w.history n) polls awaited ∧
      ∀ k, ∃ polls' awaited', polls <+: polls' ∧
        Published slot (v.run k) (w.history n ++ v.history k) polls' awaited') ∧
    ∀ session ticker status t x error, v.phase = .completing session ticker status →
      session.client.connection.execute .currentSong = .after t x →
      x.result = .error error → error.isLost = true →
      (status.artist = "" ∧ status.album = "" ∧ status.title = "") ∧
      (v.run 1).slot = v.slot.publish status ∧
      (v.run 1).announced = v.announced ++ [.songUnavailable addr error.message,
        .statusUpdated addr (v.slot.generation + 1) status.state] ∧
      (v.run 3).phase = .resting ∧ (v.run 3).slot = (v.run 1).slot ∧
      (v.run 3).announced = (v.run 1).announced ++
        [.disconnected addr "MPD connection closed", .stageChanged addr .disconnected] ∧
      ∀ k, v.network.received <+: (v.run k).network.received ∧
        (k ≤ 3 → (v.run k).network = v.network) := by
  intro w v
  have hw : w.InOrder := inOrder_of_start addr pace network slot
  obtain ⟨hv, polls, awaited, -, h⟩ :=
    published_of_run hw (published_of_start addr pace network slot) n
  obtain ⟨haddr, -, -⟩ := run_stays hw (by simp [w]) n
  refine ⟨⟨polls, awaited, h, fun k => (published_of_run hv h k).2⟩, ?_⟩
  intro session ticker status t x error hphase hx herror hlost
  -- The status that waits for its song is still what its lines alone say.
  have hbare : status.artist = "" ∧ status.album = "" ∧ status.title = "" := by
    have hawaits := h.awaits
    rw [hphase] at hawaits
    obtain ⟨lines, -, rfl, -⟩ := hawaits
    exact ⟨rfl, rfl, rfl⟩
  have hrun := lost_song_run hv hphase hx herror hlost
  rw [haddr] at hrun
  exact ⟨hbare, hrun⟩

/-- Whether a watcher waits for a song that it cannot have because the connection is lost. -/
def losesSong (w : Watcher) : Bool :=
  match w.phase with
  | .completing session _ _ =>
    match session.client.connection.execute .currentSong with
    | .after _ x =>
      match x.result with
      | .error error => error.isLost
      | .ok _ => false
    | .forever => false
  | _ => false

theorem exists_of_losesSong {w : Watcher} (h : w.losesSong = true) :
    ∃ session ticker status t x error, w.phase = .completing session ticker status ∧
      session.client.connection.execute .currentSong = .after t x ∧
      x.result = .error error ∧ error.isLost = true := by
  unfold losesSong at h
  split at h
  · next session ticker status hphase =>
    split at h
    · next t x hx =>
      split at h
      · next error herror => exact ⟨session, ticker, status, t, x, error, hphase, hx, herror, h⟩
      · cases h
    · cases h
  · cases h

/-- A player that answers the first status and closes the connection on the question about the song:
the status is published, and the next poll ends the session. -/
theorem status_published_at_lost_song :
    let peer : Peer := ⟨[.send (Text.encode "OK MPD 0.23.5\n")],
      [.actions [.send (Text.encode "state: play\nOK\n")], .actions [.close]]⟩
    let w : Watcher :=
      { addr := "mpd:6600", pace := {}, network := { turns := [.accepted peer] } }
    let v := w.run 4
    (∃ session ticker status t x error, v.phase = .completing session ticker status ∧
      session.client.connection.execute .currentSong = .after t x ∧
      x.result = .error error ∧ error.isLost = true ∧ status.title = "" ∧
      (v.run 1).slot = v.slot.publish status) ∧
    (v.run 3).slot = (v.run 1).slot ∧ (∀ k ≤ 3, (v.run k).network = v.network) ∧
    (w.run 7).announced =
      [.stageChanged "mpd:6600" .connecting, .connected "mpd:6600" "0.23.5",
        .stageChanged "mpd:6600" .polling,
        .songUnavailable "mpd:6600" "MPD connection closed", .statusUpdated "mpd:6600" 1 "play",
        .disconnected "mpd:6600" "MPD connection closed", .stageChanged "mpd:6600" .disconnected] := by
  intro peer w v
  obtain ⟨session, ticker, status, t, x, error, hphase, hx, herror, hlost⟩ :=
    exists_of_losesSong (show v.losesSong = true by decide +kernel)
  obtain ⟨-, hsong⟩ := publishes_answers "mpd:6600" {} { turns := [.accepted peer] } {} 4
  obtain ⟨⟨-, -, htitle⟩, hslot, -, -, hkept, -, hnetwork⟩ :=
    hsong session ticker status t x error hphase hx herror hlost
  exact ⟨⟨session, ticker, status, t, x, error, hphase, hx, herror, hlost, htitle, hslot⟩, hkept,
    fun k hk => (hnetwork k).2 hk, by decide +kernel⟩

end Watcher

end PlayerWatch
