import PlayerWatch.Client
import PlayerWatch.Proofs.Connection.Writing

/-!
# Enquiries

The status takes one request or two, and the second one may fail in every way in which a request can.
An `Enquiry` is what comes of it, one constructor for each way in which the requests can go
(`enquiry_status`), so a proof about the status goes by cases on it and opens neither the client nor the
connection.
-/

namespace PlayerWatch

/-! ### What is made of replies -/

/-- The status in the lines of a reply, without the metadata of the current song. -/
def statusOf (lines : List String) : Status := .ofRecord (.ofLines lines)

/-- The song in the lines of a reply. -/
def songOf (lines : List String) : Song := .ofRecord (.ofLines lines)

/-- A status with what the player replied about the current song. -/
def Status.withReply (status : Status) : Except RequestError (List String) → Status
  | .ok lines => status.withSong (songOf lines)
  | .error _ => status

/-- What is announced about a reply to `status`. -/
def statusReports (lines : List String) : List Event :=
  Client.fieldEvents .status (Status.unreadable (.ofLines lines))

/-- What is announced about a reply to `currentsong`. -/
def songReports (addr : String) : Except RequestError (List String) → List Event
  | .ok lines => Client.fieldEvents .currentSong (Song.unreadable (.ofLines lines))
  | .error error => [.songUnavailable addr error.message]

theorem Status.hasCurrentSong_iff {s : Status} :
    s.hasCurrentSong = true ↔ s.state = "play" ∨ s.state = "pause" := by
  simp [hasCurrentSong, isPlaying, isPaused]

namespace Client

variable {c : Client} {t : Nat} {x : Exchange}

@[simp] theorem announced_nil (c : Client) : c.announced [] = [] := by
  simp [announced]

@[simp] theorem announced_append (c : Client) (es es' : List Event) :
    c.announced (es ++ es') = c.announced es ++ c.announced es' := by
  unfold announced
  split <;> rfl

@[simp] theorem announced_of_announces (h : c.announces = true) (es : List Event) :
    c.announced es = es := by
  simp [announced, h]

/-- What a client makes of a reply to `status`. -/
theorem bareStatus_of_execute (hx : c.connection.execute .status = .after t x) :
    c.bareStatus = .after t
      { result := x.result.map statusOf
        sent := x.sent
        events := match x.result with
          | .ok lines => c.announced (statusReports lines)
          | .error _ => []
        client := { c with connection := x.connection } } := by
  rw [bareStatus, ask, hx, Wait.map_after]
  rfl

/-- What a client makes of a reply to `currentsong`, once it is put into a status. -/
theorem withSong_of_execute (status : Status) (hx : c.connection.execute .currentSong = .after t x) :
    ∃ a, c.currentSong = .after t a ∧ a.client = { c with connection := x.connection } ∧
      withSong status a =
        { result := .ok (status.withReply x.result)
          sent := x.sent
          events := c.announced (songReports c.connection.addr x.result)
          client := { c with connection := x.connection } } := by
  rw [currentSong, ask, hx, Wait.map_after]
  refine ⟨_, rfl, rfl, ?_⟩
  cases hresult : x.result with
  | ok lines => rfl
  | error error =>
    rw [← Connection.addr_of_executeLine hx]
    rfl

end Client

/-! ### Enquiries -/

/-- What comes of asking a client for the status, by what becomes of its requests. -/
inductive Enquiry (c : Client) : Wait (Answered Status) → Prop where
  /-- The first request never returns. -/
  | silent (asked : c.connection.execute .status = .forever) : Enquiry c .forever
  | failed {t : Nat} {x : Exchange} {error : RequestError}
      (asked : c.connection.execute .status = .after t x) (reply : x.result = .error error) :
      Enquiry c (.after t ⟨.error error, x.sent, [], { c with connection := x.connection }⟩)
  | answered {t : Nat} {x : Exchange} {lines : List String}
      (asked : c.connection.execute .status = .after t x) (reply : x.result = .ok lines)
      (no_song : (statusOf lines).hasCurrentSong = false) :
      Enquiry c (.after t ⟨.ok (statusOf lines), x.sent, c.announced (statusReports lines),
        { c with connection := x.connection }⟩)
  /-- The second request never returns. -/
  | songSilent {t : Nat} {x : Exchange} {lines : List String}
      (asked : c.connection.execute .status = .after t x) (reply : x.result = .ok lines)
      (song : (statusOf lines).hasCurrentSong = true)
      (silent : x.connection.execute .currentSong = .forever) : Enquiry c .forever
  | completed {t s : Nat} {x y : Exchange} {lines : List String}
      (asked : c.connection.execute .status = .after t x) (reply : x.result = .ok lines)
      (song : (statusOf lines).hasCurrentSong = true)
      (returned : x.connection.execute .currentSong = .after s y) :
      Enquiry c (.after (t + s) ⟨.ok ((statusOf lines).withReply y.result), x.sent ++ y.sent,
        c.announced (statusReports lines ++ songReports c.connection.addr y.result),
        { c with connection := y.connection }⟩)

namespace Enquiry

variable {c : Client}

/-- The status is what comes of asking for it. -/
theorem status_eq {w : Wait (Answered Status)} (h : Enquiry c w) : c.status = w := by
  cases h with
  | silent asked =>
    rw [Client.status, Client.bareStatus, Client.ask, asked]
    rfl
  | failed asked reply =>
    rw [Client.status, Client.bareStatus_of_execute asked, reply]
    rfl
  | answered asked reply no_song =>
    rw [Client.status, Client.bareStatus_of_execute asked, reply]
    simp [Client.complete, Except.map, no_song]
  | @songSilent t x lines asked reply song silent =>
    have hnone : ({ c with connection := x.connection } : Client).currentSong = .forever := by
      show (x.connection.execute .currentSong).map _ = .forever
      rw [silent]
      rfl
    rw [Client.status, Client.bareStatus_of_execute asked, reply]
    simp only [Except.map, Wait.bind_after, Client.complete, song, if_true, hnone]
    rfl
  | @completed t s x y lines asked reply song returned =>
    obtain ⟨a, ha, -, htold⟩ := Client.withSong_of_execute
      (c := { c with connection := x.connection }) (statusOf lines) returned
    rw [Client.status, Client.bareStatus_of_execute asked, reply]
    simp only [Except.map, Wait.bind_after, Client.complete, song, if_true, ha, Wait.map_after,
      Wait.later_after, htold, Connection.addr_of_executeLine asked, Client.announced_append]
    rfl

end Enquiry

/-- Whatever becomes of the requests, the status is what comes of it. -/
theorem enquiry_status (c : Client) : Enquiry c c.status := by
  have hsome : ∃ w, Enquiry c w := by
    cases hx : c.connection.execute .status with
    | forever => exact ⟨_, .silent hx⟩
    | after t x =>
      cases hreply : x.result with
      | error error => exact ⟨_, .failed hx hreply⟩
      | ok lines =>
        cases hsong : (statusOf lines).hasCurrentSong with
        | false => exact ⟨_, .answered hx hreply hsong⟩
        | true =>
          cases hy : x.connection.execute .currentSong with
          | forever => exact ⟨_, .songSilent hx hreply hsong hy⟩
          | after s y => exact ⟨_, .completed hx hreply hsong hy⟩
  obtain ⟨w, hw⟩ := hsome
  rw [hw.status_eq]
  exact hw

end PlayerWatch
