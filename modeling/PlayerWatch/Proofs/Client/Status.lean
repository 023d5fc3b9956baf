import PlayerWatch.Proofs.Client.Announcing
import PlayerWatch.Proofs.Client.Trips

/-!
# Asking for the status

What a client on a bus is told when it asks for the status, and what it announces, is what comes of the
enquiry. What could not be read is announced by its key, in the order in which the keys are looked at
(`statusReports_eq`, `songReports_ok`), and a song that could not be had leaves artist, album and title
empty and fails nothing (`lost_song_fails_no_status`).
-/

namespace PlayerWatch

/-! ### Reports -/

open Number in
/-- The keys of a status whose values are numbers, in the order in which they are looked at, each with
whether a value can be read. -/
def Status.numerals : List (String × (String → Bool)) :=
  [("volume", fun v => (readInt32? v).isSome), ("playlistlength", fun v => (readUInt32? v).isSome),
   ("song", fun v => (readInt32? v).isSome), ("songid", fun v => (readInt32? v).isSome),
   ("nextsong", fun v => (readInt32? v).isSome), ("nextsongid", fun v => (readInt32? v).isSome),
   ("duration", fun v => (readReal? v).isSome), ("elapsed", fun v => (readReal? v).isSome),
   ("bitrate", fun v => (readUInt32? v).isSome)]

open Number in
/-- The keys of a song whose values are numbers, in the order in which they are looked at, each with
whether a value can be read. -/
def Song.numerals : List (String × (String → Bool)) :=
  [("Pos", fun v => (readUInt32? v).isSome), ("Id", fun v => (readUInt32? v).isSome),
   ("duration", fun v => (readReal? v).isSome)]

/-- What is announced about a key: its value, if the record has one that cannot be read. -/
def report? (request : Request) (r : Record) (numeral : String × (String → Bool)) : Option Event :=
  ((r.get? numeral.1).filter fun value => !numeral.2 value).map fun value =>
    .fieldUnreadable request.name numeral.1 value

/-- What is announced about a reply: one report for each key with a value that cannot be read. -/
def reportsOf (request : Request) (numerals : List (String × (String → Bool)))
    (lines : List String) : List Event :=
  numerals.filterMap (report? request (.ofLines lines))

theorem fieldEvents_unreadable {α : Type} (request : Request) (r : Record)
    (read : String → Option α) (key : String) :
    Client.fieldEvents request (r.unreadable read key) =
      (report? request r (key, fun v => (read v).isSome)).toList := by
  unfold Record.unreadable report?
  cases r.get? key with
  | none => rfl
  | some value => cases hread : read value <;> simp [Client.fieldEvents, Option.filter, hread]

theorem Client.fieldEvents_append (request : Request) (fields fields' : List Unreadable) :
    fieldEvents request (fields ++ fields') =
      fieldEvents request fields ++ fieldEvents request fields' :=
  List.map_append

theorem statusReports_eq (lines : List String) :
    statusReports lines = reportsOf .status Status.numerals lines := by
  rw [statusReports, Status.unreadable, reportsOf, List.filterMap_eq_flatMap_toList]
  simp [Client.fieldEvents_append, fieldEvents_unreadable, Status.numerals]

theorem songReports_ok (addr : String) (lines : List String) :
    songReports addr (.ok lines) = reportsOf .currentSong Song.numerals lines := by
  rw [songReports, Song.unreadable, reportsOf, List.filterMap_eq_flatMap_toList]
  simp [Client.fieldEvents_append, fieldEvents_unreadable, Song.numerals]

/-! ### What a client on a bus is told -/

/-- The song that the player has told about: none if it was not asked or has not done what it was
asked. -/
def toldSong : Option (Except RequestError (List String)) → Song
  | some (.ok lines) => songOf lines
  | _ => {}

/-- What is announced about a reply to `status` and, if the song was asked for, what came of that. -/
def announcements (addr : String) (lines : List String) :
    Option (Except RequestError (List String)) → List Event
  | none => reportsOf .status Status.numerals lines
  | some (.ok songLines) =>
    reportsOf .status Status.numerals lines ++ reportsOf .currentSong Song.numerals songLines
  | some (.error error) =>
    reportsOf .status Status.numerals lines ++ [.songUnavailable addr error.message]

/-- A client on a bus was told a status, by a reply and by what came of asking for the song. -/
structure StatusTold (addr : String) (bus : Option Bus) (lines : List String)
    (song : Option (Except RequestError (List String))) (status : Status) (r : Reported) : Prop where
  result : r.answered.result = .ok (.status status)
  fields : { status with artist := "", album := "", title := "" } = statusOf lines
  artist : status.artist = (toldSong song).artist
  album : status.album = (toldSong song).album
  title : status.title = (toldSong song).title
  events : r.answered.events = if bus.isSome then announcements addr lines song else []
  published : r.bus = bus.map fun b => r.answered.events.foldl Bus.publish b

namespace Attached

/-- What a client on a bus makes of a status is what comes of asking for it. -/
theorem perform_status {c : Connection} {bus : Option Bus} {t : Nat} {a : Answered Status}
    (h : Enquiry ⟨c, bus.isSome⟩ (.after t a)) :
    perform ⟨c, bus⟩ .status =
      .after t ⟨a.map .status, bus.map fun b => a.events.foldl Bus.publish b⟩ := by
  rw [perform, Client.perform, client, h.status_eq]
  rfl

theorem perform_status_of_silent {c : Connection} {bus : Option Bus}
    (h : Enquiry ⟨c, bus.isSome⟩ .forever) : perform ⟨c, bus⟩ .status = .forever := by
  rw [perform, Client.perform, client, h.status_eq]
  rfl

/-- **Failing to get the song fails no status.** A client, on a bus or not and over any connection, asks
for the status with `status`. If that fails, the client fails in the same way, writes nothing else and
announces nothing. Otherwise it has a status, which but for artist, album and title is that of the reply;
it asks for the song, with `currentsong`, exactly if the state is `play` or `pause`; and artist, album
and title are those of the song if it was asked for and came, and empty if not. On a bus it announces
one after the other every value of the status that could not be read, by its key, and then every value
of the song that could not be read, or that the song could not be had and why. With a limit all this
comes to an end. -/
theorem lost_song_fails_no_status (c : Connection) (bus : Option Bus) :
    let outcome := perform ⟨c, bus⟩ .status
    (c.execute .status = .forever → outcome = .forever) ∧
    (∀ t x error, c.execute .status = .after t x → x.result = .error error →
      outcome =
        .after t ⟨⟨.error error, c.accepted "status", [], ⟨x.connection, bus.isSome⟩⟩, bus⟩) ∧
    (∀ t x lines, c.execute .status = .after t x → x.result = .ok lines →
      x.sent = "status\n" ∧ x.connection.isOpen = true ∧
      ((statusOf lines).state ≠ "play" ∧ (statusOf lines).state ≠ "pause" →
        ∃ status r, outcome = .after t r ∧ StatusTold c.addr bus lines none status r ∧
          r.answered.sent = x.sent ∧ r.answered.client.connection = x.connection) ∧
      ((statusOf lines).state = "play" ∨ (statusOf lines).state = "pause" →
        (x.connection.execute .currentSong = .forever → outcome = .forever) ∧
        ∀ s y, x.connection.execute .currentSong = .after s y →
          ∃ status r, outcome = .after (t + s) r ∧
            StatusTold c.addr bus lines (some y.result) status r ∧
            r.answered.sent = x.sent ++ x.connection.accepted "currentsong" ∧
            r.answered.client.connection = y.connection ∧
            (y.connection.isOpen = true ↔ y.IsAnswered))) ∧
    (∀ limit, c.limit = some limit → ∃ t r, outcome = .after t r) ∧
    (Status.numerals.map Prod.fst).Nodup ∧ (Song.numerals.map Prod.fst).Nodup := by
  intro outcome
  refine ⟨?silent, ?failed, ?answered, ?limited, by decide, by decide⟩
  case silent =>
    intro hx
    exact perform_status_of_silent (.silent hx)
  case failed =>
    intro t x error hx hreply
    have henquiry : Enquiry ⟨c, bus.isSome⟩ _ := .failed hx hreply
    have houtcome := perform_status henquiry
    rw [Connection.sent_of_executeLine hx] at houtcome
    refine houtcome.trans ?_
    cases bus <;> rfl
  case answered =>
    intro t x lines hx hreply
    have hanswered : x.IsAnswered := .inl ⟨lines, hreply⟩
    obtain ⟨hopen, hsent⟩ := Connection.sent_of_answered hx hanswered
    have hopen' := (Connection.isOpen_of_executeLine hx).2 ⟨hopen, hanswered⟩
    refine ⟨hsent, hopen', ?alone, ?withSong⟩
    case alone =>
      rintro ⟨hplay, hpause⟩
      have hno : (statusOf lines).hasCurrentSong = false := by
        rw [← Bool.not_eq_true, Status.hasCurrentSong_iff, not_or]
        exact ⟨hplay, hpause⟩
      refine ⟨statusOf lines, _, perform_status (.answered hx hreply hno), ?_, rfl, rfl⟩
      refine ⟨rfl, rfl, rfl, rfl, rfl, ?_, rfl⟩
      show Client.announced _ (statusReports lines) = _
      rw [statusReports_eq]
      rfl
    case withSong =>
      intro hstate
      have hsong := Status.hasCurrentSong_iff.2 hstate
      refine ⟨fun hy => perform_status_of_silent (.songSilent hx hreply hsong hy), ?_⟩
      intro s y hy
      refine ⟨(statusOf lines).withReply y.result, _,
        perform_status (.completed hx hreply hsong hy), ?_, ?_, rfl, ?_⟩
      · cases y.result with
        | ok songLines =>
          refine ⟨rfl, rfl, rfl, rfl, rfl, ?_, rfl⟩
          show Client.announced _ (statusReports lines ++ songReports c.addr (.ok songLines)) = _
          rw [statusReports_eq, songReports_ok]
          rfl
        | error error =>
          refine ⟨rfl, rfl, rfl, rfl, rfl, ?_, rfl⟩
          show Client.announced _ (statusReports lines ++ songReports c.addr (.error error)) = _
          rw [statusReports_eq]
          rfl
      · show x.sent ++ y.sent = _
        rw [Connection.sent_of_executeLine hy]
        rfl
      · rw [Connection.isOpen_of_executeLine hy]
        simp [hopen']
  case limited =>
    intro limit hlimit
    obtain ⟨t, a, ha⟩ := Client.returns_of_status (c := client ⟨c, bus⟩) hlimit
    have henquiry := enquiry_status (client ⟨c, bus⟩)
    rw [ha] at henquiry
    exact ⟨t, _, perform_status henquiry⟩

end Attached

end PlayerWatch
