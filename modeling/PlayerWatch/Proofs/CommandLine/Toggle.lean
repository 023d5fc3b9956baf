import PlayerWatch.CommandLine.Run
import PlayerWatch.Proofs.Client.Enquiry
import PlayerWatch.Proofs.Controller.Deeds
import PlayerWatch.Proofs.Settings.Layers

/-!
# Pausing and resuming

A toggle looks at the status and then makes one pause request, and between the two the connection may be
lost. The courses that it can take are a grammar over deeds: `Toggles` begins with the dial, `Looks` with
the request for the status, `Redials` with the second dial if there has to be one, and `Pauses` is the
pause request; each says how the run ends, if it ends at all. Every run takes one of them
(`follows_toggle`), and it prints by the reply to its pause request and by nothing else
(`toggle_follows_status`).
-/

namespace PlayerWatch.CommandLine

open Settings (Files Variables)
open Text (encode)

/-! ### The courses of a toggle -/

/-- How a run ends that failed at the player. -/
def failed (error : ClientError) : Option (Except Failure String) := some (.error (.player error))

/-- The pause request, over a connection that is there. It is made once, whatever comes of it. -/
inductive Pauses (playing : Bool) : List Deed → Option (Except Failure String) → Prop where
  | silent (sent : String) : Pauses playing [.trip (.pause playing) sent none] none
  | failed (sent : String) (cause : RequestError) :
      Pauses playing [.trip (.pause playing) sent (some (.error cause))] (failed (.request cause))
  | done (lines : List String) :
      Pauses playing [.trip (.pause playing) ((Request.pause playing).line ++ "\n") (some (.ok lines))]
        (some (.ok (printToggle playing)))

/-- The pause request over another connection, if one comes about. -/
inductive Redials (playing : Bool) : List Deed → Option (Except Failure String) → Prop where
  | unanswered : Redials playing [.dial none] none
  | unreached (cause : DialError) :
      Redials playing [.dial (some (.error cause))] (failed (.dial cause))
  | reached {d : Connection} {deeds : List Deed} {result : Option (Except Failure String)}
      (rest : Pauses playing deeds result) :
      Redials playing (.dial (some (.ok d)) :: deeds) result

/-- The look at the status, over a connection that is there, and the pause request that follows from
it. Only a lost connection calls for another one. -/
inductive Looks : List Deed → Option (Except Failure String) → Prop where
  | silent (sent : String) : Looks [.trip .status sent none] none
  | failed (sent : String) (cause : RequestError) :
      Looks [.trip .status sent (some (.error cause))] (failed (.request cause))
  | songless {lines : List String} {deeds : List Deed} {result : Option (Except Failure String)}
      (no_song : (statusOf lines).hasCurrentSong = false)
      (rest : Pauses ((statusOf lines).state = "play") deeds result) :
      Looks (.trip .status "status\n" (some (.ok lines)) :: deeds) result
  | songSilent {lines : List String} (song : (statusOf lines).hasCurrentSong = true) (sent : String) :
      Looks [.trip .status "status\n" (some (.ok lines)), .trip .currentSong sent none] none
  | songAnswered {lines : List String} {reply : Except RequestError (List String)}
      {deeds : List Deed} {result : Option (Except Failure String)}
      (song : (statusOf lines).hasCurrentSong = true)
      (kept : ∀ cause, reply = .error cause → cause.isLost = false)
      (rest : Pauses ((statusOf lines).state = "play") deeds result) :
      Looks (.trip .status "status\n" (some (.ok lines)) ::
        .trip .currentSong "currentsong\n" (some reply) :: deeds) result
  | songLost {lines : List String} {sent : String} {cause : RequestError} {deeds : List Deed}
      {result : Option (Except Failure String)} (song : (statusOf lines).hasCurrentSong = true)
      (lost : cause.isLost = true) (rest : Redials ((statusOf lines).state = "play") deeds result) :
      Looks (.trip .status "status\n" (some (.ok lines)) ::
        .trip .currentSong sent (some (.error cause)) :: deeds) result

/-- A toggle from its dial on. -/
inductive Toggles : List Deed → Option (Except Failure String) → Prop where
  | unanswered : Toggles [.dial none] none
  | unreached (cause : DialError) : Toggles [.dial (some (.error cause))] (failed (.dial cause))
  | reached {d : Connection} {deeds : List Deed} {result : Option (Except Failure String)}
      (rest : Looks deeds result) : Toggles (.dial (some (.ok d)) :: deeds) result

/-! ### Runs that take a course -/

/-- A run is done by deeds that take a course. -/
def Follows (addr : String) (limit : Option Nat) (s : Option Connection × Network) (w : Wait Outcome)
    (course : List Deed → Option (Except Failure String) → Prop) : Prop :=
  ∃ deeds left, Deeds addr limit s deeds left ∧
    left.map Prod.snd = w.arrival?.map Outcome.network ∧ course deeds (w.arrival?.map Outcome.result)

section Courses

variable {addr : String} {limit : Option Nat} {w : Wait Outcome}
  {course : List Deed → Option (Except Failure String) → Prop}

theorem Follows.later {s : Option Connection × Network} (h : Follows addr limit s w course) (ms : Nat) :
    Follows addr limit s (w.later ms) course := by
  unfold Follows at h ⊢
  rwa [Wait.arrival?_later]

theorem Follows.trip {d : Connection} {n : Network} {request : Request} {t : Nat} {x : Exchange}
    (made : d.execute request = .after t x)
    (rest : Follows addr limit (some x.connection, n.deliver x.sent) w fun deeds result =>
      course (.trip request x.sent (some x.result) :: deeds) result) :
    Follows addr limit (some d, n) w course := by
  obtain ⟨deeds, left, hdeeds, hleft, hcourse⟩ := rest
  exact ⟨_, left, .trip made hdeeds, hleft, hcourse⟩

theorem Follows.reached {c : Option Connection} {n : Network} {t : Nat} {d : Connection}
    (needed : ∀ d, c = some d → d.isOpen = false)
    (greeted : (n.meet addr).1.greet addr limit = .after t (.ok d))
    (rest : Follows addr limit (some d, (n.meet addr).2) w fun deeds result =>
      course (.dial (some (.ok d)) :: deeds) result) :
    Follows addr limit (c, n) w course := by
  obtain ⟨deeds, left, hdeeds, hleft, hcourse⟩ := rest
  exact ⟨_, left, .reached needed greeted hdeeds, hleft, hcourse⟩

theorem Follows.mono {s : Option Connection × Network}
    {course' : List Deed → Option (Except Failure String) → Prop} (h : Follows addr limit s w course)
    (hcourse : ∀ deeds result, course deeds result → course' deeds result) :
    Follows addr limit s w course' := by
  obtain ⟨deeds, left, hdeeds, hleft, h⟩ := h
  exact ⟨deeds, left, hdeeds, hleft, hcourse _ _ h⟩

end Courses

/-! ### The pause request -/

section Pausing

variable (c : Controller) (n : Network) (playing : Bool)

/-- A pause request, and what is printed for it. -/
def pausing : Wait Outcome := (c.control n (.pause playing)).map (outcomeOf fun _ => printToggle playing)

/-- A toggle makes a pause request by the status in the slot. -/
theorem togglePause_eq (slot : Slot) :
    (c.togglePause n slot).map (outcomeOf printToggle) =
      pausing c n (slot.read.any Status.isPlaying) := by
  rw [Controller.togglePause, pausing, Wait.map_map]
  congr 1
  funext h
  cases hresult : h.result <;> simp [outcomeOf, Handled.map, hresult, Except.map]

theorem follows_control (addr : String) (limit : Option Nat) (client : Client) :
    Follows addr limit (some client.connection, n)
      (((client.control (.pause playing)).map (c.handle n)).map (outcomeOf fun _ => printToggle playing))
      (Pauses playing) := by
  rw [Client.control, Client.ask]
  show Follows addr limit _ ((((client.connection.execute (.pause playing)).map _).map _).map _) _
  cases hx : client.connection.execute (.pause playing) with
  | forever => exact ⟨_, none, .silent hx, rfl, .silent _⟩
  | after t x =>
    refine ⟨_, some _, .trip hx (.none _), rfl, ?_⟩
    cases hresult : x.result with
    | error cause =>
      simpa [Controller.handle, outcomeOf, hresult, Except.map, CommandLine.failed] using
        Pauses.failed x.sent cause
    | ok lines =>
      have hsent := (Connection.sent_of_answered hx (.inl ⟨lines, hresult⟩)).2
      simpa [Controller.handle, outcomeOf, hresult, Except.map, hsent] using Pauses.done lines

/-- Over an open connection a pause request is made at once. -/
theorem follows_pausing_of_open (client : Client) (hopen : client.isOpen = true) :
    Follows c.addr c.limit (some client.connection, n)
      (pausing { c with client := some client } n playing) (Pauses playing) := by
  have hclient : ({ c with client := some client } : Controller).openClient? = some client := by
    simp [Controller.openClient?, hopen]
  rw [pausing, Controller.control, Controller.withClient_of_open hclient]
  exact follows_control _ n playing c.addr c.limit client

/-- Where the connection is lost, a pause request is made over another one. -/
theorem follows_pausing_of_lost (client : Client) (hlost : client.isOpen = false) :
    Follows c.addr c.limit (some client.connection, n)
      (pausing { c with client := some client } n playing) (Redials playing) := by
  have hclient : ({ c with client := some client } : Controller).openClient? = none := by
    simp [Controller.openClient?, hlost]
  have hneeded : ∀ d, some client.connection = some d → d.isOpen = false := by
    intro d hd
    obtain rfl := Option.some.inj hd
    exact hlost
  rw [pausing, Controller.control, Controller.withClient_of_none hclient]
  dsimp only
  cases hgreet : (n.meet c.addr).1.greet c.addr c.limit with
  | forever => exact ⟨_, none, .unanswered hneeded hgreet, rfl, .unanswered⟩
  | after t met =>
    cases met with
    | error cause => exact ⟨_, some _, .unreached hneeded hgreet (.none _), rfl, .unreached cause⟩
    | ok d =>
      rw [Wait.bind_after, Wait.map_later]
      apply Follows.reached hneeded hgreet
      exact ((follows_control _ _ playing c.addr c.limit ⟨d, c.announces⟩).later t).mono
        fun _ _ => .reached

end Pausing

/-! ### The look at the status -/

/-- How a toggle goes on when it has looked at the status. -/
def afterLook (h : Handled Status) : Wait Outcome :=
  match h.result with
  | .error error => .after 0 ⟨.error (.player error), h.network⟩
  | .ok status => pausing h.controller h.network status.isPlaying

theorem toggle_eq (c : Controller) (n : Network) : toggle c n = (c.status n).bind afterLook := by
  unfold toggle
  congr 1
  funext h
  unfold afterLook
  cases h.result with
  | error error => rfl
  | ok status =>
    dsimp only
    rw [togglePause_eq, Slot.read_publish, Option.any_some]

theorem isPlaying_withReply (status : Status) (reply : Except RequestError (List String)) :
    (status.withReply reply).isPlaying = status.isPlaying := by
  cases reply <;> rfl

theorem follows_look {c : Controller} {n : Network} {client : Client} {w : Wait (Answered Status)}
    (h : Enquiry client w) :
    Follows c.addr c.limit (some client.connection, n) ((w.map (c.handle n)).bind afterLook) Looks := by
  -- A reply leaves the connection open, so only the second request can lose it.
  have hstatus {t : Nat} {x : Exchange} {lines : List String}
      (asked : client.connection.execute .status = .after t x) (reply : x.result = .ok lines) :
      x.connection.isOpen = true ∧ x.sent = "status\n" := by
    have hanswered : x.IsAnswered := .inl ⟨lines, reply⟩
    obtain ⟨hopen, hsent⟩ := Connection.sent_of_answered asked hanswered
    exact ⟨(Connection.isOpen_of_executeLine asked).2 ⟨hopen, hanswered⟩, hsent⟩
  cases h with
  | silent asked => exact ⟨_, none, .silent asked, rfl, .silent _⟩
  | @failed t x error asked reply =>
    refine ⟨_, some _, .trip asked (.none _), rfl, ?_⟩
    rw [reply]
    exact .failed x.sent error
  | @answered t x lines asked reply no_song =>
    obtain ⟨hopen, hsent⟩ := hstatus asked reply
    rw [Wait.map_after, Wait.bind_after]
    refine (Follows.trip asked ?_).later t
    rw [hsent, reply]
    refine (follows_pausing_of_open c _ _ ⟨x.connection, client.announces⟩ hopen).mono ?_
    exact fun _ _ => Looks.songless no_song
  | @songSilent t x lines asked reply song silent =>
    refine ⟨_, none, .trip asked (.silent silent), rfl, ?_⟩
    rw [(hstatus asked reply).2, reply]
    exact .songSilent song _
  | @completed t s x y lines asked reply song returned =>
    obtain ⟨hopen, hsent⟩ := hstatus asked reply
    rw [Wait.map_after, Wait.bind_after]
    refine (Follows.trip asked (Follows.trip returned ?_)).later (t + s)
    rw [← Controller.deliver_sent n asked, hsent, reply]
    show Follows c.addr c.limit (some y.connection, n.deliver ("status\n" ++ y.sent))
      (pausing { c with client := some ⟨y.connection, client.announces⟩ } _
        ((statusOf lines).withReply y.result).isPlaying) _
    rw [isPlaying_withReply]
    by_cases hanswered : y.IsAnswered
    · have hkept : (⟨y.connection, client.announces⟩ : Client).isOpen = true :=
        (Connection.isOpen_of_executeLine returned).2 ⟨hopen, hanswered⟩
      have hsong : y.sent = "currentsong\n" := (Connection.sent_of_answered returned hanswered).2
      refine (follows_pausing_of_open c _ _ _ hkept).mono fun _ _ rest => ?_
      rw [hsong]
      refine Looks.songAnswered song ?_ rest
      intro cause hcause
      rw [← Bool.not_eq_true, Exchange.isLost_iff hcause, not_not]
      exact hanswered
    · have hlost : (⟨y.connection, client.announces⟩ : Client).isOpen = false := by
        rw [← Bool.not_eq_true]
        exact fun h => hanswered ((Connection.isOpen_of_executeLine returned).1 h).2
      refine (follows_pausing_of_lost c _ _ _ hlost).mono fun _ _ rest => ?_
      cases hresult : y.result with
      | ok songLines => exact absurd (.inl ⟨songLines, hresult⟩) hanswered
      | error cause => exact Looks.songLost song ((Exchange.isLost_iff hresult).2 hanswered) rest

/-- Every toggle takes one of the courses. -/
theorem follows_toggle {c : Controller} (hnone : c.client = none) (n : Network) :
    Follows c.addr c.limit (none, n) (toggle c n) Toggles := by
  have hclient : c.openClient? = none := by simp [Controller.openClient?, hnone]
  have hneeded : ∀ d, (none : Option Connection) = some d → d.isOpen = false := by simp
  rw [toggle_eq, Controller.status, Controller.withClient_of_none hclient]
  cases hgreet : (n.meet c.addr).1.greet c.addr c.limit with
  | forever => exact ⟨_, none, .unanswered hneeded hgreet, rfl, .unanswered⟩
  | after t met =>
    cases met with
    | error cause => exact ⟨_, some _, .unreached hneeded hgreet (.none _), rfl, .unreached cause⟩
    | ok d =>
      rw [Wait.bind_after, Wait.bind_later]
      refine Follows.reached hneeded hgreet ?_
      exact ((follows_look (enquiry_status ⟨d, c.announces⟩)).later t).mono fun _ _ => .reached

/-! ### What follows from a course -/

/-- A pause request was granted. -/
def Granted (deeds : List Deed) (paused : Bool) : Prop :=
  ∃ sent lines, .trip (.pause paused) sent (some (.ok lines)) ∈ deeds

/-- How a course comes to its end. -/
structure Concludes (deeds : List Deed) (result : Option (Except Failure String)) : Prop where
  /-- Behind a deed that fails there is no other, and the run fails with its error. -/
  stops : ∀ deed ∈ deeds, ∀ error, deed.failure? = some error →
    deeds.getLast? = some deed ∧ result = failed error
  /-- A text is printed for a pause request that was granted and for nothing else. -/
  prints : ∀ r, result = some r → ∀ paused, printed r = printToggle paused ↔ Granted deeds paused
  /-- Where none was granted, nothing is printed, and the run fails by one of the deeds. -/
  quiet : ∀ r, result = some r → (∀ paused, ¬ Granted deeds paused) → printed r = "" ∧
    ∃ error, r = .error (.player error) ∧ ∃ deed ∈ deeds, deed.failure? = some error

theorem not_granted_of_failure {deed : Deed} {error : ClientError}
    (hfailure : deed.failure? = some error) (paused : Bool) : ¬ Granted [deed] paused := by
  rintro ⟨sent, lines, hmem⟩
  obtain rfl := List.mem_singleton.1 hmem
  cases hfailure

theorem concludes_of_failure {deed : Deed} {error : ClientError}
    (hfailure : deed.failure? = some error) : Concludes [deed] (failed error) where
  stops deed' hmem error' herror := by
    obtain rfl := List.mem_singleton.1 hmem
    obtain rfl := Option.some.inj (hfailure.symm.trans herror)
    exact ⟨rfl, rfl⟩
  prints r hr paused := by
    obtain rfl := Option.some.inj hr
    refine ⟨?_, fun h => absurd h (not_granted_of_failure hfailure paused)⟩
    cases paused <;> simp [printed, printToggle]
  quiet r hr hnone := by
    obtain rfl := Option.some.inj hr
    exact ⟨rfl, error, rfl, deed, List.mem_singleton.2 rfl, hfailure⟩

theorem concludes_of_silence {deed : Deed} (hfine : deed.failure? = none) :
    Concludes [deed] none where
  stops deed' hmem error herror := by
    obtain rfl := List.mem_singleton.1 hmem
    rw [hfine] at herror
    cases herror
  prints := nofun
  quiet := nofun

section Concluding

variable {deed : Deed} {deeds : List Deed} {result : Option (Except Failure String)} {playing : Bool}

theorem granted_cons (hother : ∀ paused, deed.request? ≠ some (.pause paused)) (paused : Bool) :
    Granted (deed :: deeds) paused ↔ Granted deeds paused := by
  constructor
  · rintro ⟨sent, lines, hmem⟩
    rcases List.mem_cons.1 hmem with rfl | hmem
    · exact absurd rfl (hother paused)
    · exact ⟨sent, lines, hmem⟩
  · rintro ⟨sent, lines, hmem⟩
    exact ⟨sent, lines, List.mem_cons_of_mem _ hmem⟩

/-- What is done before, and does neither fail nor ask for a pause, changes nothing. -/
theorem Concludes.cons (h : Concludes deeds result) (hfine : deed.failure? = none)
    (hother : ∀ paused, deed.request? ≠ some (.pause paused)) : Concludes (deed :: deeds) result where
  stops deed' hmem error herror := by
    rcases List.mem_cons.1 hmem with rfl | hmem
    · rw [hfine] at herror
      cases herror
    · obtain ⟨hlast, hresult⟩ := h.stops deed' hmem error herror
      exact ⟨by rw [List.getLast?_cons, hlast]; rfl, hresult⟩
  prints r hr paused := by rw [h.prints r hr paused, granted_cons hother]
  quiet r hr hnone := by
    simp only [granted_cons hother] at hnone
    obtain ⟨hprinted, error, hresult, deed', hmem, hfailure⟩ := h.quiet r hr hnone
    exact ⟨hprinted, error, hresult, deed', List.mem_cons_of_mem _ hmem, hfailure⟩

theorem Pauses.concludes (h : Pauses playing deeds result) : Concludes deeds result := by
  have hown : Request.pause playing ≠ .currentSong := by cases playing <;> decide
  cases h with
  | silent sent => exact concludes_of_silence rfl
  | failed sent cause => exact concludes_of_failure (by rw [Deed.failure?, if_neg hown])
  | done lines =>
    refine ⟨?stops, ?prints, ?quiet⟩
    case stops =>
      intro deed hmem error herror
      obtain rfl := List.mem_singleton.1 hmem
      cases herror
    case prints =>
      intro r hr paused
      obtain rfl := Option.some.inj hr
      cases paused <;> cases playing <;> simp [printed, printToggle, Granted] <;> decide
    case quiet =>
      intro r hr hnone
      exact absurd ⟨_, lines, List.mem_singleton.2 rfl⟩ (hnone playing)

theorem Redials.concludes (h : Redials playing deeds result) : Concludes deeds result := by
  cases h with
  | unanswered => exact concludes_of_silence rfl
  | unreached cause => exact concludes_of_failure rfl
  | reached rest => exact rest.concludes.cons rfl nofun

theorem Looks.concludes (h : Looks deeds result) : Concludes deeds result := by
  have hstatus {sent : String} {reply : Option (Except RequestError (List String))} :
      ∀ paused, (Deed.trip .status sent reply).request? ≠ some (.pause paused) := by
    show ∀ paused, some Request.status ≠ some (.pause paused)
    decide
  have hsong {sent : String} {reply : Option (Except RequestError (List String))} :
      ∀ paused, (Deed.trip .currentSong sent reply).request? ≠ some (.pause paused) := by
    show ∀ paused, some Request.currentSong ≠ some (.pause paused)
    decide
  cases h with
  | silent sent => exact concludes_of_silence rfl
  | failed sent cause => exact concludes_of_failure rfl
  | songless no_song rest => exact rest.concludes.cons rfl hstatus
  | songSilent song sent => exact (concludes_of_silence rfl).cons rfl hstatus
  | @songAnswered lines reply _ _ song kept rest =>
    refine (rest.concludes.cons ?_ hsong).cons rfl hstatus
    cases reply <;> rfl
  | songLost song lost rest => exact (rest.concludes.cons rfl hsong).cons rfl hstatus

theorem Toggles.concludes (h : Toggles deeds result) : Concludes deeds result := by
  cases h with
  | unanswered => exact concludes_of_silence rfl
  | unreached cause => exact concludes_of_failure rfl
  | reached rest => exact rest.concludes.cons rfl nofun

/-! ### What is asked -/

theorem Pauses.asks (h : Pauses playing deeds result) : requestsOf deeds = [.pause playing] := by
  cases h <;> rfl

theorem Redials.asks (h : Redials playing deeds result) :
    requestsOf deeds = [.pause playing] ∨
      requestsOf deeds = [] ∧ (result = none ∨ ∃ cause, result = failed (.dial cause)) := by
  cases h with
  | unanswered => exact .inr ⟨rfl, .inl rfl⟩
  | unreached cause => exact .inr ⟨rfl, .inr ⟨cause, rfl⟩⟩
  | reached rest => exact .inl rest.asks

/-- What a toggle asks: nothing but the status if that does not come, and else one pause request by it,
unless no connection comes about to make it over or an answer does not end. -/
def AsksByStatus (deeds : List Deed) (result : Option (Except Failure String)) : Prop :=
  (∀ sent lines, .trip .status sent (some (.ok lines)) ∉ deeds) ∧
      (requestsOf deeds = [] ∨ requestsOf deeds = [.status]) ∨
    ∃ lines, .trip .status "status\n" (some (.ok lines)) ∈ deeds ∧
      let pause := Request.pause ((statusOf lines).state = "play")
      (requestsOf deeds = [.status, pause] ∨ requestsOf deeds = [.status, .currentSong, pause] ∨
        requestsOf deeds = [.status, .currentSong] ∧
          (result = none ∨ ∃ cause, result = failed (.dial cause)))

theorem Looks.asks (h : Looks deeds result) : AsksByStatus deeds result := by
  cases h with
  | silent sent => exact .inl ⟨by simp, .inr rfl⟩
  | failed sent cause => exact .inl ⟨by simp, .inr rfl⟩
  | @songless lines rest _ no_song hrest =>
    refine .inr ⟨lines, List.mem_cons_self, .inl ?_⟩
    exact congrArg (Request.status :: ·) hrest.asks
  | @songSilent lines song sent =>
    exact .inr ⟨lines, List.mem_cons_self, .inr (.inr ⟨rfl, .inl rfl⟩)⟩
  | @songAnswered lines reply rest _ song kept hrest =>
    refine .inr ⟨lines, List.mem_cons_self, .inr (.inl ?_)⟩
    exact congrArg (Request.status :: Request.currentSong :: ·) hrest.asks
  | @songLost lines sent cause rest _ song lost hrest =>
    refine .inr ⟨lines, List.mem_cons_self, .inr ?_⟩
    refine hrest.asks.imp ?_ ?_
    · exact congrArg (Request.status :: Request.currentSong :: ·)
    · exact And.imp_left (congrArg (Request.status :: Request.currentSong :: ·))

theorem Toggles.asks (h : Toggles deeds result) : AsksByStatus deeds result := by
  cases h with
  | unanswered => exact .inl ⟨by simp, .inl rfl⟩
  | unreached cause => exact .inl ⟨by simp, .inl rfl⟩
  | reached rest =>
    refine rest.asks.imp ?_ ?_
    · exact And.imp_left fun h sent lines hmem => h sent lines (by simpa using hmem)
    · rintro ⟨lines, hmem, hasked⟩
      exact ⟨lines, List.mem_cons_of_mem _ hmem, hasked⟩

/-- The pause request is the one that the status calls for. -/
theorem AsksByStatus.paused_eq (h : AsksByStatus deeds result) {paused : Bool}
    (hgranted : Granted deeds paused) : ∃ lines, .trip .status "status\n" (some (.ok lines)) ∈ deeds ∧
      paused = decide ((statusOf lines).state = "play") := by
  obtain ⟨sent, lines', hmem⟩ := hgranted
  have hasked : Request.pause paused ∈ requestsOf deeds := List.mem_filterMap.2 ⟨_, hmem, rfl⟩
  have hother : Request.pause paused ≠ .status ∧ Request.pause paused ≠ .currentSong := by
    cases paused <;> decide
  have hinj : ∀ p q, Request.pause p = Request.pause q → p = q := by decide
  obtain ⟨-, hnone | hone⟩ | ⟨lines, hstatus, hall⟩ := h
  · simp [hnone] at hasked
  · simp [hone, hother] at hasked
  · refine ⟨lines, hstatus, hinj _ _ ?_⟩
    rcases hall with hall | hall | ⟨hall, -⟩
    · simpa [hall, hother] using hasked
    · simpa [hall, hother] using hasked
    · simp [hall, hother] at hasked

/-- A toggle asks for a part of this, in this order. -/
theorem AsksByStatus.sublist (h : AsksByStatus deeds result) :
    ∃ paused, (requestsOf deeds).Sublist [.status, .currentSong, .pause paused] := by
  obtain ⟨-, hall⟩ | ⟨lines, -, hall⟩ := h
  · refine ⟨true, ?_⟩
    rcases hall with hall | hall <;> rw [hall] <;> decide
  · refine ⟨(statusOf lines).state = "play", ?_⟩
    rcases hall with hall | hall | ⟨hall, -⟩ <;> rw [hall] <;> simp

end Concluding

/-! ### Whole runs -/

/-- **A toggle follows the status it has looked at.** A run that toggles dials and asks for the status
first. If the dial or that request fails, the run fails with its error and asks for nothing else.
Otherwise it makes one pause request, `pause 1` if the state is `play` and `pause 0` if it is anything
else, also when the request for the song between the two was refused or lost the connection; in the latter
case it dials once more, and fails with the error of that dial if it fails. It prints for a pause request
that was granted and for nothing else. With a limit all this comes to an end. -/
theorem toggle_follows_status (files : Files) (env : Variables) (args : List String)
    (i : Invocation) (settings : Settings) (n : Network) (hread : read args = .ok i)
    (hcommand : i.command = .toggle)
    (hload : Settings.load files env { host := i.host, port := i.port } = .ok settings) :
    ∃ w deeds left, runOnce files env args n = some w ∧
      Deeds settings.address settings.limit (none, n) deeds left ∧
      left.map Prod.snd = w.arrival?.map Outcome.network ∧
      Toggles deeds (w.arrival?.map Outcome.result) ∧
      AsksByStatus deeds (w.arrival?.map Outcome.result) ∧
      Concludes deeds (w.arrival?.map Outcome.result) ∧
      (∀ request sent reply, .trip request sent reply ∈ deeds →
        sent = "" ∨ sent = request.line ++ "\n") ∧
      (∀ t o, w = .after t o → o.network.received.flatten =
        n.received.flatten ++ deeds.flatMap fun deed => linesOf deed.sent) ∧
      (settings.limit ≠ none → ∃ t o, w = .after t o) ∧
      (Request.pause true).line = "pause 1" ∧ (Request.pause false).line = "pause 0" ∧
      printToggle true = "paused\n" ∧ printToggle false = "resumed\n" := by
  have hrun : runOnce files env args n = some (toggle (controllerFor settings) n) := by
    simp only [runOnce, plan, hread, hload, hcommand, carryOut]
  obtain ⟨deeds, left, course, hleft, htoggles⟩ :=
    follows_toggle (c := controllerFor settings) rfl n
  exact ⟨_, deeds, left, hrun, course, hleft, htoggles, htoggles.asks, htoggles.concludes,
    fun _ _ _ hmem => course.sent_of_mem hmem, fun t o ho => course.received_of_run hleft ho,
    course.run_ends hleft, by decide, by decide, rfl, rfl⟩

/-- The connection is lost after the status, and the pause request is made over another one. -/
theorem toggle_pauses_after_lost_song :
    let args := ["toggle"]
    let i : Invocation := { command := .toggle }
    let files : Files := { directory := "/", content := [] }
    let said (text : String) : Action := .send (encode text)
    let n : Network :=
      { turns :=
          [.accepted ⟨[said "OK MPD 0.23.5\n"],
            [.actions [said "state: play\nOK\n"], .actions [.close]]⟩,
          .accepted ⟨[said "OK MPD 0.23.5\n"], [.actions [said "OK\n"]]⟩] }
    read args = .ok i ∧ i.command = .toggle ∧
      Settings.load files [] { host := i.host, port := i.port } = .ok {} ∧
      ∃ t o deeds, runOnce files [] args n = some (.after t o) ∧ Toggles deeds (some o.result) ∧
        Granted deeds true ∧ printed o.result = "paused\n" ∧
        o.network.received = [["status", "currentsong"], ["pause 1"]] := by
  intro args i files said n
  have hread : read args = .ok i := by decide +kernel
  have hload : Settings.load files [] { host := i.host, port := i.port } = .ok {} := by
    refine Settings.load_of_values rfl (by decide) ⟨by decide, by decide, by decide⟩ ?_ (by decide)
    intro k
    cases k <;> decide +kernel
  obtain ⟨w, deeds, left, hrun, -, -, htoggles, -, hconcludes, -⟩ :=
    toggle_follows_status files [] args i {} n hread rfl hload
  have hprints : (runOnce files [] args n).bind (fun w => w.arrival?.map fun o =>
      (printed o.result, o.network.received)) =
      some ("paused\n", [["status", "currentsong"], ["pause 1"]]) := by
    decide +kernel
  rw [hrun, Option.bind_some] at hprints
  cases w with
  | forever => cases hprints
  | after t o =>
    obtain ⟨hprinted, hreceived⟩ := by simpa using hprints
    refine ⟨hread, rfl, hload, t, o, deeds, hrun, htoggles, ?_, hprinted, hreceived⟩
    exact (hconcludes.prints o.result rfl true).1 hprinted

end PlayerWatch.CommandLine
