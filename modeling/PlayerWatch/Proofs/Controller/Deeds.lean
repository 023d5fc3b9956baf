import PlayerWatch.Proofs.Controller.Dialling

/-!
# Deeds

What a controller does for a question is a list of deeds: dials, and requests over the connection that
the latest dial brought. `Deeds` ties them to the network, one after the other: a dial meets what the
network has next and is made only while no connection is open, and a request is the round trip of that
connection. The last deed may be one that never ends; with a limit there is none (`Deeds.ends`).

A question is `Done` by deeds if it fails exactly with one of them, the request for the song of a status
apart, and succeeds by the reply to its own request. Questions put to an open client are (`done_of_ask`,
`done_of_status`), so the same questions put to a controller are (`done_of_withClient`).
-/

namespace PlayerWatch

inductive Deed where
  /-- A dial, and what came of it; nothing if it never ends. -/
  | dial (met : Option (Except DialError Connection))
  /-- A request, what was written for it, and what came of it; nothing if it never ends. -/
  | trip (request : Request) (sent : String)
      (reply : Option (Except RequestError (List String)))

namespace Deed

def request? : Deed → Option Request
  | dial _ => none
  | trip request _ _ => some request

/-- What was written. -/
def sent : Deed → String
  | dial _ => ""
  | trip _ sent _ => sent

/-- How a deed makes what it is done for fail. A song that could not be had does not. -/
def failure? : Deed → Option ClientError
  | dial (some (.error cause)) => some (.dial cause)
  | trip request _ (some (.error cause)) =>
    if request = .currentSong then none else some (.request cause)
  | _ => none

end Deed

/-- The requests among deeds. -/
def requestsOf (deeds : List Deed) : List Request := deeds.filterMap Deed.request?

/-- Deeds one after the other, from a state to what they leave, which is nothing if the last of them never
ends. A state is the connection that the latest dial brought, if there is one, and the network. -/
inductive Deeds (addr : String) (limit : Option Nat) : Option Connection × Network → List Deed →
    Option (Option Connection × Network) → Prop where
  | none (s : Option Connection × Network) : Deeds addr limit s [] (some s)
  | unanswered {c : Option Connection} {n : Network} (needed : ∀ d, c = some d → d.isOpen = false)
      (greeted : (n.meet addr).1.greet addr limit = .forever) :
      Deeds addr limit (c, n) [.dial .none] .none
  | unreached {c : Option Connection} {n : Network} {t : Nat} {cause : DialError}
      {deeds : List Deed} {left : Option (Option Connection × Network)}
      (needed : ∀ d, c = some d → d.isOpen = false)
      (greeted : (n.meet addr).1.greet addr limit = .after t (.error cause))
      (rest : Deeds addr limit (c, (n.meet addr).2) deeds left) :
      Deeds addr limit (c, n) (.dial (some (.error cause)) :: deeds) left
  | reached {c : Option Connection} {n : Network} {t : Nat} {d : Connection} {deeds : List Deed}
      {left : Option (Option Connection × Network)} (needed : ∀ d, c = some d → d.isOpen = false)
      (greeted : (n.meet addr).1.greet addr limit = .after t (.ok d))
      (rest : Deeds addr limit (some d, (n.meet addr).2) deeds left) :
      Deeds addr limit (c, n) (.dial (some (.ok d)) :: deeds) left
  | silent {d : Connection} {n : Network} {request : Request} (made : d.execute request = .forever) :
      Deeds addr limit (some d, n) [.trip request (d.accepted request.line) .none] .none
  | trip {d : Connection} {n : Network} {request : Request} {t : Nat} {x : Exchange}
      {deeds : List Deed} {left : Option (Option Connection × Network)}
      (made : d.execute request = .after t x)
      (rest : Deeds addr limit (some x.connection, n.deliver x.sent) deeds left) :
      Deeds addr limit (some d, n) (.trip request x.sent (some x.result) :: deeds) left

namespace Deeds

variable {addr : String} {limit : Option Nat} {s s' : Option Connection × Network}
  {left : Option (Option Connection × Network)} {deeds : List Deed}

/-- A request is written once or not at all. -/
theorem sent_of_mem (h : Deeds addr limit s deeds left) {request : Request} {sent : String}
    {reply : Option (Except RequestError (List String))} (hmem : .trip request sent reply ∈ deeds) :
    sent = "" ∨ sent = request.line ++ "\n" := by
  induction h with
  | none s => cases hmem
  | unanswered needed greeted => simp at hmem
  | unreached needed greeted rest ih => exact ih (by simpa using hmem)
  | reached needed greeted rest ih => exact ih (by simpa using hmem)
  | silent made =>
    obtain ⟨rfl, rfl, rfl⟩ := by simpa using hmem
    exact Connection.accepted_cases ..
  | trip made rest ih =>
    rcases List.mem_cons.1 hmem with h | hmem
    · cases h
      rw [Connection.sent_of_executeLine made]
      exact Connection.accepted_cases ..
    · exact ih hmem

/-- What is written arrives, in its order, behind all that arrived before. -/
theorem received_eq (h : Deeds addr limit s deeds (some s'))
    (hstart : s.1.isSome = true → s.2.received ≠ []) :
    s'.2.received.flatten =
      s.2.received.flatten ++ deeds.flatMap fun deed => linesOf deed.sent := by
  have hnothing : linesOf "" = [] := rfl
  generalize hleft : some s' = left at h
  induction h with
  | none s =>
    obtain rfl := Option.some.inj hleft
    simp
  | unanswered needed greeted => cases hleft
  | silent made => cases hleft
  | @unreached c n _ _ _ _ needed greeted rest ih =>
    have hsame : (n.meet addr).2.received.flatten = n.received.flatten := by
      rcases Network.received_of_meet n addr with ⟨h, -⟩ | h <;> simp [h]
    have hstart' : c.isSome = true → (n.meet addr).2.received ≠ [] := by
      intro hc
      rcases Network.received_of_meet n addr with ⟨h, -⟩ | h
      · rw [h]
        exact hstart hc
      · simp [h]
    rw [ih hstart' hleft, hsame]
    simp [Deed.sent, hnothing]
  | @reached _ n _ _ _ _ needed greeted rest ih =>
    obtain ⟨peer, haccepted, -⟩ := Reception.accepted_of_greet greeted
    have hmore : (n.meet addr).2.received = n.received ++ [[]] :=
      (Network.received_of_meet n addr).resolve_left fun h => h.2 peer haccepted
    rw [ih (fun _ => by simp [hmore]) hleft, hmore]
    simp [Deed.sent, hnothing]
  | trip made rest ih =>
    have hsome := hstart rfl
    rw [ih (fun _ => Network.deliver_ne_nil hsome _) hleft, Network.flatten_deliver hsome]
    simp [Deed.sent]

/-- With a limit every deed ends. -/
theorem ends {ms : Nat} (h : Deeds addr limit s deeds left) (hlimit : limit = some ms)
    (hstart : ∀ d, s.1 = some d → d.limit = some ms) : left.isSome = true := by
  induction h with
  | none s => rfl
  | @unanswered c n needed greeted =>
    obtain ⟨t, met, hmet⟩ := Controller.returns_of_greet (n.meet addr).1 addr ms
    rw [hlimit, hmet] at greeted
    cases greeted
  | unreached needed greeted rest ih => exact ih hstart
  | reached needed greeted rest ih =>
    obtain ⟨peer, -, hshake⟩ := Reception.accepted_of_greet greeted
    apply ih
    intro d hd
    obtain rfl := Option.some.inj hd
    exact (Connection.limit_of_handshake hshake).trans hlimit
  | silent made =>
    obtain ⟨t, x, hx⟩ := Connection.returns_of_executeLine (hstart _ rfl) (Request.line _)
    rw [Connection.execute, hx] at made
    cases made
  | @trip c _ _ _ _ _ _ made rest ih =>
    have hc : c.limit = some ms := hstart c rfl
    apply ih
    intro d hd
    obtain rfl := Option.some.inj hd
    rw [Connection.connection_of_executeLine made]
    exact hc

section Runs

variable {β : Type} {n : Network} {w : Wait β} {network : β → Network}

/-- What is written along a run arrives, in its order, behind all that arrived before. -/
theorem received_of_run (h : Deeds addr limit (.none, n) deeds left)
    (hleft : left.map Prod.snd = w.arrival?.map network) {t : Nat} {b : β} (hb : w = .after t b) :
    (network b).received.flatten =
      n.received.flatten ++ deeds.flatMap fun deed => linesOf deed.sent := by
  rw [hb, Wait.arrival?_after] at hleft
  obtain ⟨s, rfl, hs⟩ := Option.map_eq_some_iff.1 hleft
  have hreceived := h.received_eq nofun
  rw [hs] at hreceived
  exact hreceived

/-- With a limit a run ends, since its deeds do. -/
theorem run_ends (h : Deeds addr limit (.none, n) deeds left)
    (hleft : left.map Prod.snd = w.arrival?.map network) (hlimit : limit ≠ .none) :
    ∃ t b, w = .after t b := by
  obtain ⟨ms, hms⟩ := Option.ne_none_iff_exists'.1 hlimit
  have hends : left.isSome = true := h.ends hms nofun
  cases w with
  | after t b => exact ⟨t, b, rfl⟩
  | forever => cases left <;> simp at hends hleft

end Runs

/-- Where `f` makes nothing of nothing and one thing of what is written for a request, it makes of all
that is written a part of what it would make of the requests. -/
theorem sublist_of_sent {β : Type} {f : String → List β} {g : Request → β}
    (h : Deeds addr limit s deeds left) (hnothing : f "" = [])
    (hone : ∀ request ∈ requestsOf deeds, f (request.line ++ "\n") = [g request]) :
    (deeds.flatMap fun deed => f deed.sent).Sublist ((requestsOf deeds).map g) := by
  have hsent : ∀ {request sent reply}, .trip request sent reply ∈ deeds →
      sent = "" ∨ sent = request.line ++ "\n" := fun hmem => h.sent_of_mem hmem
  clear h
  induction deeds with
  | nil => exact List.Sublist.refl _
  | cons deed deeds ih =>
    rw [List.flatMap_cons]
    cases deed with
    | dial met =>
      rw [Deed.sent, hnothing]
      exact ih hone fun hmem => hsent (List.mem_cons_of_mem _ hmem)
    | trip request sent reply =>
      have hrequests : requestsOf (.trip request sent reply :: deeds) = request :: requestsOf deeds :=
        rfl
      rw [hrequests, List.forall_mem_cons] at hone
      have hrest := ih hone.2 fun hmem => hsent (List.mem_cons_of_mem _ hmem)
      rw [hrequests, List.map_cons, Deed.sent]
      rcases hsent List.mem_cons_self with rfl | rfl
      · rw [hnothing]
        exact hrest.cons _
      · rw [hone.1]
        exact hrest.cons_cons _

/-- What is written is one text for some of the requests, in their order. -/
theorem sents_sublist (h : Deeds addr limit s deeds left) :
    ((deeds.map Deed.sent).filter (· ≠ "")).Sublist ((requestsOf deeds).map (·.line ++ "\n")) := by
  have hfilter : (deeds.map Deed.sent).filter (· ≠ "") =
      deeds.flatMap fun deed => if deed.sent ≠ "" then [deed.sent] else [] := by
    clear h
    induction deeds with
    | nil => rfl
    | cons deed deeds ih =>
      rw [List.map_cons, List.filter_cons, List.flatMap_cons, ih]
      by_cases hsent : deed.sent = "" <;> simp [hsent]
  rw [hfilter]
  refine h.sublist_of_sent (f := fun text => if text ≠ "" then [text] else []) (by simp) ?_
  intro request _
  have hne : request.line ++ "\n" ≠ "" := by
    intro hnil
    simpa using congrArg String.length hnil
  exact if_pos hne

/-- Where the lines of the requests differ, no text is written twice. -/
theorem nodup_sents (h : Deeds addr limit s deeds left)
    (hlines : ((requestsOf deeds).map Request.line).Nodup) :
    ((deeds.map Deed.sent).filter (· ≠ "")).Nodup := by
  have htexts : (((requestsOf deeds).map Request.line).map (· ++ "\n")).Nodup := by
    apply hlines.map
    intro a b hab
    simpa using hab
  rw [List.map_map] at htexts
  exact h.sents_sublist.nodup htexts

/-- Where no request has a line end inside, each is one line for the player, or none. -/
theorem lines_sublist (h : Deeds addr limit s deeds left)
    (hlines : ∀ request ∈ requestsOf deeds, '\n' ∉ request.line.toList) :
    (deeds.flatMap fun deed => linesOf deed.sent).Sublist ((requestsOf deeds).map Request.line) :=
  h.sublist_of_sent rfl fun request hrequest => linesOf_line (hlines request hrequest)

end Deeds

/-! ### Questions -/

/-- A status that is read from the lines of a reply, with or without a song put in. -/
def Status.ReadFrom (lines : List String) (status : Status) : Prop :=
  let bare := Status.ofRecord (.ofLines lines)
  status = bare ∨ ∃ song, status = bare.withSong song

namespace Controller

/-- A question to a controller that is done by these deeds: it asks nothing else than `requests`, fails by
one of the deeds, and succeeds by the reply to its own request, whose lines give the answer. -/
structure Done {α : Type} (c : Controller) (s : Option Connection × Network) (w : Wait (Handled α))
    (own : Request) (requests : List Request) (gives : List String → α → Prop)
    (deeds : List Deed) : Prop where
  course : Deeds c.addr c.limit s deeds
    (w.arrival?.map fun h => (h.controller.client.map Client.connection, h.network))
  asks : (requestsOf deeds).Sublist requests
  fails : ∀ h, w.arrival? = some h →
    ∀ error, h.result = .error error ↔ ∃ deed ∈ deeds, deed.failure? = some error
  succeeds : ∀ h, w.arrival? = some h → ∀ value, h.result = .ok value →
    ∃ sent lines, .trip own sent (some (.ok lines)) ∈ deeds ∧ gives lines value
  keeps : ∀ h, w.arrival? = some h → h.controller = { c with client := h.controller.client }

section Questions

variable {α : Type} (c : Controller) (n : Network) (client : Client)

/-- What is done for an answer is done for the question. -/
theorem done_of_answer {s : Option Connection × Network} {t : Nat} {a : Answered α} {own : Request}
    {requests : List Request} {gives : List String → α → Prop} {deeds : List Deed}
    (course : Deeds c.addr c.limit s deeds (some (some a.client.connection, n.deliver a.sent)))
    (asks : (requestsOf deeds).Sublist requests)
    (fails : ∀ error, (∃ cause, a.result = .error cause ∧ error = .request cause) ↔
      ∃ deed ∈ deeds, deed.failure? = some error)
    (succeeds : ∀ value, a.result = .ok value →
      ∃ sent lines, .trip own sent (some (.ok lines)) ∈ deeds ∧ gives lines value) :
    Done c s ((Wait.after t a).map (c.handle n)) own requests gives deeds := by
  refine ⟨course, asks, ?_, ?_, ?_⟩
  · intro h hh error
    obtain rfl := Option.some.inj hh
    exact result_handle.trans (fails error)
  · intro h hh value hvalue
    obtain rfl := Option.some.inj hh
    apply succeeds
    cases hresult : a.result with
    | ok value' => simpa [handle, hresult] using hvalue
    | error cause => simp [handle, hresult] at hvalue
  · intro h hh
    obtain rfl := Option.some.inj hh
    rfl

/-- Of a question that never ends, only its deeds are known. -/
theorem done_of_silence {s : Option Connection × Network} {own : Request} {requests : List Request}
    {gives : List String → α → Prop} {deeds : List Deed} (course : Deeds c.addr c.limit s deeds none)
    (asks : (requestsOf deeds).Sublist requests) :
    Done c s .forever own requests gives deeds := by
  refine ⟨course, asks, ?_, ?_, ?_⟩ <;> (intro h hh; cases hh)

/-- A question whose answer is read from the reply to one request. -/
theorem done_of_reply {request : Request} (hown : request ≠ .currentSong) {t : Nat} {x : Exchange}
    (hx : client.connection.execute request = .after t x) {a : Answered α} {read : List String → α}
    (hconnection : a.client.connection = x.connection) (hsent : a.sent = x.sent)
    (hresult : a.result = x.result.map read) {requests : List Request}
    (hasks : [request].Sublist requests) {gives : List String → α → Prop}
    (hgives : ∀ lines, gives lines (read lines)) :
    ∃ deeds, Done c (some client.connection, n) ((Wait.after t a).map (c.handle n)) request requests
      gives deeds := by
  have course : Deeds c.addr c.limit (some client.connection, n)
      [.trip request x.sent (some x.result)]
      (some (some a.client.connection, n.deliver a.sent)) := by
    rw [hconnection, hsent]
    exact .trip hx (.none _)
  refine ⟨_, done_of_answer c n course hasks ?_ ?_⟩
  · intro error
    rw [hresult]
    cases x.result <;> simp [Except.map, Deed.failure?, hown, eq_comm]
  · intro value hvalue
    cases hreply : x.result with
    | ok lines =>
      rw [hresult, hreply] at hvalue
      obtain rfl := Except.ok.inj hvalue
      exact ⟨x.sent, lines, List.mem_singleton.2 rfl, hgives lines⟩
    | error cause =>
      rw [hresult, hreply] at hvalue
      cases hvalue

theorem done_of_ask {request : Request} (hown : request ≠ .currentSong)
    (read : List String → α × List Unreadable) :
    ∃ deeds, Done c (some client.connection, n) ((client.ask request read).map (c.handle n)) request
      [request] (fun lines value => value = (read lines).1) deeds := by
  rw [Client.ask]
  cases hx : client.connection.execute request with
  | forever =>
    exact ⟨[.trip request (client.connection.accepted request.line) none],
      done_of_silence c (.silent hx) (List.Sublist.refl [request])⟩
  | after t x =>
    exact done_of_reply c n client hown hx rfl rfl rfl (List.Sublist.refl [request]) fun _ => rfl

/-- What is written for a request arrives before what is written behind it. -/
theorem deliver_sent {d : Connection} {request : Request} {t : Nat} {x : Exchange}
    (hx : d.execute request = .after t x) (text : String) :
    n.deliver (x.sent ++ text) = (n.deliver x.sent).deliver text := by
  rw [Connection.sent_of_executeLine hx]
  rcases d.accepted_cases request.line with h | h
  · rw [h, String.empty_append, Network.deliver_empty]
  · rw [h]
    exact Network.deliver_append n _ text

/-- A status with a reply put in is read from the reply to `status`. -/
theorem readFrom_withReply (lines : List String) (reply : Except RequestError (List String)) :
    Status.ReadFrom lines ((statusOf lines).withReply reply) := by
  cases reply with
  | ok songLines => exact .inr ⟨songOf songLines, rfl⟩
  | error cause => exact .inl rfl

/-- A failure to get the song does not fail a status. -/
theorem done_of_status :
    ∃ deeds, Done c (some client.connection, n) (client.status.map (c.handle n)) .status
      [.status, .currentSong] Status.ReadFrom deeds := by
  have hbegun : [Request.status].Sublist [.status, .currentSong] := by decide
  have hboth : [Request.status, .currentSong].Sublist [.status, .currentSong] := List.Sublist.refl _
  have hown : Request.status ≠ .currentSong := by decide
  have hbare : ∀ lines, Status.ReadFrom lines (statusOf lines) := fun _ => .inl rfl
  have henquiry := enquiry_status client
  generalize client.status = w at henquiry ⊢
  cases henquiry with
  | silent asked => exact ⟨_, done_of_silence c (.silent asked) hbegun⟩
  | failed asked reply =>
    exact done_of_reply c n client hown asked rfl rfl (by rw [reply]; rfl) hbegun hbare
  | answered asked reply no_song =>
    exact done_of_reply c n client hown asked rfl rfl (by rw [reply]; rfl) hbegun hbare
  | songSilent asked reply song silent =>
    exact ⟨_, done_of_silence c (.trip asked (.silent silent)) hboth⟩
  | @completed _ _ x y lines asked reply song returned =>
    -- The song is asked for over what the first request has left.
    refine ⟨[.trip .status x.sent (some x.result), .trip .currentSong y.sent (some y.result)],
      done_of_answer c n ?_ hboth ?_ ?_⟩
    · rw [deliver_sent n asked]
      exact .trip asked (.trip returned (.none _))
    · intro error
      cases y.result <;> simp [reply, Deed.failure?]
    · intro value hvalue
      obtain rfl := Except.ok.inj hvalue
      exact ⟨x.sent, lines, by simp [reply], readFrom_withReply lines y.result⟩

end Questions

/-- What is done for a question to every open client is done for it by the controller, behind a dial if
one is needed. -/
theorem done_of_withClient {α : Type} (c : Controller) (n : Network)
    {ask : Client → Wait (Answered α)} {own : Request} {requests : List Request}
    {gives : List String → α → Prop}
    (hask : ∀ n client, ∃ deeds, Done c (some client.connection, n) ((ask client).map (c.handle n)) own
      requests gives deeds) :
    ∃ deeds, Done c (c.client.map Client.connection, n) (c.withClient n ask) own requests gives
      deeds := by
  cases hclient : c.openClient? with
  | some client =>
    have hcached : c.client = some client := Option.eq_some_of_filter_eq_some hclient
    rw [withClient_of_open hclient, hcached]
    exact hask n client
  | none =>
    have hneeded : ∀ d, c.client.map Client.connection = some d → d.isOpen = false := by
      intro d hd
      obtain ⟨client, hcached, rfl⟩ := Option.map_eq_some_iff.1 hd
      rw [openClient?, hcached, Option.filter_eq_none_iff] at hclient
      simpa [Client.isOpen] using hclient
    rw [withClient_of_none hclient]
    cases hgreet : (n.meet c.addr).1.greet c.addr c.limit with
    | forever =>
      exact ⟨[.dial none], done_of_silence c (.unanswered hneeded hgreet) (List.nil_sublist _)⟩
    | after t met =>
      cases met with
      | error cause =>
        refine ⟨[.dial (some (.error cause))], .unreached hneeded hgreet (.none _),
          List.nil_sublist _, ?_, ?_, ?_⟩
        · intro h hh error
          obtain rfl := by simpa using hh
          simp [Deed.failure?, eq_comm]
        · intro h hh value hvalue
          obtain rfl := by simpa using hh
          cases hvalue
        · intro h hh
          obtain rfl := by simpa using hh
          rfl
      | ok d =>
        obtain ⟨deeds, hdone⟩ := hask (n.meet c.addr).2 ⟨d, c.announces⟩
        refine ⟨.dial (some (.ok d)) :: deeds, ?_, hdone.asks, ?_, ?_, ?_⟩
        · rw [Wait.bind_after, Wait.arrival?_later]
          exact .reached hneeded hgreet hdone.course
        · intro h hh
          rw [Wait.bind_after, Wait.arrival?_later] at hh
          intro error
          rw [hdone.fails h hh error]
          simp [Deed.failure?]
        · intro h hh value hvalue
          rw [Wait.bind_after, Wait.arrival?_later] at hh
          obtain ⟨sent, lines, hmem, hgives⟩ := hdone.succeeds h hh value hvalue
          exact ⟨sent, lines, List.mem_cons_of_mem _ hmem, hgives⟩
        · intro h hh
          rw [Wait.bind_after, Wait.arrival?_later] at hh
          exact hdone.keeps h hh

end Controller

end PlayerWatch
