import Mathlib.Data.List.Nodup
import PlayerWatch.CommandLine.Run
import PlayerWatch.Proofs.CommandLine.Toggle
import PlayerWatch.Proofs.Request.OneLine

/-!
# Commands that are carried out once

A command that is carried out once is done by deeds. It fails if the settings cannot be loaded, if the
words of a list are no pairs, or by one of its deeds, and then it prints nothing; else it prints what the
reply to its own request gives. No request is made twice, and a list with a word left over makes none and
does not even dial (`once_all_or_nothing`).
-/

namespace PlayerWatch.CommandLine

open Settings (LoadError Files Variables)

/-! ### What a command asks -/

/-- The words behind the tag of a list are no pairs. -/
def Command.Unpaired (command : Command) : Prop :=
  ∃ tag filters, command = .list tag filters ∧ filters.length % 2 = 1

/-- The requests of a command, one after the other; a toggle pauses or resumes. -/
def Command.requests (paused : Bool) : Command → List Request
  | .watch => []
  | .status _ => [.status, .currentSong]
  | .control order => [order.request]
  | .toggle => [.status, .currentSong, .pause paused]
  | .list tag filters => (pairs? filters).toList.map (Request.list tag)

/-- No word of a list has a line end. -/
def Command.Unbroken : Command → Prop
  | .list tag filters => '\n' ∉ tag.toList ∧ ∀ word ∈ filters, '\n' ∉ word.toList
  | _ => True

/-- What a command prints, if it was carried out by these deeds. -/
def Command.Prints (deeds : List Deed) (text : String) : Command → Prop
  | .watch => False
  | .status json => ∃ sent lines status, .trip .status sent (some (.ok lines)) ∈ deeds ∧
      Status.ReadFrom lines status ∧ text = printStatus json status
  | .control order => (∃ sent lines, .trip order.request sent (some (.ok lines)) ∈ deeds) ∧ text = ""
  | .toggle => ∃ sent lines sent' lines', .trip .status sent (some (.ok lines)) ∈ deeds ∧
      let playing := (Status.ofRecord (.ofLines lines)).isPlaying
      .trip (.pause playing) sent' (some (.ok lines')) ∈ deeds ∧ text = printToggle playing
  | .list tag filters => ∃ pairs sent lines, pairs? filters = some pairs ∧
      .trip (.list tag pairs) sent (some (.ok lines)) ∈ deeds ∧ text = textOfLines (tagValues tag lines)

theorem pairs?_flatMap (pairs : List (String × String)) :
    pairs? (pairs.flatMap fun p => [p.1, p.2]) = some pairs := by
  induction pairs with
  | nil => rfl
  | cons p rest ih =>
    show (pairs? (rest.flatMap fun p => [p.1, p.2])).map ((p.1, p.2) :: ·) = _
    rw [ih]
    rfl

/-- Words are pairs unless one is left over. -/
theorem pairs?_cases (words : List String) :
    (words.length % 2 = 1 ∧ pairs? words = none) ∨
      words.length % 2 = 0 ∧ ∃ pairs, pairs? words = some pairs ∧
        words = pairs.flatMap fun p => [p.1, p.2] := by
  fun_induction pairs? words with
  | case1 => exact .inr ⟨rfl, [], rfl, rfl⟩
  | case2 word => exact .inl ⟨rfl, rfl⟩
  | case3 tag value rest ih =>
    rcases ih with ⟨hodd, hnone⟩ | ⟨heven, pairs, hsome, hwords⟩
    · left
      rw [hnone, List.length_cons, List.length_cons]
      exact ⟨by omega, rfl⟩
    · right
      rw [List.length_cons, List.length_cons, hsome]
      refine ⟨by omega, (tag, value) :: pairs, rfl, ?_⟩
      rw [hwords]
      rfl

theorem request_ne_currentSong (order : Control) : order.request ≠ .currentSong := by
  intro h
  have hname : order.request.name = "currentsong" := congrArg Request.name h
  cases order <;> simp [Control.request, Request.next, Request.previous, Request.play, Request.playId,
    Request.pause, Request.random, Request.repeatAll, Request.single] at hname

/-! ### What a run does -/

/-- A run that is done by these deeds: it asks nothing else than `requests`, fails exactly by one of the
deeds, and `prints` holds of its answer. -/
structure Ran (c : Controller) (s : Option Connection × Network) (requests : List Request)
    (w : Wait Outcome) (prints : String → Prop) (deeds : List Deed) : Prop where
  course : ∃ left, Deeds c.addr c.limit s deeds left ∧
    left.map Prod.snd = w.arrival?.map Outcome.network
  asks : (requestsOf deeds).Sublist requests
  fails : ∀ o, w.arrival? = some o → ∀ failure, o.result = .error failure ↔
    ∃ error, failure = .player error ∧ ∃ deed ∈ deeds, deed.failure? = some error
  prints : ∀ o, w.arrival? = some o → ∀ text, o.result = .ok text → prints text

/-- An outcome fails exactly as the answer does that it is made of. -/
theorem result_outcomeOf {α : Type} {print : α → String} {h : Handled α} {failure : Failure} :
    (outcomeOf print h).result = .error failure ↔
      ∃ error, failure = .player error ∧ h.result = .error error := by
  cases hresult : h.result <;> simp [outcomeOf, hresult, eq_comm]

theorem text_outcomeOf {α : Type} {print : α → String} {h : Handled α} {text : String} :
    (outcomeOf print h).result = .ok text ↔ ∃ value, h.result = .ok value ∧ text = print value := by
  cases hresult : h.result <;> simp [outcomeOf, hresult, eq_comm]

section Runs

variable {c : Controller} {s : Option Connection × Network} {n : Network} {deeds : List Deed}

/-- A question whose answer is printed. -/
theorem ran_of_done {α : Type} {w : Wait (Handled α)} {own : Request} {requests : List Request}
    {gives : List String → α → Prop} (done : c.Done s w own requests gives deeds) (print : α → String)
    {prints : String → Prop} (hprints : ∀ sent lines value,
      .trip own sent (some (.ok lines)) ∈ deeds → gives lines value → prints (print value)) :
    Ran c s requests (w.map (outcomeOf print)) prints deeds := by
  refine ⟨⟨_, done.course, ?_⟩, done.asks, ?_, ?_⟩
  · cases w <;> rfl
  · intro o ho failure
    rw [Wait.arrival?_map] at ho
    obtain ⟨h, hh, rfl⟩ := Option.map_eq_some_iff.1 ho
    rw [result_outcomeOf]
    simp only [done.fails h hh]
  · intro o ho text htext
    rw [Wait.arrival?_map] at ho
    obtain ⟨h, hh, rfl⟩ := Option.map_eq_some_iff.1 ho
    obtain ⟨value, hvalue, rfl⟩ := text_outcomeOf.1 htext
    obtain ⟨sent, lines, hmem, hgives⟩ := done.succeeds h hh value hvalue
    exact hprints sent lines value hmem hgives

/-- A toggle looks at the status, and pauses or resumes over what that has left. -/
theorem ran_of_toggle (hc : c.client = none) (n : Network) : ∃ paused deeds,
    Ran c (none, n) (Command.toggle.requests paused) (toggle c n) (Command.toggle.Prints deeds)
      deeds := by
  obtain ⟨deeds, left, course, hleft, htoggles⟩ := follows_toggle hc n
  obtain ⟨paused, hasks⟩ := htoggles.asks.sublist
  have hends := htoggles.concludes
  refine ⟨paused, deeds, ⟨left, course, hleft⟩, hasks, ?fails, ?prints⟩
  case fails =>
    intro o ho failure
    have hresult : (toggle c n).arrival?.map Outcome.result = some o.result := by rw [ho]; rfl
    constructor
    · intro hfailure
      have hnone : ∀ playing, ¬ Granted deeds playing := by
        intro playing hgranted
        have hprinted := (hends.prints _ hresult playing).2 hgranted
        rw [hfailure] at hprinted
        cases playing <;> simp [printed, printToggle] at hprinted
      obtain ⟨-, error, herror, hfailed⟩ := hends.quiet _ hresult hnone
      exact ⟨error, Except.error.inj (hfailure.symm.trans herror), hfailed⟩
    · rintro ⟨error, rfl, deed, hmem, hfailed⟩
      exact Option.some.inj (hresult.symm.trans (hends.stops deed hmem error hfailed).2)
  case prints =>
    intro o ho text htext
    have hresult : (toggle c n).arrival?.map Outcome.result = some o.result := by rw [ho]; rfl
    have hgranted : ∃ playing, Granted deeds playing := by
      by_contra hnone
      obtain ⟨-, error, herror, -⟩ := hends.quiet _ hresult (not_exists.1 hnone)
      rw [htext] at herror
      cases herror
    obtain ⟨playing, hgranted⟩ := hgranted
    have hprinted := (hends.prints _ hresult playing).2 hgranted
    rw [htext] at hprinted
    obtain ⟨lines, hstatus, rfl⟩ := htoggles.asks.paused_eq hgranted
    obtain ⟨sent, lines', hpause⟩ := hgranted
    exact ⟨_, lines, sent, lines', hstatus, hpause, hprinted⟩

/-- Every other command puts one question. -/
theorem ran_of_carryOut (hc : c.client = none) (n : Network) {command : Command}
    (honce : command ≠ .watch) (hpaired : ¬ command.Unpaired) :
    ∃ w paused deeds, carryOut c n command = some w ∧
      Ran c (none, n) (command.requests paused) w (command.Prints deeds) deeds := by
  cases command with
  | watch => exact absurd rfl honce
  | toggle =>
    obtain ⟨paused, deeds, ran⟩ := ran_of_toggle hc n
    exact ⟨_, paused, deeds, rfl, ran⟩
  | status json =>
    obtain ⟨deeds, done⟩ := c.done_of_withClient n c.done_of_status
    rw [hc] at done
    refine ⟨_, true, deeds, rfl, ran_of_done done _ ?_⟩
    intro sent lines status hmem hread
    exact ⟨sent, lines, status, hmem, hread, rfl⟩
  | control order =>
    obtain ⟨deeds, done⟩ := c.done_of_withClient n fun n client =>
      c.done_of_ask n client (request_ne_currentSong order) fun _ => ((), [])
    rw [hc] at done
    refine ⟨_, true, deeds, rfl, ran_of_done done _ ?_⟩
    intro sent lines _ hmem _
    exact ⟨⟨sent, lines, hmem⟩, rfl⟩
  | list tag filters =>
    obtain ⟨hodd, -⟩ | ⟨-, pairs, hpairs, -⟩ := pairs?_cases filters
    · exact absurd ⟨tag, filters, rfl, hodd⟩ hpaired
    have hown : Request.list tag pairs ≠ .currentSong := by
      intro h
      have hname : "list" = "currentsong" := congrArg Request.name h
      exact absurd hname (by decide)
    obtain ⟨deeds, done⟩ := c.done_of_withClient n fun n client =>
      c.done_of_ask n client hown fun lines => (tagValues tag lines, [])
    rw [hc] at done
    refine ⟨(c.list n tag pairs).map (outcomeOf textOfLines), true, deeds, ?_, ?_⟩
    · rw [carryOut, hpairs]
    · rw [Command.requests, hpairs]
      refine ran_of_done done _ ?_
      intro sent lines value hmem hvalue
      exact ⟨pairs, sent, lines, hpairs, hmem, by rw [hvalue]⟩

end Runs

/-! ### No request is made twice -/

/-- The requests of a command differ. -/
theorem nodup_lines (command : Command) (paused : Bool) :
    ((command.requests paused).map Request.line).Nodup := by
  cases command with
  | watch => exact List.nodup_nil
  | status json =>
    show ([Request.status, .currentSong].map Request.line).Nodup
    decide
  | control order => exact List.pairwise_singleton _ _
  | toggle => cases paused <;> decide
  | list tag filters =>
    rw [Command.requests]
    cases pairs? filters with
    | none => exact List.nodup_nil
    | some pairs => exact List.pairwise_singleton _ _

theorem unbroken_of_requests {command : Command} (h : command.Unbroken) {paused : Bool} :
    ∀ request ∈ command.requests paused, request.Unbroken := by
  intro request hmem
  cases command with
  | watch => cases hmem
  | status json =>
    rcases List.mem_pair.1 hmem with rfl | rfl <;> exact Request.unbroken_of_name (by decide)
  | control order =>
    obtain rfl := List.mem_singleton.1 hmem
    exact Request.unbroken_of_control order
  | toggle =>
    rcases List.mem_cons.1 hmem with rfl | hmem
    · exact Request.unbroken_of_name (by decide)
    rcases List.mem_pair.1 hmem with rfl | rfl
    · exact Request.unbroken_of_name (by decide)
    · exact Request.unbroken_of_control (.pause paused)
  | list tag filters =>
    obtain ⟨-, hnone⟩ | ⟨-, pairs, hpairs, hwords⟩ := pairs?_cases filters
    · rw [Command.requests, hnone] at hmem
      cases hmem
    · rw [Command.requests, hpairs] at hmem
      obtain rfl := List.mem_singleton.1 hmem
      obtain ⟨htag, hwords'⟩ := h
      refine Request.list_unbroken_iff.2 ⟨htag, ?_⟩
      intro p hp
      have hboth : ∀ word ∈ [p.1, p.2], '\n' ∉ word.toList := by
        intro word hword
        apply hwords'
        rw [hwords]
        exact List.mem_flatMap_of_mem hp hword
      exact ⟨hboth p.1 (by simp), hboth p.2 (by simp)⟩

/-! ### Whole runs -/

/-- What holds of a run, with the settings as they were loaded, that is done by these deeds. -/
structure AllOrNothing (loaded : Except LoadError Settings) (command : Command) (n : Network)
    (w : Wait Outcome) (deeds : List Deed) : Prop where
  /-- The deeds are what happens on the network; there are none without settings. -/
  course : match loaded with
    | .error error => deeds = [] ∧ w = .after 0 ⟨.error (.load error), n⟩
    | .ok settings => ∃ left, Deeds settings.address settings.limit (none, n) deeds left ∧
        left.map Prod.snd = w.arrival?.map Outcome.network
  /-- With a limit the run ends. -/
  ends : ∀ settings, loaded = .ok settings → settings.limit ≠ none → ∃ t o, w = .after t o
  fails_iff : ∀ t o, w = .after t o → ((∃ failure, o.result = .error failure) ↔
    (∃ error, loaded = .error error) ∨ command.Unpaired ∨
      ∃ deed ∈ deeds, ∃ error, deed.failure? = some error)
  prints : ∀ t o, w = .after t o →
    (∃ failure, o.result = .error failure) ∧ printed o.result = "" ∨
      (∃ text, o.result = .ok text) ∧ command.Prints deeds (printed o.result)
  asks : ∃ paused, (requestsOf deeds).Sublist (command.requests paused)
  /-- A request is written once or not at all, and no other is written for it again. -/
  once : (∀ request sent reply, .trip request sent reply ∈ deeds →
      sent = "" ∨ sent = request.line ++ "\n") ∧
    ((deeds.map Deed.sent).filter (· ≠ "")).Nodup
  arrives : ∀ t o, w = .after t o → o.network.received.flatten =
    n.received.flatten ++ deeds.flatMap fun deed => linesOf deed.sent
  lines : command.Unbroken → (deeds.flatMap fun deed => linesOf deed.sent).Nodup
  /-- A list with a word left over does nothing. -/
  unpaired : command.Unpaired → deeds = [] ∧ ∃ failure, w = .after 0 ⟨.error failure, n⟩
  /-- The words of any other list are pairs, and it makes one request, with all of them in order. -/
  paired : ∀ tag filters, command = .list tag filters → filters.length % 2 = 0 →
    ∃ pairs, filters = pairs.flatMap (fun p => [p.1, p.2]) ∧
      (requestsOf deeds).Sublist [.list tag pairs] ∧
      (command.Unbroken → (deeds.flatMap fun deed => linesOf deed.sent).Sublist
        [(Request.list tag pairs).line]) ∧
      ∀ t o text, w = .after t o → o.result = .ok text → ∃ sent lines,
        .trip (.list tag pairs) sent (some (.ok lines)) ∈ deeds ∧
        printed o.result = textOfLines (tagValues tag lines)

/-- A run that does nothing but fail. -/
theorem allOrNothing_of_failure {loaded : Except LoadError Settings} {command : Command}
    {n : Network} {failure : Failure}
    (hloaded : ∀ error, loaded = .error error → failure = .load error)
    (hcause : (∃ error, loaded = .error error) ∨ command.Unpaired) :
    AllOrNothing loaded command n (.after 0 ⟨.error failure, n⟩) [] where
  course := by
    cases loaded with
    | error error => exact ⟨rfl, by rw [hloaded error rfl]⟩
    | ok settings => exact ⟨_, .none _, rfl⟩
  ends _ _ _ := ⟨0, _, rfl⟩
  fails_iff t o ho := by
    obtain ⟨-, rfl⟩ := by simpa using ho
    refine ⟨fun _ => ?_, fun _ => ⟨failure, rfl⟩⟩
    rcases hcause with hload | hodd
    · exact .inl hload
    · exact .inr (.inl hodd)
  prints t o ho := by
    obtain ⟨-, rfl⟩ := by simpa using ho
    exact .inl ⟨⟨failure, rfl⟩, rfl⟩
  asks := ⟨true, List.nil_sublist _⟩
  once := ⟨fun _ _ _ hmem => by (cases hmem), List.nodup_nil⟩
  arrives t o ho := by
    obtain ⟨-, rfl⟩ := by simpa using ho
    simp
  lines _ := List.nodup_nil
  unpaired _ := ⟨rfl, failure, rfl⟩
  paired tag filters hcommand heven := by
    obtain ⟨hodd, -⟩ | ⟨-, pairs, -, hwords⟩ := pairs?_cases filters
    · rw [heven] at hodd
      cases hodd
    · refine ⟨pairs, hwords, List.nil_sublist _, fun _ => List.nil_sublist _, ?_⟩
      intro t o text ho hok
      obtain ⟨-, rfl⟩ := by simpa using ho
      cases hok

section Carried

variable {settings : Settings} {command : Command} {n : Network} {paused : Bool} {w : Wait Outcome}
  {deeds : List Deed}

/-- With a limit the deeds end, and so does the run. -/
theorem Ran.ends {requests : List Request} {prints : String → Prop}
    (ran : Ran (controllerFor settings) (none, n) requests w prints deeds)
    (hlimit : settings.limit ≠ none) : ∃ t o, w = .after t o := by
  obtain ⟨left, course, hleft⟩ := ran.course
  exact course.run_ends hleft hlimit

theorem Ran.fails_iff {c : Controller} {s : Option Connection × Network} {requests : List Request}
    {prints : String → Prop} (ran : Ran c s requests w prints deeds) {t : Nat} {o : Outcome}
    (ho : w = .after t o) :
    (∃ failure, o.result = .error failure) ↔ ∃ deed ∈ deeds, ∃ error, deed.failure? = some error := by
  have hfails := ran.fails o (by rw [ho]; rfl)
  constructor
  · rintro ⟨failure, hfailure⟩
    obtain ⟨error, -, deed, hmem, hdeed⟩ := (hfails failure).1 hfailure
    exact ⟨deed, hmem, error, hdeed⟩
  · rintro ⟨deed, hmem, error, hdeed⟩
    exact ⟨_, (hfails _).2 ⟨error, rfl, deed, hmem, hdeed⟩⟩

/-- Without a line end in a word, what is written is one line for each request, or none. -/
theorem Ran.lines_sublist {c : Controller} {s : Option Connection × Network} {prints : String → Prop}
    (ran : Ran c s (command.requests paused) w prints deeds) (hwords : command.Unbroken) :
    (deeds.flatMap fun deed => linesOf deed.sent).Sublist ((requestsOf deeds).map Request.line) := by
  obtain ⟨left, course, -⟩ := ran.course
  apply course.lines_sublist
  intro request hmem
  exact Request.line_unbroken_iff.2 (unbroken_of_requests hwords request (ran.asks.subset hmem))

/-- A list whose words are pairs makes one request, with all of them. -/
theorem Ran.list_asks {c : Controller} {s : Option Connection × Network} {prints : String → Prop}
    {tag : String} {filters : List String} {pairs : List (String × String)}
    (ran : Ran c s ((Command.list tag filters).requests paused) w prints deeds)
    (hpairs : pairs? filters = some pairs) : (requestsOf deeds).Sublist [.list tag pairs] := by
  have hrequests : (Command.list tag filters).requests paused = [.list tag pairs] := by
    rw [Command.requests, hpairs]
    rfl
  rw [← hrequests]
  exact ran.asks

/-- A run whose deeds are known. -/
theorem allOrNothing_of_ran (hpaired : ¬ command.Unpaired)
    (ran : Ran (controllerFor settings) (none, n) (command.requests paused) w (command.Prints deeds)
      deeds) : AllOrNothing (.ok settings) command n w deeds := by
  obtain ⟨left, course, hleft⟩ := ran.course
  have hlines : ((requestsOf deeds).map Request.line).Nodup :=
    (ran.asks.map _).nodup (nodup_lines command paused)
  exact
    { course := ⟨left, course, hleft⟩
      ends := by
        intro settings' hsettings hlimit
        obtain rfl := Except.ok.inj hsettings
        exact ran.ends hlimit
      fails_iff := by
        intro t o ho
        rw [ran.fails_iff ho]
        simp [hpaired]
      prints := by
        intro t o ho
        cases hresult : o.result with
        | error failure => exact .inl ⟨⟨failure, rfl⟩, rfl⟩
        | ok text => exact .inr ⟨⟨text, rfl⟩, ran.prints o (by rw [ho]; rfl) text hresult⟩
      asks := ⟨paused, ran.asks⟩
      once := ⟨fun _ _ _ hmem => course.sent_of_mem hmem, course.nodup_sents hlines⟩
      arrives := by
        intro t o ho
        exact course.received_of_run hleft ho
      lines := fun hwords => (ran.lines_sublist hwords).nodup hlines
      unpaired := fun hodd => absurd hodd hpaired
      paired := by
        rintro tag filters rfl heven
        obtain ⟨hodd, -⟩ | ⟨-, pairs, hpairs, hwords⟩ := pairs?_cases filters
        · rw [heven] at hodd
          cases hodd
        have hasks := ran.list_asks hpairs
        refine ⟨pairs, hwords, hasks, ?_, ?_⟩
        · intro hunbroken
          exact (ran.lines_sublist hunbroken).trans (hasks.map _)
        intro t o text ho hok
        obtain ⟨pairs', sent, lines, hpairs', hmem, htext⟩ :=
          ran.prints o (by rw [ho]; rfl) text hok
        obtain rfl : pairs = pairs' := Option.some.inj (hpairs.symm.trans hpairs')
        refine ⟨sent, lines, hmem, ?_⟩
        rw [hok, ← htext]
        rfl }

end Carried

/-- **A command that is carried out once is all or nothing.** Whatever arguments ask for one, whatever
the files and the variables hold and whatever the network does, the run is done by deeds: dials, and the
requests of the command. It fails exactly if the settings cannot be loaded, the words of a list are no
pairs, a dial brings no greeting or a request fails, the one for the song of a status apart. Then nothing
is printed, and otherwise what the reply to its own request gives, which is nothing for a control. No
text is written twice. A list with a word left over does nothing, and any other one makes no request but
the one with all of its pairs, in order. A run may be without end if there is no limit; all that is said
of the deeds holds of it as well. -/
theorem once_all_or_nothing (files : Files) (env : Variables) {args : List String} {i : Invocation}
    (hread : read args = .ok i) (honce : i.command ≠ .watch) (n : Network) :
    ∃ w deeds, runOnce files env args n = some w ∧
      AllOrNothing (Settings.load files env { host := i.host, port := i.port }) i.command n w
        deeds := by
  cases hload : Settings.load files env { host := i.host, port := i.port } with
  | error error =>
    have hrun : runOnce files env args n = some (.after 0 ⟨.error (.load error), n⟩) := by
      simp only [runOnce, plan, hread, hload]
    refine ⟨_, [], hrun, allOrNothing_of_failure ?_ (.inl ⟨error, rfl⟩)⟩
    intro error' herror
    rw [Except.error.inj herror]
  | ok settings =>
    have hrun : runOnce files env args n = carryOut (controllerFor settings) n i.command := by
      cases hcommand : i.command with
      | watch => exact absurd hcommand honce
      | _ => simp only [runOnce, plan, hread, hload, hcommand]
    rw [hrun]
    by_cases hpaired : i.command.Unpaired
    · obtain ⟨tag, filters, hcommand, hodd⟩ := hpaired
      have hnone : pairs? filters = none := by
        obtain ⟨-, hnone⟩ | ⟨heven, -⟩ := pairs?_cases filters
        · exact hnone
        · omega
      have hfails : AllOrNothing (.ok settings) i.command n
          (.after 0 ⟨.error .unpairedFilters, n⟩) [] :=
        allOrNothing_of_failure (by rintro _ ⟨⟩) (.inr ⟨tag, filters, hcommand, hodd⟩)
      refine ⟨_, [], ?_, hfails⟩
      rw [hcommand, carryOut, hnone]
    · obtain ⟨w, paused, deeds, hw, ran⟩ :=
        ran_of_carryOut (c := controllerFor settings) rfl n honce hpaired
      exact ⟨w, deeds, hw, allOrNothing_of_ran hpaired ran⟩

/-- A list of the albums of one artist sends no other line than the one for them. -/
theorem filtered_list_sends_one_line :
    let args := ["list", "album", "artist", "Daft Punk"]
    let i : Invocation := { command := .list "album" ["artist", "Daft Punk"] }
    let files : Files := { directory := "/", content := [] }
    read args = .ok i ∧ i.command ≠ .watch ∧ ∃ w deeds, runOnce files [] args {} = some w ∧
      AllOrNothing (Settings.load files [] {}) i.command {} w deeds ∧
      (deeds.flatMap fun deed => linesOf deed.sent).Sublist ["list album artist \"Daft Punk\""] := by
  intro args i files
  have hread : read args = .ok i := by decide +kernel
  have honce : i.command ≠ .watch := by decide
  obtain ⟨w, deeds, hw, hall⟩ := once_all_or_nothing files [] hread honce {}
  obtain ⟨pairs, hwords, -, hlines, -⟩ := hall.paired "album" ["artist", "Daft Punk"] rfl rfl
  obtain rfl : [("artist", "Daft Punk")] = pairs :=
    Option.some.inj ((congrArg pairs? hwords).trans (pairs?_flatMap pairs))
  have hline : (Request.list "album" [("artist", "Daft Punk")]).line =
      "list album artist \"Daft Punk\"" := by decide
  rw [hline] at hlines
  exact ⟨hread, honce, w, deeds, hw, hall, hlines ⟨by decide, by decide⟩⟩

end PlayerWatch.CommandLine
