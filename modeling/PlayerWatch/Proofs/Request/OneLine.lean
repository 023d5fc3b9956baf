import PlayerWatch.Client
import PlayerWatch.Proofs.Connection.Writing

/-!
# Requests that are one line

A request is sent as its line with a line end behind it, and a player answers every line that
reaches it. So a call stays in step with its replies only if the line has no line end inside. An
argument with a line end is quoted, since a line end is a blank, but a quote does not keep a line
together: the text that is sent is one line exactly when nothing in the request ends a line
(`sends_one_line_iff`), and every further line end is one more line for the player.
-/

namespace PlayerWatch

/-- A text that is one line: it has one line end, and that is its last character. -/
def OneLine (text : String) : Prop :=
  ∃ body : List Char, '\n' ∉ body ∧ text.toList = body ++ ['\n']

theorem oneLine_append_iff {s : String} : OneLine (s ++ "\n") ↔ '\n' ∉ s.toList := by
  have hs : (s ++ "\n").toList = s.toList ++ ['\n'] := by simp
  constructor
  · rintro ⟨body, hbody, h⟩
    rw [hs] at h
    rw [List.append_cancel_right h]
    exact hbody
  · intro h
    exact ⟨s.toList, h, hs⟩

/-! ### Line ends in a request -/

namespace Request

/-- How many line ends stand in the name and in the arguments of a request. -/
def lineEnds (r : Request) : Nat :=
  r.name.toList.count '\n' + (r.arguments.flatMap fun a => a.value.toList).count '\n'

/-- Nothing in a request ends a line. -/
def Unbroken (r : Request) : Prop :=
  '\n' ∉ r.name.toList ∧ ∀ a ∈ r.arguments, '\n' ∉ a.value.toList

/-- Quoting an argument neither adds a line end nor takes one away. -/
theorem count_written (a : Argument) :
    a.written.toList.count '\n' = a.value.toList.count '\n' := by
  unfold Argument.written
  split
  · rw [String.toList_append, String.toList_append, List.count_append, List.count_append]
    have hquote : "\"".toList.count '\n' = 0 := by decide
    omega
  · rfl

theorem count_foldl_written (arguments : List Argument) (text : String) :
    (arguments.foldl (fun text a => text ++ " " ++ a.written) text).toList.count '\n' =
      text.toList.count '\n' + (arguments.flatMap fun a => a.value.toList).count '\n' := by
  induction arguments generalizing text with
  | nil => simp
  | cons a rest ih =>
    have hspace : " ".toList.count '\n' = 0 := by decide
    rw [List.foldl_cons, ih, String.toList_append, String.toList_append, List.count_append,
      List.count_append, count_written, hspace, List.flatMap_cons, List.count_append]
    omega

theorem count_line (r : Request) : r.line.toList.count '\n' = r.lineEnds :=
  count_foldl_written r.arguments r.name

theorem lineEnds_eq_zero_iff {r : Request} : r.lineEnds = 0 ↔ r.Unbroken := by
  simp [lineEnds, Unbroken, Nat.add_eq_zero_iff, List.count_eq_zero, List.mem_flatMap]

theorem line_unbroken_iff {r : Request} : '\n' ∉ r.line.toList ↔ r.Unbroken := by
  rw [← List.count_eq_zero, count_line, lineEnds_eq_zero_iff]

/-- A list query is unbroken if its tag and all words of its filters are. -/
theorem list_unbroken_iff {tag : String} {filters : List (String × String)} :
    (Request.list tag filters).Unbroken ↔
      '\n' ∉ tag.toList ∧ ∀ f ∈ filters, '\n' ∉ f.1.toList ∧ '\n' ∉ f.2.toList := by
  have hname : '\n' ∉ "list".toList := by decide
  simp only [Unbroken, list, hname, not_false_eq_true, true_and, List.forall_mem_cons,
    List.mem_flatMap, Argument.value]
  refine and_congr_right fun _ => ?_
  constructor
  · intro h f hf
    exact ⟨h (.bare f.1) ⟨f, hf, by simp⟩, h (.quoted f.2) ⟨f, hf, by simp⟩⟩
  · rintro h a ⟨f, hf, ha⟩
    simp only [List.mem_cons, List.not_mem_nil, or_false] at ha
    rcases ha with rfl | rfl
    · exact (h f hf).1
    · exact (h f hf).2

theorem unbroken_of_name {name : String} (h : '\n' ∉ name.toList) :
    ({ name := name } : Request).Unbroken := ⟨h, nofun⟩

theorem Unbroken.push {r : Request} {a : Argument} (h : r.Unbroken) (ha : '\n' ∉ a.value.toList) :
    (r.push a).Unbroken := by
  refine ⟨h.1, ?_⟩
  intro b hb
  rcases List.mem_append.1 hb with hb | hb
  · exact h.2 b hb
  · obtain rfl := List.mem_singleton.1 hb
    exact ha

theorem Unbroken.withNumber {r : Request} (h : r.Unbroken) (number : Option UInt32) :
    (r.withNumber number).Unbroken := by
  cases number with
  | none => exact h
  | some n =>
    apply h.push
    intro hend
    rw [Argument.value, Number.decimal, String.toList_ofList] at hend
    -- A line end is no digit.
    cases Nat.isDigit_of_mem_toDigits (by decide) (by decide) hend

theorem Unbroken.withSwitch {r : Request} (h : r.Unbroken) (on : Bool) :
    (r.withSwitch on).Unbroken := by
  apply h.push
  cases on <;> decide

/-- No control has a line end in its request. -/
theorem unbroken_of_control (order : Control) : order.request.Unbroken := by
  cases order with
  | next | previous => exact unbroken_of_name (by decide)
  | play number | playId number => exact (unbroken_of_name (by decide)).withNumber number
  | pause on | random on | repeatAll on | single on =>
    exact (unbroken_of_name (by decide)).withSwitch on

end Request

/-! ### What is sent -/

/-- A client's list query sends what its connection sends of the query's line. -/
theorem Client.sent_of_list {c : Client} {tag : String} {filters : List (String × String)} {t : Nat}
    {a : Answered (List String)} (h : c.list tag filters = .after t a) :
    a.sent = c.connection.accepted (Request.list tag filters).line := by
  obtain ⟨x, hx, rfl⟩ := Wait.map_eq_after_iff.1 h
  exact Connection.sent_of_executeLine hx

/-- **A request is one line for the player exactly if nothing in it ends a line.** Over an open
connection whose peer takes the line in time, the text that one call writes is one line iff neither the name
nor an argument has a line end; the peer takes one line more than there are line ends and answers
each. A list query, with any tag and any filters, is one line iff none of its words has a line
end. -/
theorem sends_one_line_iff (c : Connection) (p : Peer) (hc : c.peer = some p)
    (hp : p.accepts c.limit = true) :
    (∀ r : Request,
      (OneLine (c.accepted r.line) ↔ r.Unbroken) ∧
      (∀ t x, c.execute r = .after t x → x.sent = c.accepted r.line) ∧
      (∃ t, (p.write (c.accepted r.line)).within c.limit =
        .after t (some (.ok (p.takeLines (r.lineEnds + 1))))) ∧
      (r.lineEnds = 0 ↔ r.Unbroken)) ∧
    ∀ announces tag filters t a, (⟨c, announces⟩ : Client).list tag filters = .after t a →
      (OneLine a.sent ↔ '\n' ∉ tag.toList ∧ ∀ f ∈ filters, '\n' ∉ f.1.toList ∧ '\n' ∉ f.2.toList) := by
  have hline : ∀ r : Request, OneLine (c.accepted r.line) ↔ r.Unbroken := by
    intro r
    rw [Connection.accepted_of_accepts hc hp, oneLine_append_iff, Request.line_unbroken_iff]
  -- The peer counts the line ends of what it is sent: those of the request and the last one.
  refine ⟨fun r => ⟨hline r, ?_, ?_, Request.lineEnds_eq_zero_iff⟩, ?_⟩
  · intro t x hx
    exact Connection.sent_of_executeLine hx
  · have hcount : (r.line ++ "\n").toList.count '\n' = r.lineEnds + 1 := by
      rw [String.toList_append, List.count_append, Request.count_line]
      rfl
    obtain ⟨t, hwrite⟩ := Peer.write_of_accepts hp
    exact ⟨t, by rw [Connection.accepted_of_accepts hc hp, hwrite, hcount]⟩
  · intro announces tag filters t a ha
    rw [Client.sent_of_list ha]
    exact (hline _).trans Request.list_unbroken_iff

/-- A query for the albums of an artist whose name has a space is one line. -/
theorem spaced_filter_sends_one_line :
    let p : Peer := ⟨[], [.actions [.send (Text.encode "OK\n")]]⟩
    let c : Connection := { addr := "mpd:6600", version := "0.23.5", peer := some p }
    let r : Request := .list "album" [("artist", "Daft Punk")]
    c.peer = some p ∧ p.accepts c.limit = true ∧ r.Unbroken ∧ OneLine (c.accepted r.line) := by
  intro p c r
  have hr : r.Unbroken := Request.list_unbroken_iff.2 (by decide)
  exact ⟨rfl, rfl, hr, ((sends_one_line_iff c p rfl rfl).1 r).1.2 hr⟩

/-- An artist with a line end in the name makes two lines of a query for albums, and the player
answers both. -/
theorem broken_filter_sends_two_lines :
    let p : Peer := ⟨[], [.actions [.send (Text.encode "OK\n")],
      .actions [.send (Text.encode "Title: x\nOK\n")]]⟩
    let c : Connection := { addr := "mpd:6600", version := "0.23.5", peer := some p }
    let r : Request := .list "album" [("artist", "a\nb")]
    '\n' ∉ r.name.toList ∧ c.accepted r.line = "list album artist \"a\nb\"\n" ∧
      ¬ OneLine (c.accepted r.line) ∧
      p.write (c.accepted r.line) = .after 0 (.ok (p.takeLines 2)) := by
  intro p c r
  have hsent : c.accepted r.line = "list album artist \"a\nb\"\n" := by decide
  refine ⟨by decide, hsent, ?_, ?_⟩
  · have hbreak : ¬ OneLine ("list album artist \"a\nb\"" ++ "\n") := by
      rw [oneLine_append_iff]
      decide
    rw [hsent]
    exact hbreak
  · rw [hsent]
    rfl

end PlayerWatch
