import PlayerWatch.Proofs.Connection.Scanning
import PlayerWatch.Proofs.Network

/-!
# The greeting

A handshake reads one line and nothing else, so its outcome can be told from the octets of the stream up
to the first line end and from how the stream stops, whatever the pieces are in which they come. There
are four things that a stream can open with (`Opening`): a line, nothing, a failure, or less than a line
with nothing more to come. Reading finds just that (`readLine_of_openingOf`), and the line decides the
rest (`first_line_decides_handshake`). What stands behind the line is left for the first reply, and
nothing is asked of the peer.
-/

namespace PlayerWatch

/-! ### How a stream stops -/

/-- What comes behind the octets that arrive. -/
inductive Stop where
  | silent
  | ended
  | failed (error : IoError)
  deriving DecidableEq

def stopOf : List Action → Stop
  | [] => .silent
  | .send _ :: rest => stopOf rest
  | .pause _ :: rest => stopOf rest
  | .hang :: _ => .silent
  | .close :: _ => .ended
  | .fail error :: _ => .failed error

theorem ends_iff {actions : List Action} : Ends actions ↔ stopOf actions = .ended := by
  induction actions with
  | nil => simp [Ends, stopOf]
  | cons a actions ih => cases a <;> simp [Ends, stopOf, ih]

/-- A line that was read leaves the stream to stop as it did. -/
theorem stopOf_of_readLineFrom {actions rest : List Action} {got bytes : List UInt8} {t : Nat}
    (h : readLineFrom got actions = .after t (.line bytes, rest)) : stopOf rest = stopOf actions := by
  induction actions generalizing got t with
  | nil => cases h
  | cons a actions ih =>
    cases a with
    | send piece =>
      rw [readLineFrom] at h
      split at h
      · cases h
        rfl
      · cases h
      · exact ih h
    | pause ms =>
      rw [readLineFrom] at h
      obtain ⟨s, hread, -⟩ := Wait.later_eq_after h
      exact ih hread
    | hang => cases h
    | close =>
      simp only [readLineFrom, Wait.after.injEq, Prod.mk.injEq] at h
      obtain ⟨-, -, rfl⟩ := h
      rfl
    | fail error => cases h

/-- A line that has no end is not read if the stream falls silent or fails. -/
theorem readLineFrom_of_stop {actions : List Action} {got : List UInt8}
    (hrest : lineEnd ∉ arriving actions)
    (hfit : got.length + (arriving actions).length ≤ maxLineLength) :
    (stopOf actions = .silent → readLineFrom got actions = .forever) ∧
      ∀ error, stopOf actions = .failed error →
        ∃ t rest, readLineFrom got actions = .after t (.failed error, rest) := by
  induction actions generalizing got with
  | nil => exact ⟨fun _ => rfl, by simp [stopOf]⟩
  | cons a actions ih =>
    cases a with
    | send bytes =>
      rw [arriving, List.length_append] at hfit
      rw [arriving, List.mem_append, not_or] at hrest
      have hfit' : (got ++ bytes).length + (arriving actions).length ≤ maxLineLength := by
        rw [List.length_append]
        omega
      rw [readLineFrom, cutLine_of_part hrest.1 (by omega)]
      exact ih hrest.2 hfit'
    | pause ms =>
      obtain ⟨hsilent, hfailed⟩ := ih hrest hfit
      rw [readLineFrom, stopOf]
      refine ⟨fun hstop => by rw [hsilent hstop]; rfl, fun error hstop => ?_⟩
      obtain ⟨t, rest, hread⟩ := hfailed error hstop
      exact ⟨ms + t, rest, by rw [hread, Wait.later_after]⟩
    | hang => exact ⟨fun _ => rfl, by simp [stopOf]⟩
    | close => exact ⟨by simp [stopOf], by simp [stopOf]⟩
    | fail error =>
      refine ⟨by simp [stopOf], fun _ hstop => ?_⟩
      obtain rfl := Stop.failed.inj hstop
      exact ⟨0, actions, rfl⟩

/-! ### What a stream opens with -/

/-- The octets of a stream up to the first line end, or up to where the stream ends, if they are not too
many for a line. A stream that ends at once has no line. -/
def FirstLine (inbound : List Action) (line : List UInt8) : Prop :=
  ¬ Overlong (arriving inbound) ∧
    (lineEnd ∈ arriving inbound ∨ arriving inbound ≠ [] ∧ stopOf inbound = .ended) ∧
    line = lineBody (arriving inbound)

/-- The first line has no end, and is not too long either. -/
def Unfinished (inbound : List Action) : Prop :=
  ¬ Overlong (arriving inbound) ∧ lineEnd ∉ arriving inbound

/-- The beginning of a stream, as far as a line goes. -/
inductive Opening where
  | line (octets : List UInt8)
  /-- The stream ends before its first line begins. -/
  | nothing
  | broken (error : IoError)
  /-- The first line is never complete. -/
  | pending

def openingOf (inbound : List Action) : Opening :=
  if Overlong (arriving inbound) then .broken overlongLine
  else if lineEnd ∈ arriving inbound then .line (lineBody (arriving inbound))
  else
    match stopOf inbound with
    | .silent => .pending
    | .failed error => .broken error
    | .ended => if arriving inbound = [] then .nothing else .line (arriving inbound)

theorem not_overlong_nil : ¬ Overlong [] := by decide

section

variable {inbound : List Action}

/-- The four openings, and what there is to each of them. -/
theorem openingOf_cases (inbound : List Action) :
    (Overlong (arriving inbound) ∧ openingOf inbound = .broken overlongLine) ∨
    (∃ line, FirstLine inbound line ∧ openingOf inbound = .line line) ∨
    (Unfinished inbound ∧ stopOf inbound = .silent ∧ openingOf inbound = .pending) ∨
    (∃ error, Unfinished inbound ∧ stopOf inbound = .failed error ∧
      openingOf inbound = .broken error) ∨
    (arriving inbound = [] ∧ stopOf inbound = .ended ∧ openingOf inbound = .nothing) := by
  unfold openingOf
  by_cases hlong : Overlong (arriving inbound)
  · exact .inl ⟨hlong, if_pos hlong⟩
  rw [if_neg hlong]
  by_cases hend : lineEnd ∈ arriving inbound
  · rw [if_pos hend]
    exact .inr (.inl ⟨_, ⟨hlong, .inl hend, rfl⟩, rfl⟩)
  rw [if_neg hend]
  cases hstop : stopOf inbound with
  | silent => exact .inr (.inr (.inl ⟨⟨hlong, hend⟩, rfl, rfl⟩))
  | failed error => exact .inr (.inr (.inr (.inl ⟨error, ⟨hlong, hend⟩, rfl, rfl⟩)))
  | ended =>
    by_cases hnone : arriving inbound = []
    · exact .inr (.inr (.inr (.inr ⟨hnone, rfl, by simp [hnone]⟩)))
    · have hbody := (lineBody_of_rest hend).symm
      exact .inr (.inl ⟨_, ⟨hlong, .inr ⟨hnone, hstop⟩, hbody⟩, by simp [hnone]⟩)

theorem openingOf_eq_line_iff {line : List UInt8} :
    openingOf inbound = .line line ↔ FirstLine inbound line := by
  have hcases := openingOf_cases inbound
  have hempty := not_overlong_nil
  unfold FirstLine Unfinished at *
  grind

theorem openingOf_eq_nothing_iff :
    openingOf inbound = .nothing ↔ arriving inbound = [] ∧ stopOf inbound = .ended := by
  have hcases := openingOf_cases inbound
  have hempty := not_overlong_nil
  unfold FirstLine Unfinished at *
  grind

theorem openingOf_eq_broken_iff {error : IoError} :
    openingOf inbound = .broken error ↔
      Overlong (arriving inbound) ∧ error = overlongLine ∨
        Unfinished inbound ∧ stopOf inbound = .failed error := by
  have hcases := openingOf_cases inbound
  have hempty := not_overlong_nil
  unfold FirstLine Unfinished at *
  grind

theorem openingOf_eq_pending_iff :
    openingOf inbound = .pending ↔ Unfinished inbound ∧ stopOf inbound = .silent := by
  have hcases := openingOf_cases inbound
  have hempty := not_overlong_nil
  unfold FirstLine Unfinished at *
  grind

end

/-! ### Reading the first line -/

/-- The octets that go with the first line: the line, and its end if that has come. -/
def firstTaken (inbound : List Action) : List UInt8 :=
  lineBody (arriving inbound) ++ if lineEnd ∈ arriving inbound then [lineEnd] else []

theorem lineText_firstTaken (inbound : List Action) :
    lineText (firstTaken inbound) = lineText (lineBody (arriving inbound)) := by
  unfold firstTaken
  split
  · exact lineText_append_lineEnd _
  · rw [List.append_nil]

section

variable {inbound : List Action}

/-- The first line is read, and what is behind it is left. -/
theorem readLine_of_firstLine {line : List UInt8} (h : FirstLine inbound line) :
    ∃ t rest, readLine inbound = .after t (.line (firstTaken inbound), rest) ∧
      Leaves inbound (firstTaken inbound) rest ∧ stopOf rest = stopOf inbound := by
  obtain ⟨hfit, hwhole, -⟩ := h
  suffices hline : ∃ t rest, readLine inbound = .after t (.line (firstTaken inbound), rest) ∧
      Leaves inbound (firstTaken inbound) rest by
    obtain ⟨t, rest, hread, hleft⟩ := hline
    exact ⟨t, rest, hread, hleft, stopOf_of_readLineFrom hread⟩
  unfold firstTaken
  by_cases hend : lineEnd ∈ arriving inbound
  · obtain ⟨body, more, hsplit, hbody⟩ := List.eq_append_cons_of_mem hend
    have hline := lineBody_of_line hbody more
    rw [← hsplit] at hline
    rw [Overlong, hline, Nat.not_lt] at hfit
    rw [if_pos hend, hline]
    exact readLine_of_line hsplit hbody hfit
  · obtain ⟨hsome, hstop⟩ := hwhole.resolve_left hend
    rw [Overlong, lineBody_of_rest hend, Nat.not_lt] at hfit
    obtain ⟨t, rest, hread, hleft⟩ := readLine_of_rest (ends_iff.2 hstop) hend hfit
    rw [if_neg (by simpa using hsome)] at hread
    rw [if_neg hend, lineBody_of_rest hend, List.append_nil]
    exact ⟨t, rest, hread, hleft⟩

/-- A first line that is too long is not read. -/
theorem readLine_of_long_start (h : Overlong (arriving inbound)) :
    ∃ t rest, readLine inbound = .after t (.failed overlongLine, rest) := by
  have hbody : lineEnd ∉ lineBody (arriving inbound) := by
    intro hend
    simpa using List.mem_takeWhile_imp hend
  have hsplit := (List.takeWhile_append_dropWhile (p := (· != lineEnd)) (l := arriving inbound)).symm
  refine readLineFrom_of_overlong hsplit hbody (Nat.zero_le _) ?_
  rwa [List.length_nil, Nat.zero_add]

theorem readLine_of_unfinished (h : Unfinished inbound) :
    (stopOf inbound = .silent → readLine inbound = .forever) ∧
      ∀ error, stopOf inbound = .failed error →
        ∃ t rest, readLine inbound = .after t (.failed error, rest) := by
  obtain ⟨hfit, hend⟩ := h
  rw [Overlong, lineBody_of_rest hend, Nat.not_lt] at hfit
  have hfit' : ([] : List UInt8).length + (arriving inbound).length ≤ maxLineLength := by
    rwa [List.length_nil, Nat.zero_add]
  exact readLineFrom_of_stop hend hfit'

/-- Reading a line finds what the stream opens with. -/
theorem readLine_of_openingOf (inbound : List Action) :
    match openingOf inbound with
    | .line _ => ∃ t rest, readLine inbound = .after t (.line (firstTaken inbound), rest) ∧
        Leaves inbound (firstTaken inbound) rest ∧ stopOf rest = stopOf inbound
    | .nothing => ∃ t rest, readLine inbound = .after t (.ended, rest)
    | .broken error => ∃ t rest, readLine inbound = .after t (.failed error, rest)
    | .pending => readLine inbound = .forever := by
  rcases openingOf_cases inbound with ⟨hlong, h⟩ | ⟨line, hline, h⟩ | ⟨hline, hstop, h⟩ |
    ⟨error, hline, hstop, h⟩ | ⟨hnone, hstop, h⟩
  · rw [h]
    exact readLine_of_long_start hlong
  · rw [h]
    exact readLine_of_firstLine hline
  · rw [h]
    exact (readLine_of_unfinished hline).1 hstop
  · rw [h]
    exact (readLine_of_unfinished hline).2 error hstop
  · obtain ⟨t, rest, hread, -⟩ :=
      readLine_of_rest (ends_iff.2 hstop) (by simp [hnone]) (by simp [hnone])
    rw [hnone] at hread
    rw [h]
    exact ⟨t, rest, hread⟩

end

/-! ### The handshake -/

theorem greetingVersion?_of_mark {text : String} (h : greetingMark <+: text.toList) :
    greetingVersion? text =
      some (String.ofList (Text.trim (text.toList.drop greetingMark.length))) := by
  obtain ⟨rest, hrest⟩ := h
  have hdrop : Text.dropLead? greetingMark text.toList = some rest :=
    Text.dropLead?_eq_some_iff.2 hrest.symm
  rw [greetingVersion?, hdrop, ← hrest, List.drop_left]
  rfl

theorem greetingVersion?_of_other {text : String} (h : ¬ greetingMark <+: text.toList) :
    greetingVersion? text = none := by
  rw [greetingVersion?, Option.map_eq_none_iff]
  cases hdrop : Text.dropLead? greetingMark text.toList with
  | none => rfl
  | some rest => exact absurd ⟨rest, (Text.dropLead?_eq_some_iff.1 hdrop).symm⟩ h

namespace Connection

/-- What comes of a stream that opens in some way. -/
theorem handshake_of_openingOf (addr : String) (p : Peer) :
    match openingOf p.inbound with
    | .line line =>
      if greetingMark <+: (lineText line).toList then
        ∃ t rest, Leaves p.inbound (firstTaken p.inbound) rest ∧ stopOf rest = stopOf p.inbound ∧
          handshake addr none p = .after t (.ok
            { addr
              version := String.ofList
                (Text.trim ((lineText line).toList.drop greetingMark.length))
              peer := some ⟨rest, p.answers⟩ })
      else ∃ t, handshake addr none p = .after t (.error (.badGreeting addr (lineText line)))
    | .nothing => ∃ t, handshake addr none p = .after t (.error (.closed addr))
    | .broken error => ∃ t, handshake addr none p = .after t (.error (.transport addr error))
    | .pending => handshake addr none p = .forever := by
  have hread := readLine_of_openingOf p.inbound
  unfold handshake
  cases hopen : openingOf p.inbound with
  | line line =>
    obtain ⟨-, -, rfl⟩ := openingOf_eq_line_iff.1 hopen
    rw [hopen] at hread
    obtain ⟨t, rest, hline, hleft, hstop⟩ := hread
    rw [hline]
    simp only [Wait.within_none_after, Wait.map_after, greet, lineText_firstTaken]
    split
    · next hmark =>
      rw [greetingVersion?_of_mark hmark]
      exact ⟨t, rest, hleft, hstop, rfl⟩
    · next hother =>
      rw [greetingVersion?_of_other hother]
      exact ⟨t, rfl⟩
  | nothing =>
    rw [hopen] at hread
    obtain ⟨t, rest, hended⟩ := hread
    rw [hended]
    exact ⟨t, rfl⟩
  | broken error =>
    rw [hopen] at hread
    obtain ⟨t, rest, hfailed⟩ := hread
    rw [hfailed]
    exact ⟨t, rfl⟩
  | pending =>
    rw [hopen] at hread
    rw [hread]
    rfl

/-- A connection with its peer's answers replaced. -/
def withAnswers (answers : List Answer) (c : Connection) : Connection :=
  { c with peer := c.peer.map fun p => { p with answers } }

/-- A handshake neither uses nor asks for what a line would be answered with. -/
theorem handshake_withAnswers (addr : String) (limit : Option Nat) (p : Peer) (answers : List Answer) :
    handshake addr limit { p with answers } =
      (handshake addr limit p).map (Except.map (withAnswers answers)) := by
  rw [handshake, handshake, Wait.map_map]
  congr 1
  funext read
  rcases read with _ | ⟨_ | _ | _, rest⟩
  · rfl
  · next bytes =>
    rw [greet, greet]
    cases greetingVersion? (lineText bytes) <;> rfl
  · rfl
  · rfl

/-- **The first line decides a handshake.** Without a limit, whatever octets a peer sends and in whatever
pieces, the handshake succeeds exactly if there is a first line whose text begins with `OK MPD`. The
version is then the trimmed text behind that, and what is left to read is the stream behind the line, down
to how it stops. Any other first line is reported with its text. Without a first line, the handshake fails
as closed exactly if the stream ended before any octet came, and with a failure of the transport exactly
if the line is too long or reading failed before it was complete; it waits for ever exactly if nothing
more comes. It asks nothing of the peer, whose answers are all still to come, and a dial brings nothing to
the other end. -/
theorem first_line_decides_handshake (addr : String) (p : Peer) :
    (((∃ t c, handshake addr none p = .after t (.ok c)) ↔
      ∃ line, FirstLine p.inbound line ∧ greetingMark <+: (lineText line).toList) ∧
    (∀ t c, handshake addr none p = .after t (.ok c) →
      ∃ line rest, FirstLine p.inbound line ∧
        c = { addr
              version := String.ofList
                (Text.trim ((lineText line).toList.drop greetingMark.length))
              peer := some ⟨rest, p.answers⟩ } ∧
        Leaves p.inbound (firstTaken p.inbound) rest ∧ stopOf rest = stopOf p.inbound) ∧
    (∀ whom text, (∃ t, handshake addr none p = .after t (.error (.badGreeting whom text))) ↔
      whom = addr ∧ ∃ line, FirstLine p.inbound line ∧ ¬ greetingMark <+: (lineText line).toList ∧
        text = lineText line) ∧
    (∀ whom, (∃ t, handshake addr none p = .after t (.error (.closed whom))) ↔
      whom = addr ∧ arriving p.inbound = [] ∧ stopOf p.inbound = .ended) ∧
    (∀ whom cause, (∃ t, handshake addr none p = .after t (.error (.transport whom cause))) ↔
      whom = addr ∧ (Overlong (arriving p.inbound) ∧ cause = overlongLine ∨
        Unfinished p.inbound ∧ stopOf p.inbound = .failed cause)) ∧
    (∀ t whom, handshake addr none p ≠ .after t (.error (.timedOut whom))) ∧
    (handshake addr none p = .forever ↔ Unfinished p.inbound ∧ stopOf p.inbound = .silent)) ∧
    (∀ answers, handshake addr none { p with answers } =
      (handshake addr none p).map (Except.map (withAnswers answers))) ∧
    (∀ n : Network, (n.dial addr none).2.received.flatten = n.received.flatten) ∧
    maxLineLength = 65536 ∧ overlongLine.kind = .invalidData := by
  have hdial (n : Network) : (n.dial addr none).2.received.flatten = n.received.flatten := by
    show (n.meet addr).2.received.flatten = _
    rcases Network.received_of_meet n addr with ⟨hsame, -⟩ | hmore
    · rw [hsame]
    · rw [hmore]
      simp
  have hshake := handshake_of_openingOf addr p
  simp only [← openingOf_eq_line_iff, ← openingOf_eq_nothing_iff, ← openingOf_eq_broken_iff,
    ← openingOf_eq_pending_iff]
  refine ⟨?_, handshake_withAnswers addr none p, hdial, rfl, rfl⟩
  cases hopen : openingOf p.inbound with
  | line line =>
    rw [hopen] at hshake
    by_cases hmark : greetingMark <+: (lineText line).toList
    · obtain ⟨t, rest, hleft, hstop, hw⟩ := (if_pos hmark).mp hshake
      simp [hw, hmark, hleft, hstop]
    · obtain ⟨t, hw⟩ := (if_neg hmark).mp hshake
      simp [hw, hmark, eq_comm]
  | nothing =>
    rw [hopen] at hshake
    obtain ⟨t, hw⟩ := hshake
    simp [hw, eq_comm]
  | broken error =>
    rw [hopen] at hshake
    obtain ⟨t, hw⟩ := hshake
    simp [hw, eq_comm]
  | pending =>
    rw [hopen] at hshake
    simp [hshake]

/-- A greeting in two pieces, with an octet of what comes next behind it. -/
example : handshake "mpd:6600" none
      ⟨[.send [79, 75, 32], .pause 5, .send [77, 80, 68, 32, 49, 13, 10, 65]], []⟩ =
    .after 5 (.ok { addr := "mpd:6600", version := "1", peer := some ⟨[.send [65]], []⟩ }) := rfl

end Connection

end PlayerWatch
