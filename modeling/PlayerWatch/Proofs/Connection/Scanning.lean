import Mathlib.Data.List.TakeWhile
import PlayerWatch.Proofs.Connection.Limits

/-!
# Replies as a scan over lines

Whatever octets a peer sends, well-formed or not, a reply is what a scan over their lines finds. The
octets are cut behind every line end, the lines are looked at in their order, and the first one that is
too long, is `OK` or begins with `ACK` decides; if none does, the stream has ended too early. `scan` is
this definition, and reading agrees with it on every stream that ends (`readReply_of_scan`). A stream
that has not ended may have settled the matter already (`Settles`); then nothing is waited for that
comes after (`readReply_prompt`), and it makes no difference (`readReply_append`).
-/

namespace PlayerWatch

/-! ### Lines of octets -/

/-- Octets cut behind every line end; what is left without one, if anything, is the last line. -/
def cutLines : List UInt8 → List (List UInt8)
  | [] => []
  | b :: bytes =>
    if b = lineEnd then [b] :: cutLines bytes
    else
      match cutLines bytes with
      | [] => [[b]]
      | line :: lines => (b :: line) :: lines

/-- A line without its end. -/
def lineBody (line : List UInt8) : List UInt8 := line.takeWhile (· != lineEnd)

/-- A line has more octets before its end than a line may have. -/
def Overlong (line : List UInt8) : Prop := maxLineLength < (lineBody line).length

instance (line : List UInt8) : Decidable (Overlong line) :=
  inferInstanceAs (Decidable (maxLineLength < (lineBody line).length))

theorem cutLines_of_line {body : List UInt8} (hbody : lineEnd ∉ body) (more : List UInt8) :
    cutLines (body ++ lineEnd :: more) = (body ++ [lineEnd]) :: cutLines more := by
  induction body with
  | nil => simp [cutLines]
  | cons b rest ih =>
    have hb : b ≠ lineEnd := fun h => hbody (by simp [h])
    have hrest : lineEnd ∉ rest := fun h => hbody (List.mem_cons_of_mem _ h)
    simp [cutLines, hb, ih hrest]

theorem cutLines_of_rest {b : UInt8} {rest : List UInt8} (hbytes : lineEnd ∉ b :: rest) :
    cutLines (b :: rest) = [b :: rest] := by
  induction rest generalizing b with
  | nil =>
    have hb : b ≠ lineEnd := fun h => hbytes (by simp [h])
    simp [cutLines, hb]
  | cons b' rest ih =>
    have hb : b ≠ lineEnd := fun h => hbytes (by simp [h])
    have hrest : lineEnd ∉ b' :: rest := fun h => hbytes (List.mem_cons_of_mem _ h)
    rw [cutLines, if_neg hb, ih hrest]

/-- Octets are none, begin with a line that has its end, or are one line without an end. -/
theorem octets_cases (bytes : List UInt8) :
    bytes = [] ∨ (∃ body more, lineEnd ∉ body ∧ bytes = body ++ lineEnd :: more) ∨
      ∃ b rest, bytes = b :: rest ∧ lineEnd ∉ bytes := by
  by_cases hend : lineEnd ∈ bytes
  · obtain ⟨body, more, hsplit, hbody⟩ := List.eq_append_cons_of_mem hend
    exact .inr (.inl ⟨body, more, hbody, hsplit⟩)
  · cases bytes with
    | nil => exact .inl rfl
    | cons b rest => exact .inr (.inr ⟨b, rest, rfl, hend⟩)

theorem lineBody_of_line {body : List UInt8} (hbody : lineEnd ∉ body) (more : List UInt8) :
    lineBody (body ++ lineEnd :: more) = body := by
  have hall : ∀ b ∈ body, (b != lineEnd) = true := by
    intro b hb
    exact bne_iff_ne.2 fun h => hbody (h ▸ hb)
  rw [lineBody, List.takeWhile_append_of_pos hall]
  simp

theorem lineBody_of_rest {bytes : List UInt8} (hbytes : lineEnd ∉ bytes) :
    lineBody bytes = bytes := by
  refine List.takeWhile_eq_self_iff.2 fun b hb => ?_
  exact bne_iff_ne.2 fun h => hbytes (h ▸ hb)

/-- Cutting loses nothing. -/
theorem flatten_cutLines (bytes : List UInt8) : (cutLines bytes).flatten = bytes := by
  induction hn : bytes.length using Nat.strongRecOn generalizing bytes with
  | _ n ih =>
    rcases octets_cases bytes with rfl | ⟨body, more, hbody, rfl⟩ | ⟨b, rest, rfl, hbytes⟩
    · rfl
    · have hshorter : more.length < n := by
        rw [← hn, List.length_append, List.length_cons]
        omega
      rw [cutLines_of_line hbody, List.flatten_cons, ih _ hshorter more rfl]
      simp
    · simp [cutLines_of_rest hbytes]

/-! ### The scan -/

/-- What the lines of a stream that has ended say as a reply; the second part is the lines that are
left. -/
def scan : List (List UInt8) → Except RequestError (List String) × List (List UInt8)
  | [] => (.error .closed, [])
  | line :: rest =>
    if Overlong line then (.error (.transport overlongLine), rest)
    else if (lineText line).toList = okLine then (.ok [], rest)
    else if refusalMark <+: (lineText line).toList then
      (.error (.rejected (String.ofList
        (Text.dropBlanks ((lineText line).toList.drop refusalMark.length)))), rest)
    else ((scan rest).1.map (lineText line :: ·), (scan rest).2)

/-- One of the lines decides what the reply is, whatever comes after it: it is too long, or it has its
end and ends the reply. -/
def Settles : List (List UInt8) → Prop
  | [] => False
  | line :: rest => Overlong line ∨ lineEnd ∈ line ∧ (EndsReply (lineText line) ∨ Settles rest)

theorem scan_of_overlong {line : List UInt8} (h : Overlong line) (rest : List (List UInt8)) :
    scan (line :: rest) = (.error (.transport overlongLine), rest) := by
  rw [scan, if_pos h]

/-- A line that is not too long is told from others as reading tells it. -/
theorem scan_of_fitting {line : List UInt8} (h : ¬ Overlong line) (rest : List (List UInt8)) :
    scan (line :: rest) =
      match ReplyLine.ofText (lineText line) with
      | .ok => (.ok [], rest)
      | .refusal detail => (.error (.rejected detail), rest)
      | .data text => ((scan rest).1.map (text :: ·), (scan rest).2) := by
  rw [scan, if_neg h]
  by_cases hok : (lineText line).toList = okLine
  · rw [if_pos hok, ReplyLine.ofText_of_ok hok]
  rw [if_neg hok]
  by_cases hrefused : refusalMark <+: (lineText line).toList
  · rw [if_pos hrefused, ReplyLine.ofText_of_refusal hrefused]
  · have hdata : ¬ EndsReply (lineText line) := not_or.2 ⟨hok, hrefused⟩
    rw [if_neg hrefused, ReplyLine.ofText_of_data hdata]

/-! ### Streams that end -/

/-- The stream ends, and neither fails nor falls silent before. -/
def Ends : List Action → Prop
  | .send _ :: rest => Ends rest
  | .pause _ :: rest => Ends rest
  | .close :: _ => True
  | _ => False

/-- The milliseconds that pass until the last octets have arrived. -/
def waited : List Action → Nat
  | .send _ :: rest => waited rest
  | .pause ms :: rest => ms + waited rest
  | _ => 0

/-- A line that the end of the stream cuts off is read as far as it has come. -/
theorem readLineFrom_of_rest {actions : List Action} {got : List UInt8} (hends : Ends actions)
    (hrest : lineEnd ∉ arriving actions)
    (hfit : got.length + (arriving actions).length ≤ maxLineLength) :
    ∃ t after, readLineFrom got actions =
        .after t (if (got ++ arriving actions).isEmpty then .ended
          else .line (got ++ arriving actions), after) ∧
      Leaves actions (arriving actions) after := by
  induction actions generalizing got with
  | nil => cases hends
  | cons a actions ih =>
    cases a with
    | send bytes =>
      rw [arriving, List.length_append] at hfit
      rw [arriving, List.mem_append, not_or] at hrest
      have hfit' : (got ++ bytes).length + (arriving actions).length ≤ maxLineLength := by
        rw [List.length_append]
        omega
      obtain ⟨t, after, hread, hleft⟩ := ih hends hrest.2 hfit'
      refine ⟨t, after, ?_, hleft.send bytes⟩
      rw [readLineFrom, cutLine_of_part hrest.1 (by omega), arriving, ← List.append_assoc]
      exact hread
    | pause ms =>
      obtain ⟨t, after, hread, hleft⟩ := ih hends hrest hfit
      refine ⟨ms + t, after, ?_, hleft.pause ms⟩
      rw [readLineFrom, hread, Wait.later_after, arriving]
    | close =>
      refine ⟨0, .close :: actions, ?_, fun later => rfl⟩
      have hnone : arriving (.close :: actions) = [] := rfl
      rw [readLineFrom, hnone, List.append_nil]
    | hang => cases hends
    | fail error => cases hends

theorem readLine_of_rest {actions : List Action} (hends : Ends actions)
    (hrest : lineEnd ∉ arriving actions) (hfit : (arriving actions).length ≤ maxLineLength) :
    ∃ t after, readLine actions =
        .after t (if (arriving actions).isEmpty then .ended else .line (arriving actions), after) ∧
      Leaves actions (arriving actions) after := by
  have hfit' : ([] : List UInt8).length + (arriving actions).length ≤ maxLineLength := by
    simpa using hfit
  exact readLineFrom_of_rest hends hrest hfit'

theorem ends_of_readLineFrom {actions rest : List Action} {got bytes : List UInt8} {t : Nat}
    (hends : Ends actions) (h : readLineFrom got actions = .after t (.line bytes, rest)) :
    Ends rest := by
  induction actions generalizing got t with
  | nil => cases hends
  | cons a actions ih =>
    cases a with
    | send piece =>
      rw [readLineFrom] at h
      split at h
      · simp only [Wait.after.injEq, Prod.mk.injEq] at h
        obtain ⟨-, -, rfl⟩ := h
        exact hends
      · simp at h
      · exact ih hends h
    | pause ms =>
      rw [readLineFrom] at h
      obtain ⟨s, hread, -⟩ := Wait.later_eq_after h
      exact ih hends hread
    | close =>
      simp only [readLineFrom, Wait.after.injEq, Prod.mk.injEq] at h
      obtain ⟨-, -, rfl⟩ := h
      trivial
    | hang => cases hends
    | fail error => cases hends

/-! ### Reading the first line -/

/-- A line that is too long is not read. -/
theorem readLine_of_overlong {actions : List Action} {line : List UInt8}
    {lines : List (List UInt8)} (hcut : cutLines (arriving actions) = line :: lines)
    (hlong : Overlong line) :
    ∃ t rest, readLine actions = .after t (.failed overlongLine, rest) := by
  have hstart {body more : List UInt8} (h : arriving actions = body ++ more)
      (hbody : lineEnd ∉ body) (hlong : maxLineLength < body.length) :
      ∃ t rest, readLine actions = .after t (.failed overlongLine, rest) := by
    apply readLineFrom_of_overlong h hbody (Nat.zero_le _)
    simpa using hlong
  rcases octets_cases (arriving actions) with hnil | ⟨body, more, hbody, hline⟩ |
    ⟨b, rest, hrest, hbytes⟩
  · rw [hnil] at hcut
    cases hcut
  · rw [hline, cutLines_of_line hbody] at hcut
    obtain ⟨rfl, -⟩ := List.cons.inj hcut
    rw [Overlong, lineBody_of_line hbody] at hlong
    exact hstart hline hbody hlong
  · rw [hrest] at hbytes
    rw [hrest, cutLines_of_rest hbytes] at hcut
    obtain ⟨rfl, -⟩ := List.cons.inj hcut
    rw [Overlong, lineBody_of_rest hbytes] at hlong
    exact hstart (hrest.trans (List.append_nil _).symm) hbytes hlong

/-- A line that is not too long is read if it has its end or the stream ends behind it, and the other
lines are left. -/
theorem readLine_of_fitting {actions : List Action} {line : List UInt8}
    {lines : List (List UInt8)} (hcut : cutLines (arriving actions) = line :: lines)
    (hfit : ¬ Overlong line) (hends : Ends actions ∨ lineEnd ∈ line) :
    ∃ t rest, readLine actions = .after t (.line line, rest) ∧ Leaves actions line rest ∧
      cutLines (arriving rest) = lines := by
  rcases octets_cases (arriving actions) with hnil | ⟨body, more, hbody, hline⟩ |
    ⟨b, rest, hrest, hbytes⟩
  · rw [hnil] at hcut
    cases hcut
  · rw [hline, cutLines_of_line hbody] at hcut
    obtain ⟨rfl, rfl⟩ := List.cons.inj hcut
    rw [Overlong, lineBody_of_line hbody, Nat.not_lt] at hfit
    obtain ⟨t, rest, hread, hleft⟩ := readLine_of_line hline hbody hfit
    refine ⟨t, rest, hread, hleft, ?_⟩
    have hmore := hleft.arriving_eq
    rw [hline] at hmore
    have hsame : more = arriving rest := by simpa using hmore
    rw [hsame]
  · rw [hrest] at hbytes
    rw [hrest, cutLines_of_rest hbytes] at hcut
    obtain ⟨rfl, rfl⟩ := List.cons.inj hcut
    rw [Overlong, lineBody_of_rest hbytes, Nat.not_lt, ← hrest] at hfit
    have hends : Ends actions := hends.resolve_right hbytes
    obtain ⟨t, after, hread, hleft⟩ := readLine_of_rest hends (hrest ▸ hbytes) hfit
    rw [hrest] at hread hleft
    refine ⟨t, after, hread, hleft, ?_⟩
    have hmore := hleft.arriving_eq
    rw [hrest] at hmore
    have hnone : arriving after = [] := by simpa using hmore
    rw [hnone]
    rfl

/-! ### Reading a reply -/

/-- Reading finds what the scan finds, if the stream ends or the lines that have come settle it. Behind
a line that ends a reply nothing is taken. -/
theorem readReply_of_scan {actions : List Action} {lines : List (List UInt8)}
    (hcut : cutLines (arriving actions) = lines) (h : Ends actions ∨ Settles lines) :
    ∃ t rest, readReply none actions = .after t ((scan lines).1, rest) ∧
      ((∀ error, (scan lines).1 = .error error → error.isLost = false) →
        ∃ taken, taken ++ (scan lines).2.flatten = arriving actions ∧ Leaves actions taken rest) := by
  induction lines generalizing actions with
  | nil =>
    have hends : Ends actions := h.resolve_right id
    have hnone : arriving actions = [] := by
      rw [← flatten_cutLines (arriving actions), hcut]
      rfl
    obtain ⟨t, after, hread, -⟩ := readLine_of_rest hends (by simp [hnone]) (by simp [hnone])
    rw [hnone] at hread
    refine ⟨t, after, ?_, ?_⟩
    · rw [readReply_eq, hread]
      rfl
    · intro hkept
      cases hkept .closed rfl
  | cons line lines ih =>
    by_cases hlong : Overlong line
    · obtain ⟨t, rest, hread⟩ := readLine_of_overlong hcut hlong
      rw [scan_of_overlong hlong]
      refine ⟨t, rest, ?_, ?_⟩
      · rw [readReply_eq, hread]
        rfl
      · intro hkept
        cases hkept _ rfl
    · have hgoes : Ends actions ∨ lineEnd ∈ line :=
        h.imp_right fun hsettles => (hsettles.resolve_left hlong).1
      obtain ⟨t, rest, hread, hleft, hlines⟩ := readLine_of_fitting hcut hlong hgoes
      have hall : line ++ lines.flatten = arriving actions := by
        rw [← flatten_cutLines (arriving actions), hcut, List.flatten_cons]
      rw [readReply_of_line hread, scan_of_fitting hlong]
      cases hline : ReplyLine.ofText (lineText line) with
      | ok => exact ⟨t, rest, rfl, fun _ => ⟨line, hall, hleft⟩⟩
      | refusal detail => exact ⟨t, rest, rfl, fun _ => ⟨line, hall, hleft⟩⟩
      | data text =>
        -- The line ends no reply, so one behind it has to settle the matter.
        have hnext : Ends rest ∨ Settles lines := by
          refine h.imp (fun hends => ends_of_readLineFrom hends hread) fun hsettles => ?_
          refine (hsettles.resolve_left hlong).2.resolve_left ?_
          rintro (hok | hrefused)
          · rw [ReplyLine.ofText_of_ok hok] at hline
            cases hline
          · rw [ReplyLine.ofText_of_refusal hrefused] at hline
            cases hline
        obtain ⟨s, left, hreply, hrest⟩ := ih hlines hnext
        refine ⟨t + s, left, ?_, ?_⟩
        · rw [hreply]
          rfl
        · intro hkept
          have hkept' : ∀ error, (scan lines).1 = .error error → error.isLost = false := by
            intro error herror
            apply hkept
            rw [herror]
            rfl
          obtain ⟨taken, hsplit, htaken⟩ := hrest hkept'
          refine ⟨line ++ taken, ?_, hleft.trans htaken⟩
          rw [List.append_assoc, hsplit, ← hall, ← hlines, flatten_cutLines]

/-! ### What comes later -/

/-- More behind what was enough for a line is left to read. -/
theorem readLineFrom_append {actions rest : List Action} {got : List UInt8} {t : Nat}
    {read : LineRead} (h : readLineFrom got actions = .after t (read, rest)) (back : List Action) :
    readLineFrom got (actions ++ back) = .after t (read, rest ++ back) := by
  induction actions generalizing got t with
  | nil => cases h
  | cons a actions ih =>
    rw [List.cons_append]
    cases a with
    | send bytes =>
      rw [readLineFrom] at h ⊢
      split at h
      · cases h
        rfl
      · cases h
        rfl
      · exact ih h
    | pause ms =>
      rw [readLineFrom] at h ⊢
      obtain ⟨s, hread, rfl⟩ := Wait.later_eq_after h
      rw [ih hread, Wait.later_after]
    | hang => cases h
    | close =>
      cases h
      rfl
    | fail error =>
      cases h
      rfl

/-- A line is read when the last octets have arrived, if not before, and what is left takes no longer
than that. -/
theorem readLineFrom_prompt {actions rest : List Action} {got : List UInt8} {t : Nat}
    {read : LineRead} (h : readLineFrom got actions = .after t (read, rest)) :
    t ≤ waited actions ∧ ∀ bytes, read = .line bytes → t + waited rest ≤ waited actions := by
  induction actions generalizing got t with
  | nil => cases h
  | cons a actions ih =>
    cases a with
    | send bytes =>
      rw [readLineFrom] at h
      split at h
      · cases h
        exact ⟨Nat.zero_le _, fun _ _ => (Nat.zero_add _).le⟩
      · cases h
        exact ⟨Nat.zero_le _, by simp⟩
      · exact ih h
    | pause ms =>
      rw [readLineFrom] at h
      obtain ⟨s, hread, rfl⟩ := Wait.later_eq_after h
      obtain ⟨htime, hleft⟩ := ih hread
      rw [waited]
      refine ⟨Nat.add_le_add_left htime ms, ?_⟩
      intro bytes hbytes
      rw [Nat.add_assoc]
      exact Nat.add_le_add_left (hleft bytes hbytes) ms
    | hang => cases h
    | close =>
      cases h
      exact ⟨Nat.zero_le _, fun _ _ => Nat.zero_le _⟩
    | fail error =>
      cases h
      exact ⟨Nat.zero_le _, by simp⟩

theorem readLine_append {actions rest : List Action} {t : Nat} {read : LineRead}
    (h : readLine actions = .after t (read, rest)) (back : List Action) :
    readLine (actions ++ back) = .after t (read, rest ++ back) :=
  readLineFrom_append h back

theorem readReply_append {actions rest : List Action} {t : Nat}
    {result : Except RequestError (List String)}
    (h : readReply none actions = .after t (result, rest)) (back : List Action) :
    readReply none (actions ++ back) = .after t (result, rest ++ back) := by
  fun_induction readReply none actions generalizing t result with
  | case1 actions hread => cases h
  | case2 actions s hread => exact absurd hread (Wait.within_none_ne _ s)
  | case3 actions s error left hread =>
    cases h
    rw [readReply_eq, readLine_append (Wait.eq_after_of_within hread) back]
    rfl
  | case4 actions s left hread =>
    cases h
    rw [readReply_eq, readLine_append (Wait.eq_after_of_within hread) back]
    rfl
  | case5 actions s bytes left hread hline =>
    cases h
    rw [readReply_of_line (readLine_append (Wait.eq_after_of_within hread) back), hline]
  | case6 actions s bytes left hread detail hline =>
    cases h
    rw [readReply_of_line (readLine_append (Wait.eq_after_of_within hread) back), hline]
  | case7 actions s bytes left hread text hline hsize ih =>
    obtain ⟨u, hmore, rfl⟩ := Wait.later_eq_after h
    obtain ⟨reply, hreply, hboth⟩ := Wait.map_eq_after_iff.1 hmore
    cases hboth
    rw [readReply_of_line (readLine_append (Wait.eq_after_of_within hread) back), hline, ih hreply]
    rfl

/-- A reply is read when the last octets have arrived, if not before. -/
theorem readReply_prompt {actions rest : List Action} {t : Nat}
    {result : Except RequestError (List String)}
    (h : readReply none actions = .after t (result, rest)) : t ≤ waited actions := by
  fun_induction readReply none actions generalizing t result with
  | case1 actions hread => cases h
  | case2 actions s hread => exact absurd hread (Wait.within_none_ne _ s)
  | case3 _ _ _ _ hread | case4 _ _ _ hread | case5 _ _ _ _ hread | case6 _ _ _ _ hread =>
    cases h
    exact (readLineFrom_prompt (Wait.eq_after_of_within hread)).1
  | case7 actions s bytes left hread text hline hsize ih =>
    obtain ⟨u, hmore, rfl⟩ := Wait.later_eq_after h
    obtain ⟨reply, hreply, hboth⟩ := Wait.map_eq_after_iff.1 hmore
    cases hboth
    have hleft := (readLineFrom_prompt (Wait.eq_after_of_within hread)).2 bytes rfl
    exact (Nat.add_le_add_left (ih hreply) s).trans hleft

/-- Behind lines of data, octets that are too many for a line settle what the reply is before the end of
their line has come. -/
theorem settles_of_overlong {data : List (List UInt8)} {unended : List UInt8}
    (hdata : ∀ l ∈ data, IsLine l ∧ ¬ EndsReply (lineText l)) (hunended : lineEnd ∉ unended)
    (hlong : maxLineLength < unended.length) :
    Settles (cutLines (withEnds data ++ unended)) ∧
      (scan (cutLines (withEnds data ++ unended))).1 = .error (.transport overlongLine) := by
  induction data with
  | nil =>
    obtain ⟨b, rest, rfl⟩ := List.exists_cons_of_length_pos (Nat.zero_lt_of_lt hlong)
    have hline : Overlong (b :: rest) := by
      rw [Overlong, lineBody_of_rest hunended]
      exact hlong
    show Settles (cutLines (b :: rest)) ∧ (scan (cutLines (b :: rest))).1 = _
    rw [cutLines_of_rest hunended, scan_of_overlong hline]
    exact ⟨.inl hline, rfl⟩
  | cons line data ih =>
    obtain ⟨⟨hend, hfits⟩, hgoes⟩ := hdata line List.mem_cons_self
    obtain ⟨hsettles, hscan⟩ := ih fun l hl => hdata l (List.mem_cons_of_mem _ hl)
    have hcut : cutLines (withEnds (line :: data) ++ unended) =
        (line ++ [lineEnd]) :: cutLines (withEnds data ++ unended) := by
      rw [← cutLines_of_line hend]
      simp [withEnds]
    have hfit : ¬ Overlong (line ++ [lineEnd]) := by
      rw [Overlong, lineBody_of_line hend]
      exact Nat.not_lt.2 hfits
    rw [hcut, scan_of_fitting hfit, lineText_append_lineEnd, ReplyLine.ofText_of_data hgoes]
    refine ⟨.inr ⟨by simp, .inr hsettles⟩, ?_⟩
    show (scan (cutLines (withEnds data ++ unended))).1.map _ = _
    rw [hscan]
    rfl

namespace Connection

/-- Without a limit, a line that was taken is answered with what the scan finds in the lines that have
arrived, if the stream ends behind them or they settle the matter. -/
theorem executeLine_of_scan {c : Connection} {p q : Peer} {line : String} {s : Nat}
    {front back : List Action} (hc : c.peer = some p) (hlimit : c.limit = none)
    (hwrite : p.write (line ++ "\n") = .after s (.ok q)) (hinbound : q.inbound = front ++ back)
    (hdecided : Ends front ∨ Settles (cutLines (arriving front))) :
    ∃ t rest, t ≤ waited front ∧
      c.executeLine line = .after (s + t) (c.conclude (line ++ "\n") q.answers
        ((scan (cutLines (arriving front))).1, rest ++ back)) ∧
      ((∀ error, (scan (cutLines (arriving front))).1 = .error error → error.isLost = false) →
        ∃ taken, taken ++ (scan (cutLines (arriving front))).2.flatten = arriving front ∧
          Leaves front taken rest) := by
  have hwithin : (p.write (line ++ "\n")).within c.limit = .after s (some (.ok q)) := by
    rw [hlimit, hwrite, Wait.within_none_after]
  obtain ⟨t, rest, hread, hleft⟩ := readReply_of_scan rfl hdecided
  refine ⟨t, rest, readReply_prompt hread, ?_, hleft⟩
  rw [executeLine_of_taken hc hwithin, awaitReply, hinbound, hlimit, readReply_append hread back,
    Wait.map_after, Wait.later_after]

/-- **A reply is what a scan over its lines finds.** Let a line be sent over an open connection without
a limit, and taken, be it at once or later. Whatever octets are then still to come, in whatever pieces, as soon as the stream
ends or one of its lines has settled the matter the call returns what the scan finds in the lines that
have arrived, whatever is to come behind them. After a reply the connection is left with what stands
behind the last line that was read; after any other end it is closed. A line is too long exactly if more
than 65536 octets come before its end, and then the call fails when the octet behind those has arrived,
even if nothing comes any more. -/
theorem executeLine_eq_scan {c : Connection} {p q : Peer} {line : String} {s : Nat}
    (hc : c.peer = some p) (hlimit : c.limit = none)
    (hwrite : p.write (line ++ "\n") = .after s (.ok q)) :
    (∀ front back, q.inbound = front ++ back →
      Ends front ∨ Settles (cutLines (arriving front)) →
      ∃ t x, c.executeLine line = .after t x ∧ t ≤ s + waited front ∧ x.sent = line ++ "\n" ∧
        x.result = (scan (cutLines (arriving front))).1 ∧
        (x.IsAnswered → ∃ taken rest,
          taken ++ (scan (cutLines (arriving front))).2.flatten = arriving front ∧
          Leaves front taken rest ∧
          x.connection = { c with peer := some ⟨rest ++ back, q.answers⟩ }) ∧
        (¬ x.IsAnswered → x.connection.peer = none)) ∧
    (∀ data unended, (∀ l ∈ data, IsLine l ∧ ¬ EndsReply (lineText l)) → lineEnd ∉ unended →
      maxLineLength < unended.length →
      Settles (cutLines (withEnds data ++ unended)) ∧
        (scan (cutLines (withEnds data ++ unended))).1 = .error (.transport overlongLine)) ∧
    maxLineLength = 65536 ∧ overlongLine.kind = .invalidData := by
  refine ⟨?_, fun _ _ => settles_of_overlong, rfl, rfl⟩
  intro front back hinbound hdecided
  obtain ⟨t, rest, htime, hcall, hleft⟩ := executeLine_of_scan hc hlimit hwrite hinbound hdecided
  refine ⟨s + t, _, hcall, Nat.add_le_add_left htime s, sent_conclude .., ?_⟩
  cases hfound : (scan (cutLines (arriving front))).1 with
  | ok lines =>
    rw [hfound] at hleft
    obtain ⟨taken, hsplit, htaken⟩ := hleft fun error herror => by cases herror
    refine ⟨rfl, fun _ => ⟨taken, rest, hsplit, htaken, rfl⟩, ?_⟩
    intro hunanswered
    exact absurd (.inl ⟨lines, rfl⟩) hunanswered
  | error error =>
    have hresult : (c.conclude (line ++ "\n") q.answers (.error error, rest ++ back)).result =
        .error error := rfl
    cases hlost : error.isLost with
    | true =>
      refine ⟨rfl, fun hanswered => ?_, fun _ => ?_⟩
      · exact absurd hanswered ((Exchange.isLost_iff hresult).1 hlost)
      · simp [conclude, hlost]
    | false =>
      rw [hfound] at hleft
      obtain ⟨taken, hsplit, htaken⟩ := hleft fun e he => Except.error.inj he ▸ hlost
      refine ⟨rfl, fun _ => ⟨taken, rest, hsplit, htaken, ?_⟩, fun hunanswered => ?_⟩
      · simp [conclude, hlost]
      · have hlost' := (Exchange.isLost_iff hresult).2 hunanswered
        rw [hlost] at hlost'
        cases hlost'

/-- A reply of malformed lines to a line that is written in two parts: a lone carriage return, a blank
line, a character that breaks off and an `OK` that the end of the stream cuts short. -/
theorem malformed_lines_scanned :
    let octets : List UInt8 := [97, 13, 10, 10, 0xE2, 0x82, 10, 0, 32, 10, 79, 75]
    let reply := [.send (octets.take 5), .pause 7, .send (octets.drop 5), .close]
    let p : Peer := ⟨[], [{ octets := 3, outcome := .after 5 (.ok reply) }]⟩
    let c : Connection := { addr := "mpd:6600", version := "0.23.5", peer := some p }
    c.peer = some p ∧ c.limit = none ∧ p.write ("status" ++ "\n") = .after 5 (.ok p.takeLine) ∧
      Ends p.takeLine.inbound ∧
      ∃ t x, c.executeLine "status" = .after t x ∧ t ≤ 12 ∧
        x.result = .ok ["a", "", "\uFFFD", "\x00"] := by
  intro octets reply p c
  have hwrite : p.write ("status" ++ "\n") = .after 5 (.ok p.takeLine) := rfl
  have hends : Ends p.takeLine.inbound := trivial
  have hscan : (scan (cutLines (arriving p.takeLine.inbound))).1 =
      .ok ["a", "", "\uFFFD", "\x00"] := by decide +kernel
  obtain ⟨t, x, hcall, htime, -, hresult, -⟩ :=
    (executeLine_eq_scan (c := c) rfl rfl hwrite).1 p.takeLine.inbound [] (by simp) (.inl hends)
  rw [hscan] at hresult
  exact ⟨rfl, rfl, hwrite, hends, t, x, hcall, htime, hresult⟩

end Connection

end PlayerWatch
