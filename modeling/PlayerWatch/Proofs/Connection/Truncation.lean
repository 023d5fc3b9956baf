import PlayerWatch.Proofs.Connection.Scanning

/-!
# Replies that break off

The last line of a stream is read as far as it has come, as if it had its end. So it matters that no
part of a line of data can be taken for a line that ends a reply: not where blanks lead, and not where
the part breaks off within a character (`GoesOn.not_ends`). Then a reply that breaks off is a closed
connection wherever the cut lies, unless nothing but its last line end is missing
(`scan_of_cut`, `truncated_reply_closed_or_whole`).
-/

namespace PlayerWatch

/-- The octets of the line that ends the reply to a request that was carried out. -/
def okOctets : List UInt8 := [79, 75]

theorem okLine_plain : ∀ c ∈ okLine, Text.isBlank c = false :=
  List.forall_mem_cons.2 ⟨by decide, List.forall_mem_singleton.2 (by decide)⟩

theorem refusalMark_plain : ∀ c ∈ refusalMark, Text.isBlank c = false :=
  List.forall_mem_cons.2 ⟨by decide,
    List.forall_mem_cons.2 ⟨by decide, List.forall_mem_singleton.2 (by decide)⟩⟩

theorem lineText_okOctets : (lineText okOctets).toList = okLine := by decide +kernel

/-- A line of data that begins like no line that ends a reply. -/
structure GoesOn (line : List UInt8) : Prop where
  isLine : IsLine line
  no_ok : ¬ okLine <+: (lineText line).toList
  no_refusal : ¬ refusalMark <+: (lineText line).toList

instance (line : List UInt8) : Decidable (GoesOn line) :=
  decidable_of_iff (IsLine line ∧ ¬ okLine <+: (lineText line).toList ∧
      ¬ refusalMark <+: (lineText line).toList)
    ⟨fun h => ⟨h.1, h.2.1, h.2.2⟩, fun h => ⟨h.isLine, h.no_ok, h.no_refusal⟩⟩

namespace GoesOn

variable {line bytes : List UInt8}

/-- No part of such a line ends a reply. -/
theorem not_ends (h : GoesOn line) (hcut : bytes <+: line) : ¬ EndsReply (lineText bytes) := by
  obtain ⟨more, rfl⟩ := hcut
  rintro (hok | hrefused)
  · have hbegins : okLine <+: (lineText bytes).toList := hok ▸ List.prefix_refl _
    exact h.no_ok (prefix_lineText_of_cut (by decide) okLine_plain (by decide) hbegins more)
  · exact h.no_refusal (prefix_lineText_of_cut (by decide) refusalMark_plain (by decide) hrefused more)

/-- No part of such a line is too long. -/
theorem not_overlong (h : GoesOn line) (hcut : bytes <+: line) : ¬ Overlong bytes := by
  have hbytes : lineEnd ∉ bytes := fun hend => h.isLine.1 (hcut.subset hend)
  rw [Overlong, lineBody_of_rest hbytes, Nat.not_lt]
  exact hcut.length_le.trans h.isLine.2

theorem not_overlong_with_end (h : GoesOn line) : ¬ Overlong (line ++ [lineEnd]) := by
  rw [Overlong, lineBody_of_line h.isLine.1, Nat.not_lt]
  exact h.isLine.2

/-- A part of such a line, with nothing behind it, is no reply. -/
theorem scan_of_part (h : GoesOn line) (hcut : bytes <+: line) :
    (scan (cutLines bytes)).1 = .error .closed := by
  have hbytes : lineEnd ∉ bytes := fun hend => h.isLine.1 (hcut.subset hend)
  cases bytes with
  | nil => rfl
  | cons b rest =>
    rw [cutLines_of_rest hbytes, scan_of_fitting (h.not_overlong hcut),
      ReplyLine.ofText_of_data (h.not_ends hcut)]
    rfl

/-- Such a line with its end is the first of the data. -/
theorem scan_of_line (h : GoesOn line) (more : List UInt8) :
    (scan (cutLines (line ++ [lineEnd] ++ more))).1 =
      (scan (cutLines more)).1.map (lineText line :: ·) := by
  rw [List.append_assoc, List.singleton_append, cutLines_of_line h.isLine.1,
    scan_of_fitting h.not_overlong_with_end, lineText_append_lineEnd,
    ReplyLine.ofText_of_data (h.not_ends (List.prefix_refl _))]

end GoesOn

/-- A part of a line with its end and of what follows is the whole line and a part of what follows, or it
is a part of the line itself. -/
theorem prefix_line_cases {bytes line more : List UInt8}
    (h : bytes <+: (line ++ [lineEnd]) ++ more) :
    (∃ rest, rest <+: more ∧ bytes = (line ++ [lineEnd]) ++ rest) ∨ bytes <+: line := by
  rcases List.prefix_or_prefix_of_prefix h (List.prefix_append _ more) with hshort | hlong
  · rcases List.prefix_concat_iff.1 hshort with rfl | hpart
    · exact .inl ⟨[], List.nil_prefix, (List.append_nil _).symm⟩
    · exact .inr hpart
  · obtain ⟨rest, rfl⟩ := hlong
    exact .inl ⟨rest, (List.prefix_append_right_inj _).1 h, rfl⟩

/-- The scan of a reply that breaks off finds the end of the stream, unless only the last line end is
missing. -/
theorem scan_of_cut {data : List (List UInt8)} {bytes : List UInt8} (hdata : ∀ l ∈ data, GoesOn l)
    (hcut : bytes <+: withEnds (data ++ [okOctets]))
    (hproper : bytes ≠ withEnds (data ++ [okOctets])) :
    (scan (cutLines bytes)).1 =
      if bytes ++ [lineEnd] = withEnds (data ++ [okOctets]) then .ok (data.map lineText)
      else .error .closed := by
  induction data generalizing bytes with
  | nil =>
    have hparts : bytes = [] ∨ bytes = [79] ∨ bytes = okOctets := by
      have hwhole : withEnds ([] ++ [okOctets]) = [79, 75, 10] := by decide
      rw [hwhole] at hcut hproper
      simp only [List.prefix_cons_iff, List.prefix_nil] at hcut
      grind [okOctets]
    rcases hparts with rfl | rfl | rfl <;> decide +kernel
  | cons line data ih =>
    have hline := hdata line List.mem_cons_self
    rw [List.cons_append, withEnds_cons] at hcut hproper ⊢
    rcases prefix_line_cases hcut with ⟨rest, hrest, rfl⟩ | hpart
    · have hscan := ih (fun l hl => hdata l (List.mem_cons_of_mem _ hl)) hrest
        (fun h => hproper (by rw [h]))
      rw [hline.scan_of_line, hscan]
      simp only [List.append_assoc (line ++ [lineEnd]), List.append_right_inj]
      split <;> rfl
    · rw [hline.scan_of_part hpart, if_neg]
      -- The end of the first line is missing, and a second line end with it.
      intro h
      have hlength := congrArg List.length h
      have hle := hpart.length_le
      simp [withEnds, okOctets] at hlength
      omega

namespace Connection

/-- **A reply that breaks off is never taken for another one.** Let a request be sent over an open
connection and taken in time, and let the stream end within the reply: lines of data none of which begins with
`OK` or `ACK`, and `OK`. Wherever the cut lies, also within a character, the request fails as closed and
so does the connection; only if nothing but the last line end is missing the request returns the lines
of data, and all of them. With a limit there is a timeout instead if a line of the reply is late. -/
theorem truncated_reply_closed_or_whole {c : Connection} {p q : Peer} {request : Request}
    {s : Nat} {data : List (List UInt8)} {front back : List Action} (hc : c.peer = some p)
    (hwrite : (p.write (request.line ++ "\n")).within c.limit = .after s (some (.ok q)))
    (hdata : ∀ l ∈ data, GoesOn l)
    (hinbound : q.inbound = front ++ back) (hends : Ends front)
    (hcut : arriving front <+: withEnds (data ++ [okOctets]))
    (hproper : arriving front ≠ withEnds (data ++ [okOctets])) :
    ∃ t x, c.execute request = .after t x ∧ x.sent = request.line ++ "\n" ∧
      ((arriving front ++ [lineEnd] ≠ withEnds (data ++ [okOctets]) ∧ x.result = .error .closed ∧
          x.connection.isOpen = false) ∨
        (arriving front ++ [lineEnd] = withEnds (data ++ [okOctets]) ∧
          x.result = .ok (data.map lineText) ∧ x.connection.isOpen = true) ∨
        ∃ limit, c.limit = some limit ∧ c.Late limit (.ask (.request request)) ∧
          x.result = .error .timedOut ∧ x.connection.isOpen = false) ∧
      ∀ lines, x.result = .ok lines → lines = data.map lineText := by
  have hfree : (c.withLimit none).peer = some p := hc
  obtain ⟨t, rest, -, hreply, -⟩ :=
    executeLine_of_scan hfree rfl (Wait.eq_after_of_within hwrite) hinbound (.inl hends)
  rw [scan_of_cut hdata hcut hproper] at hreply
  have hsent {t : Nat} {x : Exchange} (hx : c.execute request = .after t x) :
      x.sent = request.line ++ "\n" := by
    rw [execute, executeLine_of_taken hc hwrite] at hx
    obtain ⟨u, hreply, -⟩ := Wait.later_eq_after hx
    obtain ⟨reply, -, rfl⟩ := Wait.map_eq_after_iff.1 hreply
    exact sent_conclude ..
  rcases execute_unless_late hreply with hcall | ⟨limit, u, y, hlimit, hlate, hcall, hresult, hclosed⟩
  · refine ⟨s + t, _, hcall, hsent hcall, ?_⟩
    by_cases hlast : arriving front ++ [lineEnd] = withEnds (data ++ [okOctets])
    · rw [if_pos hlast]
      refine ⟨.inr (.inl ⟨hlast, rfl, rfl⟩), ?_⟩
      intro lines hlines
      exact (Except.ok.inj hlines).symm
    · rw [if_neg hlast]
      exact ⟨.inl ⟨hlast, rfl, rfl⟩, by rintro _ ⟨⟩⟩
  · refine ⟨u, y, hcall, hsent hcall, .inr (.inr ⟨limit, hlimit, hlate, hresult, hclosed⟩), ?_⟩
    intro lines hlines
    rw [hresult] at hlines
    cases hlines

/-- A reply of two lines, cut within the last character of the second one. -/
theorem cut_within_character_closed :
    let data : List (List UInt8) :=
      [[32, 102, 58, 32, 79, 75], [84, 105, 116, 108, 101, 58, 32, 67, 97, 102, 0xC3, 0xA9]]
    let octets : List UInt8 := (withEnds (data ++ [okOctets])).take 18
    let p : Peer := ⟨[], [.actions [.send (octets.take 4), .pause 7, .send (octets.drop 4), .close]]⟩
    let c : Connection := { addr := "mpd:6600", version := "0.23.5", peer := some p }
    let front := p.takeLine.inbound
    c.peer = some p ∧
      (p.write (Request.status.line ++ "\n")).within c.limit = .after 0 (some (.ok p.takeLine)) ∧
      (∀ l ∈ data, GoesOn l) ∧ p.takeLine.inbound = front ++ [] ∧ Ends front ∧
      arriving front <+: withEnds (data ++ [okOctets]) ∧
      arriving front ≠ withEnds (data ++ [okOctets]) ∧
      ∃ t x, c.execute .status = .after t x ∧ x.sent = "status\n" ∧ x.result = .error .closed ∧
        x.connection.isOpen = false := by
  intro data octets p c front
  have hwrite :
      (p.write (Request.status.line ++ "\n")).within c.limit = .after 0 (some (.ok p.takeLine)) :=
    rfl
  have hdata : ∀ l ∈ data, GoesOn l := by decide +kernel
  have hinbound : p.takeLine.inbound = front ++ [] := (List.append_nil _).symm
  have hcut : arriving front <+: withEnds (data ++ [okOctets]) := by decide +kernel
  have hproper : arriving front ≠ withEnds (data ++ [okOctets]) := by decide +kernel
  have hmore : arriving front ++ [lineEnd] ≠ withEnds (data ++ [okOctets]) := by decide +kernel
  obtain ⟨t, x, hcall, hsent, hends, -⟩ :=
    truncated_reply_closed_or_whole (c := c) rfl hwrite hdata hinbound trivial hcut hproper
  refine ⟨rfl, hwrite, hdata, hinbound, trivial, hcut, hproper, t, x, hcall, hsent, ?_⟩
  rcases hends with ⟨-, hresult, hclosed⟩ | ⟨hwhole, -⟩ | ⟨limit, hlimit, -⟩
  · exact ⟨hresult, hclosed⟩
  · exact absurd hwhole hmore
  · cases hlimit

end Connection

end PlayerWatch
