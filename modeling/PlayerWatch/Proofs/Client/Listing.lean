import PlayerWatch.Proofs.Connection.Conversation
import PlayerWatch.Proofs.Connection.Truncation
import PlayerWatch.Proofs.Record.TagValues
import PlayerWatch.Proofs.Request.OneLine
import PlayerWatch.Proofs.Text.Encoding

/-!
# Listing the values of a tag

A player answers a list query with one line `tag: value` for each value. The line is trimmed before it
is told from the lines that end a reply, so a value comes through without the blanks at its end, and one
that is empty or blank does not come through at all: with its last blank the separator is gone
(`tagValue?_valueLine`). Apart from that the values come in their order and unchanged
(`list_brings_kept_values`), and they all come as they are exactly if each of them ends in a character
that is no blank.
-/

namespace PlayerWatch

open Text

/-! ### Spellings of a tag -/

namespace Text

theorem isBlank_lowerChar (c : Char) : isBlank (lowerChar c) = isBlank c := by
  have hletters : ∀ n < 26, isBlank (Char.ofNat (97 + n)) = isBlank (Char.ofNat (65 + n)) := by
    decide
  rcases lowerChar_cases c with h | ⟨n, hn, hc, hlower⟩
  · rw [h]
  · rw [hlower, hletters n hn, ← hc]

theorem no_blank_of_sameLetters {xs ys : List Char} (h : sameLetters xs ys = true)
    (hys : ∀ c ∈ ys, isBlank c = false) : ∀ c ∈ xs, isBlank c = false := by
  intro c hc
  have hmem : lowerChar c ∈ ys.map lowerChar := sameLetters_iff.1 h ▸ List.mem_map_of_mem hc
  obtain ⟨d, hd, heq⟩ := List.mem_map.1 hmem
  rw [← isBlank_lowerChar, ← heq, isBlank_lowerChar]
  exact hys d hd

end Text

/-! ### Value lines -/

/-- A text without the blanks at its end. -/
def trimmedEnd (s : String) : String := String.ofList (s.toList.rdropWhile isBlank)

/-- The values that come through: without the blanks at their ends, and none that is empty then. -/
def keptValues (values : List String) : List String := (values.map trimmedEnd).filter (· ≠ "")

/-- A word that may be asked for as a tag. -/
structure IsTag (tag : String) : Prop where
  no_blank : ∀ c ∈ tag.toList, isBlank c = false
  /-- No spelling of the tag begins as a refusal does. -/
  no_refusal : ¬ refusalMark.map lowerChar <+: tag.toList.map lowerChar

/-- A spelling of a tag and a value that can be sent in one line. -/
structure Gives (tag spelling value : String) : Prop where
  spelled : sameLetters spelling.toList tag.toList = true
  unbroken : '\n' ∉ value.toList
  fits : (encode (valueLine spelling value)).length ≤ maxLineLength

instance (tag : String) : Decidable (IsTag tag) :=
  decidable_of_iff (tag.toList.all (fun c => !isBlank c) = true ∧
      ¬ refusalMark.map lowerChar <+: tag.toList.map lowerChar)
    ⟨fun h => ⟨by simpa using h.1, h.2⟩, fun h => ⟨by simpa using h.no_blank, h.no_refusal⟩⟩

instance (tag spelling value : String) : Decidable (Gives tag spelling value) :=
  decidable_of_iff (sameLetters spelling.toList tag.toList = true ∧ '\n' ∉ value.toList ∧
      (encode (valueLine spelling value)).length ≤ maxLineLength)
    ⟨fun h => ⟨h.1, h.2.1, h.2.2⟩, fun h => ⟨h.spelled, h.unbroken, h.fits⟩⟩

theorem toList_valueLine (tag value : String) :
    (valueLine tag value).toList = (tag.toList ++ [':']) ++ ' ' :: value.toList := by
  have hseparator : ": ".toList = [':', ' '] := rfl
  simp [valueLine, hseparator]

/-- With the blanks at its end a line loses those of the value, and with the whole value the blank before
it. -/
theorem trimmed_valueLine {spelling : String} (h : ∀ c ∈ spelling.toList, isBlank c = false)
    (value : String) :
    (trimmed (valueLine spelling value)).toList =
      if trimmedEnd value = "" then spelling.toList ++ [':']
      else (valueLine spelling (trimmedEnd value)).toList := by
  have hfront : ∀ c ∈ spelling.toList ++ [':'], isBlank c = false := by
    intro c hc
    rcases List.mem_append.1 hc with hc | hc
    · exact h c hc
    · rw [List.mem_singleton.1 hc]
      decide
  have hstart (more : List Char) :
      dropBlanks ((spelling.toList ++ [':']) ++ more) = (spelling.toList ++ [':']) ++ more := by
    cases hspelling : spelling.toList with
    | nil => exact dropBlanks_eq_self (by decide) _
    | cons c cs => exact dropBlanks_eq_self (h c (by rw [hspelling]; exact List.mem_cons_self)) _
  have hempty : trimmedEnd value = "" ↔ value.toList.rdropWhile isBlank = [] := by
    rw [trimmedEnd, ← String.toList_inj, String.toList_ofList]
    rfl
  rw [toList_trimmed, toList_valueLine, toList_valueLine, trim_eq, hstart,
    rdropWhile_append hfront, rdropWhile_blank (by decide), if_congr hempty rfl rfl, trimmedEnd,
    String.toList_ofList]
  split <;> simp

/-- No line that gives a value ends a reply. -/
theorem valueLine_goes_on {tag spelling : String} (htag : IsTag tag)
    (hspelled : sameLetters spelling.toList tag.toList = true) (value : String) :
    ¬ EndsReply (trimmed (valueLine spelling value)) := by
  -- Whatever is left of the value, the spelling with the colon is still there.
  obtain ⟨more, hline⟩ : ∃ more, (trimmed (valueLine spelling value)).toList =
      (spelling.toList ++ [':']) ++ more := by
    rw [trimmed_valueLine (no_blank_of_sameLetters hspelled htag.no_blank), toList_valueLine]
    split
    · exact ⟨[], (List.append_nil _).symm⟩
    · exact ⟨_, rfl⟩
  rintro (hok | hrefused)
  · have hcolon : ':' ∈ okLine := by
      rw [← hok, hline]
      simp
    exact absurd hcolon (by decide)
  · rw [hline] at hrefused
    have hcolon : ¬ spelling.toList ++ [':'] <+: refusalMark := by
      intro h
      have hmem : ':' ∈ refusalMark := h.subset (by simp)
      exact absurd hmem (by decide)
    have hbegins := (List.prefix_or_prefix_of_prefix hrefused (List.prefix_append _ more)).resolve_right
      hcolon
    rcases List.prefix_concat_iff.1 hbegins with hwhole | hpart
    · exact hcolon (hwhole ▸ List.prefix_refl _)
    · have hlower := hpart.map lowerChar
      rw [sameLetters_iff.1 hspelled] at hlower
      exact htag.no_refusal hlower

/-- Of a line that gives a value the value is read, if any is left. -/
theorem tagValue?_valueLine {tag spelling : String} (htag : IsTag tag)
    (hspelled : sameLetters spelling.toList tag.toList = true) (value : String) :
    tagValue? tag (trimmed (valueLine spelling value)) =
      if trimmedEnd value = "" then none else some (trimmedEnd value) := by
  have hhead : octets (tag.toList ++ separator) = octets (spelling.toList ++ separator) := by
    rw [octets_append, octets_append, octets_of_sameLetters hspelled]
  have hsame : sameLetters (spelling.toList ++ separator) (tag.toList ++ separator) = true := by
    rw [sameLetters_iff, List.map_append, List.map_append, sameLetters_iff.1 hspelled]
  unfold tagValue?
  dsimp only
  rw [trimmed_valueLine (no_blank_of_sameLetters hspelled htag.no_blank), hhead]
  by_cases hnone : trimmedEnd value = ""
  · have hshort : octets (spelling.toList ++ [':']) < octets (spelling.toList ++ separator) := by
      rw [octets_append, octets_append]
      exact Nat.add_lt_add_left (by decide) _
    rw [if_pos hnone, if_pos hnone, splitAtOctet_of_short hshort]
  · have hsplit : (valueLine spelling (trimmedEnd value)).toList =
        (spelling.toList ++ separator) ++ (trimmedEnd value).toList := by
      rw [toList_valueLine]
      simp [separator]
    rw [if_neg hnone, if_neg hnone, hsplit, splitAtOctet_append]
    simp [hsame]

/-- The values of a tag in the lines that give them are those that come through. -/
theorem tagValues_valueLines {tag : String} (htag : IsTag tag) {said : List (String × String)}
    (hsaid : ∀ e ∈ said, sameLetters e.1.toList tag.toList = true) :
    tagValues tag (said.map fun e => trimmed (valueLine e.1 e.2)) =
      keptValues (said.map Prod.snd) := by
  induction said with
  | nil => rfl
  | cons e said ih =>
    have hrest := ih fun e' he => hsaid e' (List.mem_cons_of_mem _ he)
    have hfirst := tagValue?_valueLine htag (hsaid e List.mem_cons_self) e.2
    rw [tagValues, keptValues] at hrest ⊢
    rw [List.map_cons, List.filterMap_cons, hfirst, hrest, List.map_cons, List.map_cons,
      List.filter_cons]
    by_cases hnone : trimmedEnd e.2 = ""
    · simp [hnone]
    · simp [hnone]

/-- A value comes through as it is exactly if it ends in a character that is no blank. -/
theorem trimmedEnd_eq_self_iff {v : String} :
    trimmedEnd v = v ∧ v ≠ "" ↔ ∃ c, v.toList.getLast? = some c ∧ isBlank c = false := by
  have hsame : trimmedEnd v = v ↔ v.toList.rdropWhile isBlank = v.toList := by
    rw [trimmedEnd, ← String.toList_inj, String.toList_ofList]
  have hsome : v ≠ "" ↔ v.toList ≠ [] := String.toList_eq_nil_iff.not.symm
  rw [hsame, List.rdropWhile_eq_self_iff, hsome]
  constructor
  · rintro ⟨hlast, hne⟩
    exact ⟨_, List.getLast?_eq_getLast_of_ne_nil hne, by simpa using hlast hne⟩
  · rintro ⟨c, hlast, hc⟩
    have hne : v.toList ≠ [] := by
      intro hnil
      rw [hnil] at hlast
      cases hlast
    rw [List.getLast?_eq_getLast_of_ne_nil hne, Option.some.injEq] at hlast
    exact ⟨fun _ => by simp [hlast, hc], hne⟩

theorem keptValues_cons (v : String) (values : List String) :
    keptValues (v :: values) =
      if trimmedEnd v = "" then keptValues values else trimmedEnd v :: keptValues values := by
  by_cases h : trimmedEnd v = "" <;> simp [keptValues, h]

theorem length_keptValues_le (values : List String) : (keptValues values).length ≤ values.length := by
  rw [keptValues]
  exact (List.length_filter_le ..).trans (List.length_map ..).le

/-- All values come through as they are exactly if each of them ends in a character that is no blank. -/
theorem keptValues_eq_self_iff {values : List String} :
    keptValues values = values ↔
      ∀ v ∈ values, ∃ c, v.toList.getLast? = some c ∧ isBlank c = false := by
  induction values with
  | nil => simp [keptValues]
  | cons v values ih =>
    rw [keptValues_cons, List.forall_mem_cons, ← ih, ← trimmedEnd_eq_self_iff]
    split
    · next hnone =>
      constructor
      · intro h
        have hlength := congrArg List.length h
        have hle := length_keptValues_le values
        rw [List.length_cons] at hlength
        omega
      · rintro ⟨⟨hsame, hne⟩, -⟩
        exact absurd (hsame.symm.trans hnone) hne
    · next hsome =>
      rw [List.cons.injEq]
      constructor
      · rintro ⟨hsame, hrest⟩
        exact ⟨⟨hsame, hsame ▸ hsome⟩, hrest⟩
      · rintro ⟨⟨hsame, -⟩, hrest⟩
        exact ⟨hsame, hrest⟩

/-! ### The list query -/

/-- The reply that gives values of a tag in this order. -/
def valueReply {tag : String} (htag : IsTag tag) (said : List (String × String))
    (hsaid : ∀ e ∈ said, Gives tag e.1 e.2) : Reply where
  data := said.map fun e => encode (valueLine e.1 e.2)
  last := okOctets
  isLine := by
    rintro line hline
    rcases List.mem_cons.1 hline with rfl | hline
    · decide
    obtain ⟨e, he, rfl⟩ := List.mem_map.1 hline
    obtain ⟨hspelled, hunbroken, hfits⟩ := hsaid e he
    refine ⟨lineEnd_not_mem_encode ?_, hfits⟩
    have hblank := no_blank_of_sameLetters hspelled htag.no_blank
    have hspelling : '\n' ∉ e.1.toList := by
      intro h
      cases hblank _ h
    rw [toList_valueLine]
    simp [hspelling, hunbroken]
  data_goes_on := by
    intro line hline
    obtain ⟨e, he, rfl⟩ := List.mem_map.1 hline
    rw [lineText_encode]
    exact valueLine_goes_on htag (hsaid e he).spelled e.2
  last_ends := .inl lineText_okOctets

theorem outcome_valueReply {tag : String} (htag : IsTag tag) (said : List (String × String))
    (hsaid : ∀ e ∈ said, Gives tag e.1 e.2) :
    (valueReply htag said hsaid).outcome =
      .ok (said.map fun e => trimmed (valueLine e.1 e.2)) := by
  show outcomeOf (said.map fun e => encode (valueLine e.1 e.2)) okOctets = _
  rw [outcomeOf, if_pos lineText_okOctets, List.map_map]
  congr 1
  exact List.map_congr_left fun e _ => lineText_encode _

namespace Client

/-- Over a connection without a limit, a list query is answered with the lines that give the values. -/
theorem execute_list_of_values {c : Connection} {p : Peer} {tag : String}
    {filters said : List (String × String)} (hc : c.peer = some p) (hlimit : c.limit = none)
    (haccepts : p.accepts none = true) (htag : IsTag tag)
    (hfilters : ∀ f ∈ filters, '\n' ∉ f.1.toList ∧ '\n' ∉ f.2.toList)
    (hsaid : ∀ e ∈ said, Gives tag e.1 e.2)
    (hreply : withEnds (said.map (fun e => encode (valueLine e.1 e.2)) ++ [okOctets]) <+:
      arriving p.takeLine.inbound) :
    ∃ t q, c.execute (.list tag filters) =
      .after t ⟨.ok (said.map fun e => trimmed (valueLine e.1 e.2)),
        (Request.list tag filters).line ++ "\n", { c with peer := some q }⟩ := by
  have hanswers : p.AnswersWith [] [valueReply htag said hsaid] := by
    refine ⟨?_, ?_⟩
    · intro k hk
      obtain rfl : k = 0 := by simpa using hk
      exact haccepts
    · intro k hk
      rcases Nat.le_one_iff_eq_zero_or_eq_one.1 hk with rfl | rfl
      · exact List.nil_prefix
      · show [] ++ (withEnds _ ++ []) <+: _
        rw [List.append_nil]
        exact hreply
  have hline : '\n' ∉ (Request.list tag filters).line.toList := by
    refine Request.line_unbroken_iff.2 (Request.list_unbroken_iff.2 ⟨?_, hfilters⟩)
    intro hend
    cases htag.no_blank _ hend
  have hbegin : Behind [] p p := ⟨rfl, fun _ => rfl⟩
  obtain ⟨t, q, hcall, -⟩ :=
    Connection.ask_of_answers (a := .request (.list tag filters)) hlimit hc hbegin hline hanswers
  rw [outcome_valueReply] at hcall
  exact ⟨t, q, hcall⟩

/-- What a list query brings, and how it leaves the connection, is what its request does. -/
theorem list_of_execute {c : Client} {tag : String} {filters : List (String × String)} {t : Nat}
    {x : Exchange} (hx : c.connection.execute (.list tag filters) = .after t x) :
    c.list tag filters = .after t
      ⟨x.result.map (tagValues tag), x.sent, [], { c with connection := x.connection }⟩ := by
  rw [list, ask, hx, Wait.map_after]
  cases x.result with
  | ok lines => simp [announced, fieldEvents]
  | error error => rfl

/-- **A list query brings the values in their order, without the blanks at their ends.** Let a player
answer a list query with one line for each value, the tag in front of it in any spelling, and `OK`. Then
the client returns the values in that order, each without the blanks at its end, but for those of which
nothing is left then; so it returns just the values exactly if each of them ends in a character that is
no blank. With a limit there is a timeout instead if a line is late. -/
theorem list_brings_kept_values {c : Client} {p : Peer} {tag : String}
    {filters said : List (String × String)} (hc : c.connection.peer = some p)
    (haccepts : p.accepts none = true) (htag : IsTag tag)
    (hfilters : ∀ f ∈ filters, '\n' ∉ f.1.toList ∧ '\n' ∉ f.2.toList)
    (hsaid : ∀ e ∈ said, Gives tag e.1 e.2)
    (hreply : withEnds (said.map (fun e => encode (valueLine e.1 e.2)) ++ [okOctets]) <+:
      arriving p.takeLine.inbound) :
    (∃ t a, c.list tag filters = .after t a ∧ a.events = [] ∧
      a.sent = c.connection.accepted (Request.list tag filters).line ∧
      (a.result = .ok (keptValues (said.map Prod.snd)) ∧ a.client.isOpen = true ∨
        ∃ limit, c.connection.limit = some limit ∧
          c.connection.Late limit (.ask (.request (.list tag filters))) ∧
          a.result = .error .timedOut ∧ a.client.isOpen = false)) ∧
    (keptValues (said.map Prod.snd) = said.map Prod.snd ↔
      ∀ e ∈ said, ∃ ch, e.2.toList.getLast? = some ch ∧ isBlank ch = false) := by
  refine ⟨?_, ?_⟩
  · have hfree : (c.connection.withLimit none).peer = some p := hc
    obtain ⟨t, q, hcall⟩ := execute_list_of_values hfree rfl haccepts htag hfilters hsaid hreply
    rcases Connection.execute_unless_late hcall with hx | ⟨limit, s, y, hlimit, hlate, hy, hresult, hclosed⟩
    · refine ⟨t, _, list_of_execute hx, rfl, Connection.sent_of_executeLine hx, .inl ⟨?_, rfl⟩⟩
      show Except.ok (tagValues tag _) = _
      rw [tagValues_valueLines htag fun e he => (hsaid e he).spelled]
    · refine ⟨s, _, list_of_execute hy, rfl, Connection.sent_of_executeLine hy, .inr ?_⟩
      refine ⟨limit, hlimit, hlate, ?_, hclosed⟩
      show y.result.map _ = _
      rw [hresult]
      rfl
  · rw [keptValues_eq_self_iff, List.forall_mem_map]

/-- Two albums whose names have colons and blanks in them, the tag in two spellings. -/
theorem spelled_albums_listed :
    let said := [("Album", " Discovery: live"), ("ALBUM", "Homework ")]
    let octets := withEnds (said.map (fun e => encode (valueLine e.1 e.2)) ++ [okOctets])
    let p : Peer := ⟨[], [.actions [.send octets]]⟩
    let c : Client := ⟨{ addr := "mpd:6600", version := "0.23.5", peer := some p }, true⟩
    let filters := [("artist", "Daft Punk")]
    c.connection.peer = some p ∧ p.accepts none = true ∧ IsTag "album" ∧
      (∀ f ∈ filters, '\n' ∉ f.1.toList ∧ '\n' ∉ f.2.toList) ∧
      (∀ e ∈ said, Gives "album" e.1 e.2) ∧ octets <+: arriving p.takeLine.inbound ∧
      ∃ t a, c.list "album" filters = .after t a ∧
        a.result = .ok [" Discovery: live", "Homework"] := by
  intro said octets p c filters
  have htag : IsTag "album" := by decide
  have hfilters : ∀ f ∈ filters, '\n' ∉ f.1.toList ∧ '\n' ∉ f.2.toList := by decide
  have hsaid : ∀ e ∈ said, Gives "album" e.1 e.2 := by decide +kernel
  have hreply : octets <+: arriving p.takeLine.inbound := by decide +kernel
  obtain ⟨⟨t, a, hlist, -, -, hends⟩, -⟩ :=
    list_brings_kept_values (c := c) rfl rfl htag hfilters hsaid hreply
  refine ⟨rfl, rfl, htag, hfilters, hsaid, hreply, t, a, hlist, ?_⟩
  rcases hends with ⟨hresult, -⟩ | ⟨limit, hlimit, -⟩
  · have hkept : keptValues (said.map Prod.snd) = [" Discovery: live", "Homework"] := by
      decide +kernel
    rw [hresult, hkept]
  · cases hlimit

/-- An album without a name is lost: once its line is trimmed, the separator is no longer whole. -/
theorem empty_album_lost :
    let said := [("Album", ""), ("Album", "Discovery")]
    let p : Peer := ⟨[], [.actions [.send (encode "Album: \nAlbum: Discovery\nOK\n")]]⟩
    let c : Client := ⟨{ addr := "mpd:6600", version := "0.23.5", peer := some p }, true⟩
    IsTag "album" ∧ (∀ e ∈ said, Gives "album" e.1 e.2) ∧
      arriving p.takeLine.inbound =
        withEnds (said.map (fun e => encode (valueLine e.1 e.2)) ++ [okOctets]) ∧
      ∃ t a, c.list "album" [] = .after t a ∧ a.sent = "list album\n" ∧
        a.result = .ok ["Discovery"] ∧ a.result ≠ .ok (said.map Prod.snd) := by
  intro said p c
  have htag : IsTag "album" := by decide
  have hsaid : ∀ e ∈ said, Gives "album" e.1 e.2 := by decide +kernel
  have hreply : arriving p.takeLine.inbound =
      withEnds (said.map (fun e => encode (valueLine e.1 e.2)) ++ [okOctets]) := by decide +kernel
  have hfilters : ∀ f ∈ ([] : List (String × String)), '\n' ∉ f.1.toList ∧ '\n' ∉ f.2.toList := nofun
  obtain ⟨t, q, hcall⟩ := execute_list_of_values (c := c.connection) (p := p) rfl rfl rfl htag
    hfilters hsaid (hreply ▸ List.prefix_refl _)
  have hkept : tagValues "album" (said.map fun e => trimmed (valueLine e.1 e.2)) = ["Discovery"] := by
    decide +kernel
  refine ⟨htag, hsaid, hreply, t, _, list_of_execute hcall, rfl, ?_, ?_⟩
  · show Except.ok (tagValues "album" _) = _
    rw [hkept]
  · show Except.ok (tagValues "album" _) ≠ _
    rw [hkept]
    simp [said]

end Client

end PlayerWatch
