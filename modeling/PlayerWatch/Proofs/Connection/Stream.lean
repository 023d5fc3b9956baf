import PlayerWatch.Peer

/-!
# The octets of a stream

What comes over a connection is a list of actions, but a reader sees only octets: in which pieces they
come and how long the pauses between them are makes no difference to what is read. `arriving` is what
there is to read, and `Leaves` says that some octets were taken off the front of it. A line that is
there is read as a whole and nothing behind it is touched (`readLine_of_line`), unless it is too long
(`readLineFrom_of_overlong`).
-/

namespace PlayerWatch

/-- The octets that arrive before the stream falls silent, ends or fails. -/
def arriving : List Action → List UInt8
  | [] => []
  | .send bytes :: rest => bytes ++ arriving rest
  | .pause _ :: rest => arriving rest
  | _ :: _ => []

/-- Taking some octets off the actions `before` leaves the actions `after`, whatever comes behind
either. -/
def Leaves (before : List Action) (taken : List UInt8) (after : List Action) : Prop :=
  ∀ later, arriving (before ++ later) = taken ++ arriving (after ++ later)

namespace Leaves

theorem trans {a b c : List Action} {xs ys : List UInt8} (h : Leaves a xs b) (h' : Leaves b ys c) :
    Leaves a (xs ++ ys) c := by
  intro later
  rw [h later, h' later, List.append_assoc]

theorem arriving_eq {a b : List Action} {xs : List UInt8} (h : Leaves a xs b) :
    arriving a = xs ++ arriving b := by
  simpa using h []

/-- More that comes later comes behind both. -/
theorem append {a b : List Action} {xs : List UInt8} (h : Leaves a xs b) (news : List Action) :
    Leaves (a ++ news) xs (b ++ news) := by
  intro later
  rw [List.append_assoc, List.append_assoc]
  exact h (news ++ later)

theorem pause {a b : List Action} {xs : List UInt8} (h : Leaves a xs b) (ms : Nat) :
    Leaves (.pause ms :: a) xs b := h

theorem send {a b : List Action} {xs : List UInt8} (h : Leaves a xs b) (bytes : List UInt8) :
    Leaves (.send bytes :: a) (bytes ++ xs) b := by
  intro later
  rw [List.cons_append, arriving, h later, List.append_assoc]

end Leaves

/-! ### One line -/

theorem cutLine_of_line {room : Nat} {line : List UInt8} (hline : lineEnd ∉ line)
    (hroom : line.length < room) (after : List UInt8) :
    cutLine room (line ++ lineEnd :: after) = .complete (line ++ [lineEnd]) after := by
  induction line generalizing room with
  | nil =>
    obtain ⟨room, rfl⟩ : ∃ r, room = r + 1 := ⟨room - 1, by simp at hroom; omega⟩
    simp [cutLine]
  | cons b rest ih =>
    obtain ⟨room, rfl⟩ : ∃ r, room = r + 1 := ⟨room - 1, by omega⟩
    have hb : b ≠ lineEnd := fun h => hline (by simp [h])
    have hrest : lineEnd ∉ rest := fun h => hline (List.mem_cons_of_mem _ h)
    have hlen : rest.length < room := by simpa using hroom
    simp [cutLine, hb, ih hrest hlen]

theorem cutLine_of_part {room : Nat} {bytes : List UInt8} (hbytes : lineEnd ∉ bytes)
    (hroom : bytes.length < room) : cutLine room bytes = .partly := by
  induction bytes generalizing room with
  | nil =>
    obtain ⟨room, rfl⟩ : ∃ r, room = r + 1 := ⟨room - 1, by simp at hroom; omega⟩
    rfl
  | cons b rest ih =>
    obtain ⟨room, rfl⟩ : ∃ r, room = r + 1 := ⟨room - 1, by omega⟩
    have hb : b ≠ lineEnd := fun h => hbytes (by simp [h])
    have hrest : lineEnd ∉ rest := fun h => hbytes (List.mem_cons_of_mem _ h)
    have hlen : rest.length < room := by simpa using hroom
    simp [cutLine, hb, ih hrest hlen]

theorem cutLine_of_overlong {room : Nat} {line : List UInt8} (hline : lineEnd ∉ line)
    (hroom : room ≤ line.length) (more : List UInt8) :
    ∃ after, cutLine room (line ++ more) = .full after := by
  induction line generalizing room with
  | nil =>
    obtain rfl : room = 0 := by simpa using hroom
    exact ⟨more, by simp [cutLine]⟩
  | cons b rest ih =>
    cases room with
    | zero => exact ⟨b :: rest ++ more, by simp [cutLine]⟩
    | succ room =>
      have hb : b ≠ lineEnd := fun h => hline (by simp [h])
      have hrest : lineEnd ∉ rest := fun h => hline (List.mem_cons_of_mem _ h)
      obtain ⟨after, hcut⟩ := ih hrest (by simpa using hroom)
      exact ⟨after, by simp [cutLine, hb, hcut]⟩

/-- A piece of the stream either lies within the line that is being read or holds its end. -/
theorem piece_cases {bytes later line more : List UInt8}
    (h : bytes ++ later = line ++ lineEnd :: more) :
    (∃ rest, line = bytes ++ rest ∧ later = rest ++ lineEnd :: more) ∨
      ∃ after, bytes = line ++ lineEnd :: after := by
  rcases List.append_eq_append_iff.1 h with ⟨rest, hl, hr⟩ | ⟨rest, hb, hr⟩
  · exact .inl ⟨rest, hl, hr⟩
  · cases rest with
    | nil => exact .inl ⟨[], by simpa using hb.symm, by simpa using hr.symm⟩
    | cons b after =>
      rw [List.cons_append] at hr
      obtain ⟨rfl, -⟩ := List.cons.inj hr
      exact .inr ⟨after, hb⟩

/-- A line that begins the stream is read with its end, after what was there of it before, and
nothing behind it is taken. -/
theorem readLineFrom_of_line {actions : List Action} {got line more : List UInt8}
    (h : arriving actions = line ++ lineEnd :: more) (hline : lineEnd ∉ line)
    (hfit : got.length + line.length ≤ maxLineLength) :
    ∃ t rest, readLineFrom got actions = .after t (.line (got ++ line ++ [lineEnd]), rest) ∧
      Leaves actions (line ++ [lineEnd]) rest := by
  induction actions generalizing got line with
  | nil => simp [arriving] at h
  | cons a actions ih =>
    cases a with
    | send bytes =>
      rcases piece_cases h with ⟨rest, rfl, hlater⟩ | ⟨after, rfl⟩
      · rw [List.length_append] at hfit
        have hbytes : lineEnd ∉ bytes := fun hb => hline (List.mem_append_left _ hb)
        have hrest : lineEnd ∉ rest := fun hr => hline (List.mem_append_right _ hr)
        have hfit' : (got ++ bytes).length + rest.length ≤ maxLineLength := by
          rw [List.length_append]
          omega
        obtain ⟨t, left, hread, hleft⟩ := ih hlater hrest hfit'
        refine ⟨t, left, ?_, ?_⟩
        · rw [readLineFrom, cutLine_of_part hbytes (by omega)]
          simpa using hread
        · simpa using hleft.send bytes
      · -- What is behind the line end in its piece stays in front of the stream.
        refine ⟨0, .send after :: actions, ?_, ?_⟩
        · rw [readLineFrom, cutLine_of_line hline (by omega)]
          simp
        · intro later
          simp [arriving]
    | pause ms =>
      obtain ⟨t, rest, hread, hrest⟩ := ih h hline hfit
      refine ⟨ms + t, rest, ?_, hrest.pause ms⟩
      rw [readLineFrom, hread, Wait.later_after]
    | hang => simp [arriving] at h
    | close => simp [arriving] at h
    | fail error => simp [arriving] at h

/-- A line that begins the stream and is too long is not read, whether its end has come or not. -/
theorem readLineFrom_of_overlong {actions : List Action} {got line more : List UInt8}
    (h : arriving actions = line ++ more) (hline : lineEnd ∉ line)
    (hgot : got.length ≤ maxLineLength) (hlong : maxLineLength < got.length + line.length) :
    ∃ t rest, readLineFrom got actions = .after t (.failed overlongLine, rest) := by
  -- Octets of the line have yet to come, so the stream does not stop here.
  have hnone {got line : List UInt8} (hgot : got.length ≤ maxLineLength)
      (hlong : maxLineLength < got.length + line.length) (h : [] = line ++ more) : False := by
    obtain ⟨rfl, -⟩ := List.append_eq_nil_iff.1 h.symm
    rw [List.length_nil] at hlong
    omega
  induction actions generalizing got line with
  | nil => exact (hnone hgot hlong h).elim
  | cons a actions ih =>
    cases a with
    | send bytes =>
      rcases List.append_eq_append_iff.1 h with ⟨rest, rfl, hlater⟩ | ⟨after, rfl, -⟩
      · rw [List.length_append] at hlong
        have hbytes : lineEnd ∉ bytes := fun hb => hline (List.mem_append_left _ hb)
        have hrest : lineEnd ∉ rest := fun hr => hline (List.mem_append_right _ hr)
        -- The line may turn out to be too long before its end has come.
        rcases Nat.lt_or_ge bytes.length (maxLineLength + 1 - got.length) with hroom | hroom
        · have hgot' : (got ++ bytes).length ≤ maxLineLength := by
            rw [List.length_append]
            omega
          have hlong' : maxLineLength < (got ++ bytes).length + rest.length := by
            rw [List.length_append]
            omega
          obtain ⟨t, left, hread⟩ := ih hlater hrest hgot' hlong'
          exact ⟨t, left, by rw [readLineFrom, cutLine_of_part hbytes hroom]; exact hread⟩
        · obtain ⟨after, hcut⟩ := cutLine_of_overlong hbytes hroom []
          rw [List.append_nil] at hcut
          exact ⟨0, .send after :: actions, by rw [readLineFrom, hcut]⟩
      · have hroom : maxLineLength + 1 - got.length ≤ line.length := by omega
        obtain ⟨left, hcut⟩ := cutLine_of_overlong hline hroom after
        exact ⟨0, .send left :: actions, by rw [readLineFrom, hcut]⟩
    | pause ms =>
      obtain ⟨t, rest, hread⟩ := ih h hline hgot hlong
      exact ⟨ms + t, rest, by rw [readLineFrom, hread, Wait.later_after]⟩
    | hang => exact (hnone hgot hlong h).elim
    | close => exact (hnone hgot hlong h).elim
    | fail error => exact (hnone hgot hlong h).elim

theorem readLine_of_line {actions : List Action} {line more : List UInt8}
    (h : arriving actions = line ++ lineEnd :: more) (hline : lineEnd ∉ line)
    (hfit : line.length ≤ maxLineLength) :
    ∃ t rest, readLine actions = .after t (.line (line ++ [lineEnd]), rest) ∧
      Leaves actions (line ++ [lineEnd]) rest := by
  have hfit' : ([] : List UInt8).length + line.length ≤ maxLineLength := by simpa using hfit
  simpa [readLine] using readLineFrom_of_line h hline hfit'

/-- Whenever a stream begins with a line and a line is read, that line is read, and its octets are
taken off. -/
theorem line_of_readLine {actions rest : List Action} {line more bytes : List UInt8} {t : Nat}
    (h : arriving actions = line ++ lineEnd :: more) (hline : lineEnd ∉ line)
    (hread : readLine actions = .after t (.line bytes, rest)) :
    bytes = line ++ [lineEnd] ∧ Leaves actions (line ++ [lineEnd]) rest := by
  -- A line that is too long fails, so one that is read is not.
  rcases Nat.lt_or_ge maxLineLength line.length with hlong | hfit
  · have hlong' : maxLineLength < ([] : List UInt8).length + line.length := by simpa using hlong
    obtain ⟨s, left, hfailed⟩ := readLineFrom_of_overlong h hline (Nat.zero_le _) hlong'
    rw [readLine, hfailed] at hread
    cases hread
  · obtain ⟨s, left, hgot, hleft⟩ := readLine_of_line h hline hfit
    rw [hgot] at hread
    cases hread
    exact ⟨rfl, hleft⟩

end PlayerWatch
