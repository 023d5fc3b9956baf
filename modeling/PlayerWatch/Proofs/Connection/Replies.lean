import PlayerWatch.Connection
import PlayerWatch.Proofs.Connection.Stream
import PlayerWatch.Proofs.Text.Lines

/-!
# Replies as octets

A `Reply` is what a player writes to answer one line: data lines, and one line that ends it. Reading
from a stream that begins with a reply gives the reply's own outcome and takes exactly its octets
(`readReply_of_reply`), however the octets are cut into pieces.
-/

namespace PlayerWatch

/-- Octets that can be sent as one line: they hold no line end and are not too many. -/
def IsLine (line : List UInt8) : Prop := lineEnd ∉ line ∧ line.length ≤ maxLineLength

/-- Whether the text of a line ends a reply. -/
def EndsReply (text : String) : Prop := text.toList = okLine ∨ refusalMark <+: text.toList

instance (line : List UInt8) : Decidable (IsLine line) :=
  inferInstanceAs (Decidable (lineEnd ∉ line ∧ line.length ≤ maxLineLength))

instance (text : String) : Decidable (EndsReply text) :=
  inferInstanceAs (Decidable (text.toList = okLine ∨ refusalMark <+: text.toList))

/-- Lines with their ends. -/
def withEnds (lines : List (List UInt8)) : List UInt8 := lines.flatMap (· ++ [lineEnd])

theorem withEnds_cons (line : List UInt8) (lines : List (List UInt8)) :
    withEnds (line :: lines) = (line ++ [lineEnd]) ++ withEnds lines := by
  rw [withEnds, List.flatMap_cons, withEnds]

/-- A well-formed reply: any number of data lines, and the line that ends it. -/
structure Reply where
  data : List (List UInt8)
  last : List UInt8
  isLine : ∀ l ∈ last :: data, IsLine l
  data_goes_on : ∀ l ∈ data, ¬ EndsReply (lineText l)
  last_ends : EndsReply (lineText last)

/-- What comes of lines of data and a last line: the texts of the data if the last line is `OK`, and
otherwise the player's refusal, which is what follows the mark in the last line. -/
def outcomeOf (data : List (List UInt8)) (last : List UInt8) : Except RequestError (List String) :=
  if (lineText last).toList = okLine then .ok (data.map lineText)
  else
    .error <| .rejected <| String.ofList <|
      Text.dropBlanks ((lineText last).toList.drop refusalMark.length)

namespace Reply

/-- The octets of a reply. -/
def octets (r : Reply) : List UInt8 := withEnds (r.data ++ [r.last])

/-- What a reply says. -/
def outcome (r : Reply) : Except RequestError (List String) := outcomeOf r.data r.last

end Reply

/-! ### Telling lines apart -/

namespace ReplyLine

theorem ofText_of_ok {text : String} (h : text.toList = okLine) : ofText text = .ok := by
  simp [ofText, h]

theorem ofText_of_refusal {text : String} (h : refusalMark <+: text.toList) :
    ofText text =
      .refusal (String.ofList (Text.dropBlanks (text.toList.drop refusalMark.length))) := by
  obtain ⟨rest, hrest⟩ := h
  have hok : text.toList ≠ okLine := by
    rw [← hrest]
    simp [refusalMark, okLine]
  have hdrop : Text.dropLead? refusalMark text.toList = some rest :=
    Text.dropLead?_eq_some_iff.2 hrest.symm
  simp only [ofText, hok, if_false, hdrop]
  rw [← hrest, List.drop_left]

theorem ofText_of_data {text : String} (h : ¬ EndsReply text) : ofText text = .data text := by
  have hok : text.toList ≠ okLine := fun hok => h (.inl hok)
  have hdrop : Text.dropLead? refusalMark text.toList = none := by
    cases hd : Text.dropLead? refusalMark text.toList with
    | none => rfl
    | some rest => exact absurd (.inr ⟨rest, (Text.dropLead?_eq_some_iff.1 hd).symm⟩) h
  simp only [ofText, hok, if_false, hdrop]

end ReplyLine

/-! ### Reading a reply -/

/-- A line is read, within the limit, and then the reply goes on if the line is one of data. -/
theorem readReply_eq (limit : Option Nat) (inbound : List Action) :
    readReply limit inbound =
      ((readLine inbound).within limit).bind fun
        | none => .after 0 (.error .timedOut, inbound)
        | some (.failed error, rest) => .after 0 (.error (.transport error), rest)
        | some (.ended, rest) => .after 0 (.error .closed, rest)
        | some (.line bytes, rest) =>
          match ReplyLine.ofText (lineText bytes) with
          | .ok => .after 0 (.ok [], rest)
          | .refusal detail => .after 0 (.error (.rejected detail), rest)
          | .data text => (readReply limit rest).map (prepend text) := by
  rw [readReply]
  split
  · next h => rw [h]; rfl
  · next h => rw [h]; rfl
  · next h => rw [h]; rfl
  · next h => rw [h]; rfl
  · next bytes rest h =>
    simp only [h, Wait.bind_after]
    cases ReplyLine.ofText (lineText bytes) <;> rfl

/-- Without a limit, a line that was read either ends the reply or is one of its data lines. -/
theorem readReply_of_line {inbound rest : List Action} {bytes : List UInt8} {t : Nat}
    (h : readLine inbound = .after t (.line bytes, rest)) :
    readReply none inbound =
      match ReplyLine.ofText (lineText bytes) with
      | .ok => .after t (.ok [], rest)
      | .refusal detail => .after t (.error (.rejected detail), rest)
      | .data text => ((readReply none rest).map (prepend text)).later t := by
  rw [readReply_eq, h, Wait.within_none_after, Wait.bind_after]
  dsimp only
  cases ReplyLine.ofText (lineText bytes) <;> rfl

theorem prepend_outcomeOf (line : List UInt8) (data : List (List UInt8)) (last : List UInt8)
    (rest : List Action) :
    prepend (lineText line) (outcomeOf data last, rest) = (outcomeOf (line :: data) last, rest) := by
  unfold outcomeOf
  by_cases h : (lineText last).toList = okLine
  · simp [prepend, h, Except.map]
  · simp [prepend, h, Except.map]

theorem readReply_of_lines {data : List (List UInt8)} {last more : List UInt8}
    {inbound : List Action} (hlines : ∀ l ∈ last :: data, IsLine l)
    (hdata : ∀ l ∈ data, ¬ EndsReply (lineText l)) (hlast : EndsReply (lineText last))
    (h : arriving inbound = withEnds (data ++ [last]) ++ more) :
    ∃ t rest, readReply none inbound = .after t (outcomeOf data last, rest) ∧
      Leaves inbound (withEnds (data ++ [last])) rest := by
  induction data generalizing inbound with
  | nil =>
    obtain ⟨hend, hfit⟩ := hlines last (by simp)
    have hstart : arriving inbound = last ++ lineEnd :: more := by simpa [withEnds] using h
    obtain ⟨t, rest, hread, hrest⟩ := readLine_of_line hstart hend hfit
    refine ⟨t, rest, ?_, by simpa [withEnds] using hrest⟩
    rw [readReply_of_line hread, lineText_append_lineEnd]
    rcases hlast with hok | hrefused
    · simp only [ReplyLine.ofText_of_ok hok, outcomeOf, hok, if_true, List.map_nil]
    · have hok : (lineText last).toList ≠ okLine := by
        obtain ⟨tail, htail⟩ := hrefused
        rw [← htail]
        simp [refusalMark, okLine]
      simp only [ReplyLine.ofText_of_refusal hrefused, outcomeOf, hok, if_false]
  | cons line data ih =>
    obtain ⟨hend, hfit⟩ := hlines line (by simp)
    have hstart : arriving inbound = line ++ lineEnd :: (withEnds (data ++ [last]) ++ more) := by
      simpa [withEnds] using h
    obtain ⟨t, next, hread, hnext⟩ := readLine_of_line hstart hend hfit
    -- What is left after the first line begins with the rest of the reply.
    have hleft : arriving next = withEnds (data ++ [last]) ++ more := by
      have heq := hnext.arriving_eq
      rw [hstart] at heq
      simpa using heq.symm
    have hlines' : ∀ l ∈ last :: data, IsLine l := fun l hl => by
      rcases List.mem_cons.1 hl with rfl | hl
      · exact hlines l (by simp)
      · exact hlines l (by simp [hl])
    obtain ⟨s, rest, hreply, hrest⟩ :=
      ih hlines' (fun l hl => hdata l (List.mem_cons_of_mem _ hl)) hleft
    refine ⟨t + s, rest, ?_, by simpa [withEnds] using hnext.trans hrest⟩
    have hgoes : ReplyLine.ofText (lineText (line ++ [lineEnd])) = .data (lineText line) := by
      rw [lineText_append_lineEnd, ReplyLine.ofText_of_data (hdata line (by simp))]
    rw [readReply_of_line hread, hgoes]
    simp only [hreply, Wait.map_after, Wait.later_after, prepend_outcomeOf]

/-- A stream that begins with a reply gives what the reply says, and its octets are taken off. -/
theorem readReply_of_reply {inbound : List Action} {more : List UInt8} (r : Reply)
    (h : arriving inbound = r.octets ++ more) :
    ∃ t rest, readReply none inbound = .after t (r.outcome, rest) ∧
      Leaves inbound r.octets rest :=
  readReply_of_lines r.isLine r.data_goes_on r.last_ends h

/-- A reply never makes a connection useless. -/
theorem isLost_of_outcome {r : Reply} {error : RequestError} (h : r.outcome = .error error) :
    error.isLost = false := by
  unfold Reply.outcome outcomeOf at h
  split at h
  · cases h
  · cases h
    rfl

end PlayerWatch
