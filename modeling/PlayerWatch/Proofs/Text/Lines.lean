import PlayerWatch.Peer
import PlayerWatch.Proofs.Text.Trimming

/-!
# The text of a line

A line arrives as octets with its end behind them. The end belongs to no sequence of UTF-8 and is a
blank, so it changes nothing in the text of the line (`lineText_append_lineEnd`): what a line says can
be told from the octets before its end. A line that breaks off, perhaps within a character, begins with
no mark that the whole line does not begin with (`prefix_lineText_of_cut`).
-/

namespace PlayerWatch

namespace Text

/-! ### Decoding -/

/-- A sequence that has begun takes no octet of the ASCII range next. -/
def Partial.Proper (p : Partial) : Prop := 0x80 ≤ p.low

theorem proper_of_lead {b : Nat} {p : Partial} (h : lead b = .begins p) : p.Proper := by
  unfold lead at h
  unfold Partial.Proper
  repeat' split at h
  all_goals cases h
  all_goals simp

theorem lead_lineEnd : lead lineEnd.toNat = .scalar '\n' := rfl

/-- A line end is read as such wherever it comes: a sequence that it cuts off is broken. -/
theorem decodeFrom_append_lineEnd (bytes : List UInt8) (begun : Option Partial)
    (hbegun : ∀ p, begun = some p → p.Proper) :
    decodeFrom begun (bytes ++ [lineEnd]) = decodeFrom begun bytes ++ ['\n'] := by
  -- Each octet may begin or go on with a sequence, so the sequence that has begun has to be general.
  induction bytes generalizing begun with
  | nil =>
    cases begun with
    | none => simp [decodeFrom, lead_lineEnd]
    | some p =>
      have hlow : 0x80 ≤ p.low := hbegun p rfl
      have hout : ¬ p.low ≤ lineEnd.toNat := by
        have : lineEnd.toNat = 10 := rfl
        omega
      simp [decodeFrom, lead_lineEnd, hout]
  | cons b rest ih =>
    have hnone : ∀ p, (none : Option Partial) = some p → p.Proper := by simp
    have hlead : ∀ q, lead b.toNat = .begins q → ∀ p, some q = some p → p.Proper := by
      intro q hq p hp
      obtain rfl := by simpa using hp
      exact proper_of_lead hq
    cases begun with
    | none =>
      simp only [List.cons_append, decodeFrom]
      cases hb : lead b.toNat with
      | scalar c => simp [ih none hnone]
      | begins q => simp [ih (some q) (hlead q hb)]
      | broken => simp [ih none hnone]
    | some p =>
      simp only [List.cons_append, decodeFrom]
      split
      · split
        · simp [ih none hnone]
        · refine ih _ ?_
          intro q hq
          obtain rfl := by simpa using hq
          exact Nat.le_refl _
      · cases hb : lead b.toNat with
        | scalar c => simp [ih none hnone]
        | begins q => simp [ih (some q) (hlead q hb)]
        | broken => simp [ih none hnone]

theorem decodeLossy_append_lineEnd (bytes : List UInt8) :
    decodeLossy (bytes ++ [lineEnd]) = decodeLossy bytes ++ ['\n'] :=
  decodeFrom_append_lineEnd bytes none (by simp)

/-- More octets decode to more characters behind those that the first ones decode to, but a replacement
at the end of these, for a character that breaks off, may give way to the character. -/
theorem decodeFrom_append (bytes more : List UInt8) (begun : Option Partial) :
    ∃ shown begun', decodeFrom begun bytes = shown ++ decodeFrom begun' [] ∧
      decodeFrom begun (bytes ++ more) = shown ++ decodeFrom begun' more := by
  induction bytes generalizing begun with
  | nil => exact ⟨[], begun, rfl, rfl⟩
  | cons b rest ih =>
    -- An octet brings at most two characters, and then the rest goes on from what has begun.
    have hshown (cs : List Char) (next : Option Partial) :
        ∃ shown begun', cs ++ decodeFrom next rest = shown ++ decodeFrom begun' [] ∧
          cs ++ decodeFrom next (rest ++ more) = shown ++ decodeFrom begun' more := by
      obtain ⟨shown, begun', hcut, hwhole⟩ := ih next
      refine ⟨cs ++ shown, begun', ?_, ?_⟩
      · rw [hcut, List.append_assoc]
      · rw [hwhole, List.append_assoc]
    rw [List.cons_append]
    cases begun with
    | none =>
      simp only [decodeFrom]
      cases lead b.toNat with
      | scalar c => exact hshown [c] none
      | begins p => exact hshown [] (some p)
      | broken => exact hshown [replacement] none
    | some p =>
      simp only [decodeFrom]
      split
      · split
        · exact hshown [_] none
        · exact hshown [] (some _)
      · cases lead b.toNat with
        | scalar c => exact hshown [replacement, c] none
        | begins q => exact hshown [replacement] (some q)
        | broken => exact hshown [replacement, replacement] none

/-! ### Trimming -/

theorem dropBlanks_append_blank {b : Char} (hb : isBlank b = true) (cs : List Char) :
    dropBlanks (cs ++ [b]) = [] ∧ dropBlanks cs = [] ∨
      dropBlanks (cs ++ [b]) = dropBlanks cs ++ [b] := by
  induction cs with
  | nil => exact .inl ⟨by simp [dropBlanks, hb], rfl⟩
  | cons c rest ih =>
    by_cases hc : isBlank c = true
    · simpa [dropBlanks, hc] using ih
    · exact .inr (by simp [dropBlanks, hc])

/-- A blank behind a text does not show once the text is trimmed. -/
theorem trim_append_blank {b : Char} (hb : isBlank b = true) (cs : List Char) :
    trim (cs ++ [b]) = trim cs := by
  unfold trim
  rcases dropBlanks_append_blank hb cs with ⟨h, h'⟩ | h
  · rw [h, h']
  · -- Once the text is turned round, the blank is the first to be dropped.
    have hfirst : dropBlanks (b :: (dropBlanks cs).reverse) = dropBlanks (dropBlanks cs).reverse := by
      simp [dropBlanks, hb]
    rw [h, List.reverse_append, List.reverse_singleton, List.singleton_append, hfirst]

end Text

theorem lineText_append_lineEnd (bytes : List UInt8) :
    lineText (bytes ++ [lineEnd]) = lineText bytes := by
  unfold lineText
  rw [Text.decodeLossy_append_lineEnd, Text.trim_append_blank (by decide)]

/-! ### Lines that break off -/

/-- A line begins with each mark that a part of it begins with, unless the mark is made of blanks or holds
a replacement. -/
theorem prefix_lineText_of_cut {mark : List Char} {bytes : List UInt8} (hne : mark ≠ [])
    (hblank : ∀ c ∈ mark, Text.isBlank c = false) (hmark : Text.replacement ∉ mark)
    (h : mark <+: (lineText bytes).toList) (more : List UInt8) :
    mark <+: (lineText (bytes ++ more)).toList := by
  rw [lineText, String.toList_ofList, Text.prefix_trim_iff hblank] at h ⊢
  obtain ⟨shown, begun, hcut, hwhole⟩ := Text.decodeFrom_append bytes more none
  -- The replacement for a character that breaks off is no part of the mark.
  have hshown : mark <+: Text.dropBlanks shown := by
    rw [Text.decodeLossy, hcut] at h
    cases begun with
    | none => simpa [Text.decodeFrom] using h
    | some p =>
      rw [Text.decodeFrom, Text.dropBlanks_concat (by decide), List.prefix_concat_iff] at h
      refine h.resolve_left ?_
      rintro rfl
      simp at hmark
  have hsome : Text.dropBlanks shown ≠ [] := by
    intro hnil
    rw [hnil, List.prefix_nil] at hshown
    exact hne hshown
  rw [Text.decodeLossy, hwhole, Text.dropBlanks_append hsome]
  exact hshown.trans (List.prefix_append ..)

end PlayerWatch
