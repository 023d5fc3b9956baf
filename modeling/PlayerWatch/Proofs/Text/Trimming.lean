import Mathlib.Data.List.DropRight
import PlayerWatch.Text.Blank

/-!
# Trimming

Blanks are dropped from the front of a text and then from its end, and the two do not meet as long as
there is a character between them. So what a text begins with behind its leading blanks is still there
once it is trimmed (`prefix_trim_iff`).
-/

namespace PlayerWatch.Text

theorem trim_eq (cs : List Char) : trim cs = (dropBlanks cs).rdropWhile isBlank := rfl

/-- Blanks are dropped from the end no further than to a character that is none. -/
theorem rdropWhile_append {front : List Char} (hfront : ∀ c ∈ front, isBlank c = false)
    (back : List Char) :
    (front ++ back).rdropWhile isBlank = front ++ back.rdropWhile isBlank := by
  induction back using List.reverseRecOn with
  | nil =>
    rw [List.append_nil, List.rdropWhile_nil, List.append_nil]
    refine List.rdropWhile_eq_self_iff.2 fun hne => ?_
    simp [hfront _ (List.getLast_mem hne)]
  | append_singleton back c ih =>
    rw [← List.append_assoc, List.rdropWhile_concat, List.rdropWhile_concat]
    split
    · exact ih
    · rw [List.append_assoc]

/-- A blank goes with the blanks behind it. -/
theorem rdropWhile_blank {b : Char} (hb : isBlank b = true) (cs : List Char) :
    (b :: cs).rdropWhile isBlank =
      if cs.rdropWhile isBlank = [] then [] else b :: cs.rdropWhile isBlank := by
  induction cs using List.reverseRecOn with
  | nil => simp [List.rdropWhile, hb]
  | append_singleton cs c ih =>
    rw [← List.cons_append, List.rdropWhile_concat, List.rdropWhile_concat]
    split
    · exact ih
    · simp

theorem dropBlanks_eq_self {c : Char} (h : isBlank c = false) (cs : List Char) :
    dropBlanks (c :: cs) = c :: cs := by
  simp [dropBlanks, h]

theorem dropBlanks_append {cs : List Char} (h : dropBlanks cs ≠ []) (more : List Char) :
    dropBlanks (cs ++ more) = dropBlanks cs ++ more := by
  unfold dropBlanks at *
  rw [List.dropWhile_append]
  simp [h]

theorem dropBlanks_concat {c : Char} (h : isBlank c = false) (cs : List Char) :
    dropBlanks (cs ++ [c]) = dropBlanks cs ++ [c] := by
  by_cases hcs : dropBlanks cs = []
  · unfold dropBlanks at *
    rw [List.dropWhile_append]
    simp [hcs, h]
  · exact dropBlanks_append hcs [c]

/-- What a text begins with behind its leading blanks, it begins with once it is trimmed. -/
theorem prefix_trim_iff {mark cs : List Char} (hmark : ∀ c ∈ mark, isBlank c = false) :
    mark <+: trim cs ↔ mark <+: dropBlanks cs := by
  rw [trim_eq]
  constructor
  · intro h
    exact h.trans (List.rdropWhile_prefix ..)
  · rintro ⟨back, hback⟩
    rw [← hback, rdropWhile_append hmark]
    exact List.prefix_append ..

end PlayerWatch.Text
