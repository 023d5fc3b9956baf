import Mathlib.Data.List.TakeWhile
import PlayerWatch.Settings.Sources

/-!
# Whole numbers in variables

The text of a variable becomes a truth value, a number or a text. A decimal number becomes a whole
number if it fits a word with a sign, and from 2⁶³ on the nearest double (`valueOfText_of_whole`).
-/

namespace PlayerWatch.Settings

open Text Number

/-- The whole number from zero to `2 ^ bits - 1` that a text stands for. -/
def wholeOfText? (bits : Nat) (s : String) : Option Nat :=
  (readInt? s.toList).bind fun n => if 0 ≤ n ∧ n < twoTo bits then some n.toNat else none

theorem wholeOfText?_eq_some {bits n : Nat} {s : String} (h : wholeOfText? bits s = some n) :
    readInt? s.toList = some (n : Int) ∧ n < twoTo bits := by
  obtain ⟨m, hread, hm⟩ := Option.bind_eq_some_iff.1 h
  split at hm
  · next hrange =>
    obtain rfl := Option.some.inj hm
    have hm : (m.toNat : Int) = m := Int.toNat_of_nonneg hrange.1
    rw [hm]
    exact ⟨hread, by omega⟩
  · cases hm

/-! ### Digits -/

theorem readDigits?_eq_some {cs : List Char} {n : Nat} (h : readDigits? cs = some n) :
    cs ≠ [] ∧ (∀ c ∈ cs, isDigit c = true) ∧ n = ofDigits 10 (cs.map digitValue) := by
  unfold readDigits? at h
  split at h
  · next hdigits =>
    exact ⟨hdigits.1, List.all_eq_true.1 hdigits.2, (Option.some.inj h).symm⟩
  · cases h

/-- A digit is no letter. -/
theorem lowerChar_of_isDigit {c : Char} (h : isDigit c = true) : lowerChar c = c := by
  unfold lowerChar
  apply if_neg
  rintro ⟨hupper, -⟩
  simp only [isDigit, Bool.and_eq_true, decide_eq_true_eq] at h
  exact absurd (Char.le_trans hupper h.2) (by decide)

theorem ne_of_isDigit {c d : Char} (h : isDigit c = true) (hd : isDigit d = false) : c ≠ d := by
  rintro rfl
  rw [h] at hd
  cases hd

/-- What begins with a digit is not the lower-case form of a word. -/
theorem map_lowerChar_ne {c : Char} {cs : List Char} (h : isDigit c = true) {w : Char}
    {word : List Char} (hw : isDigit w = false) : (c :: cs).map lowerChar ≠ w :: word := by
  rw [List.map_cons, lowerChar_of_isDigit h]
  intro hword
  exact ne_of_isDigit h hw (List.cons.inj hword).1

theorem readMagnitude?_of_digits {cs : List Char} {n : Nat} (h : readDigits? cs = some n) :
    readMagnitude? cs = some (n, 0) := by
  obtain ⟨hne, hdigits, rfl⟩ := readDigits?_eq_some h
  unfold readMagnitude?
  rw [List.takeWhile_eq_self_iff.2 hdigits, List.dropWhile_eq_nil_iff.2 hdigits]
  have hempty : cs.isEmpty = false := by simpa using hne
  simp [hempty]

/-! ### Numbers -/

/-- Where there is no minus sign, a number is its digits behind an optional plus sign. -/
theorem readDigits?_of_readInt? {cs : List Char} {n : Nat} (h : readInt? cs = some (n : Int))
    (hpos : 0 < n) :
    readDigits? cs = some n ∨ ∃ digits, cs = '+' :: digits ∧ readDigits? digits = some n := by
  unfold readInt? at h
  split at h
  · next digits =>
    cases hdigits : readDigits? digits with
    | none =>
      rw [hdigits] at h
      cases h
    | some m =>
      rw [hdigits] at h
      have hm : -(m : Int) = n := Option.some.inj h
      omega
  · obtain ⟨m, hm, hcast⟩ := Option.map_eq_some_iff.1 h
    obtain rfl : m = n := Int.ofNat.inj hcast
    unfold readNat? at hm
    split at hm
    · next digits _ => exact .inr ⟨digits, rfl, hm⟩
    · exact .inl hm

/-- A number begins with a digit or a sign. -/
theorem head_of_readInt? {cs : List Char} {n : Int} (h : readInt? cs = some n) :
    ∃ c rest, cs = c :: rest ∧ (isDigit c = true ∨ c = '-' ∨ c = '+') := by
  have first {digits : List Char} {m : Nat} (hm : readDigits? digits = some m) :
      ∃ c rest, digits = c :: rest ∧ isDigit c = true := by
    obtain ⟨hne, hdigits, -⟩ := readDigits?_eq_some hm
    obtain ⟨c, rest, rfl⟩ := List.exists_cons_of_ne_nil hne
    exact ⟨c, rest, rfl, hdigits c List.mem_cons_self⟩
  unfold readInt? at h
  split at h
  · next rest => exact ⟨'-', rest, rfl, .inr (.inl rfl)⟩
  · obtain ⟨m, hm, -⟩ := Option.map_eq_some_iff.1 h
    unfold readNat? at hm
    split at hm
    · next rest _ => exact ⟨'+', rest, rfl, .inr (.inr rfl)⟩
    · obtain ⟨c, rest, hcs, hc⟩ := first hm
      exact ⟨c, rest, hcs, .inl hc⟩

/-- A number is no truth value. -/
theorem lower_ne_of_readInt? {s : String} {n : Int} (h : readInt? s.toList = some n) :
    lower s ≠ "true" ∧ lower s ≠ "false" := by
  obtain ⟨c, rest, hs, hc⟩ := head_of_readInt? h
  have hlower : (lower s).toList = lowerChar c :: rest.map lowerChar := by
    rw [lower, String.toList_ofList, hs, List.map_cons]
  have hletter : lowerChar c ≠ 't' ∧ lowerChar c ≠ 'f' := by
    rcases hc with hc | rfl | rfl
    · rw [lowerChar_of_isDigit hc]
      exact ⟨ne_of_isDigit hc rfl, ne_of_isDigit hc rfl⟩
    · decide
    · decide
  constructor
  · intro hword
    rw [hword] at hlower
    exact hletter.1 (List.cons.inj hlower).1.symm
  · intro hword
    rw [hword] at hlower
    exact hletter.2 (List.cons.inj hlower).1.symm

/-- Digits are the real number nearest to them. -/
theorem readReal?_of_digits {cs digits : List Char} {n : Nat} {s : String} (hs : s.toList = cs)
    (hsign : splitSign cs = (false, digits)) (h : readDigits? digits = some n) :
    readReal? s = some (nearest n 0) := by
  obtain ⟨hne, hdigits, -⟩ := readDigits?_eq_some h
  obtain ⟨c, rest, rfl⟩ := List.exists_cons_of_ne_nil hne
  have hc : isDigit c = true := hdigits c List.mem_cons_self
  have hword {w : Char} {word : List Char} (hw : isDigit w = false) :
      String.ofList ((c :: rest).map lowerChar) ≠ String.ofList (w :: word) := by
    intro heq
    exact map_lowerChar_ne hc hw (String.ofList_injective heq)
  have hinf : ¬ (String.ofList ((c :: rest).map lowerChar) = "inf" ∨
      String.ofList ((c :: rest).map lowerChar) = "infinity") := by
    rintro (heq | heq)
    · exact hword (by decide) heq
    · exact hword (by decide) heq
  have hnan : String.ofList ((c :: rest).map lowerChar) ≠ "nan" := hword (by decide)
  unfold readReal?
  rw [hs, hsign]
  dsimp only
  rw [if_neg hinf, if_neg hnan, readMagnitude?_of_digits h]
  rfl

theorem readReal?_of_readInt? {s : String} {n : Nat} (h : readInt? s.toList = some (n : Int))
    (hpos : 0 < n) : readReal? s = some (nearest n 0) := by
  rcases readDigits?_of_readInt? h hpos with hdigits | ⟨digits, hs, hdigits⟩
  · refine readReal?_of_digits rfl ?_ hdigits
    obtain ⟨hne, hall, -⟩ := readDigits?_eq_some hdigits
    obtain ⟨c, rest, hs⟩ := List.exists_cons_of_ne_nil hne
    have hc : isDigit c = true := hall c (hs ▸ List.mem_cons_self)
    rw [hs]
    unfold splitSign
    split
    · next heq => exact absurd (List.cons.inj heq).1 (ne_of_isDigit hc rfl)
    · next heq => exact absurd (List.cons.inj heq).1 (ne_of_isDigit hc rfl)
    · rfl
  · exact readReal?_of_digits hs rfl hdigits

/-- **What a decimal number in a variable becomes.** -/
theorem valueOfText_of_whole {s : String} {n : Nat} (h : readInt? s.toList = some (n : Int)) :
    Source.valueOfText s = if n < twoTo 63 then .integer n else .real (nearest n 0) := by
  obtain ⟨htrue, hfalse⟩ := lower_ne_of_readInt? h
  unfold Source.valueOfText readSigned?
  rw [if_neg htrue, if_neg hfalse, h]
  by_cases hn : n < twoTo 63
  · have hsigned : isSigned 64 (n : Int) = true := by
      simp only [isSigned, decide_eq_true_eq]
      constructor
      · have hzero : -(twoTo (64 - 1) : Int) ≤ 0 := by decide
        omega
      · exact Int.ofNat_lt.2 hn
    rw [if_pos hn, Option.filter_some, if_pos hsigned]
  · have hsigned : isSigned 64 (n : Int) = false := by
      simp only [isSigned, decide_eq_false_iff_not]
      rintro ⟨-, hlt⟩
      exact hn (Int.ofNat_lt.1 hlt)
    have hpos : 0 < n := Nat.lt_of_lt_of_le (by decide) (Nat.not_lt.1 hn)
    rw [if_neg hn, Option.filter_some, if_neg (by simp [hsigned]), readReal?_of_readInt? h hpos]

end PlayerWatch.Settings
