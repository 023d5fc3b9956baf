import PlayerWatch.Proofs.Json.Tokens

/-!
# Whole numbers read back

What is written of a whole number is read as that number: its digits denote it, a minus sign is read as
one, and every word is within its own range (`readInt32?_signedDecimal`, `readUnsigned?_decimal`).
-/

namespace PlayerWatch.Number

open Text Json

theorem readDigits?_toDigits (n : Nat) : readDigits? (Nat.toDigits 10 n) = some n := by
  have hdigits : (Nat.toDigits 10 n).all isDigit = true :=
    List.all_eq_true.2 isDigit_of_mem_toDigits
  rw [readDigits?, if_pos ⟨Nat.toDigits_ne_nil, hdigits⟩, ofDigits_toDigits]

/-- Only digits are written of a number. -/
theorem not_mem_toDigits {c : Char} (hc : isDigit c = false) (n : Nat) : c ∉ Nat.toDigits 10 n := by
  intro hmem
  rw [isDigit_of_mem_toDigits c hmem] at hc
  cases hc

theorem readNat?_toDigits (n : Nat) : readNat? (Nat.toDigits 10 n) = some n := by
  unfold readNat?
  split
  · next cs hcs =>
    have hplus : '+' ∈ Nat.toDigits 10 n := by rw [hcs]; exact List.mem_cons_self
    exact absurd hplus (not_mem_toDigits (by decide) n)
  · exact readDigits?_toDigits n

theorem readInt?_signedDecimal (n : Int) : readInt? (signedDecimal n).toList = some n := by
  cases n with
  | ofNat n =>
    rw [signedDecimal, decimal, String.toList_ofList]
    unfold readInt?
    split
    · next cs hcs =>
      have hminus : '-' ∈ Nat.toDigits 10 n := by rw [hcs]; exact List.mem_cons_self
      exact absurd hminus (not_mem_toDigits (by decide) n)
    · rw [readNat?_toDigits]
      rfl
  | negSucc n =>
    have hchars : (signedDecimal (.negSucc n)).toList = '-' :: Nat.toDigits 10 (n + 1) := by
      simp [signedDecimal, decimal]
    rw [hchars, readInt?, readDigits?_toDigits]
    rfl

/-- **A signed word is read back as it was written.** -/
theorem readInt32?_signedDecimal (n : Int32) : readInt32? (signedDecimal n.toInt) = some n := by
  rw [readInt32?, readSigned?, readInt?_signedDecimal, Option.filter_some, if_pos (isSigned_toInt n),
    Option.map_some, Int32.ofInt_toInt]

theorem readUnsigned?_decimal {bits n : Nat} (h : n < twoTo bits) :
    readUnsigned? bits (decimal n) = some n := by
  rw [readUnsigned?, decimal, String.toList_ofList, readNat?_toDigits, Option.filter_some,
    if_pos (decide_eq_true h)]

/-- **An unsigned word of 32 bits is read back as it was written.** -/
theorem readUInt32?_decimal (n : UInt32) : readUInt32? (decimal n.toNat) = some n := by
  rw [readUInt32?, readUnsigned?_decimal n.toNat_lt, Option.map_some, UInt32.ofNat_toNat]

/-- **An unsigned word of 16 bits is read back as it was written.** -/
theorem readUInt16?_decimal (n : UInt16) : readUInt16? (decimal n.toNat) = some n := by
  rw [readUInt16?, readUnsigned?_decimal n.toNat_lt, Option.map_some, UInt16.ofNat_toNat]

end PlayerWatch.Number
