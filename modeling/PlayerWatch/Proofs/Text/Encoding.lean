import Mathlib.Tactic.IntervalCases
import PlayerWatch.Proofs.Text.Lines

/-!
# Encoding and decoding

What is sent as text is read as the same text: decoding gives back every character of what was encoded
and puts no replacement anywhere (`decodeLossy_encode`). The step is one character
(`decodeFrom_encodeChar`), by the number of its octets; the first of them says how many follow and
narrows the range of the second (`lead_of_two`, `lead_of_three`, `lead_of_four`). So a text without a
line end is sent as a line without one (`lineEnd_not_mem_encode`).
-/

namespace PlayerWatch.Text

/-! ### Octets of a text -/

theorem toList_loop (bytes : ByteArray) (i : Nat) (got : List UInt8) :
    ByteArray.toList.loop bytes i got = got.reverse ++ bytes.data.toList.drop i := by
  fun_induction ByteArray.toList.loop bytes i got with
  | case1 i got hi ih =>
    have hi' : i < bytes.data.toList.length := by simpa using hi
    rw [ih, List.drop_eq_getElem_cons hi']
    simp [ByteArray.get!, hi]
  | case2 i got hi =>
    rw [List.drop_eq_nil_of_le (by simpa using Nat.le_of_not_lt hi), List.append_nil]

theorem encode_eq (s : String) : encode s = s.toList.flatMap String.utf8EncodeChar := by
  rw [encode, ByteArray.toList, toList_loop, String.toUTF8_eq_toByteArray, ← String.utf8Encode_toList,
    List.utf8Encode]
  simp

theorem encode_append (s t : String) : encode (s ++ t) = encode s ++ encode t := by
  rw [encode_eq, encode_eq, encode_eq, String.toList_append, List.flatMap_append]

/-! ### First octets -/

theorem lead_of_one {v : Nat} (h : v ≤ 0x7F) : lead v = .scalar (Char.ofNat v) := by
  rw [lead, if_pos h]

theorem lead_of_two {n : Nat} (hlow : 2 ≤ n) (hhigh : n < 32) :
    lead (n + 0xC0) = .begins ⟨1, 0x80, 0xBF, n⟩ := by
  interval_cases n <;> rfl

theorem lead_of_three {n : Nat} (h : n < 16) :
    lead (n + 0xE0) =
      .begins ⟨2, if n = 0 then 0xA0 else 0x80, if n = 13 then 0x9F else 0xBF, n⟩ := by
  interval_cases n <;> rfl

theorem lead_of_four {n : Nat} (h : n < 5) :
    lead (n + 0xF0) =
      .begins ⟨3, if n = 0 then 0x90 else 0x80, if n = 4 then 0x8F else 0xBF, n⟩ := by
  interval_cases n <;> rfl

/-! ### One character -/

theorem toNat_octet {n : Nat} (h : n < 256) : (UInt8.ofNat n).toNat = n := by
  rw [UInt8.toNat_ofNat', Nat.mod_eq_of_lt h]

theorem decodeFrom_begins {n : Nat} {p : Partial} (hn : n < 256) (h : lead n = .begins p)
    (rest : List UInt8) :
    decodeFrom none (UInt8.ofNat n :: rest) = decodeFrom (some p) rest := by
  rw [decodeFrom, toNat_octet hn, h]

section Following

variable {low high value n : Nat}

/-- An octet within the range brings six more bits. -/
theorem decodeFrom_goesOn (owed : Nat) (hn : n < 64) (hlow : low ≤ n + 0x80) (hhigh : n + 0x80 ≤ high)
    (rest : List UInt8) :
    decodeFrom (some ⟨owed + 2, low, high, value⟩) (UInt8.ofNat (n + 0x80) :: rest) =
      decodeFrom (some ⟨owed + 1, 0x80, 0xBF, value * 64 + n⟩) rest := by
  have hoctet : (n + 0x80) % 256 = n + 0x80 := by omega
  have hbits : (n + 0x80) % 64 = n := by omega
  simp [decodeFrom, hoctet, hlow, hhigh, hbits]

/-- The last octet completes the character. -/
theorem decodeFrom_ends (hn : n < 64) (hlow : low ≤ n + 0x80) (hhigh : n + 0x80 ≤ high)
    (rest : List UInt8) :
    decodeFrom (some ⟨1, low, high, value⟩) (UInt8.ofNat (n + 0x80) :: rest) =
      Char.ofNat (value * 64 + n) :: decodeFrom none rest := by
  have hoctet : (n + 0x80) % 256 = n + 0x80 := by omega
  have hbits : (n + 0x80) % 64 = n := by omega
  simp [decodeFrom, hoctet, hlow, hhigh, hbits]

end Following

/-- The octets of a character are read as that character, whatever follows. -/
theorem decodeFrom_encodeChar (c : Char) (rest : List UInt8) :
    decodeFrom none (String.utf8EncodeChar c ++ rest) = c :: decodeFrom none rest := by
  have hchar : Char.ofNat c.val.toNat = c := Char.ofNat_toNat c
  have hvalid : c.val.toNat < 0xD800 ∨ 0xDFFF < c.val.toNat ∧ c.val.toNat < 0x110000 := c.valid
  unfold String.utf8EncodeChar
  generalize c.val.toNat = v at hchar hvalid ⊢
  subst hchar
  dsimp only
  split_ifs with hone htwo hthree
  · rw [List.singleton_append, decodeFrom, toNat_octet (by omega), lead_of_one hone]
  · have hvalue : v / 64 % 32 * 64 + v % 64 = v := by omega
    rw [List.cons_append, List.singleton_append,
      decodeFrom_begins (by omega) (lead_of_two (by omega) (by omega)),
      decodeFrom_ends (by omega) (by omega) (by omega), hvalue]
  · have hvalue : (v / 4096 % 16 * 64 + v / 64 % 64) * 64 + v % 64 = v := by omega
    -- The second octet keeps out what two octets hold and the surrogates.
    have hlow : (if v / 4096 % 16 = 0 then 0xA0 else 0x80) ≤ v / 64 % 64 + 0x80 := by
      split <;> omega
    have hhigh : v / 64 % 64 + 0x80 ≤ if v / 4096 % 16 = 13 then 0x9F else 0xBF := by
      split <;> omega
    rw [List.cons_append, List.cons_append, List.singleton_append,
      decodeFrom_begins (by omega) (lead_of_three (by omega)),
      decodeFrom_goesOn 0 (by omega) hlow hhigh,
      decodeFrom_ends (by omega) (by omega) (by omega), hvalue]
  · have hvalue : ((v / 262144 % 8 * 64 + v / 4096 % 64) * 64 + v / 64 % 64) * 64 + v % 64 = v := by
      omega
    -- The second octet keeps out what three octets hold and what is no code point.
    have hlow : (if v / 262144 % 8 = 0 then 0x90 else 0x80) ≤ v / 4096 % 64 + 0x80 := by
      split <;> omega
    have hhigh : v / 4096 % 64 + 0x80 ≤ if v / 262144 % 8 = 4 then 0x8F else 0xBF := by
      split <;> omega
    rw [List.cons_append, List.cons_append, List.cons_append, List.singleton_append,
      decodeFrom_begins (by omega) (lead_of_four (by omega)),
      decodeFrom_goesOn 1 (by omega) hlow hhigh,
      decodeFrom_goesOn 0 (by omega) (by omega) (by omega),
      decodeFrom_ends (by omega) (by omega) (by omega), hvalue]

/-! ### Texts -/

theorem decodeLossy_encode (s : String) : decodeLossy (encode s) = s.toList := by
  have hall (cs : List Char) : decodeFrom none (cs.flatMap String.utf8EncodeChar) = cs := by
    induction cs with
    | nil => rfl
    | cons c cs ih => rw [List.flatMap_cons, decodeFrom_encodeChar, ih]
  rw [encode_eq, decodeLossy, hall]

/-- Only a line end is sent as one. -/
theorem lineEnd_mem_encodeChar {c : Char} (h : lineEnd ∈ String.utf8EncodeChar c) : c = '\n' := by
  -- All octets of a longer sequence lie above the ASCII range.
  have hother {n : Nat} (hlow : 0x80 ≤ n) (hhigh : n < 256) : lineEnd ≠ UInt8.ofNat n := by
    intro heq
    have hvalue : lineEnd.toNat = n := by rw [heq, toNat_octet hhigh]
    have hend : lineEnd.toNat = 10 := rfl
    omega
  unfold String.utf8EncodeChar at h
  dsimp only at h
  split_ifs at h
  · have hvalue : lineEnd.toNat = c.val.toNat := by
      rw [List.mem_singleton.1 h, toNat_octet (by omega)]
    exact Char.ext (UInt32.toNat_inj.1 hvalue.symm)
  all_goals
    simp only [List.mem_cons, List.not_mem_nil, or_false] at h
    exfalso
  · rcases h with h | h <;> exact hother (by omega) (by omega) h
  · rcases h with h | h | h <;> exact hother (by omega) (by omega) h
  · rcases h with h | h | h | h <;> exact hother (by omega) (by omega) h

theorem lineEnd_not_mem_encode {s : String} (h : '\n' ∉ s.toList) : lineEnd ∉ encode s := by
  rw [encode_eq, List.mem_flatMap]
  rintro ⟨c, hc, hend⟩
  exact h (lineEnd_mem_encodeChar hend ▸ hc)

end PlayerWatch.Text

namespace PlayerWatch

/-- What is sent as a line is read as its text without the blanks on either side. -/
theorem lineText_encode (s : String) : lineText (Text.encode s) = Text.trimmed s := by
  rw [lineText, Text.decodeLossy_encode, Text.trimmed]

end PlayerWatch
