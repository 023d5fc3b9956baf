import Mathlib.Tactic.FinCases
import PlayerWatch.Json.Fields
import PlayerWatch.Json.Writer

/-!
# Strings and numbers read back

What is written of a string is read back as that string, whatever characters it has
(`readString_escaped`): each one is written so that it is read as one piece, and no piece is half of a
pair. A numeral in the form that JSON has for numbers is read back as it stands (`readNumber_written`),
whatever follows that could not go on in it.
-/

namespace PlayerWatch.Json

open Number Text

/-! ### Strings -/

/-- The control characters that are escaped by a letter. -/
def lettered : List Char := ['\x08', '\t', '\n', '\x0c', '\r']

/-- What is read of a character: other control characters are escaped by their number. -/
def pieceOf (c : Char) : Piece :=
  if c.toNat < 0x20 ∧ c ∉ lettered then .unit c.toNat else .char c

theorem hexValue?_hexDigit {n : Nat} (h : n < 16) : hexValue? (hexDigit n) = some n := by
  revert n
  decide

/-- A control character by its number. -/
theorem readUnit_hexDigit {n : Nat} (h : n < 0x20) (rest : List Char) :
    readUnit ('0' :: '0' :: hexDigit (n / 16) :: hexDigit (n % 16) :: rest) = .ok (n, rest) := by
  have hhigh := hexValue?_hexDigit (n := n / 16) (by omega)
  have hlow := hexValue?_hexDigit (n := n % 16) (by omega)
  have hzero : hexValue? '0' = some 0 := by decide
  simp only [readUnit, hhigh, hlow, hzero]
  have hsum : ofDigits 16 [0, 0, n / 16, n % 16] = n := by
    simp only [ofDigits, List.foldl]
    omega
  rw [hsum]

/-- What is written of a character is read as one piece. -/
theorem readPieces_escapedChar (c : Char) (steps : Nat) (rest : List Char) :
    readPieces (steps + 1) (escapedChar c ++ rest) =
      (pieceOf c :: (readPieces steps rest).1, (readPieces steps rest).2) := by
  by_cases hletter : c ∈ ['"', '\\', '\x08', '\t', '\n', '\x0c', '\r']
  · fin_cases hletter <;> rfl
  obtain ⟨hquote, hslash, hplain⟩ : c ≠ '"' ∧ c ≠ '\\' ∧ c ∉ lettered := by
    simpa [lettered] using hletter
  by_cases hcontrol : c.toNat < 0x20
  · have hpiece : pieceOf c = .unit c.toNat := if_pos ⟨hcontrol, hplain⟩
    have hwritten : escapedChar c =
        ['\\', 'u', '0', '0', hexDigit (c.toNat / 16), hexDigit (c.toNat % 16)] := by
      simp_all [escapedChar, lettered]
    rw [hpiece, hwritten]
    simp only [List.cons_append, List.nil_append]
    rw [readPieces]
    simp [readUnit_hexDigit hcontrol]
  · have hpiece : pieceOf c = .char c := if_neg fun h => hcontrol h.1
    have hwritten : escapedChar c = [c] := by simp_all [escapedChar, lettered]
    rw [hpiece, hwritten, List.singleton_append, readPieces.eq_def]
    simp [hquote, hslash, hcontrol]

/-- A unit that is no half of a pair is a character. -/
theorem textOfPieces_unit {n : Nat} (h : n < 0xD800) (pieces : List Piece) :
    textOfPieces (.unit n :: pieces) =
      (Char.ofNat n :: (textOfPieces pieces).1, (textOfPieces pieces).2) := by
  have hhigh : isHigh n = false := by simp [isHigh]; omega
  have hlow : isLow n = false := by simp [isLow]; omega
  cases pieces with
  | nil => simp [textOfPieces, hhigh, hlow]
  | cons piece pieces => cases piece <;> simp [textOfPieces, hhigh, hlow]

theorem textOfPieces_pieceOf (cs : List Char) : textOfPieces (cs.map pieceOf) = (cs, none) := by
  induction cs with
  | nil => rfl
  | cons c cs ih =>
    rw [List.map_cons, pieceOf]
    split
    · next hcontrol =>
      rw [textOfPieces_unit (by omega), ih, Char.ofNat_toNat]
    · rw [textOfPieces, ih]

theorem readPieces_escaped (cs rest : List Char) {steps : Nat} (h : cs.length < steps) :
    readPieces steps (cs.flatMap escapedChar ++ '"' :: rest) = (cs.map pieceOf, .ok rest) := by
  induction cs generalizing steps with
  | nil =>
    obtain ⟨steps, rfl⟩ := Nat.exists_eq_add_of_lt h
    rfl
  | cons c cs ih =>
    obtain ⟨steps, rfl⟩ : ∃ more, steps = more + 1 := ⟨steps - 1, by omega⟩
    rw [List.flatMap_cons, List.append_assoc, readPieces_escapedChar, ih (by simpa using h)]
    rfl

/-- What is written of a character is not nothing. -/
theorem length_escapedChar (c : Char) : 1 ≤ (escapedChar c).length := by
  unfold escapedChar
  repeat' split
  all_goals simp

theorem length_le_escaped (cs : List Char) : cs.length ≤ (cs.flatMap escapedChar).length := by
  induction cs with
  | nil => exact Nat.le_refl 0
  | cons c cs ih =>
    have hone := length_escapedChar c
    rw [List.flatMap_cons, List.length_append, List.length_cons]
    omega

/-- **A string is read back as it was**, whatever characters it has. -/
theorem readString_escaped (s : String) (rest : List Char) :
    readString (s.toList.flatMap escapedChar ++ '"' :: rest) = (.string (some s), some rest) := by
  have hsteps : s.toList.length < (s.toList.flatMap escapedChar ++ '"' :: rest).length + 1 := by
    have hle := length_le_escaped s.toList
    rw [List.length_append]
    omega
  rw [readString, readPieces_escaped s.toList rest hsteps]
  simp only [textOfPieces_pieceOf, String.ofList_toList]

/-! ### Digits -/

/-- The text goes on with nothing that could belong to a number. -/
def EndsNumber (rest : List Char) : Prop :=
  ∀ c, rest.head? = some c → isDigit c = false ∧ c ≠ '.' ∧ c ≠ 'e' ∧ c ≠ 'E'

theorem isDigit_digitChar {d : Nat} (h : d < 10) : isDigit (Nat.digitChar d) = true := by
  revert d
  decide

theorem digitValue_digitChar {d : Nat} (h : d < 10) : digitValue (Nat.digitChar d) = d := by
  revert d
  decide

theorem map_digitValue {ds : List Nat} (h : ∀ d ∈ ds, d < 10) :
    (Numeral.digitChars ds).map digitValue = ds := by
  rw [Numeral.digitChars, List.map_map]
  conv_rhs => rw [← List.map_id ds]
  apply List.map_congr_left
  intro d hd
  exact digitValue_digitChar (h d hd)

/-- The digits in front of a text that goes on with something else. -/
theorem span_digits {ds rest : List Char} (hds : ∀ c ∈ ds, isDigit c = true)
    (hrest : ∀ c, rest.head? = some c → isDigit c = false) :
    (ds ++ rest).takeWhile isDigit = ds ∧ (ds ++ rest).dropWhile isDigit = rest := by
  rw [List.takeWhile_append_of_pos hds, List.dropWhile_append_of_pos hds]
  cases rest with
  | nil => simp
  | cons c rest =>
    have hc := hrest c rfl
    simp [hc]

theorem isDigit_of_mem_digitChars {ds : List Nat} (h : ∀ d ∈ ds, d < 10) :
    ∀ c ∈ Numeral.digitChars ds, isDigit c = true := by
  intro c hc
  obtain ⟨d, hd, rfl⟩ := List.mem_map.1 hc
  exact isDigit_digitChar (h d hd)

theorem isDigit_of_mem_toDigits {n : Nat} : ∀ c ∈ Nat.toDigits 10 n, isDigit c = true := by
  intro c hc
  have hdigit := Nat.isDigit_of_mem_toDigits (by decide) (by decide) hc
  simpa [Char.isDigit, isDigit, Char.le_def] using hdigit

/-- A whole number is what its digits denote. -/
theorem ofDigits_toDigits (n : Nat) : ofDigits 10 ((Nat.toDigits 10 n).map digitValue) = n := by
  have hn := Nat.ofDigitChars_ten_toDigits (n := n)
  rw [Nat.ofDigitChars_eq_foldl] at hn
  rw [ofDigits, List.foldl_map]
  exact hn

/-! ### Numbers -/

/-- A numeral in the form that numbers have: digits, of which a zero stands in front only if it is the
only one before the point. -/
structure WellWritten (n : Numeral) : Prop where
  begun : n.whole ≠ []
  whole : ∀ d ∈ n.whole, d < 10
  fraction : ∀ d ∈ n.fraction, d < 10
  lead : ∀ rest, n.whole = 0 :: rest → rest = []

def exponentPart (e : Option Int) : List Char :=
  match e with
  | none => []
  | some e => 'e' :: Numeral.exponentChars e

theorem readExponent_exponentPart (n : Numeral) {rest : List Char} (h : EndsNumber rest) :
    readExponent { n with exponent := none } (exponentPart n.exponent ++ rest) =
      (.number n, some rest) := by
  cases hexp : n.exponent with
  | none =>
    have hn : ({ n with exponent := none } : Numeral) = n := by rw [← hexp]
    rw [hn]
    cases rest with
    | nil => rfl
    | cons c rest =>
      obtain ⟨-, -, he, hE⟩ := h c rfl
      simp [exponentPart, readExponent, he, hE]
  | some e =>
    obtain ⟨hdigits, hrest⟩ :=
      span_digits (isDigit_of_mem_toDigits (n := e.natAbs)) fun c hc => (h c hc).1
    have hsome : (Nat.toDigits 10 e.natAbs).isEmpty = false := by simp [Nat.toDigits_ne_nil]
    have hn : ({ n with exponent := some e } : Numeral) = n := by rw [← hexp]
    have hread : readExponent { n with exponent := none } (exponentPart (some e) ++ rest) =
        (.number { n with exponent := some (if e < 0 then -(e.natAbs : Int) else e.natAbs) },
          some rest) := by
      by_cases hsign : e < 0 <;>
        simp [exponentPart, Numeral.exponentChars, hsign, readExponent, hdigits, hrest, hsome,
          ofDigits_toDigits]
    have hsign : (if e < 0 then -(e.natAbs : Int) else e.natAbs) = e := by split <;> omega
    rw [hread, hsign, hn]

/-- A point with digits behind it, or nothing. -/
def fractionPart (digits : List Nat) : List Char :=
  if digits.isEmpty then [] else '.' :: Numeral.digitChars digits

theorem head_exponentPart {e : Option Int} {rest : List Char} (h : EndsNumber rest) :
    ∀ c, (exponentPart e ++ rest).head? = some c → isDigit c = false ∧ c ≠ '.' := by
  intro c hc
  cases e with
  | none => exact ⟨(h c hc).1, (h c hc).2.1⟩
  | some e =>
    obtain rfl := Option.some.inj hc
    decide

theorem readFraction_fractionPart (n : Numeral) (hfraction : ∀ d ∈ n.fraction, d < 10)
    {rest : List Char} (h : EndsNumber rest) :
    readFraction { n with fraction := [], exponent := none }
      (fractionPart n.fraction ++ (exponentPart n.exponent ++ rest)) = (.number n, some rest) := by
  have hhead := head_exponentPart (e := n.exponent) h
  have hexponent := readExponent_exponentPart n h
  unfold fractionPart
  split
  · next hempty =>
    have hn : ({ n with fraction := [], exponent := none } : Numeral) =
        { n with exponent := none } := by
      rw [List.isEmpty_iff.1 hempty]
    rw [List.nil_append, hn, ← hexponent]
    unfold readFraction
    split
    · next cs hpoint => exact absurd rfl (hhead '.' (by rw [hpoint]; rfl)).2
    · rfl
  · next hsome =>
    obtain ⟨hdigits, hrest⟩ :=
      span_digits (isDigit_of_mem_digitChars hfraction) fun c hc => (hhead c hc).1
    have hsome' : (Numeral.digitChars n.fraction).isEmpty = false := by
      simpa [Numeral.digitChars] using hsome
    rw [List.cons_append, readFraction, hdigits, hrest]
    simp only [hsome', map_digitValue hfraction]
    exact hexponent

/-- **A number is read back as it was written.** -/
theorem readNumber_written {n : Numeral} (hn : WellWritten n) {rest : List Char}
    (h : EndsNumber rest) :
    readNumber n.negative (Numeral.digitChars n.whole ++
      (fractionPart n.fraction ++ (exponentPart n.exponent ++ rest))) = (.number n, some rest) := by
  have hhead : ∀ c, (fractionPart n.fraction ++ (exponentPart n.exponent ++ rest)).head? = some c →
      isDigit c = false := by
    intro c hc
    unfold fractionPart at hc
    split at hc
    · exact (head_exponentPart h c hc).1
    · obtain rfl := Option.some.inj hc
      rfl
  obtain ⟨hdigits, hrest⟩ := span_digits (isDigit_of_mem_digitChars hn.whole) hhead
  have hvalues := map_digitValue hn.whole
  have hlead := hn.lead
  rw [readNumber, hdigits, hrest]
  cases hwhole : n.whole with
  | nil => exact absurd hwhole hn.begun
  | cons w ws =>
    rw [hwhole] at hvalues hlead
    have hzero : ¬ (Nat.digitChar w = '0' ∧ Numeral.digitChars ws ≠ []) := by
      rintro ⟨hw, hws⟩
      rw [Nat.digitChar_eq_zero] at hw
      subst hw
      rw [hlead ws rfl] at hws
      exact hws rfl
    show (if Nat.digitChar w = '0' ∧ Numeral.digitChars ws ≠ [] then _
      else readFraction _ _) = _
    rw [if_neg hzero]
    have hn' : ({ negative := n.negative
                  whole := (Numeral.digitChars (w :: ws)).map digitValue } : Numeral) =
        { n with fraction := [], exponent := none } := by
      rw [hvalues, ← hwhole]
    have hread := readFraction_fractionPart n hn.fraction h
    rw [← hn'] at hread
    exact hread

/-- The parts of what is written of a number. -/
theorem chars_numeral (n : Numeral) (rest : List Char) :
    n.chars ++ rest = (if n.negative then ['-'] else []) ++ (Numeral.digitChars n.whole ++
      (fractionPart n.fraction ++ (exponentPart n.exponent ++ rest))) := by
  simp only [Numeral.chars, fractionPart, List.append_assoc]
  cases n.exponent <;> rfl

theorem digits_of_lt {n : Nat} (h : n < 10) : Numeral.digits n = [n] := by
  rw [Numeral.digits, Nat.toDigits_of_lt_base h, List.map_singleton, digitValue_digitChar h]

theorem digits_of_le {n : Nat} (h : 10 ≤ n) :
    Numeral.digits n = Numeral.digits (n / 10) ++ [n % 10] := by
  have hlast : n % 10 < 10 := Nat.mod_lt n (by decide)
  rw [Numeral.digits, Nat.toDigits_of_base_le (by decide) h, List.map_append, List.map_singleton,
    digitValue_digitChar hlast]
  rfl

theorem digits_ne_nil (n : Nat) : Numeral.digits n ≠ [] := by
  simp [Numeral.digits, Nat.toDigits_ne_nil]

theorem lt_of_mem_digits {n d : Nat} (h : d ∈ Numeral.digits n) : d < 10 := by
  induction n using Nat.strongRecOn with
  | ind n ih =>
    by_cases hn : n < 10
    · rw [digits_of_lt hn, List.mem_singleton] at h
      omega
    · rw [digits_of_le (Nat.le_of_not_lt hn), List.mem_append, List.mem_singleton] at h
      rcases h with h | h
      · exact ih (n / 10) (by omega) h
      · omega

/-- Only zero begins with a zero. -/
theorem digits_eq_zero_cons {n : Nat} {rest : List Nat} (h : Numeral.digits n = 0 :: rest) :
    n = 0 ∧ rest = [] := by
  induction n using Nat.strongRecOn generalizing rest with
  | ind n ih =>
    by_cases hn : n < 10
    · rw [digits_of_lt hn] at h
      simpa [eq_comm] using h
    · have hle := Nat.le_of_not_lt hn
      rw [digits_of_le hle] at h
      rcases List.append_eq_cons_iff.1 h with ⟨hnil, -⟩ | ⟨more, hmore, -⟩
      · exact absurd hnil (digits_ne_nil _)
      · obtain ⟨hzero, -⟩ := ih (n / 10) (by omega) hmore
        omega

theorem wellWritten_ofNat (n : Nat) : WellWritten (.ofNat n) where
  begun := digits_ne_nil n
  whole _ := lt_of_mem_digits
  fraction := nofun
  lead _ h := (digits_eq_zero_cons h).2

theorem figure?_ofNat {n : Nat} (h : n < twoTo 64) : figure? (.ofNat n) = some (.natural n) := by
  have hvalue : ofDigits 10 (Numeral.digits n) = n := ofDigits_toDigits n
  simp [figure?, Numeral.ofNat, hvalue, h]

/-- A whole number in range is read as it is. -/
theorem readUnsigned_natural {bits n : Nat} (h : n < twoTo bits) (hword : n < twoTo 64) :
    readUnsigned bits (natural n) = .ok n := by
  simp [readUnsigned, natural, readWhole, figure?_ofNat hword, h, Except.map]

theorem readUInt64_natural (n : UInt64) : readUInt64 (natural n.toNat) = .ok n := by
  have hn : n.toNat < twoTo 64 := n.toNat_lt
  simp [readUInt64, readUnsigned_natural hn hn, Except.map]

theorem readUInt32_natural (n : UInt32) : readUInt32 (natural n.toNat) = .ok n := by
  have hn : n.toNat < twoTo 32 := n.toNat_lt
  have hword : twoTo 32 < twoTo 64 := by decide
  simp [readUInt32, readUnsigned_natural hn (hn.trans hword), Except.map]

theorem readUInt16_natural (n : UInt16) : readUInt16 (natural n.toNat) = .ok n := by
  have hn : n.toNat < twoTo 16 := n.toNat_lt
  have hword : twoTo 16 < twoTo 64 := by decide
  simp [readUInt16, readUnsigned_natural hn (hn.trans hword), Except.map]

theorem wellWritten_ofInt (n : Int) : WellWritten (.ofInt n) where
  begun := digits_ne_nil n.natAbs
  whole _ := lt_of_mem_digits
  fraction := nofun
  lead _ h := (digits_eq_zero_cons h).2

theorem figure?_ofInt_of_neg {n : Int} (hn : n < 0) (h : n.natAbs ≤ twoTo 63) :
    figure? (.ofInt n) = some (.negative n) := by
  have hvalue : ofDigits 10 (Numeral.digits n.natAbs) = n.natAbs := ofDigits_toDigits n.natAbs
  have hpos : 0 < n.natAbs := Int.natAbs_pos.2 (Int.ne_of_lt hn)
  have hsame : -(n.natAbs : Int) = n := by omega
  have hform : Numeral.ofInt n = { negative := true, whole := Numeral.digits n.natAbs } := by
    simp [Numeral.ofInt, hn]
  rw [hform]
  generalize n.natAbs = m at *
  simp [figure?, hvalue, hpos, h, hsame]

theorem isSigned_toInt (n : Int32) : isSigned 32 n.toInt = true := by
  have hlow := n.le_toInt
  have hhigh := n.toInt_lt
  have hpower : twoTo (32 - 1) = 2147483648 := by decide
  simp only [isSigned, hpower, decide_eq_true_eq]
  omega

theorem readInt32_integer (n : Int32) : readInt32 (integer n.toInt) = .ok n := by
  have hlow := n.le_toInt
  have hhigh := n.toInt_lt
  have hfits := isSigned_toInt n
  have hwhole : readWhole (isSigned 32) (integer n.toInt) = .ok n.toInt := by
    rcases Int.lt_or_le n.toInt 0 with hneg | hnonneg
    · have hle : n.toInt.natAbs ≤ twoTo 63 := by
        have hpower : twoTo 63 = 9223372036854775808 := by decide
        omega
      simp only [integer, readWhole, figure?_ofInt_of_neg hneg hle, hfits, if_true]
    · obtain ⟨m, hm⟩ := Int.eq_ofNat_of_zero_le hnonneg
      have hlt : m < twoTo 64 := by
        have hpower : twoTo 64 = 18446744073709551616 := by decide
        omega
      have hsame : Numeral.ofInt m = .ofNat m := by
        simp [Numeral.ofInt, Numeral.ofNat]
      rw [hm] at hfits ⊢
      simp only [integer, readWhole, hsame, figure?_ofNat hlt, hfits, if_true]
  rw [readInt32, hwhole]
  exact congrArg Except.ok (Int32.ofInt_toInt n)

end PlayerWatch.Json
