import PlayerWatch.Json.Numbers
import PlayerWatch.Proofs.Number.Rounding

/-!
# Arithmetic with doubles

A product, a quotient, a word as a double and a power of ten as a double are each the double nearest to
the exact value (`RoundsTo`), as long as that is in range.
-/

namespace PlayerWatch.Number

open Float.Model Float.Model.UnpackedFloat Json

/-- The number that a finite double without a sign stands for. -/
def value (x : Float) : ℚ := (magnitude x).value

/-- A finite double above zero. -/
structure Positive (x : Float) : Prop where
  finite : isFinite x = true
  sign : sign x = .positive
  pos : 0 < (magnitude x).significand

/-- A double is the one nearest to a number that is not negative. -/
structure RoundsTo (x : Float) (v : ℚ) : Prop where
  finite : isFinite x = true
  sign : sign x = .positive
  nearest : (magnitude x).Nearest v

/-- Numbers from here on are too large for doubles. -/
def limit : ℚ := (2 ^ 53 - 1 / 2) * 2 ^ (971 : Int)

variable {x y : Float} {v : ℚ}

theorem Positive.unpack (hx : Positive x) : x.toModel.unpack =
    .finite .positive (magnitude x).significand (magnitude x).power hx.pos := by
  rw [unpack_of_isFinite hx.finite, Dyadic.unpacked, dif_neg hx.pos.ne', hx.sign]

theorem Positive.value_pos (hx : Positive x) : 0 < value x := by
  have hpos : (0 : ℚ) < (magnitude x).significand := by exact_mod_cast hx.pos
  exact mul_pos hpos (place_pos _)

theorem RoundsTo.error (hx : RoundsTo x v) :
    |value x - v| ≤ v / 2 ^ 53 ∨ |value x - v| ≤ 2 ^ (-1075 : Int) := hx.nearest.error

theorem RoundsTo.positive (hx : RoundsTo x v) (hv : 2 ^ (-1075 : Int) < v) : Positive x := by
  refine ⟨hx.finite, hx.sign, ?_⟩
  have hpos : 0 < value x := by
    have hv0 := (place_pos (-1075)).trans hv
    rcases hx.error with herror | herror
    · have hlow := (abs_le.1 herror).1
      linarith
    · have hlow := (abs_le.1 herror).1
      linarith
  by_contra hzero
  have hnone : (magnitude x).significand = 0 := by omega
  rw [value, Dyadic.value, hnone, Nat.cast_zero, zero_mul] at hpos
  exact lt_irrefl 0 hpos

theorem roundsTo_packed {d : Dyadic} (hd : d.Nearest v) (hv : v < limit) :
    RoundsTo (packed (d.unpacked .positive)) v := by
  obtain ⟨hfinite, hmagnitude, hsign⟩ := magnitude_packed (hd.fits hv) .positive
  exact ⟨hfinite, hsign, by rwa [hmagnitude]⟩

theorem roundsTo_of_round {m : Nat} {e : Int} {a : Accuracy} (h : Residue (v / 2 ^ e - m) a)
    (hm : 2 ^ 52 ≤ m ∨ e ≤ -1074) (hv : v < limit) :
    RoundsTo (packed (roundWithAccuracy Format.binary64 .positive m e a)) v := by
  obtain ⟨d, hd, hround⟩ := roundWithAccuracy_nearest h hm .positive
  rw [hround]
  exact roundsTo_packed hd hv

/-- Nothing is cut off. -/
theorem residue_exact (m : Nat) (e : Int) : Residue ((m : ℚ) * 2 ^ e / 2 ^ e - m) .exact := by
  rw [mul_div_cancel_right₀ _ (place_pos e).ne']
  exact sub_self _

/-- A product is rounded to the nearest double. -/
theorem Positive.mul (hx : Positive x) (hy : Positive y) (hv : value x * value y < limit) :
    RoundsTo (x * y) (value x * value y) := by
  have hproduct : x * y = packed (roundWithAccuracy Format.binary64 .positive
      ((magnitude x).significand * (magnitude y).significand)
      ((magnitude x).power + (magnitude y).power) .exact) := by
    show packed (UnpackedFloat.mul Format.binary64 x.toModel.unpack y.toModel.unpack) = _
    rw [hx.unpack, hy.unpack]
    rfl
  have hvalue : value x * value y =
      ((magnitude x).significand * (magnitude y).significand : Nat) *
        2 ^ ((magnitude x).power + (magnitude y).power) := by
    rw [value, value, Dyadic.value, Dyadic.value, zpow_add₀ (by norm_num)]
    push_cast
    ring
  rw [hproduct]
  refine roundsTo_of_round ?_ ?_ hv
  · rw [hvalue]
    exact residue_exact _ _
  · rcases (fits_magnitude hx.finite).normal with hx' | hx'
    · exact .inl (Nat.le_trans hx' (Nat.le_mul_of_pos_right _ hy.pos))
    rcases (fits_magnitude hy.finite).normal with hy' | hy'
    · exact .inl (Nat.le_trans hy' (Nat.le_mul_of_pos_left _ hx.pos))
    · right
      omega

/-- What is left of a division, in parts of the divisor. -/
theorem residue_fraction {r n : Nat} (hr : r < n) : Residue ((r : ℚ) / n) (accuracyOfFraction r n) := by
  have hn : (0 : ℚ) < n := by exact_mod_cast Nat.zero_lt_of_lt hr
  have hr' : (r : ℚ) < n := by exact_mod_cast hr
  rw [accuracyOfFraction]
  split
  · next hzero =>
    rw [hzero, Nat.cast_zero, zero_div]
    rfl
  · next hsome =>
    have hpos : (0 : ℚ) < r := by exact_mod_cast Nat.pos_of_ne_zero hsome
    rcases hcompare : compare (2 * r) n with _ | _ | _
    · have hlt : (2 : ℚ) * r < n := by exact_mod_cast Nat.compare_eq_lt.1 hcompare
      refine ⟨div_pos hpos hn, ?_⟩
      rw [div_lt_iff₀ hn]
      linarith
    · have heq : (2 : ℚ) * r = n := by exact_mod_cast Nat.compare_eq_eq.1 hcompare
      show (r : ℚ) / n = 1 / 2
      rw [div_eq_iff hn.ne']
      linarith
    · have hgt : (n : ℚ) < 2 * r := by exact_mod_cast Nat.compare_eq_gt.1 hcompare
      refine ⟨?_, (div_lt_one hn).2 hr'⟩
      rw [lt_div_iff₀ hn]
      linarith

theorem shiftLeft_value (m k : Nat) (e : Int) :
    ((m <<< k : Nat) : ℚ) * 2 ^ (e - k) = m * 2 ^ e := by
  rw [Nat.shiftLeft_eq, zpow_sub₀ (by norm_num), zpow_natCast]
  push_cast
  field_simp

/-- A dividend is shifted so far that the quotient has all digits of a double. -/
theorem divCore_spec {m₁ m₂ : Nat} (h₁ : 0 < m₁) (h₂ : 0 < m₂) (e₁ e₂ : Int) :
    ∃ m e a, divCore Format.binary64 m₁ e₁ m₂ e₂ = (m, e, a) ∧
      Residue ((m₁ : ℚ) * 2 ^ e₁ / (m₂ * 2 ^ e₂) / 2 ^ e - m) a ∧ (2 ^ 52 ≤ m ∨ e ≤ -1074) := by
  refine ⟨_, _, _, rfl, ?_, ?_⟩
  all_goals
    rw [targetExponent_binary64, totalExponent, totalExponent]
    generalize hk : (e₁ - e₂ - min (e₁ - e₂)
      (max (↑m₁.log2 + 1 + e₁ - (↑m₂.log2 + 1 + e₂) - 53) (-1074))).toNat = k
  · have he : min (e₁ - e₂) (max (↑m₁.log2 + 1 + e₁ - (↑m₂.log2 + 1 + e₂) - 53) (-1074)) =
        e₁ - e₂ - k := by omega
    have hquotient : (m₁ : ℚ) * 2 ^ e₁ / (m₂ * 2 ^ e₂) / 2 ^ (e₁ - e₂ - k) =
        (m₁ <<< k : Nat) / m₂ := by
      rw [zpow_sub₀ (by norm_num), zpow_sub₀ (by norm_num), Nat.shiftLeft_eq, zpow_natCast]
      push_cast
      field_simp
    have hsplit : ((m₁ <<< k : Nat) : ℚ) = (m₁ <<< k / m₂ : Nat) * m₂ + (m₁ <<< k % m₂ : Nat) := by
      exact_mod_cast (Nat.div_add_mod' (m₁ <<< k) m₂).symm
    have hm₂ : (m₂ : ℚ) ≠ 0 := by exact_mod_cast h₂.ne'
    have hrest : ((m₁ <<< k : Nat) : ℚ) / m₂ - (m₁ <<< k / m₂ : Nat) = (m₁ <<< k % m₂ : Nat) / m₂ := by
      rw [hsplit, add_div, mul_div_cancel_right₀ _ hm₂, add_sub_cancel_left]
    rw [he, hquotient, hrest]
    exact residue_fraction (Nat.mod_lt _ h₂)
  · by_cases hleast : min (e₁ - e₂) (max (↑m₁.log2 + 1 + e₁ - (↑m₂.log2 + 1 + e₂) - 53) (-1074)) ≤
        -1074
    · exact .inr hleast
    left
    have hshift : m₂.log2 + 53 ≤ m₁.log2 + k := by omega
    rw [Nat.le_div_iff_mul_le h₂, Nat.shiftLeft_eq]
    calc 2 ^ 52 * m₂ ≤ 2 ^ 52 * 2 ^ (m₂.log2 + 1) := Nat.mul_le_mul_left _ Nat.lt_log2_self.le
      _ = 2 ^ (m₂.log2 + 53) := by rw [← pow_add]; congr 1; omega
      _ ≤ 2 ^ (m₁.log2 + k) := Nat.pow_le_pow_right (by decide) hshift
      _ = 2 ^ m₁.log2 * 2 ^ k := pow_add ..
      _ ≤ m₁ * 2 ^ k := Nat.mul_le_mul_right _ (Nat.log2_self_le h₁.ne')

/-- A quotient is rounded to the nearest double. -/
theorem Positive.div (hx : Positive x) (hy : Positive y) (hv : value x / value y < limit) :
    RoundsTo (x / y) (value x / value y) := by
  obtain ⟨m, e, a, hcore, hresidue, hm⟩ :=
    divCore_spec hx.pos hy.pos (magnitude x).power (magnitude y).power
  have hquotient : x / y = packed (roundWithAccuracy Format.binary64 .positive m e a) := by
    show packed (UnpackedFloat.div Format.binary64 x.toModel.unpack y.toModel.unpack) = _
    rw [hx.unpack, hy.unpack, UnpackedFloat.div, hcore]
    rfl
  rw [hquotient]
  exact roundsTo_of_round hresidue hm hv

/-- The opposite of a finite double has its magnitude. -/
theorem neg_spec (hx : isFinite x = true) :
    isFinite (-x) = true ∧ magnitude (-x) = magnitude x ∧ sign (-x) = -sign x := by
  have hneg : -x = packed ((magnitude x).unpacked (-sign x)) := by
    show packed (UnpackedFloat.neg x.toModel.unpack) = _
    rw [unpack_of_isFinite hx, Dyadic.unpacked, Dyadic.unpacked]
    split <;> rfl
  rw [hneg]
  exact magnitude_packed (fits_magnitude hx) (-sign x)

theorem Positive.beq_zero (hx : Positive x) : (x == 0) = false := by
  have hzero : (0 : Float).toModel.unpack = .zero .positive := by
    have hfinite : isFinite 0 = true := by decide +kernel
    have hmagnitude : magnitude 0 = ⟨0, -1074⟩ := by decide +kernel
    have hsign : signBit 0 = false := by decide +kernel
    rw [unpack_of_isFinite hfinite, hmagnitude, Number.sign, hsign]
    rfl
  show UnpackedFloat.beq x.toModel.unpack (0 : Float).toModel.unpack = false
  rw [hx.unpack, hzero]
  rfl

/-! ### Words and powers of ten -/

/-- A word is rounded to the nearest double. -/
theorem toFloat_roundsTo {n : UInt64} (hn : n ≠ 0) : RoundsTo n.toFloat n.toNat := by
  have hpos : 0 < n.toNat := Nat.pos_of_ne_zero fun h => hn (UInt64.toNat_inj.1 h)
  have hlt : n.toNat < 2 ^ 64 := n.toNat_lt
  generalize hm : n.toNat = m at hpos hlt
  have hcompare : compare (m : Int) 0 = .gt := Int.compare_eq_gt.2 (by omega)
  have htarget := targetExponent_eq m 0
  have hword : n.toFloat = packed (roundWithAccuracy Format.binary64 .positive
      (m <<< (52 - m.log2)) (0 - (52 - m.log2 : Nat)) .exact) := by
    show packed (UnpackedFloat.normalize Format.binary64 (n.toNat : Int) 0 .positive) = _
    rw [hm, UnpackedFloat.normalize, hcompare]
    show packed (UnpackedFloat.round Format.binary64 .positive (m : Int).toNat 0) = _
    rw [Int.toNat_natCast, UnpackedFloat.round, htarget, decreaseExponent]
    have hshift : (0 - max ((m.log2 : Int) + 0 - 52) (-1074)).toNat = 52 - m.log2 := by omega
    rw [hshift]
  have hvalue : (m : ℚ) =
      ((m <<< (52 - m.log2) : Nat) : ℚ) * 2 ^ ((0 : Int) - (52 - m.log2 : Nat)) := by
    rw [shiftLeft_value, zpow_zero, mul_one]
  have hsmall : (m : ℚ) < limit := by
    have hm' : (m : ℚ) < 2 ^ 64 := by exact_mod_cast hlt
    have hpower : (2 : ℚ) ^ (12 : Int) ≤ 2 ^ (971 : Int) := place_le (by omega)
    rw [limit]
    generalize (2 : ℚ) ^ (971 : Int) = p at hpower
    norm_num at hpower
    linarith
  rw [hword]
  refine roundsTo_of_round ?_ ?_ hsmall
  · rw [hvalue]
    exact residue_exact _ _
  · left
    rw [Nat.shiftLeft_eq]
    calc 2 ^ 52 ≤ 2 ^ (m.log2 + (52 - m.log2)) := Nat.pow_le_pow_right (by decide) (by omega)
      _ = 2 ^ m.log2 * 2 ^ (52 - m.log2) := pow_add ..
      _ ≤ m * 2 ^ (52 - m.log2) := Nat.mul_le_mul_right _ (Nat.log2_self_le hpos.ne')

theorem small_powers : ∀ n < 23, isFinite (powerOfTen n) = true ∧ signBit (powerOfTen n) = false ∧
    (magnitude (powerOfTen n)).significand * 2 ^ (magnitude (powerOfTen n)).power.toNat =
      10 ^ n * 2 ^ (-(magnitude (powerOfTen n)).power).toNat := by
  decide +kernel

/-- The least powers of ten are doubles. -/
theorem value_powerOfTen {n : Nat} (hn : n < 23) : value (powerOfTen n) = 10 ^ n := by
  obtain ⟨-, -, hpower⟩ := small_powers n hn
  rw [value, Dyadic.value]
  generalize (magnitude (powerOfTen n)).significand = m at hpower
  generalize (magnitude (powerOfTen n)).power = e at hpower
  have he : e = (e.toNat : Int) - ((-e).toNat : Int) := by omega
  have hpower' : (m : ℚ) * 2 ^ e.toNat = 10 ^ n * 2 ^ (-e).toNat := by exact_mod_cast hpower
  rw [he, zpow_sub₀ (by norm_num), zpow_natCast, zpow_natCast, ← mul_div_assoc,
    div_eq_iff (by positivity)]
  exact hpower'

theorem ten_pow_lt_limit {n : Nat} (hn : n ≤ 308) : (10 : ℚ) ^ n < limit := by
  have hlarge : (10 : ℚ) ^ n ≤ 10 ^ 308 := pow_le_pow_right₀ (by norm_num) hn
  have hnat : 10 ^ 308 < (2 ^ 53 - 1) * 2 ^ 971 := by decide +kernel
  have hcast : ((10 ^ 308 : Nat) : ℚ) < ((2 ^ 53 - 1) * 2 ^ 971 : Nat) := Nat.cast_lt.2 hnat
  have hpower : (2 : ℚ) ^ (971 : Int) = ((2 ^ 971 : Nat) : ℚ) := by
    rw [Nat.cast_pow]
    exact zpow_natCast 2 971
  have hpos := place_pos 971
  rw [limit]
  rw [Nat.cast_mul, ← hpower, Nat.cast_pow] at hcast
  generalize (2 : ℚ) ^ (971 : Int) = p at hcast hpos
  norm_num at hcast
  have hlt := hlarge.trans_lt hcast
  linarith only [hlt, hpos]

/-- A power of ten is rounded to the nearest double. -/
theorem powerOfTen_roundsTo {n : Nat} (hn : n ≤ 308) : RoundsTo (powerOfTen n) (10 ^ n) := by
  rcases Nat.lt_or_ge n 23 with hsmall | hlarge
  · obtain ⟨hfinite, hsign, -⟩ := small_powers n hsmall
    refine ⟨hfinite, by rw [sign, hsign]; rfl, ?_⟩
    rw [← value_powerOfTen hsmall]
    exact (fits_magnitude hfinite).nearest
  have hslow : powerOfTen n = packed (UnpackedFloat.ofScientific Format.binary64 1 n) := by
    have hfast : ¬ (1 < 2 ^ 53 ∧ n ≤ 22) := by omega
    rw [powerOfTen, Float.ofScientific, dif_neg hfast]
    rfl
  have hround : UnpackedFloat.ofScientific Format.binary64 1 n =
      roundWithAccuracy Format.binary64 .positive (1 <<< 53 * 10 ^ n) (-53) .exact := by
    have hover : ¬ (n : Int) > 2 ^ Format.binary64.exponentBits := by
      show ¬ (n : Int) > 2 ^ 11
      omega
    have hunder : ¬ (n : Int) < -((2 ^ Format.binary64.exponentBits : Int) + (1 : Nat).log2) := by
      show ¬ (n : Int) < -((2 ^ 11 : Int) + (1 : Nat).log2)
      omega
    rw [UnpackedFloat.ofScientific, dif_neg (by decide), if_neg hover, if_neg hunder,
      if_pos (by omega)]
    rfl
  have hvalue : (10 : ℚ) ^ n = ((1 <<< 53 * 10 ^ n : Nat) : ℚ) * 2 ^ (-53 : Int) := by
    rw [Nat.shiftLeft_eq]
    push_cast
    rw [zpow_neg]
    field_simp
    norm_num
  rw [hslow, hround]
  refine roundsTo_of_round ?_ ?_ (ten_pow_lt_limit hn)
  · rw [hvalue]
    exact residue_exact _ _
  · left
    have hpos : 0 < 10 ^ n := Nat.pow_pos (by decide)
    calc 2 ^ 52 ≤ 1 <<< 53 := by decide
      _ ≤ 1 <<< 53 * 10 ^ n := Nat.le_mul_of_pos_right _ hpos

end PlayerWatch.Number
