import PlayerWatch.Proofs.Number.Arithmetic

/-!
# Errors of several roundings

Each rounding keeps all of a number but one part in `2 ^ 53`. Products and quotients of numbers that are
apart by some roundings are apart by the sum of them (`Near.mul`, `Near.div`).
-/

namespace PlayerWatch.Number

/-- What a rounding keeps of a number at least. -/
def kept : ℚ := 1 - 1 / 2 ^ 53

/-- Two numbers are apart by no more than so many roundings. -/
structure Near (n : Nat) (v w : ℚ) : Prop where
  low : w * kept ^ n ≤ v
  high : v * kept ^ n ≤ w

variable {n m : Nat} {v w v' w' : ℚ} {x : Float}

theorem kept_pow_pos (n : Nat) : 0 < kept ^ n := by
  have hpos : 0 < kept := by norm_num [kept]
  exact pow_pos hpos n

theorem kept_pow_le (h : n ≤ m) : kept ^ m ≤ kept ^ n :=
  pow_le_pow_of_le_one (by norm_num [kept]) (by norm_num [kept]) h

theorem Near.refl (v : ℚ) : Near 0 v v := by
  constructor <;> rw [pow_zero, mul_one]

theorem Near.mono (h : Near n v w) (hv : 0 ≤ v) (hw : 0 ≤ w) (hm : n ≤ m) : Near m v w :=
  ⟨(mul_le_mul_of_nonneg_left (kept_pow_le hm) hw).trans h.low,
    (mul_le_mul_of_nonneg_left (kept_pow_le hm) hv).trans h.high⟩

theorem Near.mul (h : Near n v w) (h' : Near m v' w') (hv : 0 ≤ v) (hw : 0 ≤ w) (hv' : 0 ≤ v')
    (hw' : 0 ≤ w') : Near (n + m) (v * v') (w * w') := by
  constructor
  · calc w * w' * kept ^ (n + m) = w * kept ^ n * (w' * kept ^ m) := by rw [pow_add]; ring
      _ ≤ v * v' := mul_le_mul h.low h'.low (mul_nonneg hw' (kept_pow_pos m).le) hv
  · calc v * v' * kept ^ (n + m) = v * kept ^ n * (v' * kept ^ m) := by rw [pow_add]; ring
      _ ≤ w * w' := mul_le_mul h.high h'.high (mul_nonneg hv' (kept_pow_pos m).le) hw

theorem Near.inv (h : Near n v w) (hv : 0 < v) (hw : 0 < w) : Near n v⁻¹ w⁻¹ := by
  obtain ⟨hlow, hhigh⟩ := h
  constructor
  · rw [inv_mul_le_iff₀ hw, ← div_eq_mul_inv, le_div_iff₀ hv, mul_comm]
    exact hhigh
  · rw [inv_mul_le_iff₀ hv, ← div_eq_mul_inv, le_div_iff₀ hw, mul_comm]
    exact hlow

theorem Near.div (h : Near n v w) (h' : Near m v' w') (hv : 0 ≤ v) (hw : 0 ≤ w) (hv' : 0 < v')
    (hw' : 0 < w') : Near (n + m) (v / v') (w / w') := by
  rw [div_eq_mul_inv, div_eq_mul_inv]
  exact h.mul (h'.inv hv' hw') hv hw (inv_pos.2 hv').le (inv_pos.2 hw').le

theorem Near.trans (h : Near n v w) (h' : Near m w w') : Near (n + m) v w' := by
  constructor
  · calc w' * kept ^ (n + m) = w' * kept ^ m * kept ^ n := by rw [pow_add]; ring
      _ ≤ w * kept ^ n := mul_le_mul_of_nonneg_right h'.low (kept_pow_pos n).le
      _ ≤ v := h.low
  · calc v * kept ^ (n + m) = v * kept ^ n * kept ^ m := by rw [pow_add]; ring
      _ ≤ w * kept ^ m := mul_le_mul_of_nonneg_right h.high (kept_pow_pos m).le
      _ ≤ w' := h'.high

/-- A number of full precision is rounded once. -/
theorem RoundsTo.near (hx : RoundsTo x v) (hv : 2 ^ (-1022 : Int) ≤ v) : Near 1 (value x) v := by
  have herror : |value x - v| ≤ v / 2 ^ 53 := by
    rcases hx.error with herror | herror
    · exact herror
    · have hsplit : (2 : ℚ) ^ (-1022 : Int) = 2 ^ (-1075 : Int) * 2 ^ 53 := by
        rw [← zpow_natCast, ← zpow_add₀ (by norm_num)]
        rfl
      rw [le_div_iff₀ (by norm_num)]
      rw [hsplit] at hv
      exact (mul_le_mul_of_nonneg_right herror (by norm_num)).trans hv
  have hpos := (place_pos (-1022)).trans_le hv
  obtain ⟨hlow, hhigh⟩ := abs_le.1 herror
  rw [neg_le_sub_iff_le_add] at hlow
  generalize value x = r at hlow hhigh
  constructor <;> rw [pow_one, kept] <;> linarith only [hlow, hhigh, hpos]

/-- Half the least double, seen from the least of the numbers that are rounded so. -/
theorem half_least_le : (2 : ℚ) ^ (-1075 : Int) ≤ 9 / 10 / 10 ^ 308 * (5 / 2) / 2 ^ 53 := by
  have hpowers : 4 * 10 ^ 308 * 2 ^ 53 ≤ 9 * 2 ^ 1075 := by decide +kernel
  have hcast : ((4 * 10 ^ 308 * 2 ^ 53 : Nat) : ℚ) ≤ (9 * 2 ^ 1075 : Nat) := Nat.cast_le.2 hpowers
  simp only [Nat.cast_mul, Nat.cast_pow] at hcast
  have hten : (0 : ℚ) < 10 ^ 308 := by positivity
  have hpower : (2 : ℚ) ^ (-1075 : Int) = 1 / 2 ^ 1075 := by
    rw [zpow_neg, one_div, zpow_ofNat]
  have htwo : (0 : ℚ) < 2 ^ 1075 := by positivity
  rw [hpower]
  push_cast at hcast
  generalize (10 : ℚ) ^ 308 = p at hcast hten ⊢
  generalize (2 : ℚ) ^ 1075 = q at hcast htwo ⊢
  have hsimple : 9 / 10 / p * (5 / 2) / 2 ^ 53 = 9 / (4 * p * 2 ^ 53) := by
    field_simp
    norm_num
  rw [hsimple, div_le_div_iff₀ htwo (by positivity), one_mul]
  exact hcast

/-- Somewhat below full precision, a rounding counts for three. -/
theorem RoundsTo.near_of_small (hx : RoundsTo x v) (hv : 9 / 10 / 10 ^ 308 ≤ v) :
    Near 3 (value x) v := by
  have hpos : (0 : ℚ) < v := lt_of_lt_of_le (by positivity) hv
  have herror : |value x - v| ≤ v * (5 / 2) / 2 ^ 53 := by
    rcases hx.error with herror | herror
    · refine herror.trans (div_le_div_of_nonneg_right ?_ (by positivity))
      linarith only [hpos]
    · have hscaled : 9 / 10 / 10 ^ 308 * (5 / 2) / 2 ^ 53 ≤ v * (5 / 2) / 2 ^ 53 :=
        div_le_div_of_nonneg_right (mul_le_mul_of_nonneg_right hv (by norm_num)) (by positivity)
      exact herror.trans (half_least_le.trans hscaled)
  obtain ⟨hlow, hhigh⟩ := abs_le.1 herror
  rw [neg_le_sub_iff_le_add] at hlow
  generalize value x = r at hlow hhigh
  constructor <;> norm_num [kept] <;> linarith only [hlow, hhigh, hpos]

end PlayerWatch.Number
