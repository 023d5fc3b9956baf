import PlayerWatch.Proofs.Number.Nearness

/-!
# A significand times a power of ten

A real number of JSON is computed from its significand and its power of ten by one product, one quotient or
two quotients, of which each is rounded. The result is the double nearest to a number that is apart from the
exact one by no more than six roundings (`scaled?_approximates`), and it is the nearest double if the
significand and the power of ten are doubles themselves (`scaled?_roundsTo`).
-/

namespace PlayerWatch.Json

open Number

/-- A double is the nearest to some number that is apart from a given one by no more than six roundings. -/
def Approximates (y : Float) (w : ℚ) : Prop := ∃ r, RoundsTo y r ∧ Near 6 r w

variable {significand n : Nat} {exponent : Int} {x : Float} {v w : ℚ}

theorem half_least_lt_one : (2 : ℚ) ^ (-1075 : Int) < 1 := zpow_lt_one_of_neg₀ (by norm_num) (by decide)

theorem least_normal_le_one : (2 : ℚ) ^ (-1022 : Int) ≤ 1 :=
  (zpow_lt_one_of_neg₀ (by norm_num) (by decide)).le

theorem limit_pos : 0 < limit := mul_pos (by norm_num) (place_pos 971)

theorem near_lt_limit (h : Near n v w) (hw : w < limit * kept ^ n) : v < limit := by
  by_contra hlarge
  have hle := mul_le_mul_of_nonneg_right (le_of_not_gt hlarge) (kept_pow_pos n).le
  exact absurd (hle.trans h.high) (not_le.2 hw)

theorem significand_roundsTo (hpos : 0 < significand) (hlt : significand < 2 ^ 64) :
    RoundsTo (UInt64.ofNat significand).toFloat significand := by
  have hword : (UInt64.ofNat significand).toNat = significand := UInt64.toNat_ofNat_of_lt' hlt
  have hne : UInt64.ofNat significand ≠ 0 := by
    intro hzero
    rw [hzero] at hword
    exact hpos.ne hword
  have hround := toFloat_roundsTo hne
  rwa [hword] at hround

/-- A significand of 53 bits is a double. -/
theorem value_significand (hpos : 0 < significand) (hlt : significand < 2 ^ 53) :
    value (UInt64.ofNat significand).toFloat = significand := by
  have hword : significand < 2 ^ 64 := by omega
  have hwhole : (significand : ℚ) = significand * 2 ^ (0 : Int) := by simp
  exact (significand_roundsTo hpos hword).nearest.value_eq hlt (by decide) hwhole

/-- A number that is one at least keeps it when it is rounded. -/
theorem near_of_one_le (hx : RoundsTo x v) (hv : 1 ≤ v) : Positive x ∧ Near 1 (value x) v :=
  ⟨hx.positive (half_least_lt_one.trans_le hv), hx.near (least_normal_le_one.trans hv)⟩

theorem significand_near (hpos : 0 < significand) (hlt : significand < 2 ^ 64) :
    Positive (UInt64.ofNat significand).toFloat ∧
      Near 1 (value (UInt64.ofNat significand).toFloat) significand :=
  near_of_one_le (significand_roundsTo hpos hlt) (by exact_mod_cast hpos)

theorem powerOfTen_near (hn : n ≤ 308) :
    Positive (powerOfTen n) ∧ Near 1 (value (powerOfTen n)) (10 ^ n) :=
  near_of_one_le (powerOfTen_roundsTo hn) (one_le_pow₀ (by norm_num))

theorem scaleDown_of_le (hn : n ≤ 308) : scaleDown x n = x / powerOfTen n := by
  rw [scaleDown, if_pos hn]

theorem scaleDown_of_lt (hx : Positive x) (hn : 308 < n) :
    scaleDown x n = scaleDown (x / powerOfTen 308) (n - 308) := by
  rw [scaleDown, if_neg (by omega), hx.beq_zero]
  rfl

theorem scaled?_of_neg (hn : 0 < n) :
    scaled? significand (-n) = some (scaleDown (UInt64.ofNat significand).toFloat n) := by
  have hneg : -(n : Int) < 0 := by omega
  rw [scaled?, if_pos hneg, Int.natAbs_neg, Int.natAbs_natCast]

theorem scaled?_of_nonneg (hn : n ≤ 308)
    (hfinite : isFinite ((UInt64.ofNat significand).toFloat * powerOfTen n) = true) :
    scaled? significand n = some ((UInt64.ofNat significand).toFloat * powerOfTen n) := by
  have hnonneg : ¬ (n : Int) < 0 := by omega
  have hle : (n : Int) ≤ 308 := by omega
  rw [scaled?, if_neg hnonneg, if_pos hle, Int.natAbs_natCast]
  exact if_pos hfinite

/-! ### The three ways -/

/-- One product. -/
theorem scaled?_product (hpos : 0 < significand) (hlt : significand < 2 ^ 64) (hn : n ≤ 308)
    (hw : (significand : ℚ) * 10 ^ n ≤ (2 ^ 53 - 5 / 2) * 2 ^ (971 : Int)) :
    ∃ y, scaled? significand n = some y ∧ Approximates y (significand * 10 ^ n) := by
  obtain ⟨hx, hxnear⟩ := significand_near hpos hlt
  obtain ⟨hp, hpnear⟩ := powerOfTen_near hn
  have hnear := hxnear.mul hpnear hx.value_pos.le (by positivity) hp.value_pos.le (by positivity)
  have hlimit : (2 ^ 53 - 5 / 2) * 2 ^ (971 : Int) < limit * kept ^ 2 := by
    have hpower := place_pos 971
    rw [limit]
    generalize (2 : ℚ) ^ (971 : Int) = p at hpower ⊢
    norm_num [kept]
    linarith
  have hround := hx.mul hp (near_lt_limit hnear (hw.trans_lt hlimit))
  refine ⟨_, scaled?_of_nonneg hn hround.finite, _, hround, ?_⟩
  exact hnear.mono (mul_pos hx.value_pos hp.value_pos).le (by positivity) (by decide)

/-- Far below the limit, six roundings do not matter. -/
theorem lt_limit_kept (hv : v ≤ 2 ^ 128) : v < limit * kept ^ 6 := by
  have hpower : (2 : ℚ) ^ (80 : Int) ≤ 2 ^ (971 : Int) := place_le (by decide)
  rw [limit]
  generalize (2 : ℚ) ^ (971 : Int) = p at hpower ⊢
  norm_num [kept] at hpower ⊢
  linarith

theorem quotient_lt (hlt : significand < 2 ^ 64) (n : Nat) :
    (significand : ℚ) / 10 ^ n < limit * kept ^ 6 := by
  have hcast : (significand : ℚ) < 2 ^ 64 := by exact_mod_cast hlt
  have hword : (significand : ℚ) ≤ 2 ^ 128 := by linarith
  exact lt_limit_kept ((div_le_self (by positivity) (one_le_pow₀ (by norm_num))).trans hword)

/-- One quotient. -/
theorem scaled?_quotient (hpos : 0 < significand) (hlt : significand < 2 ^ 64) (hn : 0 < n)
    (hle : n ≤ 308) :
    ∃ y, scaled? significand (-n) = some y ∧ Approximates y (significand / 10 ^ n) := by
  obtain ⟨hx, hxnear⟩ := significand_near hpos hlt
  obtain ⟨hp, hpnear⟩ := powerOfTen_near hle
  have hnear := (hxnear.div hpnear hx.value_pos.le (by positivity) hp.value_pos (by positivity)).mono
    (div_pos hx.value_pos hp.value_pos).le (by positivity) (show 1 + 1 ≤ 6 by decide)
  have hround := hx.div hp (near_lt_limit hnear (quotient_lt hlt n))
  refine ⟨_, scaled?_of_neg hn, _, ?_, hnear⟩
  rw [scaleDown_of_le hle]
  exact hround

/-- Two quotients. -/
theorem scaled?_quotients (hpos : 0 < significand) (hlt : significand < 2 ^ 64) (hn : 308 < n)
    (hle : n ≤ 616) :
    ∃ y, scaled? significand (-n) = some y ∧ Approximates y (significand / 10 ^ n) := by
  obtain ⟨hx, hxnear⟩ := significand_near hpos hlt
  obtain ⟨hp, hpnear⟩ := powerOfTen_near (Nat.le_refl 308)
  obtain ⟨hq, hqnear⟩ := powerOfTen_near (show n - 308 ≤ 308 by omega)
  have hfirst := hxnear.div hpnear hx.value_pos.le (by positivity) hp.value_pos (by positivity)
  have hfirst' := hfirst.mono (div_pos hx.value_pos hp.value_pos).le (by positivity)
    (show 1 + 1 ≤ 6 by decide)
  have hround := hx.div hp (near_lt_limit hfirst' (quotient_lt hlt 308))
  have hlarge : 9 / 10 / 10 ^ 308 ≤
      value (UInt64.ofNat significand).toFloat / value (powerOfTen 308) := by
    have hone : (1 : ℚ) ≤ significand := by exact_mod_cast hpos
    have hkept : 9 / 10 ≤ (significand : ℚ) * kept ^ 2 := by
      norm_num [kept]
      linarith only [hone]
    have hlow := hfirst.low
    rw [div_mul_eq_mul_div] at hlow
    exact (div_le_div_of_nonneg_right hkept (by positivity)).trans hlow
  have hpositive : Positive ((UInt64.ofNat significand).toFloat / powerOfTen 308) := by
    have hless {c : ℚ} (hc : 0 < c) : c * (5 / 2) / 2 ^ 53 < c := by linarith
    exact hround.positive ((half_least_le.trans_lt (hless (by positivity))).trans_le hlarge)
  have hnear := ((hround.near_of_small hlarge).trans hfirst).div hqnear hpositive.value_pos.le
    (by positivity) hq.value_pos (by positivity)
  have hwhole : (significand : ℚ) / 10 ^ 308 / 10 ^ (n - 308) = significand / 10 ^ n := by
    rw [div_div, ← pow_add, Nat.add_sub_cancel' hn.le]
  rw [hwhole] at hnear
  have hround' := hpositive.div hq (near_lt_limit hnear (quotient_lt hlt n))
  refine ⟨_, scaled?_of_neg (by omega), _, ?_, hnear⟩
  rw [scaleDown_of_lt hx hn, scaleDown_of_le (by omega)]
  exact hround'

/-- **A significand times a power of ten is nearly what is computed for it**, if it is in range. -/
theorem scaled?_approximates (hpos : 0 < significand) (hlt : significand < 2 ^ 64)
    (hleast : -616 ≤ exponent) (hgreatest : exponent ≤ 308)
    (hw : (significand : ℚ) * 10 ^ exponent ≤ (2 ^ 53 - 5 / 2) * 2 ^ (971 : Int)) :
    ∃ y, scaled? significand exponent = some y ∧ Approximates y (significand * 10 ^ exponent) := by
  rcases lt_or_ge exponent 0 with hneg | hnonneg
  · obtain ⟨n, rfl⟩ : ∃ n : Nat, exponent = -n := ⟨exponent.natAbs, by omega⟩
    rw [zpow_neg, zpow_natCast, ← div_eq_mul_inv]
    rcases Nat.lt_or_ge 308 n with hfar | hnear
    · exact scaled?_quotients hpos hlt hfar (by omega)
    · exact scaled?_quotient hpos hlt (by omega) hnear
  · obtain ⟨n, rfl⟩ := Int.eq_ofNat_of_zero_le hnonneg
    rw [zpow_natCast] at hw ⊢
    exact scaled?_product hpos hlt (by omega) hw

/-- **A significand and a power of ten that are doubles are rounded only once.** -/
theorem scaled?_roundsTo (hpos : 0 < significand) (hlt : significand < 2 ^ 53)
    (hexponent : exponent.natAbs ≤ 22) :
    ∃ y, scaled? significand exponent = some y ∧ RoundsTo y (significand * 10 ^ exponent) := by
  have hword : significand < 2 ^ 64 := by omega
  obtain ⟨hx, -⟩ := significand_near hpos hword
  have hsignificand := value_significand hpos hlt
  have hkept : limit * kept ^ 6 ≤ limit := by
    have hone := kept_pow_le (Nat.zero_le 6)
    rw [pow_zero] at hone
    exact mul_le_of_le_one_right limit_pos.le hone
  rcases lt_or_ge exponent 0 with hneg | hnonneg
  · obtain ⟨n, rfl⟩ : ∃ n : Nat, exponent = -n := ⟨exponent.natAbs, by omega⟩
    have hn : n < 23 := by omega
    obtain ⟨hp, -⟩ := powerOfTen_near (show n ≤ 308 by omega)
    have hquotient : value (UInt64.ofNat significand).toFloat / value (powerOfTen n) =
        significand / 10 ^ n := by
      rw [hsignificand, value_powerOfTen hn]
    have hlimit := (quotient_lt hword n).trans_le hkept
    rw [← hquotient] at hlimit
    have hround := hx.div hp hlimit
    rw [hquotient] at hround
    refine ⟨_, scaled?_of_neg (by omega), ?_⟩
    rw [scaleDown_of_le (by omega), zpow_neg, zpow_natCast, ← div_eq_mul_inv]
    exact hround
  · obtain ⟨n, rfl⟩ := Int.eq_ofNat_of_zero_le hnonneg
    have hn : n < 23 := by omega
    obtain ⟨hp, -⟩ := powerOfTen_near (show n ≤ 308 by omega)
    have hproduct : value (UInt64.ofNat significand).toFloat * value (powerOfTen n) =
        significand * 10 ^ n := by
      rw [hsignificand, value_powerOfTen hn]
    have hsmall : (significand : ℚ) * 10 ^ n ≤ 2 ^ 128 := by
      have hnat : significand * 10 ^ n ≤ 2 ^ 53 * 10 ^ 22 :=
        Nat.mul_le_mul hlt.le (Nat.pow_le_pow_right (by decide) (by omega))
      have hnat' : significand * 10 ^ n ≤ 2 ^ 128 := hnat.trans (by decide)
      exact_mod_cast hnat'
    have hlimit := (lt_limit_kept hsmall).trans_le hkept
    rw [← hproduct] at hlimit
    have hround := hx.mul hp hlimit
    rw [hproduct] at hround
    refine ⟨_, scaled?_of_nonneg (by omega) hround.finite, ?_⟩
    rw [zpow_natCast]
    exact hround

end PlayerWatch.Json
